import Opg3d.Native.Photon
import Opg3d.Scene.Runtime

namespace Opg3d

open Kit Native HookEngine

/-- Requests that leave the game's side alone. -/
def ApiCall.reads : ApiCall → Bool
  | .fieldSetValue _ _ _ => false
  | .fieldStaticSetValue _ _ => false
  | _ => true

/-- Operations that change neither the game's side nor the exports, slots
and patches, and that run no code of the game. -/
def NativeOp.keeps : NativeOp → Bool
  | .call _ request => request.reads
  | .original _ _ _ | .managed _ _ _ => false
  | .bindApi _ _ | .setSlot _ _ | .shadowhookHook _ _ _ | .shadowhookUnhook _ => false
  | .mark .installBegins | .mark .installEnds => false
  | _ => true

/-- Accepts the code that only performs such operations. -/
def keeper : Monitor nativeSignature Unit :=
  ⟨fun _ _ _ => True, fun _ op => op.keeps = true, fun _ _ _ => ()⟩

/-- The code keeps to such operations, whatever it is answered. -/
def Keeps {α : Type} (p : Native α) : Prop := p.wp keeper (fun _ _ => True) ()

namespace Keeps

variable {α β : Type}

theorem done (value : α) : Keeps (.done value : Native α) := trivial

theorem seq {p : Native α} {f : α → Native β} (first : Keeps p) (second : ∀ a, Keeps (f a)) :
    Keeps (p >>= f) :=
  first.bind fun _ a _ => second a

theorem ite {c : Prop} [Decidable c] {p q : Native α} (yes : c → Keeps p) (no : ¬c → Keeps q) :
    Keeps (if c then p else q) :=
  Prog.wp.ite yes no

theorem perform {op : NativeOp} (kept : op.keeps = true) : Keeps (Prog.ask op .done) :=
  ⟨kept, fun _ _ => trivial⟩

theorem api {request : ApiCall} (reads : request.reads = true) : Keeps (Native.api request) :=
  ⟨rfl, fun _ _ => ⟨reads, fun _ _ => trivial⟩⟩

theorem log (priority : Priority) (format : String) (args : List Arg) :
    Keeps (Native.log priority format args) :=
  ⟨rfl, fun _ _ => trivial⟩

theorem anyNull (fs : List Api) : Keeps (Native.anyNull fs) := by
  induction fs with
  | nil => exact done _
  | cons f rest ih => exact (perform rfl).seq fun fn => ite (fun _ => done _) fun _ => ih

theorem stringLengthOr (fallback : Int) (value : Ptr) : Keeps (Photon.stringLengthOr fallback value) :=
  (perform rfl).seq fun _ => ite (fun _ => done _) fun _ => api rfl

theorem toUtf8 (string : Ptr) (maxCodeUnits : Nat) : Keeps (Il2cpp.toUtf8 string maxCodeUnits) := by
  refine ite (fun _ => done _) fun _ => (anyNull _).seq fun unbound => ite (fun _ => done _) fun _ => ?_
  refine (api rfl).seq fun length => ite (fun _ => done _) fun _ => (api rfl).seq fun chars => ?_
  cases chars with
  | none => exact done _
  | some units => exact done _

theorem secretSummary (value : Ptr) : Keeps (Photon.secretSummary value) := by
  refine ite (fun _ => done _) fun _ => (toUtf8 value 256).seq fun text => ?_
  exact (stringLengthOr _ _).seq fun chars => done _

theorem readField (object : Ptr) (name : String) (size : Nat) : Keeps (readField object name size) := by
  refine ite (fun _ => done _) fun _ => (anyNull _).seq fun unbound => ite (fun _ => done _) fun _ => ?_
  refine (api rfl).seq fun klass => ite (fun _ => done _) fun _ => ?_
  refine (api rfl).seq fun field => ite (fun _ => done _) fun _ => ?_
  exact (api rfl).seq fun copied => done _

theorem readInt32 (object : Ptr) (name : String) : Keeps (readInt32 object name) :=
  (readField object name 4).seq fun _ => done _

theorem readRef (object : Ptr) (name : String) : Keeps (readRef object name) :=
  (readField object name 4).seq fun _ => done _

theorem readBool (object : Ptr) (name : String) : Keeps (readBool object name) :=
  (readField object name 1).seq fun _ => done _

theorem logSettings (point : String) (settings : Ptr) : Keeps (Photon.logSettings point settings) := by
  refine ite (fun _ => log _ _ _) fun _ => (readInt32 _ _).seq fun host =>
    (readInt32 _ _).seq fun protocol => ?_
  refine (readRef _ _).seq fun address => (readInt32 _ _).seq fun port => (readRef _ _).seq fun appId => ?_
  refine (readInt32 _ _).seq fun region => (readInt32 _ _).seq fun regions =>
    (readBool _ _).seq fun joinLobby => ?_
  refine (readBool _ _).seq fun lobbyStats => (toUtf8 _ _).seq fun server =>
    (secretSummary _).seq fun app => ?_
  exact log _ _ _

end Keeps

/-- The game's side, and what calls through pointers depend on, are the same. -/
def Scene.Same (s t : Scene) : Prop := t.world = s.world ∧ t.system.core = s.system.core

theorem Scene.Same.refl (s : Scene) : s.Same s := ⟨rfl, rfl⟩

theorem Scene.Same.trans {s t u : Scene} (first : s.Same t) (second : t.Same u) : s.Same u :=
  ⟨second.1.trans first.1, second.2.trans first.2⟩

section Watched

variable {conduct : Conduct} {useCloud : Ptr → List Word → Scene → Word × Scene} {α : Type} {p : Native α}

theorem same_of_keeps (s : Scene) {op : NativeOp} (kept : op.keeps = true) :
    s.Same (Scene.answerWith conduct useCloud s op).2 := by
  cases op with
  | call fn request => cases request <;> first | exact .refl s | cases kept
  | mark m => cases m <;> first | exact ⟨rfl, rfl⟩ | cases kept
  | _ => first | exact ⟨rfl, rfl⟩ | cases kept

/-- Such code runs as it evaluates, and the scene stays the same. -/
theorem Keeps.watch_wp (kept : Keeps p) (s : Scene) : p.wp (Scene.watch conduct useCloud)
    (fun t a => s.Same t ∧ (a, t) = p.eval (Scene.answerWith conduct useCloud) s) s := by
  induction p generalizing s with
  | done value => exact ⟨.refl s, rfl⟩
  | ask op next ih =>
    obtain ⟨keeps, rest⟩ := kept
    refine ⟨?_, fun answer given => ?_⟩
    · cases op <;> first | rfl | cases keeps
    obtain rfl : answer = (Scene.answerWith conduct useCloud s op).1 := given
    refine (ih _ (rest _ trivial) _).mono fun t a both => ⟨(same_of_keeps s keeps).trans both.1, both.2⟩

theorem Keeps.same (kept : Keeps p) (s : Scene) : s.Same (p.eval (Scene.answerWith conduct useCloud) s).2 :=
  ((kept.watch_wp s).eval id fun _ _ => ⟨rfl, rfl⟩).1

/-- Code of this kind whose evaluation is known. -/
theorem Keeps.wp_of_eval {s t : Scene} {value : α} (kept : Keeps p)
    (result : p.eval (Scene.answerWith conduct useCloud) s = (value, t)) :
    p.wp (Scene.watch conduct useCloud) (fun u a => u = t ∧ a = value) s := by
  refine (kept.watch_wp s).mono fun u a both => ?_
  obtain ⟨rfl, rfl⟩ := Prod.mk.inj (both.2.trans result)
  exact ⟨rfl, rfl⟩

end Watched

end Opg3d
