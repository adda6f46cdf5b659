import Opg3d.Install.Core
import Opg3d.Native.World

namespace Opg3d.Scene

open Kit Native HookEngine

variable {conduct : Conduct} {useCloud : Ptr → List Word → Scene → Word × Scene} {s : Scene}

/-- The scene with another value in a function-local static. -/
def withStatic (s : Scene) (cell : Static) (value : Ptr) : Scene :=
  { s with system := { s.system with memory := { s.system.memory with
      static := Function.update s.system.memory.static cell value } } }

theorem loaded_bound (world : World) : (loaded world).system.core.Bound := by
  intro f _
  show (1 : Ptr) ≠ 0
  decide

theorem eval_apiPtr (f : Api) :
    (apiPtr f).eval (answerWith conduct useCloud) s = (s.system.memory.api f, s) := rfl

theorem eval_api (request : ApiCall) : (api request).eval (answerWith conduct useCloud) s =
    ((s.world.respond request).1, { s with world := (s.world.respond request).2 }) := rfl

/-- The monitor that follows a scene through code that calls no original. -/
def watch (conduct : Conduct) (useCloud : Ptr → List Word → Scene → Word × Scene) :
    Monitor nativeSignature Scene where
  allow s op answer := answer = (answerWith conduct useCloud s op).1
  ok _ op := op.isOriginal = false
  next s op _ := (answerWith conduct useCloud s op).2

/-- The calls of originals that a program makes. -/
def originals {α : Type} (conduct : Conduct) (useCloud : Ptr → List Word → Scene → Word × Scene)
    (p : Native α) (s : Scene) : List (Performed nativeSignature Scene) :=
  (p.trace (answerWith conduct useCloud) s).filter fun entry => entry.op.isOriginal

theorem eval_of_wp {α : Type} {p : Native α} {t : Scene} {value : α}
    (run : p.wp (watch conduct useCloud) (fun u a => u = t ∧ a = value) s) :
    p.eval (answerWith conduct useCloud) s = (value, t) := by
  obtain ⟨still, same⟩ := run.eval id fun _ _ => ⟨rfl, rfl⟩
  exact Prod.ext same still

theorem originals_of_wp {α : Type} {p : Native α} {post : Scene → α → Prop}
    (run : p.wp (watch conduct useCloud) post s) : originals conduct useCloud p s = [] :=
  List.filter_eq_nil_iff.mpr fun entry member => by
    have plain : entry.op.isOriginal = false := run.trace id (fun _ _ => ⟨rfl, rfl⟩) entry member
    simp [plain]

/-- Behind code that calls no original. -/
theorem originals_bind {α β : Type} {p : Native α} {f : α → Native β} {post : Scene → α → Prop}
    (first : p.wp (watch conduct useCloud) post s) :
    originals conduct useCloud (p >>= f) s =
        originals conduct useCloud (f (p.eval (answerWith conduct useCloud) s).1)
          (p.eval (answerWith conduct useCloud) s).2 := by
  have none := originals_of_wp first
  unfold originals at none ⊢
  rw [Prog.bind_eq, Prog.trace_bind, List.filter_append, none, List.nil_append]

/-- Code that calls no original hands on its value and its scene. -/
theorem originals_seq {α β : Type} {p : Native α} {f : α → Native β} {t : Scene} {value : α}
    (first : p.wp (watch conduct useCloud) (fun u a => u = t ∧ a = value) s) :
    originals conduct useCloud (p >>= f) s = originals conduct useCloud (f value) t := by
  rw [originals_bind first, eval_of_wp first]

theorem originals_callOriginal {α : Type} (hook : Hook) (args : List Word) (f : Word → Native α) :
    originals conduct useCloud (callOriginal hook args >>= f) s =
      ⟨s, .original hook (s.system.memory.slot hook) args⟩ ::
        originals conduct useCloud (f (s.runBody conduct hook args).1) (s.runBody conduct hook args).2 := rfl

theorem answers (bound : s.system.core.Bound) : s.world.metadata.Answers (watch conduct useCloud) s where
  apiPtr f := ⟨rfl, fun fn read => ⟨rfl, fun needed => read ▸ bound f needed⟩⟩
  call fn request known _ question := by
    refine ⟨rfl, fun result told => ?_⟩
    cases request with
    | domainGet | domainGetAssemblies | assemblyGetImage | imageGetName | classFromName | classGetMethodFromName
    | classGetFieldFromName => exact ⟨rfl, told.trans (Option.some.inj question)⟩
    | _ => cases question
  methodPointer info := ⟨rfl, fun fn read => ⟨rfl, read⟩⟩

theorem eval_anyNull (bound : s.system.core.Bound) {fs : List Api} (needed : .threadDetach ∉ fs) :
    (anyNull fs).eval (answerWith conduct useCloud) s = (false, s) :=
  eval_of_wp ((answers bound).anyNull_wp needed)

/-- The getter of PUN's detailed state. -/
def stateTarget : ManagedMethod := ⟨"", "PhotonNetwork", "get_connectionStateDetailed", 0⟩

/-- The code a cached lookup yields: what is cached, or what the metadata has. -/
def lookup (s : Scene) (fnCell : Static) (target : ManagedMethod) : Ptr :=
  if s.system.memory.static fnCell = 0 then s.world.metadata.codeOf target else s.system.memory.static fnCell

/-- The scene after a cached lookup. -/
def cached (s : Scene) (fnCell methodCell : Static) (target : ManagedMethod) : Scene :=
  if s.system.memory.static fnCell = 0 then
    (s.withStatic methodCell (s.world.metadata.methodInfo target)).withStatic fnCell
      (s.world.metadata.codeOf target)
  else s

theorem lookupCached_wp (bound : s.system.core.Bound) (fnCell methodCell : Static)
    (target : ManagedMethod) :
    (lookupCached fnCell methodCell target).wp (watch conduct useCloud)
      (fun t fn => t = s.cached fnCell methodCell target ∧ fn = s.lookup fnCell target) s := by
  refine ⟨rfl, fun cell read => ?_⟩
  obtain rfl : cell = s.system.memory.static fnCell := read
  by_cases empty : s.system.memory.static fnCell = 0
  · rw [cached, lookup, if_pos empty, if_pos empty]
    refine .ite (fun _ => ?_) (absurd empty)
    refine ((answers bound).findMethodInfo_wp target).seq ⟨rfl, fun _ _ => ?_⟩
    have named : (s.withStatic methodCell (s.world.metadata.methodInfo target)).system.core.Bound := bound
    refine ((answers named).methodPointer_wp _).seq ⟨rfl, fun _ _ => ⟨rfl, fun fn again => ⟨rfl, ?_⟩⟩⟩
    exact again.trans (Function.update_self ..)
  · rw [cached, lookup, if_neg empty, if_neg empty]
    exact .ite (absurd · empty) fun _ => ⟨rfl, fun fn again => ⟨rfl, again⟩⟩

theorem eval_findMethodInfo (bound : s.system.core.Bound) (target : ManagedMethod) :
    (Il2cpp.findMethodInfo target.namespaze target.klass target.method target.argsCount).eval
      (answerWith conduct useCloud) s = (s.world.metadata.methodInfo target, s) :=
  eval_of_wp ((answers bound).findMethodInfo_wp target)

theorem eval_findField (bound : s.system.core.Bound) (namespaze klass field : String) :
    (Il2cpp.findField namespaze klass field).eval (answerWith conduct useCloud) s =
      (s.world.metadata.fieldNamed namespaze klass field, s) :=
  eval_of_wp ((answers bound).findField_wp namespaze klass field)

theorem connectionStateVia_wp (bound : s.system.core.Bound) (fnCell methodCell : Static) :
    (connectionStateVia fnCell methodCell).wp (watch conduct useCloud) (fun t state =>
      t = s.cached fnCell methodCell stateTarget ∧
      state = if s.lookup fnCell stateTarget = 0 then -1 else s.world.state.value) s := by
  refine (lookupCached_wp bound fnCell methodCell stateTarget).seq (.ite (fun null => ?_) fun found => ?_)
  · exact ⟨rfl, (if_pos null).symm⟩
  · rw [if_neg found]
    have same : (s.cached fnCell methodCell stateTarget).world = s.world := by
      unfold cached
      split <;> rfl
    rw [← same]
    exact ⟨rfl, fun method _ => ⟨rfl, fun state told => ⟨rfl, told⟩⟩⟩

/-- A managed string is converted from its code units. -/
theorem eval_toUtf8 (bound : s.system.core.Bound) {string : Ptr} {units : List UInt16}
    (present : string ≠ 0) (held : s.world.string string = some units) (maxCodeUnits : Nat) :
    (Il2cpp.toUtf8 string maxCodeUnits).eval (answerWith conduct useCloud) s =
      (Il2cpp.convertCapped units units.length maxCodeUnits, s) := by
  refine (Prog.eval_neg present).trans ((Prog.eval_seq (eval_anyNull bound (by decide))).trans ?_)
  refine (Prog.eval_seq (eval_api (.stringLength string))).trans ?_
  simp only [World.respond, held, Option.getD_some]
  by_cases empty : ((units.length : Nat) : Int) ≤ 0
  · obtain rfl : units = [] := List.length_eq_zero_iff.mp
      (Int.natCast_eq_zero.mp (le_antisymm empty (Int.natCast_nonneg _)))
    simp [Il2cpp.convertCapped, Il2cpp.convertUnits]
  · refine (Prog.eval_neg empty).trans ((Prog.eval_seq (eval_api (.stringChars string))).trans ?_)
    simp only [World.respond, held, Int.toNat_natCast]
    rfl

end Opg3d.Scene

namespace Opg3d.World

/-- The handle of an object's field of a name. -/
def fieldOf (w : World) (object : Ptr) (name : String) : Ptr := w.metadata.field (w.classOf object) name

def HasField (w : World) (object : Ptr) (name : String) : Prop :=
  object ≠ 0 ∧ w.classOf object ≠ 0 ∧ w.fieldOf object name ≠ 0

instance (w : World) (object : Ptr) (name : String) : Decidable (w.HasField object name) :=
  inferInstanceAs (Decidable (_ ∧ _ ∧ _))

def contentOf (w : World) (object : Ptr) (name : String) : FieldValue :=
  w.content object (w.fieldOf object name)

/-- What `read_field` makes of a field. -/
def read (w : World) (object : Ptr) (name : String) (size : Nat) : Option Bytes :=
  if w.HasField object name then some ((scratch (w.contentOf object name).copied).take size) else none

/-- The game after `write_field` has passed on the address of its parameter. -/
def written (w : World) (object : Ptr) (name : String) (here : Ptr) (value : Bytes) : World :=
  w.setField object (w.fieldOf object name) ((w.contentOf object name).stored ⟨here, value⟩ w.behind)

end Opg3d.World

namespace Opg3d.Scene

open Kit Native

variable {conduct : Conduct} {useCloud : Ptr → List Word → Scene → Word × Scene} {s : Scene}

theorem eval_readField (bound : s.system.core.Bound) (object : Ptr) (name : String) (size : Nat) :
    (readField object name size).eval (answerWith conduct useCloud) s = (s.world.read object name size, s) := by
  have unread (without : ¬s.world.HasField object name) :
      s.world.read object name size = none := if_neg without
  by_cases absent : object = 0
  · rw [unread fun has => has.1 absent]
    exact Prog.eval_pos absent
  refine (Prog.eval_neg absent).trans ((Prog.eval_seq (eval_anyNull bound (by decide))).trans ?_)
  refine (Prog.eval_seq (eval_api (.objectGetClass object))).trans ?_
  by_cases classless : s.world.classOf object = 0
  · rw [unread fun has => has.2.1 classless]
    exact Prog.eval_pos classless
  refine (Prog.eval_neg classless).trans ((Prog.eval_seq (eval_api (.classGetFieldFromName _ name))).trans ?_)
  by_cases unknown : s.world.fieldOf object name = 0
  · rw [unread fun has => has.2.2 unknown]
    exact Prog.eval_pos unknown
  have found : s.world.read object name size = some _ := if_pos ⟨absent, classless, unknown⟩
  rw [found]
  exact (Prog.eval_neg unknown).trans (Prog.eval_seq (eval_api (.fieldGetValue object _)))

theorem eval_writeField_none {object : Ptr} {name : String} (bound : s.system.core.Bound)
    (without : ¬s.world.HasField object name) (value : Bytes) :
    (writeField object name value).eval (answerWith conduct useCloud) s = (false, s) := by
  by_cases absent : object = 0
  · exact Prog.eval_pos absent
  refine (Prog.eval_neg absent).trans ((Prog.eval_seq (eval_anyNull bound (by decide))).trans ?_)
  refine (Prog.eval_seq (eval_api (.objectGetClass object))).trans ?_
  by_cases classless : s.world.classOf object = 0
  · exact Prog.eval_pos classless
  refine (Prog.eval_neg classless).trans ((Prog.eval_seq (eval_api (.classGetFieldFromName _ name))).trans ?_)
  by_cases unknown : s.world.fieldOf object name = 0
  · exact Prog.eval_pos unknown
  · exact absurd ⟨absent, classless, unknown⟩ without

theorem eval_writeField {object : Ptr} {name : String} (bound : s.system.core.Bound)
    (has : s.world.HasField object name) (value : Bytes) :
    (writeField object name value).eval (answerWith conduct useCloud) s =
      (true, { s with world := s.world.written object name (conduct.other .addressOfValue) value }) := by
  obtain ⟨present, classed, known⟩ := has
  refine (Prog.eval_neg present).trans ((Prog.eval_seq (eval_anyNull bound (by decide))).trans ?_)
  refine (Prog.eval_seq (eval_api (.objectGetClass object))).trans ((Prog.eval_neg classed).trans ?_)
  exact (Prog.eval_seq (eval_api (.classGetFieldFromName _ name))).trans (Prog.eval_neg known)

end Opg3d.Scene
