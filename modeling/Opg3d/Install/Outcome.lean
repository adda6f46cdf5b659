import Opg3d.Install.Startup
import Opg3d.Native.World

namespace Opg3d

open Kit Native HookEngine Opg3d.Core

/-- Steps of an installation in a game of given metadata. -/
def installStep (metadata : Metadata) (s : System) (op : NativeOp) (answer : op.Ans) (t : System) : Prop :=
  s.memory.admits op answer ∧ metadata.AnswersTo op answer ∧ t = s.after op answer

/-- A finished installation, first of Photon's hooks and then of the guard's,
in a library whose exports are bound and that has no hooks yet. -/
inductive Installed (build : Build) (metadata : Metadata) (photonResult guardResult : Bool)
    (installed : System) : Prop
  | intro {start between photonTrace guardTrace} : start.core.Fresh → start.core.Bound →
      Exec (installStep metadata) (Photon.installHooks build) start photonTrace photonResult between →
      Exec (installStep metadata) (CloudGuard.installHooks build) between guardTrace guardResult installed →
      Installed build metadata photonResult guardResult installed

theorem installStep_follows {metadata : Metadata} (s : System) (op : NativeOp) (answer : op.Ans)
    (t : System) (step : installStep metadata s op answer t) :
    (startup (some metadata)).allow s.core op answer ∧
      t.core = (startup (some metadata)).next s.core op answer := by
  obtain ⟨admitted, told, rfl⟩ := step
  obtain ⟨allowed, moved⟩ := follows admitted
  refine ⟨⟨allowed, ?_⟩, moved⟩
  rintro _ ⟨⟩
  exact told

/-- A part of a run is the optional install of an entry, and it returned so. -/
def InstallReturned (metadata : Metadata) (entry : ManagedMethod × Hook)
    (trace : List (Performed nativeSignature System)) (returned : Bool) : Prop :=
  ∃ before own behind s t, trace = before ++ own ++ behind ∧
    Exec (installStep metadata) (install entry.1 (some entry.2) (some entry.2) false) s own returned t

theorem InstallReturned.within {metadata : Metadata} {entry : ManagedMethod × Hook} {returned : Bool}
    {trace : List (Performed nativeSignature System)} (part : InstallReturned metadata entry trace returned)
    (first last : List (Performed nativeSignature System)) :
    InstallReturned metadata entry (first ++ trace ++ last) returned := by
  obtain ⟨before, own, behind, s, t, rfl, run⟩ := part
  exact ⟨first ++ before, own, behind ++ last, s, t, by simp only [List.append_assoc], run⟩

/-- Each hook of a sequence is in place at its end exactly if its own install returned true. -/
theorem optionals_outcome {metadata : Metadata} (targets : List (ManagedMethod × Hook))
    {installed total : Nat} {s u : System} {trace : List (Performed nativeSignature System)}
    (run : Exec (installStep metadata) (installOptionals targets installed) s trace total u)
    (ready : s.core.Ready) (distinct : (targets.map Prod.snd).Nodup)
    (free : ∀ hook ∈ targets.map Prod.snd, s.core.Unpatched hook) :
    ∀ entry ∈ targets, ∃ returned, InstallReturned metadata entry trace returned ∧
      (returned = true ↔ ¬u.core.Unpatched entry.2) := by
  induction targets generalizing installed s trace with
  | nil => exact nofun
  | cons entry rest ih =>
    obtain ⟨target, hook⟩ := entry
    obtain ⟨absent, distinct⟩ := List.nodup_cons.mp distinct
    obtain ⟨first, count, t, second, one, others, rfl⟩ := run.bind_cases
    obtain ⟨own, returned, v, behind, install, counting, rfl⟩ := one.bind_cases
    obtain rfl : v = t := by
      cases returned <;> cases counting <;> rfl
    obtain ⟨ready, kept, placement⟩ := (@install_wp (some metadata) target false hook s.core ready
      (free hook (List.mem_cons_self ..))).exec System.core install installStep_follows
    have free : ∀ other ∈ rest.map Prod.snd, v.core.Unpatched other := by
      intro other member
      refine kept.unpatched ?_ (free other (List.mem_cons_of_mem _ member))
      rintro same
      obtain rfl := List.mem_singleton.mp same
      exact absent member
    intro entry member
    rcases List.mem_cons.mp member with rfl | later
    · obtain ⟨_, kept', _⟩ := (@installOptionals_wp (some metadata) rest count v.core ready distinct free).exec
        System.core others installStep_follows
      refine ⟨returned, ⟨[], own, behind ++ second, s, v, by simp, install⟩, ?_⟩
      rw [placement.placed, kept'.unpatched_iff absent]
    · obtain ⟨returned, part, outcome⟩ := ih others ready distinct free entry later
      exact ⟨returned, by simpa using part.within (own ++ behind) [], outcome⟩

theorem core_of_log {metadata : Metadata} {priority : Priority} {format : String} {args : List Arg}
    {s t : System} {trace : List (Performed nativeSignature System)} {value : Unit}
    (run : Exec (installStep metadata) (log priority format args) s trace value t) : t.core = s.core := by
  cases run with
  | ask given rest =>
    cases rest
    obtain ⟨_, _, rfl⟩ := given
    rfl

/-- The same of the guard's installation in cloud mode. -/
theorem guard_outcome {build : Build} {metadata : Metadata} {s u : System} {ok : Bool}
    {trace : List (Performed nativeSignature System)} (cloud : build.selfhosted = false)
    (run : Exec (installStep metadata) (CloudGuard.installHooks build) s trace ok u) (ready : s.core.Ready)
    (free : ∀ hook ∈ guardHooks, s.core.Unpatched hook) :
    ∀ entry ∈ CloudGuard.guardedTargets, ∃ returned, InstallReturned metadata entry trace returned ∧
      (returned = true ↔ ¬u.core.Unpatched entry.2) := by
  rw [CloudGuard.installHooks, if_neg (by simp [cloud])] at run
  obtain ⟨first, backendGuard, t, second, backend, rest, rfl⟩ := run.bind_cases
  obtain ⟨entries, installed, v, last, optionals, reported, rfl⟩ := rest.bind_cases
  obtain ⟨said, _, w, none, logged, returned, rfl⟩ := reported.bind_cases
  cases returned
  have placing := @install_wp (some metadata) CloudGuard.friendsUpdateTarget true .friendsUpdate s.core ready
    (free _ (List.mem_cons_self ..))
  obtain ⟨ready, kept, _⟩ := placing.exec System.core backend installStep_follows
  have others : ∀ hook ∈ CloudGuard.guardedTargets.map Prod.snd, t.core.Unpatched hook := by
    intro hook member
    refine kept.unpatched (fun same => ?_) (free hook (List.mem_cons_of_mem _ member))
    obtain rfl := List.mem_singleton.mp same
    exact absurd member (by decide)
  intro entry member
  obtain ⟨returned, part, outcome⟩ := optionals_outcome _ optionals ready (by decide) others entry member
  refine ⟨returned, by simpa using part.within first said, ?_⟩
  rw [outcome, core_of_log logged]

/-- Photon's installation leaves the hooks of the guard nowhere in place. -/
theorem photon_outcome {build : Build} {metadata : Metadata} {s t : System} {ok : Bool}
    {trace : List (Performed nativeSignature System)} (fresh : s.core.Fresh) (bound : s.core.Bound)
    (run : Exec (installStep metadata) (Photon.installHooks build) s trace ok t) :
    t.core.Ready ∧ ∀ hook ∈ guardHooks, t.core.Unpatched hook := by
  have before : (Photon.installHooks build).wp (startup (some metadata))
      (fun d _ => d.Ready ∧ KeptBut photonHooks s.core d) s.core :=
    photonInstallHooks_wp (fresh.ready bound) fun hook _ => fresh.unpatched hook
  obtain ⟨ready, kept⟩ := before.exec System.core run installStep_follows
  exact ⟨ready, fun hook member => kept.unpatched (hooks_disjoint hook member) (fresh.unpatched hook)⟩

/-- What an installation leaves behind, whatever the hook engine answers. -/
theorem Installed.placed {build : Build} {metadata : Metadata} {photonResult guardResult : Bool}
    {installed : System} (run : Installed build metadata photonResult guardResult installed) :
    installed.core.Ready ∧ GuardPlaced build (some metadata) installed.core guardResult := by
  obtain @⟨start, between, _, _, fresh, bound, photon, guard⟩ := run
  obtain ⟨ready, free⟩ := photon_outcome fresh bound photon
  obtain ⟨ready, _, placed⟩ := (guardInstallHooks_wp ready free).exec System.core guard installStep_follows
  exact ⟨ready, placed⟩

theorem Installed.outcome {build : Build} {metadata : Metadata} {photonResult guardResult : Bool}
    {installed : System} (run : Installed build metadata photonResult guardResult installed) :
    installed.core.Ready ∧ (guardResult = true → build.selfhosted = false →
      PlacedAt (some metadata) CloudGuard.friendsUpdateTarget .friendsUpdate installed.core) :=
  ⟨run.placed.1, fun reported cloud => run.placed.2.backendGuard cloud reported⟩

namespace Sample

def methodAt (klass : Ptr) (name : String) (argsCount : Int) : Ptr :=
  klass + 16 * UInt32.ofNat name.toList.length + UInt32.ofInt argsCount

/-- A game that knows every method but one, each at an address of its own. -/
def metadata : Metadata :=
  { Metadata.empty with
    domain := 1
    assemblies := fun _ => ⟨1, some [2], by simp⟩
    image := fun _ => 3
    klass := fun _ _ name => 4096 * UInt32.ofNat name.toList.length
    method := fun klass name argsCount =>
      if name = "get_connectionStateDetailed" then 0 else methodAt klass name argsCount
    field := fun _ name => UInt32.ofNat name.toList.length
    code := fun info => info }

/-- The settings object 7 holds the forced route and the string 9. -/
def runtime : (request : ApiCall) → request.Result
  | .stringNew _ => (9 : Ptr)
  | .objectGetClass _ => (6 : Ptr)
  | .fieldStaticGetValue _ => (7 : Ptr)
  | .fieldGetValue _ field => if field = 8 then int32Bytes 1 else if field = 15 then int32Bytes 0 else ptrBytes 9
  | request => request.nothing

def answer (s : System) : (op : NativeOp) → op.Ans
  | .apiPtr f => s.memory.api f
  | .slot hook => s.memory.slot hook
  | .static cell => s.memory.static cell
  | .flag f => s.memory.flag f
  | .exchange f => s.memory.flag f
  | .fetchAdd counter => s.memory.counter counter
  | .call _ request => (metadata.respond request).getD (runtime request)
  | .methodPointer info => metadata.code info
  | .findLibrary => some 4096
  | .findSymbol _ => (1 : Ptr)
  | .shadowhookHook address _ _ => if s.memory.patched address = none then ⟨address, some address⟩ else ⟨0, none⟩
  | op => op.nothing

def test (_ : System) : NativeOp → Bool
  | .call fn _ => fn ≠ 0
  | .original _ _ _ => false
  | .managed _ _ _ => false
  | _ => true

theorem answer_step (s : System) (op : NativeOp) (passed : test s op = true) :
    installStep metadata s op (answer s op) (s.after op (answer s op)) := by
  refine ⟨?_, ?_, rfl⟩
  · cases op with
    | call fn request =>
      have present : fn ≠ 0 := of_decide_eq_true passed
      exact present
    | original | managed => cases passed
    | shadowhookHook address replacement cell =>
      by_cases clean : s.memory.patched address = none
      · simp [Memory.admits, Memory.HookAnswered, answer, clean]
      · simp [Memory.admits, Memory.HookAnswered, answer, clean]
    | apiPtr | slot | static | flag | exchange | fetchAdd => rfl
    | _ => trivial
  · cases op with
    | call fn request =>
      intro known told
      simp only [answer, told, Option.getD_some]
    | methodPointer info => rfl
    | _ => trivial

/-- The answers in scripted runs. -/
def reply (s : System) (op : NativeOp) : Option op.Ans := if test s op then some (answer s op) else none

theorem reply_admitted (s : System) (op : NativeOp) (given : op.Ans) (told : reply s op = some given) :
    s.memory.admits op given := by
  obtain ⟨passed, same⟩ := Option.ite_none_right_eq_some.mp told
  cases same
  exact (answer_step s op passed).1

def build : Build := ⟨false, literal "app", [], 0⟩

def next (s : System) (op : NativeOp) : op.Ans × System := (answer s op, s.after op (answer s op))

def start : System := { System.initial with memory := { Memory.initial with api := fun _ => 1 } }

def between : System := ((Photon.installHooks build).eval next start).2

def installed : System := ((CloudGuard.installHooks build).eval next between).2

theorem photon_passes : (Photon.installHooks build).check next test start = true := by decide +kernel

theorem photon_succeeds : ((Photon.installHooks build).eval next start).1 = true := by decide +kernel

theorem guard_passes : (CloudGuard.installHooks build).check next test between = true := by decide +kernel

theorem guard_succeeds : ((CloudGuard.installHooks build).eval next between).1 = true := by decide +kernel

theorem installs : Installed build metadata true true installed := by
  have bound : start.core.Bound := fun _ _ => by show (1 : Ptr) ≠ 0; decide
  have photon := Prog.exec_of_check answer_step photon_passes
  have guard := Prog.exec_of_check answer_step guard_passes
  rw [photon_succeeds] at photon
  rw [guard_succeeds] at guard
  exact .intro ⟨rfl, fun _ => rfl⟩ bound photon guard

end Sample

end Opg3d
