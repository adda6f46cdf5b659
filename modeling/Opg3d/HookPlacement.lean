import Opg3d.Activation.Accounts
import Opg3d.Activation.StartupRule
import Opg3d.Kit.Aside

namespace Opg3d

open Kit Native HookEngine InitThread

/-- The runtime has told the address as the code of the method, by class and name. -/
def Located (target : ManagedMethod) (address : Ptr) (seen : Account) : Prop :=
  ∃ fn fn' image, ∃ klass info : Ptr,
    ⟨.call fn (.classFromName image target.namespaze target.klass), klass⟩ ∈ seen ∧ klass ≠ 0 ∧
    ⟨.call fn' (.classGetMethodFromName klass target.method target.argsCount), info⟩ ∈ seen ∧ info ≠ 0 ∧
    ⟨.methodPointer info, address⟩ ∈ seen ∧ address ≠ 0

/-- A hook of the build belongs at the address, and the engine has come up: both
have been answered, in whatever order. -/
def Grounded (build : Build) (hook : Hook) (address : Ptr) (seen : Account) : Prop :=
  (∃ target, (target, hook) ∈ build.installs ∧ Located target address seen) ∧
    ⟨.shadowhookInit, shadowhookErrnoOk⟩ ∈ seen

theorem Grounded.lasting (build : Build) (hook : Hook) (address : Ptr) :
    Lasting (Grounded build hook address) := by
  rintro seen after within ⟨⟨target, listed, fn, fn', image, klass, info, known, present, found,
    filled, pointed, code⟩, up⟩
  exact ⟨⟨target, listed, fn, fn', image, klass, info, within known, present, within found, filled,
    within pointed, code⟩, within up⟩

/-- What the start-up thread has exchanged, and the flags of the engine. -/
structure Placing where
  started : Bool
  ready : Bool
  seen : Account

/-- What an operation leaves in a flag. -/
def NativeOp.flagAfter (f : Flag) (held : Bool) : NativeOp → Bool
  | .setFlag g value => if g = f then value else held
  | .exchange g => if g = f then true else held
  | _ => held

/-- An operation that does not concern the engine. -/
structure NativeOp.SparesEngine (op : NativeOp) : Prop where
  other : op ≠ .shadowhookInit
  started : ∀ held, op.flagAfter .engineStarted held = held
  ready : ∀ held, op.flagAfter .engineReady held = held

theorem NativeOp.sparesEngine {op : NativeOp} (apart : op.effect ≠ some .setup) : op.SparesEngine := by
  refine ⟨fun same => apart (same ▸ rfl), fun held => ?_, fun held => ?_⟩
  · cases op with
    | setFlag f | exchange f => cases f <;> first | rfl | exact absurd rfl apart
    | _ => rfl
  · cases op with
    | setFlag f | exchange f => cases f <;> first | rfl | exact absurd rfl apart
    | _ => rfl

/-- What the start-up thread may do to exports, slots and the engine. -/
def Permitted (build : Build) (seen : Account) : NativeOp → Prop
  | .shadowhookInit => ∀ rc : Int, ⟨.shadowhookInit, rc⟩ ∉ seen
  | .shadowhookHook address hook cell => cell = hook ∧ Grounded build hook address seen
  | .shadowhookUnhook stub => stub ≠ 0 ∧ ∃ address hook, ∃ answer : HookAnswer,
      ⟨.shadowhookHook address hook hook, answer⟩ ∈ seen ∧ answer.stub = stub ∧ ⟨.slot hook, none⟩ ∈ seen
  | .setSlot hook trampoline => trampoline = none ∧ ∃ target, (target, hook) ∈ build.installs
  | .bindApi f fn => ⟨.findSymbol f.symbol, fn⟩ ∈ seen
  | _ => True

def placing (build : Build) : Monitor nativeSignature Placing where
  allow t op answer :=
    match op, answer with
    | .exchange .engineStarted, value => value = t.started
    | .flag .engineReady, value => value = t.ready
    | _, _ => True
  ok t op := Permitted build t.seen op
  next t op answer := ⟨op.flagAfter .engineStarted t.started, op.flagAfter .engineReady t.ready,
    t.seen ++ [⟨op, answer⟩]⟩

@[simp] theorem placing_seen {build : Build} (t : Placing) (op : NativeOp) (answer : op.Ans) :
    ((placing build).next t op answer).seen = t.seen ++ [⟨op, answer⟩] := rfl

/-- What the flags say of the engine is what it has answered. -/
structure Placing.Honest (t : Placing) : Prop where
  fresh : t.started = false → ∀ rc : Int, ⟨.shadowhookInit, rc⟩ ∉ t.seen
  up : t.ready = true → ⟨.shadowhookInit, shadowhookErrnoOk⟩ ∈ t.seen

/-- More has been exchanged, nothing that concerns the engine. -/
structure Placing.Extends (t u : Placing) : Prop where
  started : u.started = t.started
  ready : u.ready = t.ready
  grown : t.seen ⊆ u.seen
  inits : ∀ rc : Int, ⟨.shadowhookInit, rc⟩ ∈ u.seen → ⟨.shadowhookInit, rc⟩ ∈ t.seen

namespace Placing

theorem Extends.refl (t : Placing) : Extends t t := ⟨rfl, rfl, fun _ => id, fun _ => id⟩

theorem Extends.trans {t u v : Placing} (first : Extends t u) (second : Extends u v) : Extends t v :=
  ⟨second.started.trans first.started, second.ready.trans first.ready, fun _ member =>
    second.grown (first.grown member),
    fun rc member => first.inits rc (second.inits rc member)⟩

theorem Extends.honest {t u : Placing} (more : Extends t u) (honest : t.Honest) : u.Honest where
  fresh idle rc member := honest.fresh (more.started ▸ idle) rc (more.inits rc member)
  up on := more.grown (honest.up (more.ready ▸ on))

theorem extends_next {build : Build} (t : Placing) {op : NativeOp} (answer : op.Ans)
    (spares : op.SparesEngine) : Extends t ((placing build).next t op answer) := by
  obtain ⟨other, started, ready⟩ := spares
  refine ⟨started _, ready _, fun e member => List.mem_append_left _ member, fun rc member => ?_⟩
  rcases List.mem_append.mp member with before | last
  · exact before
  · have same := congrArg Exchange.op (List.mem_singleton.mp last)
    exact absurd same.symm other

theorem Honest.next {t : Placing} (honest : t.Honest) (build : Build) (op : NativeOp) (answer : op.Ans)
    (spares : op.SparesEngine) : ((placing build).next t op answer).Honest :=
  (extends_next t answer spares).honest honest

end Placing

section

variable {build : Build} {α : Type}

/-- Code that only asks, in any state. -/
theorem quiet_wp {p : Native α} (confined : Confined anyAnswer [] p) (t : Placing) :
    p.wp (placing build) (fun u _ => t.Extends u) t := by
  have kept : Prog.Keeps (placing build) t.Extends p := by
    refine Prog.Only.keeps confined fun u op before nothing => ?_
    have free (e : Effect) : op.effect ≠ some e := fun effect => absurd (nothing e effect) (by simp)
    have spares := NativeOp.sparesEngine (free .setup)
    refine ⟨?_, fun answer _ => ⟨trivial, before.trans (Placing.extends_next u answer spares)⟩⟩
    cases op with
    | bindApi | setSlot | shadowhookInit | shadowhookHook | shadowhookUnhook =>
      exact absurd rfl (free .setup)
    | _ => trivial
  exact kept t (.refl t)

theorem quiet_keeps {p : Native α} (confined : Confined anyAnswer [] p) :
    Prog.Keeps (placing build) Placing.Honest p :=
  fun t honest => (quiet_wp confined t).mono fun _ _ more => more.honest honest

/-- The class that a search tells has been told by the runtime. -/
theorem findClass_wp (namespaze name : String) (t : Placing) :
    (Il2cpp.findClass namespaze name).wp (placing build)
      (fun u klass => t.Extends u ∧
        (klass ≠ 0 → ∃ fn image, ⟨.call fn (.classFromName image namespaze name), klass⟩ ∈ u.seen)) t := by
  have among (assemblies : List Ptr) (t : Placing) :
      (Il2cpp.findClassIn namespaze name assemblies).wp (placing build) (fun u klass =>
        klass ≠ 0 → ∃ fn image, ⟨.call fn (.classFromName image namespaze name), klass⟩ ∈ u.seen) t := by
    induction assemblies generalizing t with
    | nil => exact fun null => absurd rfl null
    | cons assembly rest ih =>
      refine .ite (fun _ => ih t) fun _ => ⟨trivial, fun _ _ =>
        ⟨trivial, fun image _ => .ite (fun _ => ih _) fun _ => ?_⟩⟩
      refine ⟨trivial, fun fn _ => ⟨trivial, fun klass _ =>
        .ite (fun _ _ => ⟨fn, image, ?_⟩) fun _ => ih _⟩⟩
      simp
  have told : (Il2cpp.findClass namespaze name).wp (placing build) (fun u klass =>
      klass ≠ 0 → ∃ fn image, ⟨.call fn (.classFromName image namespaze name), klass⟩ ∈ u.seen) t := by
    refine (quiet_wp (.anyNull _) t).bind fun u unbound _ =>
      .ite (fun _ null => absurd rfl null) fun _ => ?_
    exact (quiet_wp .loadedAssemblies u).bind fun v assemblies _ => among assemblies v
  exact (quiet_wp (.findClass namespaze name) t).both told

/-- The code of a method that has been found, as the runtime has told it. -/
theorem methodPointer_wp {target : ManagedMethod} {info : Ptr} (present : info ≠ 0) (t : Placing)
    (found : ∃ fn klass,
      (∃ fn image, ⟨.call fn (.classFromName image target.namespaze target.klass), klass⟩ ∈ t.seen) ∧
      klass ≠ 0 ∧ ⟨.call fn (.classGetMethodFromName klass target.method target.argsCount), info⟩ ∈ t.seen) :
    (Il2cpp.methodPointer info).wp (placing build)
      (fun u address => t.Extends u ∧ (address ≠ 0 → Located target address u.seen)) t := by
  obtain ⟨fn', klass, ⟨fn, image, known⟩, filled, asked⟩ := found
  refine (quiet_wp (.methodPointer info) t).both (.ite (absurd · present) fun _ =>
    ⟨trivial, fun address _ code => ?_⟩)
  exact ⟨fn, fn', image, klass, info, by simp [known], filled, by simp [asked], present, by simp, code⟩

theorem findMethodInfo_wp (target : ManagedMethod) (t : Placing) :
    (Il2cpp.findMethodInfo target.namespaze target.klass target.method target.argsCount).wp (placing build)
      (fun u info => t.Extends u ∧ (info ≠ 0 → ∃ fn klass,
        (∃ fn image, ⟨.call fn (.classFromName image target.namespaze target.klass), klass⟩ ∈ u.seen) ∧
        klass ≠ 0 ∧ ⟨.call fn (.classGetMethodFromName klass target.method target.argsCount), info⟩ ∈ u.seen)) t := by
  refine (quiet_wp (.findMethodInfo ..) t).both ?_
  refine (quiet_wp (.anyNull _) t).bind fun u unbound _ => .ite (fun _ null => absurd rfl null) fun _ => ?_
  refine (findClass_wp target.namespaze target.klass u).bind fun v klass after =>
    .ite (fun _ null => absurd rfl null) fun filled => ?_
  obtain ⟨fn, image, known⟩ := after.2 filled
  exact ⟨trivial, fun _ _ => ⟨trivial, fun info _ _ =>
    ⟨_, klass, ⟨fn, image, by simp [known]⟩, filled, by simp; exact .inr rfl⟩⟩⟩

theorem ensureEngine_keeps : Prog.Keeps (placing build) Placing.Honest ensureEngine := by
  refine fun t honest => ⟨trivial, fun started read => .ite (fun _ => ⟨nofun, fun on => ?_⟩) fun idle => ?_⟩
  · exact List.mem_append_left _ (honest.up on)
  have fresh : t.started = false := by
    rw [← show started = t.started from read]
    simpa using idle
  have unasked : ∀ rc : Int, ⟨.shadowhookInit, rc⟩ ∉ t.seen ++ [⟨.exchange .engineStarted, started⟩] := by
    intro rc member
    rcases List.mem_append.mp member with before | last
    · exact honest.fresh fresh rc before
    · cases congrArg Exchange.op (List.mem_singleton.mp last)
  refine ⟨unasked, fun rc _ => ⟨trivial, fun _ _ => ?_⟩⟩
  have ready : Placing.Honest ((placing build).next ((placing build).next ((placing build).next t
      (.exchange .engineStarted) started) .shadowhookInit rc)
        (.setFlag .engineReady (rc = shadowhookErrnoOk)) ()) := by
    refine ⟨nofun, fun on => ?_⟩
    obtain rfl : rc = shadowhookErrnoOk := of_decide_eq_true on
    simp
  refine Prog.wp.ite (fun _ => ?_) fun _ => ?_
  · exact quiet_keeps ((Confined.quiet rfl).seq fun version => .log _ _ _) _ ready
  · exact quiet_keeps ((Confined.quiet rfl).seq fun message => .log _ _ _) _ ready

theorem patchAddress_wp {target : ManagedMethod} {hook : Hook} (listed : (target, hook) ∈ build.installs)
    {address : Ptr} {t : Placing} (honest : t.Honest) (grounded : Grounded build hook address t.seen) :
    (patchAddress target address hook hook).wp (placing build) (fun u _ => u.Honest) t := by
  have later := honest.next build (.setSlot hook none) () ⟨nofun, fun _ => rfl, fun _ => rfl⟩
  refine ⟨⟨rfl, target, listed⟩, fun _ _ => ⟨⟨rfl, ?_⟩, fun answer _ => ?_⟩⟩
  · exact Grounded.lasting _ _ _ _ _ (List.subset_append_left ..) grounded
  have hooked := later.next build (.shadowhookHook address hook hook) answer ⟨nofun, fun _ => rfl, fun _ => rfl⟩
  refine .ite (fun _ => quiet_keeps ?_ _ hooked) fun placed => ⟨trivial, fun trampoline _ => ?_⟩
  · refine (Confined.quiet rfl).seq fun err => (Confined.quiet rfl).seq fun message => ?_
    exact (Confined.log _ _ _).seq fun _ => .done _
  have led := hooked.next build (.slot hook) trampoline ⟨nofun, fun _ => rfl, fun _ => rfl⟩
  refine .ite (fun missing => ?_) fun _ => quiet_keeps ((Confined.log _ _ _).seq fun _ => .done _) _ led
  subst missing
  have said (u : Placing) : (logE "hook: engine gave no trampoline for %s.%s/%d @ %p; rolling back"
      (target.args ++ [pointer address])).wp (placing build) (fun v _ => u.Extends v) u :=
    quiet_wp (.log _ _ _) u
  refine (said _).bind fun v _ more => ⟨⟨placed, address, hook, answer, ?_, rfl, ?_⟩, fun _ _ => ?_⟩
  · exact more.grown (by simp)
  · exact more.grown (by simp)
  · exact (more.honest led).next build (.shadowhookUnhook answer.stub) () ⟨nofun, fun _ => rfl, fun _ => rfl⟩

theorem installTarget_keeps {target : ManagedMethod} {hook : Hook}
    (listed : (target, hook) ∈ build.installs) (required : Bool) :
    Prog.Keeps (placing build) Placing.Honest (installTarget target hook hook required) := by
  have failed (p : Native Unit) (said : Confined anyAnswer [] p) :
      Prog.Keeps (placing build) Placing.Honest (do p; return false) :=
    quiet_keeps (said.seq fun _ => .done _)
  refine ensureEngine_keeps.seq fun _ t honest => ⟨trivial, fun ready read => ?_⟩
  have asked := honest.next build (.flag .engineReady) ready ⟨nofun, fun _ => rfl, fun _ => rfl⟩
  refine .ite (fun _ => failed _ (.log _ _ _) _ asked) fun on => ?_
  have up : t.ready = true := by
    rw [← show ready = t.ready from read]
    simpa using on
  refine (findMethodInfo_wp target _).bind fun u info found => .ite (fun _ => ?_) fun present => ?_
  · have still := found.1.honest asked
    exact .ite (fun _ => failed _ (.log _ _ _) _ still) fun _ => failed _ (.log _ _ _) _ still
  refine (methodPointer_wp present u (found.2 present)).bind fun v address located => ?_
  have still := located.1.honest (found.1.honest asked)
  refine .ite (fun _ => failed _ (.log _ _ _) _ still) fun code => ?_
  have grounded : Grounded build hook address v.seen :=
    ⟨⟨target, listed, located.2 code⟩, located.1.grown (found.1.grown (List.mem_append_left _ (honest.up up)))⟩
  exact patchAddress_wp listed still grounded

theorem placing_rule (build : Build) : StartupRule build (Prog.Keeps (placing build) Placing.Honest) where
  seq := Prog.Keeps.seq
  quiet := quiet_keeps
  bind f := by
    refine fun t honest => ⟨trivial, fun fn _ => ?_⟩
    have read := honest.next build (.apiPtr f) fn ⟨nofun, fun _ => rfl, fun _ => rfl⟩
    refine .ite (fun _ => read) fun _ => ⟨trivial, fun found _ =>
      ⟨by simp [Permitted, placing], fun _ _ => ?_⟩⟩
    have searched := read.next build (.findSymbol f.symbol) found ⟨nofun, fun _ => rfl, fun _ => rfl⟩
    exact searched.next build (.bindApi f found) () ⟨nofun, fun _ => rfl, fun _ => rfl⟩
  attach domain := fun t honest => ⟨trivial, fun fn _ => ⟨trivial, fun thread _ =>
    (honest.next build (.apiPtr .threadAttach) fn ⟨nofun, fun _ => rfl, fun _ => rfl⟩).next build
      (.call fn (.threadAttach domain)) thread ⟨nofun, fun _ => rfl, fun _ => rfl⟩⟩⟩
  detach thread := by
    refine fun t honest => ⟨trivial, fun fn _ => ?_⟩
    have read := honest.next build (.apiPtr .threadDetach) fn ⟨nofun, fun _ => rfl, fun _ => rfl⟩
    refine .ite (fun _ => ⟨trivial, fun _ _ => ?_⟩) fun _ => read
    exact read.next build (.call fn (.threadDetach thread)) () ⟨nofun, fun _ => rfl, fun _ => rfl⟩
  install target hook required listed := by
    refine fun t honest => ⟨trivial, fun _ _ => ?_⟩
    have begun := honest.next build (.mark .installBegins) () ⟨nofun, fun _ => rfl, fun _ => rfl⟩
    refine (installTarget_keeps listed required _ begun).bind fun u installed later =>
      ⟨trivial, fun _ _ => ?_⟩
    exact later.next build (.mark .installEnds) () ⟨nofun, fun _ => rfl, fun _ => rfl⟩

end

theorem flag_after (s : System) {op : NativeOp} (answer : op.Ans) (f : Flag) :
    (s.after op answer).memory.flag f = op.flagAfter f (s.memory.flag f) := by
  cases op with
  | mark m => cases m <;> rfl
  | setFlag g value =>
    by_cases same : g = f
    · subst same
      simp [System.after, Memory.after, NativeOp.flagAfter]
    · simp [System.after, Memory.after, NativeOp.flagAfter, same, Ne.symm same]
  | exchange g =>
    by_cases same : g = f
    · subst same
      simp [System.after, Memory.after, NativeOp.flagAfter]
    · simp [System.after, Memory.after, NativeOp.flagAfter, same, Ne.symm same]
  | shadowhookHook address replacement cell =>
    simp only [System.after, Memory.after, Memory.hooked]
    split <;> rfl
  | _ => rfl

/-- A hook in place was there before, or it has just been placed. -/
theorem patched_after {s : System} {op : NativeOp} {answer : op.Ans} {address : Ptr} {hook : Hook}
    (carried : (s.after op answer).memory.patched address = some hook) :
    s.memory.patched address = some hook ∨ ∃ cell, op = .shadowhookHook address hook cell := by
  cases op with
  | mark m => cases m <;> exact .inl carried
  | shadowhookHook site replacement cell =>
    simp only [System.after, Memory.after, Memory.hooked] at carried
    split at carried
    · exact .inl carried
    · by_cases here : address = site
      · subst here
        obtain rfl : replacement = hook := by simpa using carried
        exact .inr ⟨cell, rfl⟩
      · exact .inl (by simpa [here] using carried)
  | shadowhookUnhook stub =>
    by_cases here : address = s.memory.stubs stub
    · simp [System.after, Memory.after, here] at carried
    · exact .inl (by simpa [System.after, Memory.after, here] using carried)
  | _ => exact .inl carried

section

variable {build : Build}

/-- Proxies leave exports, slots, patches and the engine alone. -/
def proxyDiscipline (build : Build) : (system build).Discipline where
  fit _ _ _ := True
  inv _ := True
  later _ _ := True
  holds _ _ p := Confined anyAnswer proxyEffects p
  aside _ _ := True
  later_keeps _ held := held
  opening_inv _ quiet := ⟨trivial, quiet⟩
  opening_aside := id
  entered {s site args p} _ _ _ entered := by
    obtain ⟨hook, _, rfl⟩ := Option.map_eq_some_iff.mp entered
    exact (Confined.rule build hook).proxy args
  answered _ held _ _ := ⟨trivial, trivial, held.2 _ trivial, fun _ => trivial⟩
  returned held _ := held.2 _ trivial
  asideAnswered _ _ _ _ := ⟨trivial, trivial, trivial⟩

/-- The flags are as the account says, and hooks are where it says. -/
structure Agrees (build : Build) (s : System) (t : Placing) : Prop where
  started : s.memory.flag .engineStarted = t.started
  ready : s.memory.flag .engineReady = t.ready
  placed : ∀ address hook, s.memory.patched address = some hook → Grounded build hook address t.seen

def placingAside (build : Build) : Machine.Aside (proxyDiscipline build) (placing build) where
  tied := Agrees build
  opening tied := ⟨tied.started, tied.ready, tied.placed⟩
  answered {s t site op next answer} held _ tied := by
    have apart : op.effect ≠ some .setup := fun setup => absurd (held.1 .setup setup) (by decide)
    have spares := NativeOp.sparesEngine apart
    refine ⟨?_, ?_, fun address hook carried => ?_⟩
    · exact (flag_after s answer _).trans ((spares.started _).trans tied.started)
    · exact (flag_after s answer _).trans ((spares.ready _).trans tied.ready)
    · rcases patched_after carried with before | ⟨cell, rfl⟩
      · exact tied.placed address hook before
      · exact absurd rfl apart
  followed {s t op answer} tied ok admitted := by
    refine ⟨?_, ⟨?_, ?_, fun address hook carried => ?_⟩⟩
    · cases op with
      | exchange f =>
        cases f with
        | engineStarted => exact (show answer = s.memory.flag .engineStarted from admitted).trans tied.started
        | _ => trivial
      | flag f =>
        cases f with
        | engineReady => exact (show answer = s.memory.flag .engineReady from admitted).trans tied.ready
        | _ => trivial
      | _ => trivial
    · exact (flag_after s answer _).trans (congrArg (op.flagAfter .engineStarted ·) tied.started)
    · exact (flag_after s answer _).trans (congrArg (op.flagAfter .engineReady ·) tied.ready)
    · refine Grounded.lasting _ _ _ _ _ (List.subset_append_left ..) ?_
      rcases patched_after carried with before | ⟨cell, rfl⟩
      · exact tied.placed address hook before
      · exact ok.2

theorem foldl_placing (build : Build) (exchanged : Account) (t : Placing) :
    (exchanged.foldl (fun u e => (placing build).next u e.op e.answer) t).seen = t.seen ++ exchanged := by
  induction exchanged generalizing t with
  | nil => simp
  | cons e rest ih => rw [List.foldl_cons, ih, placing_seen, List.append_assoc, List.singleton_append]

/-- In every run from the loading of the library on, whatever is interleaved as
long as no entry is taken while `hook::install` executes, each address that
carries a hook has been told by the runtime as the code of that hook's own
method, and the hook engine has come up; and what the start-up thread is about
to do to exports, slots and the engine is founded on what it has been
answered. -/
theorem placement {labels : List GameLabel} {c : GameConfig}
    (run : (system build).Run (loading build) labels c) :
    (∀ address hook, c.shared.memory.patched address = some hook →
      Grounded build hook address (asides labels)) ∧
      ∀ op next, c.beside = .ask op next → Permitted build (asides labels) op := by
  have kept : (proxyDiscipline build).Kept (loading build) := ⟨trivial, trivial, nofun⟩
  have agrees : Agrees build System.initial ⟨false, false, []⟩ := ⟨rfl, rfl, nofun⟩
  have verified : (linkedInitThread build).wp (placing build) (fun u _ => u.Honest) ⟨false, false, []⟩ :=
    (placing_rule build).initThread _ ⟨fun _ _ => List.not_mem_nil, fun on => absurd on Bool.false_ne_true⟩
  obtain ⟨tied, watched⟩ := (placingAside build).run
    (fun c label _ => entersBy_any c label) run kept agrees verified
  have account := foldl_placing build (asides labels) ⟨false, false, []⟩
  rw [List.nil_append] at account
  refine ⟨fun address hook carried => account ▸ tied.placed address hook carried, fun op next here => ?_⟩
  rw [here] at watched
  exact account ▸ watched.1

end

/-- The sample game has its selection of the AppID hooked where the metadata says. -/
theorem selectAppId_placed : ∃ labels c, (system Sample.build).Run (loading Sample.build) labels c ∧
    Grounded Sample.build .selectAppId (Sample.metadata.codeOf Photon.selectAppIdTarget) (asides labels) := by
  have played : (Sample.play [.go Sample.startupSteps]).map (fun c =>
      c.shared.memory.patched (Sample.metadata.codeOf Photon.selectAppIdTarget)) = some
        (some .selectAppId) := by decide +kernel
  obtain ⟨c, reached, carried⟩ := Option.map_eq_some_iff.mp played
  obtain ⟨labels, calls, records⟩ := Sample.play_records reached
  exact ⟨labels, c, records.run, (placement records.run).1 _ _ carried⟩

end Opg3d
