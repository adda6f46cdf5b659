import Opg3d.Activation.Accounts
import Opg3d.Kit.Aside

namespace Opg3d

open Kit Native HookEngine InitThread

/-- The life of the start-up thread in the game: it waits for the runtime,
attaches itself, places its hooks, and detaches. -/
inductive Phase where
  | waiting
  | attached (thread : Ptr)
  | finished

/-- Where the thread is in its life, for how many microseconds it has slept,
and whether it has turned to the hook engine. -/
structure Lifecycle where
  phase : Phase
  slept : Nat
  hooking : Bool

/-- Five loops that pause, and the headroom after the settling. -/
def sleepLimit : Nat := 5 * (kWaitSteps * kWaitStepUs) + kSettleUs

namespace Lifecycle

def start : Lifecycle := ⟨.waiting, 0, false⟩

/-- What the thread may do. The default are the walks through metadata and what
concerns hooks: only an attached thread may do these. -/
def may (l : Lifecycle) : NativeOp → Prop
  | .log _ _ => True
  | .usleep microseconds => l.phase ≠ .finished ∧ l.hooking = false ∧ l.slept + microseconds ≤ sleepLimit
  | .findLibrary | .findSymbol _ | .bindApi _ _ | .call _ (.threadAttach _) => l.phase = .waiting
  | .apiPtr _ | .call _ .domainGet | .call _ (.domainGetAssemblies _) => l.phase ≠ .finished
  | .call _ (.threadDetach thread) => l.phase = .attached thread
  | _ => ∃ thread, l.phase = .attached thread

/-- An attached thread that finds no export to detach with is left as it is. -/
def after (l : Lifecycle) : (op : NativeOp) → op.Ans → Lifecycle
  | .usleep microseconds, _ => { l with slept := l.slept + microseconds }
  | .call _ (.threadAttach _), thread => { l with phase := if thread = 0 then .finished else .attached thread }
  | .call _ (.threadDetach _), _ => { l with phase := .finished }
  | .apiPtr .threadDetach, fn =>
    match l.phase with
    | .attached _ => if fn = 0 then { l with phase := .finished } else l
    | _ => l
  | .shadowhookInit, _ => { l with hooking := true }
  | .shadowhookHook _ _ _, _ => { l with hooking := true }
  | _, _ => l

def rested (l : Lifecycle) (microseconds : Nat) : Lifecycle := { l with slept := l.slept + microseconds }

theorem rested_rested (l : Lifecycle) (a b : Nat) : (l.rested a).rested b = l.rested (a + b) := by
  simp [rested, Nat.add_assoc]

end Lifecycle

def living : Monitor nativeSignature Lifecycle := ⟨fun _ _ _ => True, Lifecycle.may, Lifecycle.after⟩

/-- It leaves a thread that waits as it is. -/
def NativeOp.Waits : NativeOp → Prop
  | .log _ _ | .findLibrary | .findSymbol _ | .bindApi _ _ | .apiPtr _ | .call _ .domainGet
  | .call _ (.domainGetAssemblies _) => True
  | _ => False

/-- It leaves an attached thread attached, and awake. -/
def NativeOp.Works : NativeOp → Prop
  | .usleep _ | .findLibrary | .findSymbol _ | .bindApi _ _ | .call _ (.threadAttach _)
  | .call _ (.threadDetach _) | .apiPtr .threadDetach => False
  | _ => True

/-- So does it, and it does not turn to the hook engine. -/
def NativeOp.Walks : NativeOp → Prop
  | .shadowhookInit | .shadowhookHook _ _ _ => False
  | op => op.Works

theorem NativeOp.Walks.works {op : NativeOp} (walks : op.Walks) : op.Works := by
  cases op <;> first | exact walks | exact walks.elim

section

variable {l : Lifecycle} {op : NativeOp}

theorem waits_may (waiting : l.phase = .waiting) (waits : op.Waits) : l.may op := by
  cases op with
  | call fn request => cases request <;> first | exact waits.elim | simp [Lifecycle.may, waiting]
  | log | findLibrary | findSymbol | bindApi | apiPtr => simp [Lifecycle.may, waiting]
  | _ => exact waits.elim

theorem waits_after (waiting : l.phase = .waiting) (waits : op.Waits) (answer : op.Ans) :
    l.after op answer = l := by
  cases op with
  | call fn request => cases request <;> first | exact waits.elim | rfl
  | apiPtr f => cases f <;> simp [Lifecycle.after, waiting]
  | log | findLibrary | findSymbol | bindApi => rfl
  | _ => exact waits.elim

theorem works_may {thread : Ptr} (attached : l.phase = .attached thread) (works : op.Works) : l.may op := by
  cases op with
  | call fn request => cases request <;> first | exact works.elim | simp [Lifecycle.may, attached]
  | usleep | findLibrary | findSymbol | bindApi => exact works.elim
  | _ => simp [Lifecycle.may, attached]

theorem works_after (works : op.Works) (answer : op.Ans) :
    (l.after op answer).phase = l.phase ∧ (l.after op answer).slept = l.slept := by
  cases op with
  | call fn request => cases request <;> first | exact works.elim | exact ⟨rfl, rfl⟩
  | apiPtr f => cases f <;> first | exact works.elim | exact ⟨rfl, rfl⟩
  | usleep | findLibrary | findSymbol | bindApi => exact works.elim
  | _ => exact ⟨rfl, rfl⟩

theorem walks_after (walks : op.Walks) (answer : op.Ans) : l.after op answer = l := by
  cases op with
  | call fn request => cases request <;> first | exact walks.elim | rfl
  | apiPtr f => cases f <;> first | exact walks.elim | rfl
  | usleep | findLibrary | findSymbol | bindApi | shadowhookInit | shadowhookHook => exact walks.elim
  | _ => rfl

end

abbrev Waiting {α : Type} (p : Native α) : Prop := Prog.Only anyAnswer NativeOp.Waits p

abbrev Walking {α : Type} (p : Native α) : Prop := Prog.Only anyAnswer NativeOp.Walks p

abbrev Working {α : Type} (p : Native α) : Prop := Prog.Only anyAnswer NativeOp.Works p

section

variable {α : Type} {p : Native α}

theorem Waiting.wp (calm : Waiting p) {l : Lifecycle} (waiting : l.phase = .waiting) :
    p.wp living (fun u _ => u = l) l := by
  refine Prog.Only.keeps calm (fun u op same waits => ?_) l rfl
  subst same
  exact ⟨waits_may waiting waits, fun answer _ => ⟨trivial, waits_after waiting waits answer⟩⟩

theorem Walking.wp (walking : Walking p) {l : Lifecycle} {thread : Ptr}
    (attached : l.phase = .attached thread) : p.wp living (fun u _ => u = l) l := by
  refine Prog.Only.keeps walking (fun u op same walks => ?_) l rfl
  subst same
  exact ⟨works_may attached walks.works, fun answer _ => ⟨trivial, walks_after walks answer⟩⟩

theorem Working.wp (working : Working p) {l : Lifecycle} {thread : Ptr}
    (attached : l.phase = .attached thread) :
    p.wp living (fun u _ => u.phase = .attached thread ∧ u.slept = l.slept) l := by
  refine Prog.Only.keeps working (fun u op same works => ?_) l ⟨attached, rfl⟩
  refine ⟨works_may same.1 works, fun answer _ => ⟨trivial, ?_⟩⟩
  have after := works_after (l := u) works answer
  exact ⟨after.1.trans same.1, after.2.trans same.2⟩

end

namespace Waiting

theorem bind (f : Api) : Waiting (Il2cpp.bind f) :=
  .ask trivial fun _ _ => .ite (fun _ => .done _) fun _ => .ask trivial fun _ _ =>
    .ask trivial fun _ _ => .done _

theorem resolve : Waiting Il2cpp.resolve := by
  have all (fs : List Api) : Waiting (Il2cpp.bindAll fs) := by
    induction fs with
    | nil => exact .done _
    | cons f rest ih => exact (bind f).seq fun bound => ih.seq fun ok => .done _
  exact (all _).seq fun ok => (bind _).seq fun _ => .done _

theorem domainGet : Waiting (api .domainGet) := .ask trivial fun _ _ => .perform trivial

theorem anyNull (fs : List Api) : Waiting (anyNull fs) := by
  induction fs with
  | nil => exact .done _
  | cons f rest ih => exact .ask trivial fun fn _ => .ite (fun _ => .done _) fun _ => ih

theorem assemblyCount (domain : Ptr) : Waiting (assemblyCount domain) := by
  refine .ite (fun _ => .done _) fun _ => (anyNull _).seq fun unbound => .ite (fun _ => .done _) fun _ => ?_
  exact .ask trivial fun _ _ => .ask trivial fun _ _ => .done _

end Waiting

namespace Walking

theorem anyNull {fs : List Api} (others : ∀ f ∈ fs, f ≠ .threadDetach) : Walking (anyNull fs) := by
  induction fs with
  | nil => exact .done _
  | cons f rest ih =>
    obtain ⟨other, others⟩ := List.forall_mem_cons.mp others
    refine .ask ?_ fun fn _ => .ite (fun _ => .done _) fun _ => ih others
    cases f with
    | threadDetach => exact other rfl
    | _ => trivial

theorem read {request : ApiCall} (none : request.effect = none) : Walking (api request) := by
  cases request with
  | stringNew | fieldSetValue | fieldStaticSetValue | threadAttach | threadDetach => cases none
  | _ => exact .ask trivial fun fn _ => .perform trivial

theorem loadedAssemblies : Walking Il2cpp.loadedAssemblies := by
  refine (read rfl).seq fun domain => .ite (fun _ => .done _) fun _ => ?_
  refine (read rfl).seq fun assemblies => ?_
  split
  · exact .done _
  · exact .ite (fun _ => .done _) fun _ => .done _

theorem findImageIn (name : String) (assemblies : List Ptr) :
    Walking (Il2cpp.findImageIn name assemblies) := by
  induction assemblies with
  | nil => exact .done _
  | cons assembly rest ih =>
    refine .ite (fun _ => ih) fun _ => (read rfl).seq fun image => .ite (fun _ => ih) fun _ => ?_
    exact (read rfl).seq fun imageName => .ite (fun _ => .done _) fun _ => ih

theorem findImage (name : String) : Walking (Il2cpp.findImage name) := by
  refine (anyNull (by decide)).seq fun unbound => .ite (fun _ => .done _) fun _ => ?_
  exact loadedAssemblies.seq fun assemblies => findImageIn name assemblies

theorem findClassIn (namespaze name : String) (assemblies : List Ptr) :
    Walking (Il2cpp.findClassIn namespaze name assemblies) := by
  induction assemblies with
  | nil => exact .done _
  | cons assembly rest ih =>
    refine .ite (fun _ => ih) fun _ => (read rfl).seq fun image => .ite (fun _ => ih) fun _ => ?_
    exact (read rfl).seq fun klass => .ite (fun _ => .done _) fun _ => ih

theorem findMethodInfo (namespaze klass method : String) (argsCount : Int) :
    Walking (Il2cpp.findMethodInfo namespaze klass method argsCount) := by
  have type : Walking (Il2cpp.findClass namespaze klass) := by
    refine (anyNull (by decide)).seq fun unbound => .ite (fun _ => .done _) fun _ => ?_
    exact loadedAssemblies.seq fun assemblies => findClassIn namespaze klass assemblies
  refine (anyNull (by decide)).seq fun unbound => .ite (fun _ => .done _) fun _ => ?_
  exact type.seq fun type => .ite (fun _ => .done _) fun _ => read rfl

theorem methodPointer (methodInfo : Ptr) : Walking (Il2cpp.methodPointer methodInfo) :=
  .ite (fun _ => .done _) fun _ => .perform trivial

end Walking

namespace Working

theorem of_walking {α : Type} {p : Native α} (walking : Walking p) : Working p :=
  Prog.Only.mono walking fun _ walks => walks.works

theorem log (priority : Priority) (format : String) (args : List Arg) :
    Working (Native.log priority format args) :=
  .ask trivial fun _ _ => .done _

theorem ensureEngine : Working ensureEngine := by
  refine .ask trivial fun started _ => .ite (fun _ => .done _) fun _ => .ask trivial fun rc _ =>
    .ask trivial fun _ _ => ?_
  refine .ite (fun _ => ?_) fun _ => ?_
  · exact .ask trivial fun version _ => log _ _ _
  · exact .ask trivial fun message _ => log _ _ _

theorem patchAddress (target : ManagedMethod) (address : Ptr) (replacement original : Hook) :
    Working (patchAddress target address replacement original) := by
  refine .ask trivial fun _ _ => .ask trivial fun answer _ => .ite (fun _ => ?_) fun _ =>
    .ask trivial fun trampoline _ => ?_
  · exact .ask trivial fun err _ => .ask trivial fun message _ => (log _ _ _).seq fun _ => .done _
  · refine .ite (fun _ => ?_) fun _ => (log _ _ _).seq fun _ => .done _
    exact (log _ _ _).seq fun _ => .ask trivial fun _ _ => .done _

theorem install (target : ManagedMethod) (hook : Hook) (required : Bool) :
    Working (install target (some hook) (some hook) required) := by
  have failed (p : Native Unit) (said : Working p) : Working (do p; return false) :=
    said.seq fun _ => .done _
  have body : Working (installTarget target hook hook required) := by
    refine ensureEngine.seq fun _ => .ask trivial fun ready _ =>
      .ite (fun _ => failed _ (log _ _ _)) fun _ => ?_
    refine (of_walking (.findMethodInfo ..)).seq fun info => .ite (fun _ => ?_) fun _ => ?_
    · exact .ite (fun _ => failed _ (log _ _ _)) fun _ => failed _ (log _ _ _)
    · refine (of_walking (.methodPointer info)).seq fun address =>
        .ite (fun _ => failed _ (log _ _ _)) fun _ => ?_
      exact patchAddress target address hook hook
  exact .ask trivial fun _ _ => body.seq fun installed => .ask trivial fun _ _ => .done _

theorem installOptionals (targets : List (ManagedMethod × Hook)) (installed : Nat) :
    Working (installOptionals targets installed) := by
  induction targets generalizing installed with
  | nil => exact .done _
  | cons first rest ih =>
    have one : Working (installOptional first.1 first.2 installed) :=
      (install first.1 first.2 false).seq fun _ => .ite (fun _ => .done _) fun _ => .done _
    exact one.seq fun count => ih count

theorem photonInstallHooks (build : Build) : Working (Photon.installHooks build) := by
  refine .ask trivial fun version _ => (log _ _ _).seq fun _ => (install _ _ _).seq fun core => ?_
  refine (installOptionals _ _).seq fun installed => (log _ _ _).seq fun _ => (log _ _ _).seq fun _ => ?_
  exact .ite (fun _ => (log _ _ _).seq fun _ => .done _) fun _ => .done _

theorem guardInstallHooks (build : Build) : Working (CloudGuard.installHooks build) := by
  refine .ite (fun _ => (log _ _ _).seq fun _ => .done _) fun _ =>
    (install _ _ _).seq fun backendGuard => ?_
  exact (installOptionals _ _).seq fun installed => (log _ _ _).seq fun _ => .done _

end Working

/-- `init_thread` as it runs with the other modules linked in. -/
def Lives (build : Build) {α : Type} (p : Init α) (post : Lifecycle → α → Prop) (l : Lifecycle) : Prop :=
  (p.interp (link build)).wp living post l

/-- The thread has slept for so long at most, and is as it was otherwise. -/
def Rested (most : Nat) (l u : Lifecycle) : Prop := ∃ microseconds ≤ most, u = l.rested microseconds

/-- It is not attached any more, or has never been. -/
def Parted (l : Lifecycle) : Prop := ∀ thread, l.phase ≠ .attached thread

theorem Rested.refl (l : Lifecycle) (most : Nat) : Rested most l l := ⟨0, most.zero_le, rfl⟩

theorem Rested.trans {a b : Nat} {l u v : Lifecycle} (first : Rested a l u) (second : Rested b u v) :
    Rested (a + b) l v := by
  obtain ⟨m, low, rfl⟩ := first
  obtain ⟨n, low', rfl⟩ := second
  exact ⟨m + n, Nat.add_le_add low low', Lifecycle.rested_rested ..⟩

namespace Lives

variable {build : Build} {α β : Type} {l : Lifecycle}

theorem bind {p : Init α} {f : α → Init β} {mid : Lifecycle → α → Prop} {post : Lifecycle → β → Prop}
    (first : Lives build p mid l) (second : ∀ u a, mid u a → Lives build (f a) post u) :
    Lives build (p >>= f) post l := by
  unfold Lives
  rw [Prog.bind_eq, Prog.interp_bind]
  exact Prog.wp.bind first second

theorem seq {p : Init α} {f : α → Init β} {post : Lifecycle → β → Prop}
    (first : Lives build p (fun u _ => u = l) l) (second : ∀ a, Lives build (f a) post l) :
    Lives build (p >>= f) post l :=
  first.bind fun _ a same => same ▸ second a

theorem native {p : Native α} {post : Lifecycle → α → Prop} (run : p.wp living post l) :
    Lives build (InitThread.native p) post l := by
  unfold Lives
  rw [link_native]
  exact run

theorem component {c : Component} {post : Lifecycle → c.Ans → Prop}
    (run : (c.code build).wp living post l) : Lives build (InitThread.component c) post l := by
  unfold Lives
  rw [link_component]
  exact run

theorem ite {c : Prop} [Decidable c] {p q : Init α} {post : Lifecycle → α → Prop}
    (yes : c → Lives build p post l) (no : ¬c → Lives build q post l) :
    Lives build (if c then p else q) post l := by
  split
  · rename_i holds
    exact yes holds
  · rename_i fails
    exact no fails

theorem log (priority : Priority) (format : String) (args : List Arg) :
    Lives build (InitThread.native (Native.log priority format args)) (fun u _ => u = l) l :=
  native ⟨trivial, fun _ _ => rfl⟩

theorem report (priority : Priority) (format : String) (args : List Arg) (parted : Parted l) :
    Lives build (InitThread.native (Native.log priority format args)) (fun u _ => Parted u) l :=
  native ⟨trivial, fun _ _ => parted⟩

theorem sleep {microseconds : Nat} (awake : l.phase ≠ .finished) (idle : l.hooking = false)
    (room : l.slept + microseconds ≤ sleepLimit) :
    Lives build (InitThread.native (usleep microseconds)) (fun u _ => u = l.rested microseconds) l :=
  native ⟨⟨awake, idle, room⟩, fun _ _ => rfl⟩

/-- A loop that pauses after each failure rests for so many steps at most. -/
theorem poll {sample : Init (Option α)} {phase : Phase} (awake : phase ≠ .finished)
    (sampled : ∀ l : Lifecycle, l.phase = phase → Lives build sample (fun u _ => u = l) l) (n : Nat)
    (here : l.phase = phase) (idle : l.hooking = false) (room : l.slept + n * kWaitStepUs ≤ sleepLimit) :
    Lives build (Prog.poll sample pause n) (fun u _ => Rested (n * kWaitStepUs) l u) l := by
  induction n generalizing l with
  | zero => exact Rested.refl l _
  | succ n ih =>
    rw [Nat.succ_mul] at room
    refine (sampled l here).seq fun result => ?_
    cases result with
    | some value => exact Rested.refl l _
    | none =>
      refine (sleep (here ▸ awake) idle (by omega)).bind ?_
      rintro _ _ rfl
      refine Prog.wp.mono (ih here idle (by simp only [Lifecycle.rested]; omega)) fun u _ more => ?_
      rw [Nat.succ_mul, Nat.add_comm]
      exact Rested.trans ⟨_, le_rfl, rfl⟩ more

theorem settle (domain : Ptr) (steps stable last : Nat) (waiting : l.phase = .waiting)
    (idle : l.hooking = false) (room : l.slept + steps * kWaitStepUs ≤ sleepLimit) :
    Lives build (InitThread.settle domain steps stable last) (fun u _ => Rested (steps * kWaitStepUs) l u) l := by
  induction steps generalizing l stable last with
  | zero => exact Rested.refl l _
  | succ steps ih =>
    rw [Nat.succ_mul] at room
    refine ite (fun _ => ?_) fun _ => Rested.refl l _
    refine (native ((Waiting.assemblyCount domain).wp waiting)).seq fun now => ?_
    refine (sleep (by simp [waiting]) idle (by omega)).bind ?_
    rintro _ _ rfl
    refine Prog.wp.mono (ih _ _ waiting idle (by simp only [Lifecycle.rested]; omega)) fun u _ more => ?_
    rw [Nat.succ_mul, Nat.add_comm]
    exact Rested.trans ⟨_, le_rfl, rfl⟩ more

/-- An attached thread is detached, unless there is no export for it. -/
theorem detach {thread : Ptr} (attached : l.phase = .attached thread) :
    (detach thread).wp living (fun u _ => u.phase = .finished) l := by
  refine ⟨by simp [living, Lifecycle.may, attached], fun fn _ => .ite (fun found => ?_) fun missing => ?_⟩
  · have kept : living.next l (.apiPtr .threadDetach) fn = l := by simp [living, Lifecycle.after, attached, found]
    rw [kept]
    exact ⟨attached, fun _ _ => rfl⟩
  · simp [living, Lifecycle.after, attached, not_not.mp missing]

theorem installAndReport {thread : Ptr} (attached : l.phase = .attached thread) :
    Lives build installAndReport (fun u _ => u.phase = .attached thread) l := by
  have say (u : Lifecycle) (here : u.phase = .attached thread) (priority : Priority) (format : String)
      (args : List Arg) :
      Lives build (InitThread.native (Native.log priority format args))
        (fun v _ => v.phase = .attached thread) u :=
    native ⟨trivial, fun _ _ => here⟩
  refine bind (component ((Working.photonInstallHooks build).wp attached)) fun u photonInstalled first => ?_
  refine bind (component ((Working.guardInstallHooks build).wp first.1)) fun v guardInstalled second => ?_
  refine ite (fun _ => say v second.1 _ _ _) fun _ => ite (fun _ => ?_) fun _ => ?_
  · exact (say v second.1 _ _ _).bind fun w _ here => ite (fun _ => say w here _ _ _) fun _ => here
  · exact ite (fun _ => say v second.1 _ _ _) fun _ => second.1

theorem attachedPhase {thread : Ptr} (attached : l.phase = .attached thread) (idle : l.hooking = false)
    (room : l.slept + kWaitSteps * kWaitStepUs ≤ sleepLimit) :
    Lives build (attachedPhase thread) (fun u _ => Parted u) l := by
  have gone {u : Lifecycle} (finished : u.phase = .finished) : Parted u := by simp [Parted, finished]
  have sampled (u : Lifecycle) (here : u.phase = .attached thread) : Lives build
      (do return nonNull (← InitThread.component (.findImage "Assembly-CSharp.dll"))) (fun v _ => v = u) u :=
    (component (c := .findImage "Assembly-CSharp.dll") ((Walking.findImage _).wp here)).seq fun _ => rfl
  refine (log _ _ _).seq fun _ => (poll (by simp) sampled kWaitSteps attached idle room).bind ?_
  rintro _ found ⟨rest, _, rfl⟩
  have still : (l.rested rest).phase = .attached thread := attached
  cases found with
  | none => exact (log _ _ _).seq fun _ => native ((detach still).mono fun _ _ => gone)
  | some image =>
    refine (log _ _ _).seq fun _ => (installAndReport still).bind fun u _ here => ?_
    exact (native (detach here)).bind fun v _ finished => report _ _ _ (gone finished)

theorem domainPhase (domain : Ptr) (waiting : l.phase = .waiting) (idle : l.hooking = false)
    (room : l.slept + 2 * (kWaitSteps * kWaitStepUs) + kSettleUs ≤ sleepLimit) :
    Lives build (domainPhase domain) (fun u _ => Parted u) l := by
  refine (log _ _ _).seq fun _ => (settle domain _ _ _ waiting idle (by omega)).bind ?_
  rintro _ settled ⟨rest, low, rfl⟩
  have apart : Parted (l.rested rest) := by simp [Parted, Lifecycle.rested, waiting]
  refine ite (fun _ => report _ _ _ apart) fun _ => (log _ _ _).seq fun _ => ?_
  have awake : (l.rested rest).phase ≠ .finished := by simp [Lifecycle.rested, waiting]
  refine (sleep awake idle (by simp only [Lifecycle.rested]; omega)).bind ?_
  rintro _ _ rfl
  have attach : Lives build (InitThread.native (api (.threadAttach domain))) (fun u thread =>
      u = { (l.rested rest).rested kSettleUs with phase := if thread = 0 then .finished else .attached thread })
      ((l.rested rest).rested kSettleUs) := by
    refine native ⟨awake, fun fn _ => ?_⟩
    exact ⟨waiting, fun thread _ => rfl⟩
  refine attach.bind ?_
  rintro _ thread rfl
  refine ite (fun refused => report _ _ _ ?_) fun attached => attachedPhase ?_ idle ?_
  · simp [Parted, refused]
  · simp [attached]
  · simp only [Lifecycle.rested]
    omega

theorem initThread : Lives build initThread (fun u _ => Parted u) .start := by
  have limit : sleepLimit = 5 * (kWaitSteps * kWaitStepUs) + kSettleUs := rfl
  have apart (rest : Nat) : Parted (Lifecycle.start.rested rest) := nofun
  have library (u : Lifecycle) (here : u.phase = .waiting) :
      Lives build (InitThread.native findLibrary) (fun v _ => v = u) u := native ⟨here, fun _ _ => rfl⟩
  have exports (u : Lifecycle) (here : u.phase = .waiting) : Lives build
      (do return if ← InitThread.native Il2cpp.resolve then some () else none) (fun v _ => v = u) u :=
    (native (Waiting.resolve.wp here)).seq fun _ => rfl
  have asked (u : Lifecycle) (here : u.phase = .waiting) : Lives build
      (do return nonNull (← InitThread.native (api .domainGet))) (fun v _ => v = u) u :=
    (native (Waiting.domainGet.wp here)).seq fun _ => rfl
  have open_ : Phase.waiting ≠ .finished := nofun
  refine (log _ _ _).seq fun _ => (poll open_ library kWaitSteps rfl rfl
    (by simp only [Lifecycle.start]; omega)).bind ?_
  rintro _ found ⟨a, low, rfl⟩
  cases found with
  | none => exact report _ _ _ (apart a)
  | some base =>
    refine (log _ _ _).seq fun _ => (poll open_ exports kWaitSteps rfl rfl ?_).bind ?_
    · simp only [Lifecycle.start, Lifecycle.rested]
      omega
    rintro _ resolved ⟨b, low', rfl⟩
    rw [Lifecycle.rested_rested]
    cases resolved with
    | none => exact report _ _ _ (apart _)
    | some _ =>
      refine (log _ _ _).seq fun _ => (poll open_ asked kWaitSteps rfl rfl ?_).bind ?_
      · simp only [Lifecycle.start, Lifecycle.rested]
        omega
      rintro _ found ⟨c, low'', rfl⟩
      rw [Lifecycle.rested_rested]
      cases found with
      | none => exact report _ _ _ (apart _)
      | some domain =>
        refine domainPhase domain rfl rfl ?_
        simp only [Lifecycle.start, Lifecycle.rested]
        omega

end Lives

/-- The life of the start-up thread in a run so far. -/
def lifeOf (labels : List GameLabel) : Lifecycle :=
  (asides labels).foldl (fun l e => l.after e.op e.answer) .start

theorem slept_after {l : Lifecycle} {op : NativeOp} (within : l.slept ≤ sleepLimit) (may : l.may op)
    (answer : op.Ans) : (l.after op answer).slept ≤ sleepLimit := by
  cases op with
  | usleep microseconds => exact may.2.2
  | call fn request => cases request <;> exact within
  | apiPtr f =>
    cases f with
    | threadDetach =>
      simp only [Lifecycle.after]
      split
      · split <;> exact within
      · exact within
    | _ => exact within
  | _ => exact within

def livingAside (build : Build) : Machine.Aside (libraryDiscipline build) living where
  tied _ l := l.slept ≤ sleepLimit
  opening := id
  answered _ _ within := within
  followed within may _ := ⟨trivial, slept_after within may _⟩

/-- In every run from the loading of the library on, whatever the surroundings
answer and whatever the game does meanwhile (it takes no entry while
`hook::install` executes): what the start-up thread is about to do is what its
life so far permits; it never sleeps for longer than its loops allow together,
nor at all once it has turned to the hook engine; and when it ends it has
detached itself, if it was attached and there is an export for that. -/
theorem startup_lifecycle {build : Build} {labels : List GameLabel} {c : GameConfig}
    (run : (system build).Run (loading build) labels c) :
    (∀ op next, c.beside = .ask op next → (lifeOf labels).may op) ∧ (lifeOf labels).slept ≤ sleepLimit ∧
      (c.beside = .done () → ∀ thread, (lifeOf labels).phase ≠ .attached thread) := by
  have verified : (linkedInitThread build).wp living (fun l _ => Parted l) .start := Lives.initThread
  obtain ⟨within, lives⟩ := (livingAside build).run (fun c label _ => entersBy_any c label) run
    (kept_initial build) (show Lifecycle.start.slept ≤ sleepLimit from Nat.zero_le _) verified
  refine ⟨fun op next here => ?_, within, fun ended => ?_⟩
  · rw [here] at lives
    exact lives.1
  · rw [ended] at lives
    exact lives

/-- Whether the start-up thread has ended. -/
def ended (c : GameConfig) : Bool :=
  match c.beside with
  | .done _ => true
  | .ask _ _ => false

theorem startup_ends_detached :
    ∃ labels c, (system Sample.build).Run (loading Sample.build) labels c ∧ c.beside = .done () ∧
      ∀ thread, (lifeOf labels).phase ≠ .attached thread := by
  have played : (Sample.play [.go Sample.startupSteps]).map ended = some true := by decide +kernel
  obtain ⟨c, reached, ended_⟩ := Option.map_eq_some_iff.mp played
  obtain ⟨labels, calls, records⟩ := Sample.play_records reached
  have done : c.beside = .done () := by
    cases here : c.beside with
    | done value => rfl
    | ask op next => simp [ended, here] at ended_
  exact ⟨labels, c, records.run, done, (startup_lifecycle records.run).2.2 done⟩

end Opg3d
