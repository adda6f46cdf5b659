import Opg3d.Activation.Rule

namespace Opg3d

open Kit Native HookEngine InitThread

/-- The methods that Photon's module hooks, each with its hook. -/
def photonInstalls : List (ManagedMethod × Hook) :=
  (Photon.selectAppIdTarget, .selectAppId) :: Photon.optionalTargets

def guardInstalls : List (ManagedMethod × Hook) :=
  (CloudGuard.friendsUpdateTarget, .friendsUpdate) :: CloudGuard.guardedTargets

/-- The hooks that a build places, in the order in which it tries. -/
def Build.installs (build : Build) : List (ManagedMethod × Hook) :=
  if build.selfhosted then photonInstalls else photonInstalls ++ guardInstalls

/-- A property of code that the start-up thread is composed to have. -/
structure StartupRule (build : Build) (P : {α : Type} → Native α → Prop) : Prop where
  seq : ∀ {α β : Type} {p : Native α} {f : α → Native β}, P p → (∀ a, P (f a)) → P (p >>= f)
  quiet : ∀ {α : Type} {p : Native α}, Confined anyAnswer [] p → P p
  bind : ∀ f, P (Il2cpp.bind f)
  attach : ∀ domain, P (api (.threadAttach domain))
  detach : ∀ thread, P (detach thread)
  install : ∀ target hook required, (target, hook) ∈ build.installs →
    P (install target (some hook) (some hook) required)

/-- The same of code of `init_thread` with the other modules linked in. -/
def Linked (build : Build) (P : {α : Type} → Native α → Prop) {α : Type} (p : Init α) : Prop :=
  P (p.interp (link build))

namespace StartupRule

variable {build : Build} {P : {α : Type} → Native α → Prop} {α β : Type}

theorem log (rule : StartupRule build P) (priority : Priority) (format : String) (args : List Arg) :
    P (Native.log priority format args) := rule.quiet (.log _ _ _)

theorem done (rule : StartupRule build P) (value : α) : P (.done value : Native α) := rule.quiet (.done _)

theorem installOptionals (rule : StartupRule build P) (targets : List (ManagedMethod × Hook))
    (installed : Nat) (members : ∀ target ∈ targets, target ∈ build.installs) :
    P (installOptionals targets installed) := by
  induction targets generalizing installed with
  | nil => exact rule.done _
  | cons first rest ih =>
    have one : P (installOptional first.1 first.2 installed) :=
      rule.seq (rule.install first.1 first.2 false (members _ (List.mem_cons_self ..))) fun _ =>
        branches (rule.done _) (rule.done _)
    exact rule.seq one fun count => ih count fun target member =>
      members target (List.mem_cons_of_mem _ member)

theorem photonInstalls_within (build : Build) : ∀ target ∈ photonInstalls, target ∈ build.installs := by
  intro target member
  unfold Build.installs
  split
  · exact member
  · exact List.mem_append_left _ member

theorem photonInstallHooks (rule : StartupRule build P) : P (Photon.installHooks build) := by
  have within := photonInstalls_within build
  refine rule.seq (rule.quiet (.quiet rfl)) fun version => rule.seq (rule.log _ _ _) fun _ => ?_
  refine rule.seq (rule.install _ _ _ (within _ (List.mem_cons_self ..))) fun core => ?_
  refine rule.seq (rule.installOptionals _ _ fun target member =>
    within target (List.mem_cons_of_mem _ member)) fun installed => ?_
  refine rule.seq (rule.log _ _ _) fun _ => rule.seq (rule.log _ _ _) fun _ => ?_
  exact branches (rule.seq (rule.log _ _ _) fun _ => rule.done _) (rule.done _)

theorem guardInstallHooks (rule : StartupRule build P) : P (CloudGuard.installHooks build) := by
  by_cases own : build.selfhosted = true
  · rw [CloudGuard.installHooks, if_pos own]
    exact rule.seq (rule.log _ _ _) fun _ => rule.done _
  have within : ∀ target ∈ guardInstalls, target ∈ build.installs := by
    intro target member
    rw [Build.installs, if_neg own]
    exact List.mem_append_right _ member
  rw [CloudGuard.installHooks, if_neg own]
  refine rule.seq (rule.install _ _ _ (within _ (List.mem_cons_self ..))) fun backendGuard => ?_
  refine rule.seq (rule.installOptionals _ _ fun target member =>
    within target (List.mem_cons_of_mem _ member)) fun installed => ?_
  exact rule.seq (rule.log _ _ _) fun _ => rule.done _

theorem findImage_quiet (name : String) : Confined anyAnswer [] (Il2cpp.findImage name) := by
  have among (assemblies : List Ptr) : Confined anyAnswer [] (Il2cpp.findImageIn name assemblies) := by
    induction assemblies with
    | nil => exact .done _
    | cons assembly rest ih =>
      refine .ite (fun _ => ih) fun _ => (Confined.read rfl).seq fun image => .ite (fun _ => ih) fun _ => ?_
      exact (Confined.read rfl).seq fun imageName => .ite (fun _ => .done _) fun _ => ih
  refine (Confined.anyNull _).seq fun unbound => .ite (fun _ => .done _) fun _ => ?_
  exact Confined.loadedAssemblies.seq fun assemblies => among assemblies

theorem code (rule : StartupRule build P) (c : Component) : P (c.code build) := by
  cases c with
  | findImage name => exact rule.quiet (findImage_quiet name)
  | photonInstallHooks => exact rule.photonInstallHooks
  | cloudGuardInstallHooks => exact rule.guardInstallHooks

theorem resolve (rule : StartupRule build P) : P Il2cpp.resolve := by
  have all (fs : List Api) : P (Il2cpp.bindAll fs) := by
    induction fs with
    | nil => exact rule.done _
    | cons f rest ih => exact rule.seq (rule.bind f) fun bound => rule.seq ih fun ok => rule.done _
  exact rule.seq (all _) fun ok => rule.seq (rule.bind _) fun _ => rule.done _

theorem assemblyCount_quiet (domain : Ptr) : Confined anyAnswer [] (assemblyCount domain) := by
  refine .ite (fun _ => .done _) fun _ => (Confined.anyNull _).seq fun unbound =>
    .ite (fun _ => .done _) fun _ => ?_
  exact (Confined.read rfl).seq fun assemblies => .done _

theorem linked_seq (rule : StartupRule build P) {p : Init α} {f : α → Init β} (first : Linked build P p)
    (second : ∀ a, Linked build P (f a)) : Linked build P (p >>= f) := by
  unfold Linked
  rw [Prog.bind_eq, Prog.interp_bind]
  exact rule.seq first second

theorem linked_native {p : Native α} (holds : P p) : Linked build P (native p) := by
  unfold Linked
  rwa [link_native]

theorem linked_log (rule : StartupRule build P) (priority : Priority) (format : String) (args : List Arg) :
    Linked build P (native (Native.log priority format args)) := linked_native (rule.log _ _ _)

theorem linked_done (rule : StartupRule build P) (value : α) : Linked build P (.done value : Init α) :=
  rule.done _

theorem linked_component (rule : StartupRule build P) (c : Component) : Linked build P (component c) := by
  unfold Linked
  rw [link_component]
  exact rule.code c

theorem linked_branches {c : Prop} [Decidable c] {p q : Init α} (yes : Linked build P p)
    (no : Linked build P q) : Linked build P (if c then p else q) := by
  split
  · exact yes
  · exact no

theorem linked_pause (rule : StartupRule build P) : Linked build P pause :=
  linked_native (rule.quiet (.quiet rfl))

theorem linked_poll (rule : StartupRule build P) {sample : Init (Option α)}
    (sampled : Linked build P sample) (n : Nat) : Linked build P (Prog.poll sample pause n) := by
  induction n with
  | zero => exact rule.linked_done _
  | succ n ih =>
    refine rule.linked_seq sampled fun result => ?_
    cases result with
    | some value => exact rule.linked_done _
    | none => exact rule.linked_seq rule.linked_pause fun _ => ih

theorem linked_settle (rule : StartupRule build P) (domain : Ptr) (steps stable last : Nat) :
    Linked build P (settle domain steps stable last) := by
  induction steps generalizing stable last with
  | zero => exact rule.linked_done _
  | succ steps ih =>
    refine linked_branches ?_ (rule.linked_done _)
    refine rule.linked_seq (linked_native (rule.quiet (assemblyCount_quiet domain))) fun now => ?_
    exact rule.linked_seq rule.linked_pause fun _ => ih _ _

theorem linked_installAndReport (rule : StartupRule build P) : Linked build P installAndReport := by
  refine rule.linked_seq (rule.linked_component _) fun photonInstalled => ?_
  refine rule.linked_seq (rule.linked_component _) fun guardInstalled =>
    linked_branches (rule.linked_log _ _ _) ?_
  have last : Linked build P (do
      if !guardInstalled then
        native <| logE "init: Photon Cloud/dead-backend guard incomplete; do not treat this build as a successful online fix" []) :=
    linked_branches (rule.linked_log _ _ _) (rule.linked_done _)
  exact linked_branches (rule.linked_seq (rule.linked_log _ _ _) fun _ => last) last

theorem linked_attachedPhase (rule : StartupRule build P) (thread : Ptr) :
    Linked build P (attachedPhase thread) := by
  have image : Linked build P awaitImage :=
    rule.linked_poll (rule.linked_seq (rule.linked_component _) fun image => rule.linked_done _) _
  refine rule.linked_seq (rule.linked_log _ _ _) fun _ => rule.linked_seq image fun found => ?_
  cases found with
  | none => exact rule.linked_seq (rule.linked_log _ _ _) fun _ => linked_native (rule.detach thread)
  | some image =>
    refine rule.linked_seq (rule.linked_log _ _ _) fun _ =>
      rule.linked_seq rule.linked_installAndReport fun _ => ?_
    exact rule.linked_seq (linked_native (rule.detach thread)) fun _ => rule.linked_log _ _ _

theorem linked_domainPhase (rule : StartupRule build P) (domain : Ptr) :
    Linked build P (domainPhase domain) := by
  refine rule.linked_seq (rule.linked_log _ _ _) fun _ =>
    rule.linked_seq (rule.linked_settle domain _ _ _) fun settled => ?_
  refine linked_branches (rule.linked_log _ _ _) (rule.linked_seq (rule.linked_log _ _ _) fun _ => ?_)
  refine rule.linked_seq (linked_native (rule.quiet (.quiet rfl))) fun _ => ?_
  refine rule.linked_seq (linked_native (rule.attach domain)) fun thread => ?_
  exact linked_branches (rule.linked_log _ _ _) (rule.linked_attachedPhase thread)

/-- What the parts have, the start-up thread has. -/
theorem initThread (rule : StartupRule build P) : P (linkedInitThread build) := by
  have library : Linked build P awaitLibrary := rule.linked_poll (linked_native (rule.quiet (.quiet rfl))) _
  have exports : Linked build P awaitExports :=
    rule.linked_poll (rule.linked_seq (linked_native rule.resolve) fun ok => rule.linked_done _) _
  have awaited : Linked build P awaitDomain :=
    rule.linked_poll (rule.linked_seq (linked_native (rule.quiet (.read rfl))) fun domain =>
      rule.linked_done _) _
  show Linked build P InitThread.initThread
  refine rule.linked_seq (rule.linked_log _ _ _) fun _ => rule.linked_seq library fun found => ?_
  cases found with
  | none => exact rule.linked_log _ _ _
  | some base =>
    refine rule.linked_seq (rule.linked_log _ _ _) fun _ => rule.linked_seq exports fun resolved => ?_
    cases resolved with
    | none => exact rule.linked_log _ _ _
    | some _ =>
      refine rule.linked_seq (rule.linked_log _ _ _) fun _ => rule.linked_seq awaited fun found => ?_
      cases found with
      | none => exact rule.linked_log _ _ _
      | some domain => exact rule.linked_domainPhase domain

end StartupRule

/-- All that the start-up thread does in the game is to attach itself, to bind
exports and to place hooks. -/
def startupEffects : List Effect := [.thread, .setup]

abbrev StartsUp {α : Type} (p : Native α) : Prop := Confined anyAnswer startupEffects p

namespace StartsUp

theorem ensureEngine : StartsUp ensureEngine := by
  refine (Confined.perform rfl (by decide)).seq fun started => .ite (fun _ => .done _) fun _ => ?_
  refine (Confined.perform rfl (by decide)).seq fun rc => (Confined.perform rfl (by decide)).seq fun _ =>
    .ite (fun _ => ?_) fun _ => ?_
  · exact (Confined.quiet rfl).seq fun version => .log _ _ _
  · exact (Confined.quiet rfl).seq fun message => .log _ _ _

theorem patchAddress (target : ManagedMethod) (address : Ptr) (replacement original : Hook) :
    StartsUp (patchAddress target address replacement original) := by
  refine (Confined.perform rfl (by decide)).seq fun _ =>
    (Confined.perform rfl (by decide)).seq fun answer => ?_
  refine .ite (fun _ => ?_) fun _ => (Confined.quiet rfl).seq fun trampoline =>
    .ite (fun _ => ?_) fun _ => ?_
  · refine (Confined.quiet rfl).seq fun err => (Confined.quiet rfl).seq fun message => ?_
    exact (Confined.log _ _ _).seq fun _ => .done _
  · exact (Confined.log _ _ _).seq fun _ => (Confined.perform rfl (by decide)).seq fun _ => .done _
  · exact (Confined.log _ _ _).seq fun _ => .done _

theorem installTarget (target : ManagedMethod) (replacement original : Hook) (required : Bool) :
    StartsUp (installTarget target replacement original required) := by
  have failed (p : Native Unit) (said : StartsUp p) : StartsUp (do p; return false) :=
    said.seq fun _ => .done _
  refine ensureEngine.seq fun _ => (Confined.quiet rfl).seq fun ready =>
    .ite (fun _ => failed _ (.log _ _ _)) fun _ => ?_
  refine (Confined.findMethodInfo ..).seq fun info => .ite (fun _ => ?_) fun _ => ?_
  · exact .ite (fun _ => failed _ (.log _ _ _)) fun _ => failed _ (.log _ _ _)
  · refine (Confined.methodPointer info).seq fun address =>
      .ite (fun _ => failed _ (.log _ _ _)) fun _ => ?_
    exact patchAddress target address replacement original

theorem rule (build : Build) : StartupRule build StartsUp where
  seq := .seq
  quiet confined := confined.mono (by simp)
  bind f := by
    refine (Confined.quiet rfl).seq fun fn => .ite (fun _ => .done _) fun _ =>
      (Confined.quiet rfl).seq fun found => ?_
    exact (Confined.perform rfl (by decide)).seq fun _ => .done _
  attach _ := .api rfl (by decide)
  detach _ := (Confined.quiet rfl).seq fun _ => .ite (fun _ => .perform rfl (by decide)) fun _ => .done _
  install target hook required _ := by
    refine (Confined.perform rfl (by decide)).seq fun _ =>
      (installTarget target hook hook required).seq fun installed => ?_
    exact (Confined.perform rfl (by decide)).seq fun _ => .done _

theorem initThread (build : Build) : StartsUp (linkedInitThread build) := (rule build).initThread

end StartsUp

end Opg3d
