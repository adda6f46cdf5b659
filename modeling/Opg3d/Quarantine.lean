import Opg3d.Install.Outcome
import Opg3d.Scene.Runtime

namespace Opg3d.CloudGuard

open Kit Native Scene HookEngine

/-- The states in which PUN has no session and is not about to have one. -/
def ClientState.Idle (state : ClientState) : Prop :=
  state = .Uninitialized ∨ state = .PeerCreated ∨ state = .Disconnected

instance (state : ClientState) : Decidable state.Idle := inferInstanceAs (Decidable (_ ∨ _ ∨ _))

theorem quarantine_iff_busy (state : ClientState) :
    shouldQuarantineFriendsUpdate state.value = true ↔ ¬state.Idle := by
  cases state <;> decide

/-- What happens after the installation: the game's side of the process
changes, or `FriendsController.Update` is called. -/
inductive Event where
  | change (world : World)
  | update (args : List Word)

/-- A call of `FriendsController.Update`: PUN's actual state at that moment,
whether the getter was cached or could be found, and whether the original ran. -/
structure Call where
  state : ClientState
  getter : Bool
  ran : Bool
  deriving DecidableEq, Repr

section Runs

variable (build : Build) (conduct : Conduct) (useCloud : Ptr → List Word →
  Scene → Word × Scene) (address : Ptr)

/-- The program at an address, if its entry is patched, and the scene after a call. -/
def callAt (args : List Word) (s : Scene) : Bool × Scene :=
  match s.system.memory.patched address with
  | none => (true, (s.runBody conduct .friendsUpdate args).2)
  | some hook =>
    ((originals conduct useCloud (hook.proxy build args) s).any fun entry => entry.op.reaches address,
      ((hook.proxy build args).eval (answerWith conduct useCloud) s).2)

/-- The calls of a run. -/
def calls : List Event → Scene → List Call
  | [], _ => []
  | .change world :: rest, s => calls rest { s with world := world }
  | .update args :: rest, s =>
    ⟨s.world.state, s.lookup .guardStateFn stateTarget ≠ 0,
      (callAt build conduct useCloud address args s).1⟩ ::
      calls rest (callAt build conduct useCloud address args s).2

end Runs

variable {build : Build} {conduct : Conduct} {useCloud : Ptr → List Word →
  Scene → Word × Scene} {address : Ptr} {s : Scene}

/-- The backend guard is in place at an address. -/
structure Guards (address : Ptr) (s : Scene) : Prop where
  bound : s.system.core.Bound
  patched : s.system.memory.patched address = some .friendsUpdate
  slot : s.system.memory.slot .friendsUpdate = some address

/-- The state the guard goes by: the actual one, or -1 without the getter. -/
def measured (s : Scene) : Int :=
  if s.lookup .guardStateFn stateTarget = 0 then -1 else s.world.state.value

theorem quarantine_measured (s : Scene) : shouldQuarantineFriendsUpdate (measured s) = true ↔
    s.lookup .guardStateFn stateTarget ≠ 0 ∧ ¬s.world.state.Idle := by
  unfold measured
  split
  · rename_i missing
    simp [missing, shouldQuarantineFriendsUpdate]
  · rename_i found
    simp [found, quarantine_iff_busy]

theorem core_cached (s : Scene) (fnCell methodCell : Static) (target : ManagedMethod) :
    (s.cached fnCell methodCell target).system.core = s.system.core := by
  unfold cached
  split <;> rfl

theorem skipFriendsUpdate_wp (s : Scene) (state : Int) :
    (skipFriendsUpdate state).wp (watch conduct useCloud) (fun t _ => t.system.core = s.system.core) s := by
  refine ⟨rfl, fun count _ => .ite (fun _ => ?_) fun _ => rfl⟩
  exact ⟨rfl, fun _ _ => rfl⟩

/-- The original runs exactly when the call is not quarantined, and patches
and slots stay as they are. -/
theorem friendsUpdate_run (conduct : Conduct) (useCloud : Ptr → List Word → Scene → Word × Scene)
    (guards : Guards address s) (self method : Ptr) :
    ((originals conduct useCloud (hookFriendsUpdate self method) s).any
      fun entry => entry.op.reaches address) = !shouldQuarantineFriendsUpdate (measured s) ∧
    ((hookFriendsUpdate self method).eval (answerWith conduct useCloud) s).2.system.core = s.system.core := by
  have state : connectionState.wp (watch conduct useCloud) (fun t state =>
      t = s.cached .guardStateFn .guardStateMethod stateTarget ∧ state = measured s) s :=
    connectionStateVia_wp guards.bound _ _
  have same := core_cached s .guardStateFn .guardStateMethod stateTarget
  unfold hookFriendsUpdate
  rw [originals_seq state, Prog.eval_seq (eval_of_wp state)]
  by_cases busy : shouldQuarantineFriendsUpdate (measured s) = true
  · simp only [busy, if_true]
    have skipped : (do skipFriendsUpdate (measured s); return 0 : Native Word).wp (watch conduct useCloud)
        (fun t _ => t.system.core = s.system.core) (s.cached .guardStateFn .guardStateMethod stateTarget) :=
      (skipFriendsUpdate_wp _ _).bind fun t _ kept => kept.trans same
    rw [originals_of_wp skipped]
    exact ⟨rfl, skipped.eval id fun _ _ => ⟨rfl, rfl⟩⟩
  · have slot : (s.cached .guardStateFn .guardStateMethod stateTarget).system.memory.slot .friendsUpdate =
      some address :=
      (congrFun (congrArg Core.slot same) .friendsUpdate).trans guards.slot
    rw [if_neg busy, originals_callOriginal, slot]
    exact ⟨by simp [NativeOp.reaches, busy], same⟩

theorem Guards.of_core {t : Scene} (guards : Guards address s) (same : t.system.core = s.system.core) :
    Guards address t where
  bound := same ▸ guards.bound
  patched := (congrFun (congrArg Core.patched same) address).trans guards.patched
  slot := (congrFun (congrArg Core.slot same) .friendsUpdate).trans guards.slot

theorem callAt_guarded (guards : Guards address s) (args : List Word) :
    (callAt build conduct useCloud address args s).1 = !shouldQuarantineFriendsUpdate (measured s) ∧
    Guards address (callAt build conduct useCloud address args s).2 := by
  obtain ⟨ran, same⟩ := friendsUpdate_run conduct useCloud guards
    (Word.ptr (args.getD 0 0)) (Word.ptr (args.getD 1 0))
  unfold callAt
  rw [guards.patched]
  exact ⟨ran, guards.of_core same⟩

/-- One call obeys the law unless the state getter is missing in a busy state. -/
theorem Call.lawful_iff (guards : Guards address s) (args : List Word) :
    ((callAt build conduct useCloud address args s).1 = true ↔ s.world.state.Idle) ↔
      (s.lookup .guardStateFn stateTarget ≠ 0 ∨ s.world.state.Idle) := by
  have measured := quarantine_measured s
  rw [(callAt_guarded guards args).1]
  cases quarantined : shouldQuarantineFriendsUpdate (CloudGuard.measured s) with
  | true =>
    rw [quarantined] at measured
    simp_all
  | false =>
    rw [quarantined] at measured
    by_cases idle : s.world.state.Idle <;> simp_all

/-- A call obeys the quarantine law. -/
def Call.Lawful (call : Call) : Prop := call.ran = true ↔ call.state.Idle

theorem calls_lawful_iff (guards : Guards address s) (events : List Event) :
    (∀ call ∈ calls build conduct useCloud address events s, call.Lawful) ↔
      ∀ call ∈ calls build conduct useCloud address events s, call.getter = true ∨ call.state.Idle := by
  induction events generalizing s with
  | nil => simp [calls]
  | cons event rest ih =>
    cases event with
    | change world => exact ih (guards.of_core rfl)
    | update args =>
      rw [calls, List.forall_mem_cons, List.forall_mem_cons, ih (callAt_guarded guards args).2]
      exact and_congr_left' ((Call.lawful_iff guards args).trans (or_congr_left (decide_eq_true_iff).symm))

/-- The installation leaves the backend guard at the code of `FriendsController.Update`. -/
theorem guards_of_installed {metadata : Metadata} {photonResult : Bool} {installed : System}
    (cloud : build.selfhosted = false) (run : Installed build metadata photonResult true installed)
    (world : World) : Guards (metadata.codeOf friendsUpdateTarget) ⟨installed, world⟩ := by
  obtain ⟨ready, placed⟩ := run.outcome
  obtain ⟨address, carried, located⟩ := placed rfl cloud
  rw [← located metadata rfl]
  exact ⟨ready.bound, carried, ready.coherent address _ carried⟩

/-- After a successful installation in cloud mode the quarantine law holds in
exactly those runs in which the getter is there, or PUN is idle, at each call. -/
theorem quarantine_law_iff {metadata : Metadata} {photonResult : Bool} {installed : System}
    (cloud : build.selfhosted = false) (run : Installed build metadata photonResult true installed)
    (world : World) (events : List Event) :
    (∀ call ∈ calls build conduct useCloud (metadata.codeOf friendsUpdateTarget) events ⟨installed, world⟩,
        call.Lawful) ↔
      ∀ call ∈ calls build conduct useCloud (metadata.codeOf friendsUpdateTarget) events ⟨installed, world⟩,
        call.getter = true ∨ call.state.Idle :=
  calls_lawful_iff (guards_of_installed cloud run world) events

/-- The game of the sample installation, with PUN in a given state. -/
def sampleWorld (state : ClientState) : World :=
  { World.empty with metadata := Sample.metadata, state := state }

/-- The same once the getter can be looked up. -/
def completeWorld (state : ClientState) : World :=
  { sampleWorld state with metadata := { Sample.metadata with method := Sample.methodAt } }

/-- Without the getter the original runs in the middle of a session. -/
theorem unlawful_call : Installed Sample.build Sample.metadata true true Sample.installed ∧
    ¬∀ call ∈ calls Sample.build .passive (fun _ _ s => (0, s)) (Sample.metadata.codeOf friendsUpdateTarget)
      [.update [16, 0]] ⟨Sample.installed, sampleWorld .Joined⟩, call.Lawful := by
  have observed : calls Sample.build .passive (fun _ _ s => (0, s)) (Sample.metadata.codeOf friendsUpdateTarget)
      [.update [16, 0]] ⟨Sample.installed, sampleWorld .Joined⟩ = [⟨.Joined, false, true⟩] := by decide +kernel
  rw [observed]
  exact ⟨Sample.installs, by simp [Call.Lawful, ClientState.Idle]⟩

theorem lawful_calls : List.Forall Call.Lawful (calls Sample.build .passive (fun _ _ s => (0, s))
    (Sample.metadata.codeOf friendsUpdateTarget)
    [.update [16, 0], .change (completeWorld .Joined),
      .update [16, 0]] ⟨Sample.installed, sampleWorld .PeerCreated⟩) := by
  refine List.forall_iff_forall_mem.mpr ?_
  exact (quarantine_law_iff rfl Sample.installs _ _).mpr (by decide +kernel)

end Opg3d.CloudGuard
