import Opg3d.Install.Hooks

namespace Opg3d

open Kit Native HookEngine InitThread

namespace InitThread

variable {build : Build} {α β : Type}

theorem link_native (p : Native α) : (native p).interp (link build) = p := by
  induction p with
  | done value => rfl
  | ask op next ih => exact congrArg (Prog.ask op) (funext ih)

theorem link_component (c : Component) : (component c).interp (link build) = c.code build :=
  Prog.bind_done _

end InitThread

namespace Core

variable {metadata : Option Metadata} {build : Build} {α β : Type}

/-- Nothing has been patched yet. -/
def Fresh (c : Core) : Prop := c.installing = false ∧ ∀ address, c.patched address = none

theorem Fresh.unpatched {c : Core} (fresh : c.Fresh) (hook : Hook) : c.Unpatched hook := by
  intro address carried
  rw [fresh.2 address] at carried
  cases carried

theorem Fresh.sound {c : Core} (fresh : c.Fresh) : c.Sound :=
  ⟨fun _ address hook carried => absurd carried (fresh.unpatched hook address),
    fun address hook carried => absurd carried (fresh.unpatched hook address)⟩

theorem Fresh.ready {c : Core} (fresh : c.Fresh) (bound : c.Bound) : c.Ready :=
  ⟨bound, fresh.sound.coherent fresh.1, fresh.1⟩

/-- `init_thread` as it runs with the other modules linked in. -/
def LinkedWp (build : Build) (p : Init α) (post : Core → α → Prop) (c : Core) : Prop :=
  (p.interp (link build)).wp (startup none) post c

theorem LinkedWp.bind {p : Init α} {f : α → Init β} {mid : Core → α → Prop} {post : Core → β → Prop}
    {c : Core} (first : LinkedWp build p mid c) (second : ∀ d a, mid d a → LinkedWp build (f a) post d) :
    LinkedWp build (p >>= f) post c := by
  unfold LinkedWp
  rw [Prog.bind_eq, Prog.interp_bind]
  exact Prog.wp.bind first second

theorem LinkedWp.seq {p : Init α} {f : α → Init β} {post : Core → β → Prop} {c : Core}
    (first : LinkedWp build p (fun d _ => d = c) c) (second : ∀ a, LinkedWp build (f a) post c) :
    LinkedWp build (p >>= f) post c :=
  first.bind fun _ a same => same ▸ second a

theorem LinkedWp.native {p : Native α} {post : Core → α → Prop} {c : Core}
    (run : p.wp (startup none) post c) : LinkedWp build (native p) post c := by
  unfold LinkedWp
  rw [link_native]
  exact run

theorem LinkedWp.component {component : Component} {post : Core → component.Ans → Prop} {c : Core}
    (run : (component.code build).wp (startup none) post c) :
    LinkedWp build (InitThread.component component) post c := by
  unfold LinkedWp
  rw [link_component]
  exact run

theorem LinkedWp.poll {sample : Init (Option α)} {post : Core → Option α → Prop} {c : Core}
    (sampled : ∀ d, post d none → LinkedWp build sample post d) (n : Nat) (start : post c none) :
    LinkedWp build (Prog.poll sample pause n) post c := by
  unfold LinkedWp
  rw [Prog.interp_poll]
  refine Prog.wp_poll sampled (fun d kept => ?_) n start
  exact ⟨trivial, fun _ _ => kept⟩

theorem LinkedWp.ite {P : Prop} [Decidable P] {p q : Init α} {post : Core → α → Prop} {c : Core}
    (yes : P → LinkedWp build p post c) (no : ¬P → LinkedWp build q post c) :
    LinkedWp build (if P then p else q) post c := by
  split
  · rename_i holds
    exact yes holds
  · rename_i fails
    exact no fails

theorem LinkedWp.log (priority : Priority) (format : String) (args : List Arg) (c : Core) :
    LinkedWp build (InitThread.native (Native.log priority format args)) (fun d _ => d = c) c :=
  .native (log_wp priority format args c)

theorem LinkedWp.report (priority : Priority) (format : String) (args : List Arg) (c : Core) :
    LinkedWp build (InitThread.native (Native.log priority format args)) (fun _ _ => True) c :=
  .native ((log_wp priority format args c).mono fun _ _ _ => trivial)

/-- No export that was bound before is lost, and none is patched meanwhile. -/
def Grown (c d : Core) : Prop := d.Fresh ∧ ∀ f, c.api f ≠ 0 → d.api f ≠ 0

theorem bind_wp (f : Api) {c : Core} (fresh : c.Fresh) :
    (Il2cpp.bind f).wp (startup metadata) (fun d bound => Grown c d ∧ (bound = true → d.api f ≠ 0)) c := by
  refine perform_wp trivial fun fn read => .ite (fun found => ?_) fun missing => ?_
  · exact ⟨⟨fresh, fun _ => id⟩, fun _ => read.1 ▸ found⟩
  have unbound : c.api f = 0 := by
    rw [← show fn = c.api f from read.1]
    exact not_not.mp missing
  refine perform_wp trivial fun found _ => perform_wp unbound fun _ _ =>
    ⟨⟨fresh, fun g bound => ?_⟩, fun ok => ?_⟩
  · have other : g ≠ f := by
      rintro rfl
      exact bound unbound
    exact (Function.update_of_ne other _ _).trans_ne bound
  · exact (Function.update_self f found c.api).trans_ne (of_decide_eq_true ok)

theorem bindAll_wp (fs : List Api) {c : Core} (fresh : c.Fresh) :
    (Il2cpp.bindAll fs).wp (startup metadata) (fun d ok =>
      Grown c d ∧ (ok = true → ∀ f ∈ fs, d.api f ≠ 0)) c := by
  induction fs generalizing c with
  | nil => exact ⟨⟨fresh, fun _ => id⟩, by simp⟩
  | cons f rest ih =>
    refine (bind_wp f fresh).bind ?_
    rintro d bound ⟨⟨fresh', kept⟩, found⟩
    refine (ih fresh').bind ?_
    rintro e ok ⟨⟨fresh'', kept'⟩, others⟩
    refine ⟨⟨fresh'', fun g held => kept' g (kept g held)⟩, fun both g member => ?_⟩
    obtain ⟨now, later⟩ : bound = true ∧ ok = true := by simpa using both
    rcases List.mem_cons.mp member with rfl | deeper
    · exact kept' g (found now)
    · exact others later g deeper

theorem resolve_wp {c : Core} (fresh : c.Fresh) :
    Il2cpp.resolve.wp (startup metadata) (fun d ok => d.Fresh ∧ (ok = true → d.Bound)) c := by
  refine (bindAll_wp Il2cpp.required fresh).bind ?_
  rintro d ok ⟨⟨fresh', _⟩, found⟩
  refine (bind_wp .threadDetach fresh').bind ?_
  rintro e _ ⟨⟨fresh'', kept⟩, _⟩
  exact ⟨fresh'', fun all f needed => kept f (found all f (Il2cpp.required_of_ne f needed))⟩

theorem settle_wp (domain : Ptr) {c : Core} (bound : c.Bound) (steps stable last : Nat) :
    LinkedWp build (settle domain steps stable last) (fun d _ => d = c) c := by
  induction steps generalizing stable last with
  | zero => rfl
  | succ steps ih =>
    refine .ite (fun _ => ?_) fun _ => rfl
    refine .seq (.native (same_wp (assemblyCount_lockstep domain) bound)) fun now => ?_
    exact .seq (.native ⟨trivial, fun _ _ => rfl⟩) fun _ => ih _ _

theorem detach_wp (thread : Ptr) (c : Core) :
    (detach thread).wp (startup metadata) (fun d _ => d = c) c := by
  refine perform_wp trivial fun fn _ => .ite (fun found => ?_) fun _ => rfl
  exact ⟨found, fun _ _ => rfl⟩

def photonHooks : List Hook := .selectAppId :: Photon.optionalTargets.map Prod.snd

def guardHooks : List Hook := .friendsUpdate :: CloudGuard.guardedTargets.map Prod.snd

theorem hooks_disjoint : ∀ hook ∈ guardHooks, hook ∉ photonHooks := by decide

theorem photonInstallHooks_wp {c : Core} (ready : c.Ready) (free : ∀ hook ∈ photonHooks, c.Unpatched hook) :
    (Photon.installHooks build).wp (startup metadata) (fun d _ => d.Ready ∧ KeptBut photonHooks c d) c := by
  refine perform_wp trivial fun version _ => wp_seq (log_wp _ _ _ _) fun _ => ?_
  refine (install_wp _ true ready (free _ (List.mem_cons_self ..))).bind ?_
  rintro d core ⟨ready, kept, _⟩
  have others : ∀ hook ∈ Photon.optionalTargets.map Prod.snd, d.Unpatched hook := by
    intro hook member
    refine kept.unpatched (fun same => ?_) (free hook (List.mem_cons_of_mem _ member))
    obtain rfl := List.mem_singleton.mp same
    exact absurd member (by decide)
  refine (installOptionals_wp _ _ ready (by decide) others).bind ?_
  rintro e installed ⟨ready, kept', _⟩
  refine wp_seq (log_wp _ _ _ _) fun _ => wp_seq (log_wp _ _ _ _) fun _ => ?_
  have total : e.Ready ∧ KeptBut photonHooks c e := ⟨ready, kept.trans kept'⟩
  refine .ite (fun _ => ?_) fun _ => total
  exact wp_seq (log_wp _ _ _ _) fun _ => total

/-- What the guard's installation comes to. In cloud mode it reports success
exactly if the backend guard and at least one of the entry guards are in place. -/
structure GuardPlaced (build : Build) (metadata : Option Metadata) (d : Core) (ok : Bool) : Prop where
  success : build.selfhosted = false →
    (ok = true ↔ ¬d.Unpatched .friendsUpdate ∧ ∃ entry ∈ CloudGuard.guardedTargets, ¬d.Unpatched entry.2)
  backend : Located metadata CloudGuard.friendsUpdateTarget .friendsUpdate d
  entries : ∀ entry ∈ CloudGuard.guardedTargets, Located metadata entry.1 entry.2 d

theorem GuardPlaced.backendGuard {d : Core} {ok : Bool} (placed : GuardPlaced build metadata d ok)
    (cloud : build.selfhosted = false) (reported : ok = true) :
    PlacedAt metadata CloudGuard.friendsUpdateTarget .friendsUpdate d := by
  obtain ⟨address, carried⟩ := not_forall_not.mp ((placed.success cloud).mp reported).1
  exact ⟨address, carried, (placed.backend address carried).2⟩

theorem guardInstallHooks_wp {c : Core} (ready : c.Ready) (free : ∀ hook ∈ guardHooks, c.Unpatched hook) :
    (CloudGuard.installHooks build).wp (startup metadata)
      (fun d ok => d.Ready ∧ KeptBut guardHooks c d ∧ GuardPlaced build metadata d ok) c := by
  have absent {target : ManagedMethod} {hook : Hook} (member : hook ∈ guardHooks) :
      Located metadata target hook c :=
    fun address carried => absurd carried (free hook member address)
  refine .ite (fun own => ?_) fun _ => ?_
  · refine wp_seq (log_wp _ _ _ _) fun _ => ⟨ready, .refl _ c, fun cloud => ?_, absent (by decide),
      fun entry member => ?_⟩
    · exact absurd (own.symm.trans cloud) (by simp)
    · exact absent (List.mem_cons_of_mem _ (List.mem_map_of_mem member))
  refine (install_wp _ true ready (free _ (List.mem_cons_self ..))).bind ?_
  rintro d backendGuard ⟨ready, kept, placement⟩
  have others : ∀ hook ∈ CloudGuard.guardedTargets.map Prod.snd, d.Unpatched hook := by
    intro hook member
    refine kept.unpatched (fun same => ?_) (free hook (List.mem_cons_of_mem _ member))
    obtain rfl := List.mem_singleton.mp same
    exact absurd member (by decide)
  refine (installOptionals_wp _ _ ready (by decide) others).bind ?_
  rintro e installed ⟨ready, kept', placements⟩
  have backend : .friendsUpdate ∉ CloudGuard.guardedTargets.map Prod.snd := by decide
  refine wp_seq (log_wp _ _ _ _) fun _ => ⟨ready, kept.trans kept', fun _ => ?_,
    kept'.located backend placement.located,
    placements.located⟩
  rw [kept'.unpatched_iff backend, ← placement.placed, ← placements.more]
  cases backendGuard with
  | false => simp
  | true => simp [Nat.succ_le_iff]

theorem installAndReport_wp {c : Core} (ready : c.Ready) (free : ∀ hook, c.Unpatched hook) :
    LinkedWp build installAndReport (fun _ _ => True) c := by
  refine .bind (.component (photonInstallHooks_wp ready fun hook _ => free hook)) ?_
  rintro d photonInstalled ⟨ready, kept⟩
  have others := fun hook member => kept.unpatched (hooks_disjoint hook member) (free hook)
  refine .bind (.component (guardInstallHooks_wp ready others)) ?_
  rintro e guardInstalled -
  refine .ite (fun _ => .report _ _ _ _) fun _ => ?_
  refine .ite (fun _ => .seq (.log _ _ _ _) fun _ => ?_) fun _ => ?_
  · exact .ite (fun _ => .report _ _ _ _) fun _ => trivial
  · exact .ite (fun _ => .report _ _ _ _) fun _ => trivial

theorem attachedPhase_wp (thread : Ptr) {c : Core} (ready : c.Ready) (free : ∀ hook, c.Unpatched hook) :
    LinkedWp build (attachedPhase thread) (fun _ _ => True) c := by
  refine .seq (.log _ _ _ _) fun _ => ?_
  have image : LinkedWp build awaitImage (fun d _ => d = c) c := by
    refine .poll (fun d same => ?_) _ rfl
    exact .bind (.component (same_wp (findImage_lockstep _) (same ▸ ready.bound))) fun e _ again =>
      again.trans same
  refine .seq image fun found => ?_
  cases found with
  | none => exact .seq (.log _ _ _ _) fun _ => .native ((detach_wp thread c).mono fun _ _ _ => trivial)
  | some image =>
    refine .seq (.log _ _ _ _) fun _ => .bind (installAndReport_wp ready free) fun d _ _ => ?_
    exact .seq (.native (detach_wp thread d)) fun _ => .report _ _ _ _

theorem domainPhase_wp (domain : Ptr) {c : Core} (ready : c.Ready) (free : ∀ hook, c.Unpatched hook) :
    LinkedWp build (domainPhase domain) (fun _ _ => True) c := by
  refine .seq (.log _ _ _ _) fun _ => .seq (settle_wp domain ready.bound _ _ _) fun settled => ?_
  refine .ite (fun _ => .report _ _ _ _) fun _ => .seq (.log _ _ _ _) fun _ => ?_
  refine .seq (.native ⟨trivial, fun _ _ => rfl⟩) fun _ => ?_
  refine .seq (.native (same_wp (api_lockstep (.threadAttach domain) nofun) ready.bound)) fun thread => ?_
  exact .ite (fun _ => .report _ _ _ _) fun _ => attachedPhase_wp thread ready free

/-- The start-up thread keeps to what it may do, from a fresh library on. -/
theorem startup_wp {c : Core} (fresh : c.Fresh) : LinkedWp build initThread (fun _ _ => True) c := by
  refine .seq (.log _ _ _ _) fun _ => ?_
  have library : LinkedWp build awaitLibrary (fun d _ => d = c) c := by
    refine .poll (fun d same => .native ?_) _ rfl
    exact ⟨trivial, fun _ _ => same⟩
  refine .seq library fun found => ?_
  cases found with
  | none => exact .report _ _ _ _
  | some base =>
    refine .seq (.log _ _ _ _) fun _ => ?_
    have exports : LinkedWp build awaitExports (fun d resolved =>
      d.Fresh ∧ (resolved.isSome → d.Bound)) c := by
      refine .poll (fun d kept => ?_) _ ⟨fresh, nofun⟩
      refine .bind (.native (resolve_wp kept.1)) ?_
      rintro e ok ⟨fresh, bound⟩
      cases ok with
      | true => exact ⟨fresh, fun _ => bound rfl⟩
      | false => exact ⟨fresh, nofun⟩
    refine .bind exports ?_
    rintro d resolved ⟨fresh, bound⟩
    cases resolved with
    | none => exact .report _ _ _ _
    | some _ =>
      have bound := bound rfl
      refine .seq (.log _ _ _ _) fun _ => ?_
      have domain : LinkedWp build awaitDomain (fun e _ => e = d) d := by
        refine .poll (fun e same => ?_) _ rfl
        refine .bind (.native (same_wp (api_lockstep .domainGet nofun) (same ▸ bound))) fun _ _ again =>
          again.trans same
      refine .seq domain fun found => ?_
      cases found with
      | none => exact .report _ _ _ _
      | some domain => exact domainPhase_wp domain (fresh.ready bound) fresh.unpatched

end Core

end Opg3d
