import Opg3d.Activation.Rule
import Opg3d.Kit.Outermost
import Opg3d.NoNullCalls

namespace Opg3d.CloudGuard

open Kit Native HookEngine

/-- The connection entries the library knows about. -/
def knownEntries : List ManagedMethod :=
  guardedTargets.map Prod.fst ++
    [⟨"", "GameConnect", "ConnectToPhoton", 0⟩, ⟨"", "PhotonNetwork", "ConnectUsingSettings", 1⟩,
      ⟨"", "PhotonNetwork", "ConnectToMaster", 4⟩]

/-- The code of a known connection entry that exists in the metadata. -/
def IsEntry (metadata : Metadata) (address : Ptr) : Prop :=
  address ≠ 0 ∧ ∃ target ∈ knownEntries, metadata.codeOf target = address

instance (metadata : Metadata) (address : Ptr) : Decidable (IsEntry metadata address) :=
  inferInstanceAs (Decidable (_ ∧ _))

/-- A guard hook is in place at the address. -/
def GuardedAt (k : Core) (address : Ptr) : Prop := (k.patched address).any guardsConnection = true

/-- Follows whether the verdict of `force_cloud` has just been true. Then the
original is called next, and it is called then only. -/
def verdictMonitor : Monitor nativeSignature Bool where
  allow _ _ _ := True
  ok forced op :=
    match op with
    | .original _ _ _ => forced = true
    | .slot _ => True
    | _ => forced = false
  next forced op _ :=
    match op with
    | .mark (.forceCloud _ result) => result
    | .original _ _ _ => false
    | _ => forced

/-- The rest of the proxy of a guard, behind a verdict or before it. -/
def Judging (p : Native Word) (forced : Bool) : Prop :=
  p.wp verdictMonitor (fun after _ => after = false) forced

/-- `force_cloud` calls no original, and it ends with its verdict. -/
theorem forceCloud_wp (build : Build) (point : String) (reapply : Bool) :
    (forceCloud build point reapply).wp verdictMonitor (fun after result => after = result) false := by
  have body : Confined anyAnswer [.cache, .newString, .useCloud] (forceCloudBody build point reapply) :=
    .forceCloudBody _ _ _ (by decide) (by decide) (by decide)
  have plain : (forceCloudBody build point reapply).wp verdictMonitor (fun after _ => after = false) false := by
    refine body.still (fun op within => ?_) (fun _ _ => id) fun op answer within => ?_
    · cases op with
      | original => exact absurd (within .original rfl) (by decide)
      | slot => trivial
      | _ => rfl
    · cases op with
      | mark m =>
        cases m with
        | forceCloud => exact absurd (within .route rfl) (by decide)
        | _ => rfl
      | _ => rfl
  refine plain.bind ?_
  rintro _ verdict rfl
  exact ⟨rfl, fun _ _ => rfl⟩

theorem guarded_judging (build : Build) (hook : Hook) (point : String) (blocked : Option String)
    (args : List Word) : Judging (guarded build hook point blocked args) false := by
  refine (forceCloud_wp build point true).bind ?_
  rintro verdict _ rfl
  refine .ite (fun ready => ?_) fun refused => ?_
  · exact ⟨trivial, fun _ _ => ⟨ready, fun _ _ => rfl⟩⟩
  · obtain rfl : verdict = false := by simpa using refused
    cases blocked with
    | none => rfl
    | some message => exact ⟨rfl, fun _ _ => rfl⟩

/-- What is known of a proxy under way: at a guarded entry it is before the
verdict, or behind one that is on record, and elsewhere it gives none. -/
structure EntryHolds (s : System) (site : Ptr) (p : Native Word) : Prop where
  proxy : ProxyHolds s site p
  judging : GuardedAt s.core site → ∃ forced, Judging p forced ∧ (forced = true → s.verified = true)
  ungated : ¬GuardedAt s.core site → Confined anyAnswer ungatedEffects p

theorem entered_holds {build : Build} {s : System} (ready : s.core.Ready) {site : Ptr} {hook : Hook}
    (carried : s.memory.patched site = some hook) (args : List Word) :
    EntryHolds s site (hook.proxy build args) := by
  have guarded_iff : GuardedAt s.core site ↔ guardsConnection hook = true := by
    rw [GuardedAt, show s.core.patched site = some hook from carried]
    exact Iff.rfl
  refine ⟨⟨hook, carried, ready.coherent site hook carried, ready.bound, proxy_wp build hook site args⟩,
    fun guards => ?_, fun traces => ?_⟩
  · obtain ⟨blocked, passed, same⟩ := proxy_guarded build (guarded_iff.mp guards) args
    exact ⟨false, same ▸ guarded_judging build hook _ blocked passed, nofun⟩
  · exact .ungated build (Bool.eq_false_iff.mpr (mt guarded_iff.mpr traces)) args

/-- A verdict is put on record as it is given, and stays there. -/
theorem verified_after (s : System) (op : NativeOp) (answer : op.Ans) (before : s.verified = true) :
    (s.after op answer).verified = true := by
  cases op with
  | mark m =>
    cases m with
    | forceCloud reapply result =>
      show (s.verified || result) = true
      rw [before, Bool.true_or]
    | _ => exact before
  | _ => exact before

/-- Nothing but a true verdict is put on record. -/
theorem verdict_of_verified {s : System} {op : NativeOp} {answer : op.Ans} (before : s.verified ≠ true)
    (after : (s.after op answer).verified = true) : ∃ reapply, op = .mark (.forceCloud reapply true) := by
  cases op with
  | mark m =>
    cases m with
    | forceCloud reapply result =>
      have either : (s.verified || result) = true := after
      obtain rfl : result = true := by simpa [before] using either
      exact ⟨reapply, rfl⟩
    | _ => exact absurd after before
  | _ => exact absurd after before

theorem verified_of_next {s : System} {op : NativeOp} {answer : op.Ans} {forced : Bool}
    (on_record : forced = true → s.verified = true) (next : verdictMonitor.next forced op answer = true) :
    (s.after op answer).verified = true := by
  cases op with
  | mark m =>
    cases m with
    | forceCloud reapply result =>
      obtain rfl : result = true := next
      exact Bool.or_true s.verified
    | _ => exact on_record next
  | original => cases next
  | _ => exact on_record next

theorem EntryHolds.answered {s : System} {site : Ptr} {op : NativeOp} {next : op.Ans → Native Word}
    {answer : op.Ans} (held : EntryHolds s site (.ask op next)) (admitted : s.memory.admits op answer) :
    EntryHolds (s.after op answer) site (next answer) := by
  obtain ⟨same, rest⟩ := held.proxy.answered admitted
  refine ⟨rest, fun guards => ?_, fun traces => (held.ungated (same ▸ traces)).2 answer trivial⟩
  obtain ⟨forced, judging, on_record⟩ := held.judging (same ▸ guards)
  exact ⟨_, judging.2 answer trivial, verified_of_next on_record⟩

theorem EntryHolds.returned {s : System} {site : Ptr} {op : NativeOp} {next : op.Ans → Native Word}
    {exit : Exit nativeSignature Ptr Word op} {result : Word} (held : EntryHolds s site (.ask op next))
    (leaves : System.outgoing op = some exit) : EntryHolds s site (next (exit.handBack result)) := by
  refine ⟨held.proxy.returned leaves, fun guards => ?_, fun traces => (held.ungated traces).2 _ trivial⟩
  obtain ⟨forced, judging, on_record⟩ := held.judging guards
  refine ⟨_, judging.2 _ trivial, fun after => ?_⟩
  cases op with
  | original => cases after
  | managed => exact on_record after
  | _ => cases leaves

/-- The discipline of the proxies after the installation, which has left `k`. -/
def entryDiscipline (build : Build) {k : Core} (ready : k.Ready) : (system build).Discipline where
  fit _ _ _ := True
  inv s := s.core = k
  later s t := t.core = s.core ∧ (s.verified = true → t.verified = true)
  holds := EntryHolds
  aside _ p := p = .done ()
  later_keeps {s t site p} later held := by
    obtain ⟨same, verified⟩ := later
    refine ⟨held.proxy.later (same ▸ .refl _), fun guards => ?_, fun traces => held.ungated (same ▸ traces)⟩
    obtain ⟨forced, judging, on_record⟩ := held.judging (same ▸ guards)
    exact ⟨forced, judging, fun now => verified (on_record now)⟩
  opening_inv inv quiet := ⟨inv, quiet⟩
  opening_aside aside := aside
  entered {s site args p} inv quiet _ entered := by
    obtain ⟨hook, carried, rfl⟩ := Option.map_eq_some_iff.mp entered
    exact entered_holds (inv ▸ ready) carried args
  answered {s site op next answer} inv held here admitted := by
    obtain ⟨same, _⟩ := held.proxy.answered admitted
    exact ⟨same.trans inv, ⟨same, verified_after s op answer⟩, held.answered admitted, id⟩
  returned held leaves := held.returned leaves
  asideAnswered inv aside := nomatch aside

/-- A guard is in control right behind a verdict that was true. -/
def AtVerdict (k : Core) (c : GameConfig) : Prop :=
  ∃ site p rest, c.stack = .code site p :: rest ∧ GuardedAt k site ∧ Judging p true

/-- What the bodies started in the current outermost call tell of the verdicts in it. -/
structure Covered (k : Core) (c : GameConfig) (sites : List Ptr) : Prop where
  forced : c.stack ≠ [] → ∀ site ∈ sites, GuardedAt k site → c.shared.verified = true
  started : c.stack ≠ [] → c.shared.verified = true → (∃ site ∈ sites, GuardedAt k site) ∨ AtVerdict k c

section Step

variable {build : Build} {k : Core} {ready : k.Ready} {c d : GameConfig} {label : GameLabel}
  {sites more : List Ptr}

/-- Within an outermost call the record of the verdict is kept. -/
theorem verified_step (step : (system build).Step c label d) (active : c.stack ≠ [])
    (before : c.shared.verified = true) : d.shared.verified = true := by
  cases step with
  | call =>
    unfold Machine.opened
    split
    · exact absurd rfl active
    · exact before
  | answer | beside => exact verified_after _ _ _ before
  | finish | leave | leap => exact before

/-- A guarded body starts behind the verdict of its guard, as the original that the guard calls. -/
theorem guarded_start (kept : (entryDiscipline build ready).Kept c)
    (step : (system build).Step c label d) {site : Ptr} (starts : Machine.Starts c d site)
    (guards : GuardedAt k site) : d.shared.verified = true := by
  obtain ⟨core, _, held⟩ := kept
  have patched {s : System} {args : List Word} (same : s.core = k)
    (free : (system build).patch s site args = none) : False := by
    have bare : k.patched site = none := same ▸ Option.map_eq_none_iff.mp free
    rw [GuardedAt, bare] at guards
    cases guards
  rcases step.starts_cases starts with ⟨args, rfl, _, same, free⟩ |
    ⟨at_, op, next, rest, exit, rfl, top, leaves, rfl, same, free⟩
  · refine (patched ?_ free).elim
    rw [same]
    unfold Machine.opened
    split <;> exact core
  · cases past : exit.past with
    | false => exact (patched core (free past)).elim
    | true =>
      obtain ⟨⟨hook, _, _, _, may, _⟩, judging, _⟩ := held at_ _ (top ▸ List.mem_cons_self ..)
      cases op with
      | original other trampoline args =>
        obtain ⟨_, rfl⟩ : some hook = some other ∧ trampoline = some at_ := may
        cases leaves
        obtain ⟨forced, judging, on_record⟩ := judging (core ▸ guards)
        exact same ▸ on_record judging.1
      | managed method fn args =>
        simp only [system, System.outgoing, Option.ite_none_left_eq_some] at leaves
        cases leaves.2
        cases past
      | _ => cases leaves

theorem Covered.forced_step (kept : (entryDiscipline build ready).Kept c) (covered : Covered k c sites)
    (step : (system build).Step c label d) (counts : Machine.Counts c d sites more) {site : Ptr}
    (member : site ∈ more) (guards : GuardedAt k site) : d.shared.verified = true := by
  have earlier (before : site ∈ Machine.startedBefore c sites) : d.shared.verified = true := by
    obtain ⟨active, before⟩ := Machine.mem_startedBefore before
    exact verified_step step active (covered.forced active site before guards)
  cases counts with
  | start starts =>
    rcases List.mem_cons.mp member with rfl | before
    · exact guarded_start kept step starts guards
    · exact earlier before
  | other => exact earlier member

/-- A verdict that is on record has been followed by the body it was given
for, or it has just been given. -/
theorem Covered.started_step (kept : (entryDiscipline build ready).Kept c) (covered : Covered k c sites)
    (step : (system build).Step c label d) (counts : Machine.Counts c d sites more)
    (verified : d.shared.verified = true) : (∃ site ∈ more, GuardedAt k site) ∨ AtVerdict k d := by
  obtain ⟨core, aside, held⟩ := kept
  have earlier (active : c.stack ≠ []) (before : ∃ site ∈ sites, GuardedAt k site) : ∃ site ∈ more,
    GuardedAt k site := by
    obtain ⟨site, member, guards⟩ := before
    exact ⟨site, counts.subset (Machine.startedBefore_of_active active ▸ member), guards⟩
  cases step with
  | @call s stack beside site args host quiet =>
    cases stack with
    | nil => cases verified
    | cons frame rest =>
      rcases covered.started (List.cons_ne_nil _ _) verified with before | ⟨at_, p, rest, top, _⟩
      · exact .inl (earlier (List.cons_ne_nil _ _) before)
      · cases top
        cases host
  | finish =>
    rcases covered.started (List.cons_ne_nil _ _) verified with before | ⟨_, _, _, top, _⟩
    · exact .inl (earlier (List.cons_ne_nil _ _) before)
    · cases top
  | @answer s site op next stack beside answer here admitted =>
    have last := held site _ (List.mem_cons_self ..)
    by_cases already : s.verified = true
    · rcases covered.started (List.cons_ne_nil _ _) already with before | ⟨_, _, _, top, guards, judging⟩
      · exact .inl (earlier (List.cons_ne_nil _ _) before)
      · cases top
        refine .inr ⟨site, _, stack, rfl, guards, ?_⟩
        have rest := judging.2 answer trivial
        cases op with
        | slot => exact rest
        | original hook trampoline args =>
          cases trampoline with
          | none => exact absurd rfl admitted
          | some => cases here
        | _ => cases judging.1
    · obtain ⟨reapply, rfl⟩ := verdict_of_verified already verified
      by_cases guards : GuardedAt s.core site
      · obtain ⟨forced, judging, _⟩ := last.judging guards
        exact .inr ⟨site, _, stack, rfl, core ▸ guards, judging.2 answer trivial⟩
      · exact absurd ((last.ungated guards).1 .route rfl) (by decide)
  | @leap s site op next stack beside exit leaves quiet =>
    rcases covered.started (List.cons_ne_nil _ _) verified with before | ⟨_, _, _, top, guards, judging⟩
    · exact .inl (earlier (List.cons_ne_nil _ _) before)
    · cases top
      obtain ⟨⟨hook, _, _, _, may, _⟩, _⟩ := held site _ (List.mem_cons_self ..)
      cases op with
      | original other trampoline args =>
        obtain ⟨_, rfl⟩ : some hook = some other ∧ trampoline = some site := may
        cases leaves
        exact .inl ⟨site, counts.mem rfl, guards⟩
      | managed => cases judging.1
      | _ => cases leaves
  | leave =>
    rcases covered.started (List.cons_ne_nil _ _) verified with before | ⟨_, _, _, top, _, judging⟩
    · exact .inl (earlier (List.cons_ne_nil _ _) before)
    · cases top
      cases judging
  | beside => cases aside

end Step

theorem kept_installed {build : Build} {metadata : Metadata} {photonResult guardResult : Bool}
    {installed : System} (outcome : Installed build metadata photonResult guardResult installed) :
    (entryDiscipline build outcome.outcome.1).Kept ⟨installed, [], .done ()⟩ :=
  ⟨rfl, rfl, nofun⟩

/-- At any time after the installation, what the current outermost call has
started tells whether the route has been forced in it. -/
theorem covered_run {build : Build} {k : Core} (ready : k.Ready) {c d : GameConfig}
    {labels : List GameLabel} {sites final : List Ptr}
    (run : (system build).Counted c sites labels d final) (kept : (entryDiscipline build ready).Kept c)
    (covered : Covered k c sites) : (entryDiscipline build ready).Kept d ∧ Covered k d final := by
  let holds (c : GameConfig) (sites : List Ptr) : Prop :=
    (entryDiscipline build ready).Kept c ∧ Covered k c sites
  have keeps (c : GameConfig) (sites : List Ptr) (label : GameLabel) (d : GameConfig) (more : List Ptr)
      (before : holds c sites) (step : (system build).Step c label d) (counts : Machine.Counts c d sites more) :
      holds d more := by
    obtain ⟨kept, covered⟩ := before
    refine ⟨(entryDiscipline build ready).step kept ?_ step, fun _ site member guards => ?_,
      fun _ verified => ?_⟩
    · cases label with
      | leap => exact fun _ _ _ _ _ _ _ _ => trivial
      | _ => trivial
    · exact covered.forced_step kept step counts member guards
    · exact covered.started_step kept step counts verified
  exact run.invariant keeps ⟨kept, covered⟩

/-- The installation has left the guard of an entry at the code of that entry. -/
def Guarded (metadata : Metadata) (installed : System) (address : Ptr) : Prop :=
  ∃ entry ∈ guardedTargets, metadata.codeOf entry.1 = address ∧
    installed.memory.patched address = some entry.2

instance (metadata : Metadata) (installed : System) (address : Ptr) :
    Decidable (Guarded metadata installed address) :=
  inferInstanceAs (Decidable (∃ entry ∈ guardedTargets, _ ∧ _))

theorem guarded_iff {build : Build} {metadata : Metadata} {photonResult guardResult : Bool}
    {installed : System} (outcome : Installed build metadata photonResult guardResult installed)
    (address : Ptr) : Guarded metadata installed address ↔ GuardedAt installed.core address := by
  unfold GuardedAt
  constructor
  · rintro ⟨entry, member, _, carried⟩
    rw [show installed.core.patched address = some entry.2 from carried]
    exact decide_eq_true (List.mem_map_of_mem member)
  · intro guards
    obtain ⟨hook, carried, guard⟩ := (Option.any_eq_true _ _).mp guards
    obtain ⟨entry, member, rfl⟩ := List.mem_map.mp (of_decide_eq_true guard)
    have located := (outcome.placed.2.entries entry member address carried).2 metadata rfl
    exact ⟨entry, member, located.symm, carried⟩

/-- In cloud mode the guard reports success exactly if the backend guard and
the guard of at least one entry are in place. -/
theorem guardResult_iff {build : Build} {metadata : Metadata} {photonResult guardResult : Bool}
    {installed : System} (outcome : Installed build metadata photonResult guardResult installed)
    (cloud : build.selfhosted = false) :
    guardResult = true ↔ installed.memory.patched (metadata.codeOf friendsUpdateTarget) = some .friendsUpdate ∧
      ∃ address, Guarded metadata installed address := by
  obtain ⟨_, success, backend, entries⟩ := outcome.placed
  rw [success cloud]
  refine and_congr ⟨fun placed => ?_, fun carried nowhere => nowhere _ carried⟩ ⟨?_, ?_⟩
  · obtain ⟨address, carried⟩ := not_forall_not.mp placed
    exact (backend address carried).2 metadata rfl ▸ carried
  · rintro ⟨entry, member, placed⟩
    obtain ⟨address, carried⟩ := not_forall_not.mp placed
    exact ⟨address, entry, member, ((entries entry member address carried).2 metadata rfl).symm, carried⟩
  · rintro ⟨address, entry, member, _, carried⟩
    exact ⟨entry, member, fun nowhere => nowhere address carried⟩

/-- In cloud mode an entry is guarded exactly if its own `hook::install` returned true. -/
theorem entry_installs {build : Build} {metadata : Metadata} {photonResult guardResult : Bool}
    {installed : System} (outcome : Installed build metadata photonResult guardResult installed)
    (cloud : build.selfhosted = false) :
    ∃ between trace, Exec (installStep metadata) (installHooks build) between trace guardResult installed ∧
      ∀ entry ∈ guardedTargets, ∃ returned, InstallReturned metadata entry trace returned ∧
        (returned = true ↔ installed.memory.patched (metadata.codeOf entry.1) = some entry.2) := by
  obtain ⟨_, _, _, located⟩ := outcome.placed
  obtain @⟨start, between, _, trace, fresh, bound, photon, guard⟩ := outcome
  refine ⟨between, trace, guard, fun entry member => ?_⟩
  obtain ⟨ready, free⟩ := photon_outcome fresh bound photon
  obtain ⟨returned, part, placed⟩ := guard_outcome cloud guard ready free entry member
  refine ⟨returned, part, placed.trans ⟨fun somewhere => ?_, fun carried nowhere => nowhere _ carried⟩⟩
  obtain ⟨address, carried⟩ := not_forall_not.mp somewhere
  exact (located entry member address carried).2 metadata rfl ▸ carried

/-- After an installation, whatever the engine made of it, and in whatever
order and nesting the game calls: the original body of a known entry starts
behind a true verdict of `force_cloud` in the same outermost call exactly if
that call has started a guarded entry's body, before or with this one. At
least one entry is guarded where the guard's installation succeeds. -/
theorem entry_starts_forced {build : Build} {metadata : Metadata} {photonResult guardResult : Bool}
    {installed : System} (outcome : Installed build metadata photonResult guardResult installed) :
    (build.selfhosted = false → (guardResult = true ↔
      installed.memory.patched (metadata.codeOf friendsUpdateTarget) = some .friendsUpdate ∧
        ∃ address, Guarded metadata installed address)) ∧
    ∀ labels c sites label d address, (system build).Counted ⟨installed, [], .done ()⟩ [] labels c sites →
      (system build).Step c label d → Machine.Starts c d address → IsEntry metadata address →
      (d.shared.verified = true ↔ ∃ site ∈ address :: Machine.startedBefore c sites,
        Guarded metadata installed site) := by
  refine ⟨guardResult_iff outcome, fun labels c sites label d address run step starts _ => ?_⟩
  have start : Covered installed.core ⟨installed, [], .done ()⟩ [] :=
    ⟨fun _ => nofun, fun active => absurd rfl active⟩
  obtain ⟨kept, covered⟩ := covered_run outcome.outcome.1 run (kept_installed outcome) start
  have counts : Machine.Counts c d sites _ := .start starts
  simp only [guarded_iff outcome]
  constructor
  · intro verified
    rcases covered.started_step kept step counts verified with guarded | ⟨_, _, _, top, _⟩
    · exact guarded
    · cases starts.symm.trans top
  · rintro ⟨site, member, guards⟩
    exact covered.forced_step kept step counts member guards

/-- The address of the original that the innermost proxy is about to call. -/
def nextOriginal (c : GameConfig) : Option Ptr :=
  match c.stack with
  | .code _ (.ask (.original _ trampoline _) _) :: _ => trampoline
  | _ => none

theorem leap_of_nextOriginal {build : Build} {c : GameConfig} {address : Ptr}
    (next : nextOriginal c = some address) :
    ∃ d, (system build).Step c .leap d ∧ Machine.Starts c d address ∧ d.shared = c.shared := by
  unfold nextOriginal at next
  split at next
  · rename_i site hook trampoline args rest stack top
    subst next
    obtain ⟨s, stack, beside⟩ := c
    cases top
    exact ⟨_, .leap rfl (Or.inl rfl), rfl, rfl⟩
  · cases next

def entryAt (klass method : String) (argsCount : Int) : Ptr :=
  Sample.metadata.codeOf ⟨"", klass, method, argsCount⟩

/-- `GameConnect.ConnectToPhoton/0` is hooked for tracing only: the game calls
it, and its original body starts without any forced route. -/
theorem gameConnect_unforced : Installed Sample.build Sample.metadata true true Sample.installed ∧
    ∃ labels c d, (system Sample.build).Run ⟨Sample.installed, [], .done ()⟩ labels c ∧
      (system Sample.build).Step c .leap d ∧ Machine.Starts c d (entryAt "GameConnect" "ConnectToPhoton" 0) ∧
      IsEntry Sample.metadata (entryAt "GameConnect" "ConnectToPhoton" 0) ∧ d.shared.verified = false := by
  have played : ((system Sample.build).play Sample.reply (fun s _ _ => !s.installing)
      [.call (entryAt "GameConnect" "ConnectToPhoton" 0) [0], .go 21] ⟨Sample.installed, [], .done ()⟩).map
        (fun c => (nextOriginal c, c.shared.verified)) = some
          (some (entryAt "GameConnect" "ConnectToPhoton" 0), false) := by
    decide +kernel
  obtain ⟨c, reached, observed⟩ := Option.map_eq_some_iff.mp played
  obtain ⟨next, unforced⟩ := Prod.mk.inj observed
  obtain ⟨labels, run⟩ := Machine.play_run (fun _ _ _ => True) Sample.reply_admitted
    (fun s _ _ idle => ⟨by simpa [system] using idle, trivial⟩) (fun _ quiet => quiet) reached
  obtain ⟨d, step, starts, same⟩ := leap_of_nextOriginal next
  exact ⟨Sample.installs, labels, c, d, run.weaken fun _ _ _ => trivial, step, starts, by decide +kernel,
    same ▸ unforced⟩

/-- Behind the guard of `ConnectScene.HandleGoBtnClicked` the route is forced
through the hooked `UseCloud` before the original body starts. -/
theorem connectScene_forced : ∃ labels c sites d,
    (system Sample.build).Counted ⟨Sample.installed, [], .done ()⟩ [] labels c sites ∧
    (system Sample.build).Step c .leap d ∧ Machine.Starts c d (entryAt "ConnectScene" "HandleGoBtnClicked" 0) ∧
    d.shared.verified = true := by
  have played : ((system Sample.build).play Sample.reply (fun s _ _ => !s.installing)
      [.call (entryAt "ConnectScene" "HandleGoBtnClicked" 0) [16, 0], .go 57, .finish 0, .go 129]
      ⟨Sample.installed, [], .done ()⟩).map nextOriginal = some
        (some (entryAt "ConnectScene" "HandleGoBtnClicked" 0)) := by
    decide +kernel
  obtain ⟨c, reached, next⟩ := Option.map_eq_some_iff.mp played
  obtain ⟨labels, run⟩ := Machine.play_run (fun _ _ _ => True) Sample.reply_admitted
    (fun s _ _ idle => ⟨by simpa [system] using idle, trivial⟩) (fun _ quiet => quiet) reached
  obtain ⟨d, step, starts, _⟩ := leap_of_nextOriginal next
  obtain ⟨sites, counted⟩ := run.counted []
  have guarded : Guarded Sample.metadata Sample.installed (entryAt "ConnectScene" "HandleGoBtnClicked" 0) := by
    decide +kernel
  refine ⟨labels, c, sites, d, counted, step, starts, ?_⟩
  exact ((entry_starts_forced Sample.installs).2 _ _ _ _ _ _ counted step starts (by decide +kernel)).mpr
    ⟨_, List.mem_cons_self .., guarded⟩

end Opg3d.CloudGuard
