import Opg3d.FailClosed

namespace Opg3d

open Kit Native HookEngine

namespace Scene

/-- `g_cloud_ready`. -/
def cloudReady (s : Scene) : Bool := s.system.memory.flag .cloudReady

/-- What makes `force_cloud` give up before it looks for `UseCloud`. -/
def Blocked (build : Build) (s : Scene) : Prop := build.appId = [] ∨ s.settings = 0 ∨ s.appIdString = 0

theorem cloudReady_withHandle (s : Scene) (cell : Static) (klass field : String) :
    (s.withHandle cell klass field).cloudReady = s.cloudReady := by
  unfold withHandle
  split <;> rfl

end Scene

namespace CloudGuard

open Scene

variable {build : Build} {conduct : Conduct} {useCloud : Ptr → List Word →
  Scene → Word × Scene} {s t : Scene}

/-- What an attempt does to the flag: an early exit leaves it alone, and
everything later sets it to the result. -/
structure Attempted (build : Build) (s t : Scene) (result : Bool) : Prop where
  early : s.Blocked build → result = false ∧ t.cloudReady = s.cloudReady
  late : ¬s.Blocked build → t.cloudReady = result

theorem verifyRoute_flag (point : String) (settings appId : Ptr) :
    (verifyRoute point settings appId).wp (watch conduct useCloud) (fun t result => t.cloudReady = result) s := by
  have reads : Keeps (readBack settings) :=
    (Keeps.readInt32 _ _).seq fun _ => (Keeps.readInt32 _ _).seq fun _ =>
      (Keeps.readRef _ _).seq fun _ => Keeps.done _
  refine (reads.watch_wp s).bind fun t read _ => ?_
  refine ((Keeps.stringLengthOr (-1) appId).watch_wp t).bind fun u chars _ => ?_
  refine ⟨rfl, fun count _ => ⟨rfl, fun _ _ => ⟨rfl, fun _ _ => ?_⟩⟩⟩
  exact .ite (fun _ => ⟨rfl, fun _ _ => rfl⟩) fun _ => rfl

/-- An exit that only logs. -/
theorem giveUp_wp {u : Scene} (blocked : s.Blocked build) (same : u.cloudReady = s.cloudReady)
    (priority : Priority) (format : String) (args : List Arg) :
    (do log priority format args; return false : Native Bool).wp
        (watch conduct useCloud) (Attempted build s) u :=
  ⟨rfl, fun _ _ => ⟨fun _ => ⟨rfl, same⟩, fun free => absurd blocked free⟩⟩

theorem forceCloudRoute_flag (bound : s.system.core.Bound) (point : String) :
    (forceCloudRoute build point).wp (watch conduct useCloud) (Attempted build s) s := by
  refine .ite (fun empty => ?_) fun keyed => ?_
  · have blocked : s.Blocked build := .inl empty
    refine ⟨rfl, fun logged _ => ?_⟩
    have kept : ((watch conduct useCloud).next s (.exchange .missingAppIdLogged) logged).cloudReady =
      s.cloudReady := rfl
    refine .ite (fun _ => giveUp_wp blocked kept _ _ _) fun _ => ?_
    exact ⟨fun _ => ⟨rfl, kept⟩, fun free => absurd blocked free⟩
  have same : s.Same s.prepared := same_withHandle ..
  have bound' : s.prepared.system.core.Bound := same.2 ▸ bound
  have kept : s.prepared.cloudReady = s.cloudReady := cloudReady_withHandle ..
  refine (currentServerSettings_wp bound).seq (.ite (fun missing => ?_) fun settings => ?_)
  · exact giveUp_wp (.inr (.inl missing)) kept _ _ _
  have allocated : s.prepared.appIdString = s.appIdString := by rw [appIdString, same.1]
  refine (newAppIdString_wp bound').seq ?_
  rw [allocated]
  refine .ite (fun failed => giveUp_wp (.inr (.inr failed)) kept _ _ _) fun string => ?_
  have free : ¬s.Blocked build := not_or.mpr ⟨keyed, not_or.mpr ⟨settings, string⟩⟩
  refine (lookupCached_wp bound' _ _ _).seq ⟨rfl, fun info _ => .ite (fun _ => ?_) fun _ => ?_⟩
  · exact ⟨rfl, fun _ _ => ⟨rfl, fun _ _ => ⟨fun blocked => absurd blocked free, fun _ => rfl⟩⟩⟩
  · refine ⟨rfl, fun _ _ => (verifyRoute_flag point _ _).mono fun t result ready => ?_⟩
    exact ⟨fun blocked => absurd blocked free, fun _ => ready⟩

/-- A call of `force_cloud`. -/
structure RouteCall where
  before : Scene
  reapply : Bool
  result : Bool
  after : Scene

/-- The call returns at once because of the flag. -/
def RouteCall.Fast (call : RouteCall) : Prop := call.reapply = false ∧ call.before.cloudReady = true

instance (call : RouteCall) : Decidable call.Fast := inferInstanceAs (Decidable (_ ∧ _))

/-- What a call does: on the fast path nothing, otherwise it makes an attempt. -/
theorem forceCloud_call (cloud : build.selfhosted = false) (bound : s.system.core.Bound)
    (point : String) (reapply : Bool) {result : Bool}
    (run : (forceCloud build point reapply).eval (Scene.answer build conduct) s = (result, t)) :
    (RouteCall.Fast ⟨s, reapply, result, t⟩ → result = true ∧ t.cloudReady = true) ∧
      (¬RouteCall.Fast ⟨s, reapply, result, t⟩ → Attempted build s t result) := by
  let Done (u : Scene) (value : Bool) : Prop :=
    (RouteCall.Fast ⟨s, reapply, value, u⟩ → value = true ∧ u.cloudReady = true) ∧
      (¬RouteCall.Fast ⟨s, reapply, value, u⟩ → Attempted build s u value)
  have attempt (slow : ¬(reapply = false ∧ s.cloudReady = true)) :
      (forceCloudRoute build point).wp (watch conduct (throughEntry build conduct)) Done s := by
    refine (forceCloudRoute_flag bound point).mono fun u value attempted => ?_
    exact ⟨fun fast => absurd fast slow, fun _ => attempted⟩
  have body : (forceCloudBody build point reapply).wp (watch conduct (throughEntry build conduct)) Done s := by
    refine .ite (fun own => absurd own (by simp [cloud])) fun _ => ?_
    cases reapply with
    | true => exact .ite nofun fun _ => attempt nofun
    | false =>
      refine .ite (fun _ => ⟨rfl, fun ready read => ?_⟩) (absurd rfl)
      obtain rfl : ready = s.cloudReady := read
      refine .ite (fun set => ?_) fun clear => attempt fun fast => clear fast.2
      exact ⟨fun _ => ⟨rfl, set⟩, fun slow => absurd ⟨rfl, set⟩ slow⟩
  have whole : (forceCloud build point reapply).wp (watch conduct (throughEntry build conduct)) Done s :=
    body.bind fun u value done => ⟨rfl, fun _ _ =>
      ⟨done.1, fun slow => ⟨(done.2 slow).early, (done.2 slow).late⟩⟩⟩
  have done := whole.eval id fun _ _ => ⟨rfl, rfl⟩
  change Done ((forceCloud build point reapply).eval (Scene.answer build conduct) s).2
    ((forceCloud build point reapply).eval (Scene.answer build conduct) s).1 at done
  rwa [run] at done

/-- The calls of `force_cloud` from the start of the process on, the latest
first. Between two calls everything may change except the flag and that the
exports are bound. -/
inductive History (build : Build) : Scene → List RouteCall → Prop
  | start {s : Scene} : s.cloudReady = false → History build s []
  | call {s t u : Scene} {calls : List RouteCall} (conduct : Conduct) (point : String)
      {reapply result : Bool} : History build s calls →
      t.cloudReady = s.cloudReady → t.system.core.Bound →
      (forceCloud build point reapply).eval (Scene.answer build conduct) t = (result, u) →
      History build u (⟨t, reapply, result, u⟩ :: calls)

/-- The result of the latest call that did not take the fast path. -/
def lastAttempt (calls : List RouteCall) : Option Bool :=
  (calls.find? fun call => ¬call.Fast).map RouteCall.result

/-- A fast call answers as the latest attempt before it, and after a call the
flag stands for a route that the latest attempt has established. -/
def RouteCall.Honest (call : RouteCall) (earlier : List RouteCall) : Prop :=
  (call.Fast → call.result = true ∧ lastAttempt earlier = some true) ∧
    (call.after.cloudReady = true → lastAttempt (call :: earlier) = some true)

/-- An attempt made while the flag is set finds the settings object, and the string is allocated. -/
def RouteCall.Unhindered (call : RouteCall) : Prop :=
  ¬call.Fast → call.before.cloudReady = true → call.before.settings ≠ 0 ∧ call.before.appIdString ≠ 0

theorem lastAttempt_fast {call : RouteCall} (fast : call.Fast) (earlier : List RouteCall) :
    lastAttempt (call :: earlier) = lastAttempt earlier := by
  rw [lastAttempt, List.find?_cons_of_neg (by simpa using fast), lastAttempt]

theorem lastAttempt_slow {call : RouteCall} (slow : ¬call.Fast) (earlier : List RouteCall) :
    lastAttempt (call :: earlier) = some call.result := by
  rw [lastAttempt, List.find?_cons_of_pos (by simpa using slow)]
  rfl

/-- Without an AppID the flag is never set. -/
theorem History.keyed {calls : List RouteCall} (cloud : build.selfhosted = false)
    (history : History build s calls) (set : s.cloudReady = true) : build.appId ≠ [] := by
  induction history with
  | start clear => exact absurd set (by simp [clear])
  | @call s t u calls conduct point reapply result _ same bound run ih =>
    obtain ⟨fast, slow⟩ := forceCloud_call cloud bound point reapply run
    by_cases quick : RouteCall.Fast ⟨t, reapply, result, u⟩
    · exact ih (same ▸ quick.2)
    have attempted := slow quick
    by_cases blocked : t.Blocked build
    · have kept : u.cloudReady = t.cloudReady := (attempted.early blocked).2
      exact ih (same ▸ kept ▸ set)
    · exact (not_or.mp blocked).1

/-- One call, where the flag stood for an established route before it. -/
theorem RouteCall.honest_iff_unhindered {call : RouteCall} {earlier : List RouteCall}
    (fast : call.Fast → call.result = true ∧ call.after.cloudReady = true)
    (slow : ¬call.Fast → Attempted build call.before call.after call.result)
    (keyed : call.before.cloudReady = true → build.appId ≠ [])
    (established : call.before.cloudReady = true → lastAttempt earlier = some true) :
    call.Honest earlier ↔ call.Unhindered := by
  by_cases quick : call.Fast
  · have last := established quick.2
    refine ⟨fun _ attempt => absurd quick attempt, fun _ => ⟨fun _ => ⟨(fast quick).1, last⟩, fun _ => ?_⟩⟩
    rw [lastAttempt_fast quick, last]
  have attempted := slow quick
  rw [Honest, lastAttempt_slow quick]
  by_cases blocked : call.before.Blocked build
  · obtain ⟨failed, kept⟩ := attempted.early blocked
    rw [kept, failed]
    constructor
    · intro honest _ set
      exact absurd (honest.2 set) (by simp)
    · refine fun unhindered => ⟨fun fast => absurd fast quick, fun set => ?_⟩
      obtain ⟨settings, string⟩ := unhindered quick set
      rcases blocked with empty | missing | null
      · exact absurd empty (keyed set)
      · exact absurd missing settings
      · exact absurd null string
  · obtain ⟨_, free⟩ := not_or.mp blocked
    refine ⟨fun _ _ _ => not_or.mp free, fun _ => ⟨fun fast => absurd fast quick, fun set => ?_⟩⟩
    rw [← attempted.late blocked, set]

theorem History.established {calls : List RouteCall} (history : History build s calls)
    (honest : ∀ call earlier, call :: earlier <:+ calls → call.Honest earlier) (set : s.cloudReady = true) :
    lastAttempt calls = some true := by
  cases history with
  | start clear => exact absurd set (by simp [clear])
  | call => exact (honest _ _ (List.suffix_refl _)).2 set

theorem honest_cons {call : RouteCall} {calls : List RouteCall} :
    (∀ c earlier, c :: earlier <:+ call :: calls → c.Honest earlier) ↔
      (∀ c earlier, c :: earlier <:+ calls → c.Honest earlier) ∧ call.Honest calls := by
  constructor
  · intro all
    exact ⟨fun c earlier part => all c earlier (part.trans (List.suffix_cons _ _)),
      all _ _ (List.suffix_refl _)⟩
  · rintro ⟨later, here⟩ c earlier part
    rcases List.suffix_cons_iff.mp part with same | part
    · obtain ⟨rfl, rfl⟩ := List.cons.inj same
      exact here
    · exact later c earlier part

/-- In every history the flag agrees with the latest attempt after each call
exactly if no attempt is hindered while it is set. -/
theorem History.honest_iff {calls : List RouteCall} (cloud : build.selfhosted = false)
    (history : History build s calls) :
    (∀ call earlier, call :: earlier <:+ calls → call.Honest earlier) ↔
      ∀ call ∈ calls, call.Unhindered := by
  induction history with
  | start => simp
  | @call s t u calls conduct point reapply result history same bound run ih =>
    rw [honest_cons, List.forall_mem_cons, ih, and_comm]
    refine and_congr_left fun unhindered => ?_
    obtain ⟨fast, slow⟩ := forceCloud_call cloud bound point reapply run
    refine RouteCall.honest_iff_unhindered fast slow (fun set => history.keyed cloud (same ▸ set)) fun set => ?_
    exact history.established (ih.mpr unhindered) (same ▸ set)

def samplePoint : String := "ConnectScene.HandleGoBtnClicked"

/-- A call in the sample game. -/
def sampleCall (before : Scene) (reapply : Bool) : RouteCall :=
  let run := (forceCloud Sample.build samplePoint reapply).eval (Scene.answer Sample.build routeConduct) before
  ⟨before, reapply, run.1, run.2⟩

/-- The scene in which the settings object is gone. -/
def withoutSettings (s : Scene) : Scene := { s with world := { s.world with staticContent := fun _ => 0 } }

def established : RouteCall := sampleCall (loaded routeWorld) true

def failed : RouteCall := sampleCall (withoutSettings established.after) true

theorem established_bound : established.after.system.core.Bound := by
  have all : ∀ f ∈ Il2cpp.required, established.after.system.core.api f ≠ 0 := by decide +kernel
  exact fun f other => all f (Il2cpp.required_of_ne f other)

theorem failed_bound : failed.after.system.core.Bound := by
  have all : ∀ f ∈ Il2cpp.required, failed.after.system.core.api f ≠ 0 := by decide +kernel
  exact fun f other => all f (Il2cpp.required_of_ne f other)

theorem established_history : History Sample.build established.after [established] :=
  .call routeConduct samplePoint (.start (s := loaded routeWorld) rfl) rfl (loaded_bound _) rfl

theorem honest_established :
    let repeated := sampleCall established.after false
    ∀ call earlier, call :: earlier <:+ [repeated, established] → call.Honest earlier := by
  intro repeated
  have history : History Sample.build repeated.after [repeated, established] :=
    .call routeConduct samplePoint established_history rfl established_bound rfl
  have fast : repeated.Fast := by decide +kernel
  refine (History.honest_iff rfl history).mpr ?_
  rintro call (_ | ⟨_, _ | ⟨_, nothing⟩⟩)
  · exact fun slow => absurd fast slow
  · exact fun _ set => absurd (show (loaded routeWorld).cloudReady = true from set) (by decide)
  · exact nomatch nothing

/-- The route is established, the next attempt fails because the settings are
gone, and the call after it takes the fast path all the same. -/
theorem stale_flag :
    let claimed := sampleCall failed.after false
    History Sample.build claimed.after [claimed, failed, established] ∧ claimed.Fast ∧
      claimed.result = true ∧ lastAttempt [failed, established] = some false := by
  intro claimed
  have second : History Sample.build failed.after [failed, established] :=
    .call routeConduct samplePoint established_history rfl established_bound rfl
  have third : History Sample.build claimed.after [claimed, failed, established] :=
    .call routeConduct samplePoint second rfl failed_bound rfl
  exact ⟨third, by decide +kernel, by decide +kernel, by decide +kernel⟩

end CloudGuard

end Opg3d
