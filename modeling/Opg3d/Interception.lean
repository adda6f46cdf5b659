import Opg3d.TracedCalls

namespace Opg3d

open Kit Native HookEngine Photon CloudGuard

/-- The answers that the proxy of a hook at a site can get. -/
abbrev toldAt (hook : Hook) (site : Ptr) (op : NativeOp) (answer : op.Ans) : Prop :=
  Labelling.unrestricted.answersAgree (some hook) site op answer answer

/-- Follows what a proxy does with such effects. -/
abbrev showing (hook : Hook) (site : Ptr) (effects : List Effect) :
    Monitor nativeSignature (List (Exchange nativeSignature)) :=
  Prog.recorder (toldAt hook site) (NativeOp.shows effects)

section Rules

variable {hook : Hook} {site : Ptr} {effects : List Effect} {α : Type} {p : Native α} {f : α → Native Word}
  {post : List (Exchange nativeSignature) → Word → Prop} {seen : List (Exchange nativeSignature)}

theorem showing_quiet (front : Confined (toldAt hook site) [] p)
    (rest : ∀ a, (f a).wp (showing hook site effects) post seen) :
    (p >>= f).wp (showing hook site effects) post seen := by
  refine (front.unrecorded (by simp) seen).bind ?_
  rintro _ a rfl
  exact rest a

end Rules

/-- What a call of `SelectPhotonAppId` comes to: its own code runs where no
AppID is configured, or where no string could be made of it. -/
def Selected (build : Build) (site : Ptr) (args : List Word) (shown : List (Exchange nativeSignature))
    (result : Word) : Prop :=
  if build.appId = [] then shown = [⟨.original .selectAppId (some site) args, result⟩]
  else ∃ fn, ∃ string : Ptr,
    (string ≠ 0 → shown = [⟨.call fn (.stringNew .photonAppId), string⟩] ∧ result = Ptr.word string) ∧
    (string = 0 → shown = [⟨.call fn (.stringNew .photonAppId), string⟩,
      ⟨.original .selectAppId (some site) args, result⟩])

/-- The part behind an AppID that is missing. -/
theorem fallback_wp {build : Build} {site : Ptr} {args : List Word}
    {seen : List (Exchange nativeSignature)} {post : List (Exchange nativeSignature) → Word → Prop}
    (finished : ∀ answer : Word, post (seen ++ [⟨.original .selectAppId (some site) args,
      answer⟩]) answer) :
    (do
      logSelectFallback build
      let original ← selectOriginal args
      let summary ← secretSummary (Word.ptr original)
      logI "appid: game result {%s}" [.str summary]
      return original : Native Word).wp (showing .selectAppId site [.original, .newString]) post seen := by
  have said : Confined (toldAt .selectAppId site) [] (logSelectFallback build) :=
    .ite (fun _ => .log _ _ _) fun _ => .log _ _ _
  refine showing_quiet said fun _ => ?_
  have called : (selectOriginal args).wp (showing .selectAppId site [.original, .newString])
      (fun after answer => after = seen ++ [⟨.original .selectAppId (some site) args, answer⟩]) seen := by
    refine ⟨trivial, fun trampoline led => ?_⟩
    obtain rfl : trampoline = some site := led.2 rfl
    exact ⟨trivial, fun answer _ => rfl⟩
  refine called.bind ?_
  rintro _ answer rfl
  refine showing_quiet (.secretSummary _) fun summary => ?_
  exact showing_quiet (.log _ _ _) fun _ => finished answer

theorem hookSelectAppId_wp (build : Build) (site settings method : Ptr) :
    (hookSelectAppId build settings method).wp (showing .selectAppId site [.original, .newString])
      (Selected build site [Ptr.word settings, Ptr.word method]) [] := by
  refine showing_quiet (.quiet rfl) fun count => ?_
  by_cases empty : build.appId = []
  · have none : configuredAppId build = .done 0 := if_pos empty
    rw [none, Prog.bind_eq, Prog.done_bind, if_neg (not_not.mpr rfl)]
    refine fallback_wp fun answer => ?_
    rw [Selected, if_pos empty]
    rfl
  have configured : configuredAppId build = api (.stringNew .photonAppId) := if_neg empty
  rw [configured]
  refine ⟨trivial, fun fn _ => ⟨trivial, fun string _ => .ite (fun made => ?_) fun failed => ?_⟩⟩
  · have overridden : Selected build site [Ptr.word settings, Ptr.word method]
        [⟨.call fn (.stringNew .photonAppId), string⟩] (Ptr.word string) := by
      rw [Selected, if_neg empty]
      exact ⟨fn, string, fun _ => ⟨rfl, rfl⟩, fun null => absurd null made⟩
    exact showing_quiet (.log _ _ _) fun _ => overridden
  · refine fallback_wp fun answer => ?_
    rw [Selected, if_neg empty]
    exact ⟨fn, string, fun made => absurd made failed, fun _ => rfl⟩

/-- In every run from the loading of the library on in which no entry is taken
while `hook::install` executes, a call of the hooked `SelectPhotonAppId` that
is about to return has made a string of the configured AppID and returns it,
or has run the game's own selection once, with its own arguments, and returns
what that returned. -/
theorem select_call {build : Build} {labels : List GameLabel} {c : GameConfig} {calls : List GameCall}
    (run : (system build).Records anyLabel (loading build) [] labels c calls) {site : Ptr}
    {result : Word} {rest : List (Frame nativeSignature Ptr Word)}
    (leaving : c.stack = .code site (.done result) :: rest)
    (carried : c.shared.memory.patched site = some .selectAppId) :
    ∃ call others, calls = call :: others ∧ call.site = site ∧
      Selected build site (Hook.passed .selectAppId call.args) (Shown [.original, .newString] call) result := by
  obtain ⟨call, others, rfl, at_, path, proper⟩ := proxy_in_control run leaving carried
  exact ⟨call, others, rfl, at_,
    Prog.wp.recorded path (fun e member => (proper e member).2) (hookSelectAppId_wp build site _ _)⟩

def Sample.selectSite : Ptr := Sample.metadata.codeOf selectAppIdTarget

/-- The sample game asks for the AppID and gets the string made of the configured one. -/
theorem select_overridden : ∃ labels c calls,
    (system Sample.build).Records anyLabel (loading Sample.build) [] labels c calls ∧
    ∃ call others, calls = call :: others ∧
      Selected Sample.build Sample.selectSite (Hook.passed .selectAppId call.args)
        (Shown [.original, .newString] call) (Ptr.word 9) := by
  have played : (Sample.play [.go Sample.startupSteps,
      .call Sample.selectSite [16, 0], .go 4]).bind leavingAt =
      some (Sample.selectSite, Ptr.word 9, some .selectAppId) := by decide +kernel
  obtain ⟨c, reached, leaving⟩ := Option.bind_eq_some_iff.mp played
  obtain ⟨labels, calls, records⟩ := Sample.play_records reached
  obtain ⟨⟨rest, top⟩, carried⟩ := leaving_of_leavingAt leaving
  obtain ⟨call, others, same, _, selected⟩ := select_call records top carried
  exact ⟨labels, c, calls, records, call, others, same, selected⟩

/-- The calls of trampolines among some exchanges. -/
def originals (exchanged : List (Exchange nativeSignature)) : List (Exchange nativeSignature) :=
  exchanged.filter fun e => e.op.isOriginal

theorem originals_confined {effects : List Effect} {α : Type} {p : Native α}
    {exchanged : List (Exchange nativeSignature)} {q : Native α}
    (confined : Confined anyAnswer effects p) (apart : .original ∉ effects) (path : p.Path exchanged q) :
    originals exchanged = [] := by
  refine List.filter_eq_nil_iff.mpr fun e member original => ?_
  have within := confined.along path (fun _ _ => trivial) e member
  obtain ⟨op, answer⟩ := e
  cases op with
  | original => exact apart (within .original rfl)
  | _ => cases original

/-- The code behind a trampoline is that at the site, and it is called last. -/
theorem callOriginal_path {hook : Hook} {site : Ptr} {args : List Word}
    {exchanged : List (Exchange nativeSignature)} {result : Word}
    (path : (callOriginal hook args).Path exchanged (.done result))
    (proper : ∀ e ∈ exchanged, Proper hook site e) :
    originals exchanged = [⟨.original hook (some site) args, result⟩] := by
  obtain ⟨trampoline, _, rfl, called⟩ := path.ask_done
  obtain ⟨answer, _, rfl, returned⟩ := called.ask_done
  obtain ⟨rfl, rfl⟩ := returned.done_done
  obtain ⟨_, rfl⟩ : some hook = some hook ∧ trampoline = some site :=
    (proper ⟨.original hook trampoline args, result⟩ (by simp)).1
  rfl

/-- `UseCloud` has been called for the settings object, with a new string of
the configured AppID and the region eu, and what it left there passed the test. -/
def Routed (point : String) (asked : List (Exchange nativeSignature)) : Prop :=
  ∃ before after, ∃ settings appId fn method : Ptr, ∃ answer : Word,
    asked = before ++ ⟨.managed .useCloud fn [Ptr.word settings, Ptr.word appId, kForcedRegionEu,
      Ptr.word method], answer⟩ :: after ∧
    settings ≠ 0 ∧ appId ≠ 0 ∧ fn ≠ 0 ∧ method ≠ 0 ∧
    (∃ stringNew, ⟨.call stringNew (.stringNew .photonAppId), appId⟩ ∈ before) ∧
    (verifyRoute point settings appId).Path after (.done true)

theorem newAppIdString_path {appId : Ptr} {exchanged : List (Exchange nativeSignature)}
    (path : newAppIdString.Path exchanged (.done appId)) (made : appId ≠ 0) :
    ∃ fn, ⟨.call fn (.stringNew .photonAppId), appId⟩ ∈ exchanged := by
  obtain ⟨front, unbound, rest, rfl, _, tested⟩ := path.bind_cases
  cases unbound with
  | true => exact absurd tested.done_done.2 made
  | false =>
    obtain ⟨fn, _, rfl, called⟩ := Prog.Path.ask_done tested
    obtain ⟨answer, _, rfl, returned⟩ := called.ask_done
    obtain ⟨rfl, rfl⟩ := returned.done_done
    exact ⟨fn, by simp⟩

/-- A part that ends with false has not ended with true. -/
theorem not_ready {α : Type} {p : Native α} {exchanged : List (Exchange nativeSignature)}
    (path : (p >>= fun _ => .done false : Native Bool).Path exchanged (.done true)) : False := by
  obtain ⟨_, _, _, _, _, last⟩ := path.bind_cases
  cases last.done_done.2

theorem forceCloudRoute_path {build : Build} {point : String} {asked : List (Exchange nativeSignature)}
    (path : (forceCloudRoute build point).Path asked (.done true)) : Routed point asked := by
  unfold forceCloudRoute at path
  split at path
  · obtain ⟨_, logged, _, _, _, refused⟩ := path.bind_cases
    cases logged with
    | true => cases (Prog.Path.done_done refused).2
    | false => exact (not_ready refused).elim
  obtain ⟨first, settings, _, rfl, _, fetched⟩ := path.bind_cases
  split at fetched
  · exact (not_ready fetched).elim
  rename_i found
  obtain ⟨second, appId, _, rfl, string, asked⟩ := fetched.bind_cases
  split at asked
  · exact (not_ready asked).elim
  rename_i made
  obtain ⟨third, fn, _, rfl, _, looked⟩ := asked.bind_cases
  obtain ⟨fourth, method, _, rfl, _, read⟩ := looked.bind_cases
  split at read
  · obtain ⟨_, _, _, _, _, refused⟩ := read.bind_cases
    exact (not_ready refused).elim
  rename_i bound
  obtain ⟨present, known⟩ := not_or.mp bound
  obtain ⟨answer, after, rfl, verified⟩ := Prog.Path.ask_done read
  obtain ⟨stringNew, member⟩ := newAppIdString_path string made
  refine ⟨first ++ second ++ third ++ fourth, after, settings, appId, fn, method, answer,
    by simp, found, made, present, known, ⟨stringNew, ?_⟩, verified⟩
  exact List.mem_append_left _ (List.mem_append_left _ (List.mem_append_right _ member))

/-- What a call of a guarded connection entry comes to: `force_cloud` gives
its verdict first, in a cloud build a true one only behind a `UseCloud` that
did its work, and the entry's own code runs exactly if the verdict is true. -/
def Judged (build : Build) (hook : Hook) (site : Ptr) (args : List Word)
    (exchanged : List (Exchange nativeSignature)) (result : Word) : Prop :=
  ∃ asked verdict rest, exchanged = asked ++ ⟨.mark (.forceCloud true verdict), ()⟩ :: rest ∧
    (forceCloudBody build (entryPoint hook) true).Path asked (.done verdict) ∧
    (verdict = true → build.selfhosted = false → Routed (entryPoint hook) asked) ∧ originals asked = [] ∧
    (originals rest = if verdict then [⟨.original hook (some site) args, result⟩] else []) ∧
    (verdict = false → result = 0)

theorem proxy_passes (build : Build) {hook : Hook} (guards : guardsConnection hook = true)
    (args : List Word) :
    ∃ blocked, hook.proxy build args = guarded build hook (entryPoint hook) blocked (hook.passed args) := by
  cases hook with
  | connectSceneGo | connectionControlConnect | gameConnectTier | gameConnectSquad =>
    simp only [Hook.proxy, hookConnectSceneGo, hookConnectionControlConnect, hookGameConnectTier,
      hookGameConnectSquad]
    exact ⟨_, rfl⟩
  | _ => cases guards

theorem guarded_path {build : Build} {hook : Hook} {site : Ptr} {blocked : Option String} {args : List Word}
    {exchanged : List (Exchange nativeSignature)} {result : Word}
    (path : (guarded build hook (entryPoint hook) blocked args).Path exchanged (.done result))
    (proper : ∀ e ∈ exchanged, Proper hook site e) : Judged build hook site args exchanged result := by
  obtain ⟨front, verdict, rest, rfl, forced, judged⟩ := path.bind_cases
  obtain ⟨asked, given, _, rfl, body, marked⟩ := forced.bind_cases
  obtain ⟨_, _, rfl, last⟩ := Prog.Path.ask_done marked
  obtain ⟨rfl, rfl⟩ := last.done_done
  have silent : originals asked = [] :=
    originals_confined (.forceCloudBody build _ true (by decide) (by decide) (by decide) :
      Confined anyAnswer [.cache, .newString, .useCloud] _) (by decide) body
  refine ⟨asked, verdict, rest, by simp, body, ?_, silent, ?_⟩
  · rintro rfl cloud
    have route : forceCloudBody build (entryPoint hook) true = forceCloudRoute build (entryPoint hook) :=
      if_neg (by simp [cloud])
    exact forceCloudRoute_path (route ▸ body)
  · cases verdict with
    | true =>
      exact ⟨callOriginal_path judged fun e member =>
        proper e (List.mem_append_right _ member), nofun⟩
    | false =>
      cases blocked with
      | none =>
        obtain ⟨rfl, rfl⟩ := Prog.Path.done_done judged
        exact ⟨rfl, fun _ => rfl⟩
      | some message =>
        obtain ⟨_, _, rfl, said⟩ := Prog.Path.ask_done judged
        obtain ⟨rfl, rfl⟩ := Prog.Path.done_done said
        exact ⟨rfl, fun _ => rfl⟩

/-- What `connection_state` has been told: by the getter that its lookup
found, or by nobody, and then it is -1. -/
def StateTold (asked : List (Exchange nativeSignature)) (state : Int) : Prop :=
  ∃ looked, ∃ fn : Ptr, (lookupCached .guardStateFn .guardStateMethod
      ⟨"", "PhotonNetwork", "get_connectionStateDetailed", 0⟩).Path looked (.done fn) ∧
    ((fn = 0 ∧ state = -1 ∧ asked = looked) ∨ (fn ≠ 0 ∧ ∃ info : Ptr, asked =
      looked ++ [⟨.static .guardStateMethod, info⟩, ⟨.managed .connectionState fn [Ptr.word info], state⟩]))

theorem connectionState_path {asked : List (Exchange nativeSignature)} {state : Int}
    (path : CloudGuard.connectionState.Path asked (.done state)) : StateTold asked state := by
  obtain ⟨looked, fn, _, rfl, lookup, rest⟩ := path.bind_cases
  refine ⟨looked, fn, lookup, ?_⟩
  split at rest
  · rename_i missing
    obtain ⟨rfl, rfl⟩ := rest.done_done
    exact .inl ⟨missing, rfl, List.append_nil looked⟩
  · rename_i found
    obtain ⟨info, _, rfl, called⟩ := Prog.Path.ask_done rest
    obtain ⟨answer, _, rfl, returned⟩ := Prog.Path.ask_done called
    obtain ⟨rfl, rfl⟩ := returned.done_done
    exact .inr ⟨found, info, rfl⟩

/-- What a call of `FriendsController.Update` comes to: its own code runs
unless `connection_state` has been told of a state to be quarantined. -/
def Admitted (site : Ptr) (args : List Word) (exchanged : List (Exchange nativeSignature)) : Prop :=
  ∃ asked state rest, ∃ answer : Word,
    exchanged = asked ++ rest ∧ StateTold asked state ∧ originals asked = [] ∧
    originals rest = if shouldQuarantineFriendsUpdate state then []
      else [⟨.original .friendsUpdate (some site) args, answer⟩]

theorem hookFriendsUpdate_path {site self method : Ptr} {exchanged : List (Exchange nativeSignature)}
    {result : Word} (path : (hookFriendsUpdate self method).Path exchanged (.done result))
    (proper : ∀ e ∈ exchanged, Proper .friendsUpdate site e) :
    Admitted site [Ptr.word self, Ptr.word method] exchanged := by
  obtain ⟨asked, state, rest, rfl, told, decided⟩ := path.bind_cases
  have silent : originals asked = [] :=
    originals_confined (.connectionStateVia _ _ (by decide) (by decide) : Confined anyAnswer [.cache, .getter] _)
      (by decide) told
  split at decided
  · rename_i busy
    obtain ⟨said, _, _, rfl, skipped, last⟩ := decided.bind_cases
    obtain ⟨rfl, _⟩ := last.done_done
    have quiet : Confined anyAnswer [] (skipFriendsUpdate state) :=
      (Confined.quiet rfl).seq fun count => .ite (fun _ => .log _ _ _) fun _ => .done _
    refine ⟨asked, state, said ++ [], 0, rfl, connectionState_path told, silent, ?_⟩
    rw [if_pos busy, List.append_nil]
    exact originals_confined quiet nofun skipped
  · rename_i calm
    obtain ⟨called, answer, _, rfl, original, last⟩ := decided.bind_cases
    obtain ⟨rfl, _⟩ := last.done_done
    refine ⟨asked, state, called ++ [], answer, rfl, connectionState_path told, silent, ?_⟩
    rw [if_neg calm, List.append_nil]
    exact callOriginal_path original fun e member => proper e (by simp [member])

/-- In every run from the loading of the library on in which no entry is taken
while `hook::install` executes, a call of a guard hook that is about to return
has run the code at its own entry as the verdict of `force_cloud`, or the
state that the getter told, within this very call says. -/
theorem guard_call {build : Build} {labels : List GameLabel} {c : GameConfig} {calls : List GameCall}
    (run : (system build).Records anyLabel (loading build) [] labels c calls) {site : Ptr}
    {result : Word} {rest : List (Frame nativeSignature Ptr Word)}
    (leaving : c.stack = .code site (.done result) :: rest) {hook : Hook}
    (carried : c.shared.memory.patched site = some hook) :
    ∃ call others, calls = call :: others ∧ call.site = site ∧
      (guardsConnection hook = true → Judged build hook site (hook.passed call.args) call.exchanged result) ∧
      (hook = .friendsUpdate → Admitted site (hook.passed call.args) call.exchanged) := by
  obtain ⟨call, others, rfl, at_, path, proper⟩ := proxy_in_control run leaving carried
  refine ⟨call, others, rfl, at_, fun guards => ?_, ?_⟩
  · obtain ⟨blocked, same⟩ := proxy_passes build guards call.args
    exact guarded_path (same ▸ path) proper
  · rintro rfl
    exact hookFriendsUpdate_path path proper

def Sample.sceneSite : Ptr := Sample.metadata.codeOf ⟨"", "ConnectScene", "HandleGoBtnClicked", 0⟩

/-- The route is forced through the hooked `UseCloud`, then the scene's own code runs. -/
theorem connectScene_judged : ∃ labels c calls,
    (system Sample.build).Records anyLabel (loading Sample.build) [] labels c calls ∧
    ∃ call others, calls = call :: others ∧ Judged Sample.build .connectSceneGo Sample.sceneSite
      (Hook.passed .connectSceneGo call.args) call.exchanged 7 := by
  have played : (Sample.play [.go Sample.startupSteps, .call Sample.sceneSite [16, 0], .go 57,
      .finish 0, .go 130,
      .finish 7]).bind leavingAt = some (Sample.sceneSite, 7, some .connectSceneGo) := by decide +kernel
  obtain ⟨c, reached, leaving⟩ := Option.bind_eq_some_iff.mp played
  obtain ⟨labels, calls, records⟩ := Sample.play_records reached
  obtain ⟨⟨rest, top⟩, carried⟩ := leaving_of_leavingAt leaving
  obtain ⟨call, others, same, _, judged, _⟩ := guard_call records top carried
  exact ⟨labels, c, calls, records, call, others, same, judged (by decide)⟩

end Opg3d
