import Opg3d.Install.Outcome
import Opg3d.Scene.Settings

namespace Opg3d.CloudGuard

open Kit Native HookEngine Scene

variable {build : Build} {conduct : Conduct} {s : Scene}

/-- What `force_cloud` has done by the time it returns. -/
def Decided (build : Build) (conduct : Conduct) (s t : Scene) (result : Bool) : Prop :=
  t.system.core = s.system.core ∧ (result = true ↔ s.Routed build conduct) ∧
    (result = true → t.world = s.routed conduct)

theorem Decided.refused {t : Scene} (core : t.system.core = s.system.core)
    (fails : ¬s.Routed build conduct) : Decided build conduct s t false :=
  ⟨core, by simp [fails], fun success => absurd success Bool.false_ne_true⟩

theorem refuse_wp {t : Scene} (core : t.system.core = s.system.core) (fails : ¬s.Routed build conduct)
    (priority : Priority) (format : String) (args : List Arg) :
    (do log priority format args; return false : Native Bool).wp (watch conduct (throughEntry build conduct))
      (Decided build conduct s) t :=
  ⟨rfl, fun _ _ => .refused core fails⟩

theorem verifyRoute_wp {u : Scene} {useCloud : Ptr → List Word → Scene → Word × Scene}
    (bound : u.system.core.Bound) {settings : Ptr} (laid : u.world.Laid settings) (point : String)
    (string : Ptr) :
    (verifyRoute point settings string).wp (watch conduct useCloud)
      (fun v ready => u.Same v ∧ (ready = true ↔ u.world.Forced settings string)) u := by
  refine (readBack_wp bound laid string).bind ?_
  rintro _ read ⟨rfl, ready⟩
  refine ((Keeps.stringLengthOr (-1) string).watch_wp _).bind ?_
  rintro v chars ⟨same, _⟩
  refine ⟨rfl, fun count _ => ⟨rfl, fun _ _ => ⟨rfl, fun _ _ => ?_⟩⟩⟩
  exact .ite (fun _ => ⟨rfl, fun _ _ => ⟨same, ready⟩⟩) fun _ => ⟨same, ready⟩

theorem applyRoute_wp {t : Scene} (same : s.Same t) (bound : s.system.core.Bound)
    (entry : s.system.memory.patched s.useCloudFn = none ∨
      s.system.memory.patched s.useCloudFn = some .useCloudRegion)
    (laid : (s.routed conduct).Laid s.settings) (point : String)
    (obtained : (s.routed conduct).Forced s.settings s.appIdString ↔ s.Routed build conduct) :
    (applyRoute point s.settings s.appIdString s.useCloudFn s.useCloudInfo).wp
      (watch conduct (throughEntry build conduct)) (Decided build conduct s) t := by
  have entry' : t.system.memory.patched s.useCloudFn = none ∨
    t.system.memory.patched s.useCloudFn = some .useCloudRegion := by
    rwa [show t.system.memory.patched = s.system.memory.patched from congrArg Core.patched same.2]
  obtain ⟨world, core⟩ := throughEntry_run build conduct entry' s.settings s.appIdString
    s.useCloudInfo kForcedRegionEu
  rw [same.1] at world
  rw [same.2] at core
  refine ⟨rfl, fun word _ => ?_⟩
  show (verifyRoute point s.settings s.appIdString).wp _ _
    (throughEntry build conduct s.useCloudFn s.useCloudArgs t).2
  have world : (throughEntry build conduct s.useCloudFn s.useCloudArgs t).2.world = s.routed conduct := world
  have core : (throughEntry build conduct s.useCloudFn s.useCloudArgs t).2.system.core = s.system.core := core
  generalize (throughEntry build conduct s.useCloudFn s.useCloudArgs t).2 = u at world core ⊢
  refine (verifyRoute_wp (core ▸ bound) (world ▸ laid) point s.appIdString).mono fun v ready after => ?_
  obtain ⟨same, forced⟩ := after
  rw [world] at forced
  exact ⟨same.2.trans core, forced.trans obtained, fun _ => same.1.trans world⟩

theorem forceCloudRoute_wp (bound : s.system.core.Bound)
    (entry : s.system.memory.patched s.useCloudFn = none ∨
      s.system.memory.patched s.useCloudFn = some .useCloudRegion)
    (laid : (s.routed conduct).Laid s.settings) (point : String) :
    (forceCloudRoute build point).wp (watch conduct (throughEntry build conduct))
      (Decided build conduct s) s := by
  refine .ite (fun empty => ?_) fun keyed => ?_
  · have fails : ¬s.Routed build conduct := fun routed => routed.keyed empty
    exact ⟨rfl, fun _ _ => .ite (fun _ => ⟨rfl, fun _ _ => .refused rfl fails⟩) fun _ => .refused rfl fails⟩
  have same : s.Same s.prepared := same_withHandle ..
  have bound' : s.prepared.system.core.Bound := same.2 ▸ bound
  refine (currentServerSettings_wp bound).seq (.ite (fun missing => ?_) fun settings => ?_)
  · exact refuse_wp same.2 (fun routed => routed.settings missing) _ _ _
  have allocated : s.prepared.appIdString = s.appIdString := by rw [appIdString, same.1]
  refine (newAppIdString_wp bound').seq ?_
  rw [allocated]
  refine .ite (fun failed => refuse_wp same.2 (fun routed => routed.string failed) _ _ _) fun string => ?_
  refine (lookupCached_wp bound' _ _ _).seq ?_
  rw [lookup_prepared]
  have same' : s.Same (s.prepared.cached .guardUseCloudFn .guardUseCloudMethod useCloudTarget) :=
    same.trans (same_cached ..)
  refine ⟨rfl, fun info read => ?_⟩
  obtain rfl : info = s.useCloudInfo := Eq.trans read ((static_cached _).trans (useCloudInfo_prepared s))
  refine .ite (fun missing => ?_) fun found => ?_
  · have fails : ¬s.Routed build conduct := fun routed =>
      missing.elim routed.useCloud.1 routed.useCloud.2
    exact ⟨rfl, fun _ _ => ⟨rfl, fun _ _ => .refused same'.2 fails⟩⟩
  · refine applyRoute_wp same' bound entry laid point ?_
    exact ⟨fun forced => ⟨keyed, settings, string, not_or.mp found, forced⟩, fun routed => routed.forced⟩

theorem forceCloud_decides (cloud : build.selfhosted = false) (bound : s.system.core.Bound)
    (entry : s.system.memory.patched s.useCloudFn = none ∨
      s.system.memory.patched s.useCloudFn = some .useCloudRegion)
    (laid : (s.routed conduct).Laid s.settings) (point : String) :
    (forceCloud build point true).wp (watch conduct (throughEntry build conduct))
      (Decided build conduct s) s := by
  have body : (forceCloudBody build point true).wp (watch conduct (throughEntry build conduct))
      (Decided build conduct s) s := by
    refine .ite (fun own => absurd own (by simp [cloud])) fun _ => .ite nofun fun _ => ?_
    exact forceCloudRoute_wp bound entry laid point
  exact body.bind fun t result decided => ⟨rfl, fun _ _ => decided⟩

theorem originals_guarded {useCloud : Ptr → List Word → Scene → Word × Scene}
    {post : Scene → Bool → Prop} {point : String}
    (plain : (forceCloud build point true).wp (watch conduct useCloud) post s) {forced : Bool}
    {t : Scene}
    (result : (forceCloud build point true).eval (answerWith conduct useCloud) s = (forced, t))
    (hook : Hook) (blocked : Option String) (args : List Word) :
    originals conduct useCloud (guarded build hook point blocked args) s =
      if forced then [⟨t, .original hook (t.system.memory.slot hook) args⟩] else [] := by
  rw [guarded, originals_bind plain, result]
  cases forced with
  | true => rfl
  | false => cases blocked <;> rfl

/-- Fail closed: in whatever state the library is and whatever `UseCloud`
does, a guard hook calls its original once if the route has been forced, and
not at all otherwise; and the original starts with the route in place. -/
theorem guard_fails_closed {hook : Hook} (guards : guardsConnection hook = true)
    (cloud : build.selfhosted = false) (bound : s.system.core.Bound) {site : Ptr}
    (installed : s.system.memory.slot hook = some site)
    (entry : s.system.memory.patched s.useCloudFn = none ∨
      s.system.memory.patched s.useCloudFn = some .useCloudRegion)
    (laid : (s.routed conduct).Laid s.settings) (args : List Word) :
    let forced := ((forceCloud build (entryPoint hook) true).eval (Scene.answer build conduct) s).1
    let calls := originals conduct (throughEntry build conduct) (hook.proxy build args) s
    (forced = true ↔ s.Routed build conduct) ∧ calls.length = (if forced then 1 else 0) ∧
      ∀ call ∈ calls, call.op.reaches site = true ∧ call.state.world.Forced s.settings s.appIdString := by
  intro forced calls
  have decides : (forceCloud build (entryPoint hook) true).wp (watch conduct (throughEntry build conduct))
      (Decided build conduct s) s := forceCloud_decides cloud bound entry laid _
  obtain ⟨blocked, passed, same⟩ := proxy_guarded build guards args
  obtain ⟨⟨result, t⟩, verdict⟩ : ∃ r, (forceCloud build (entryPoint hook) true).eval
    (Scene.answer build conduct) s = r :=
    ⟨_, rfl⟩
  obtain ⟨core, routed, world⟩ : Decided build conduct s t result := by
    have decided := decides.eval id fun _ _ => ⟨rfl, rfl⟩
    change Decided build conduct s ((forceCloud build (entryPoint hook) true).eval
      (Scene.answer build conduct) s).2
      ((forceCloud build (entryPoint hook) true).eval (Scene.answer build conduct) s).1 at decided
    rwa [verdict] at decided
  have one := originals_guarded decides verdict hook blocked passed
  rw [← same] at one
  simp only [forced, calls, verdict, one]
  refine ⟨routed, ?_⟩
  cases result with
  | false => simp
  | true =>
    refine ⟨rfl, ?_⟩
    simp only [if_true, List.forall_mem_singleton]
    have slot : t.system.memory.slot hook = some site :=
      (congrFun (congrArg Core.slot core) hook).trans installed
    refine ⟨by simp [NativeOp.reaches, slot], ?_⟩
    show t.world.Forced s.settings s.appIdString
    rw [world rfl]
    exact (routed.mp rfl).forced

/-- The game of the sample installation, with a settings object at 7. -/
def routeWorld : World :=
  { World.empty with
    metadata := Sample.metadata
    classOf := fun _ => 6
    staticContent := fun _ => 7
    allocation := fun _ => 9 }

/-- `UseCloud` as the SDK has it: it stores the route and the AppID. -/
def routeConduct : Conduct :=
  { Conduct.passive with
    body := fun _ w args => (0, { w with
      content := fun _ field =>
        if field = 8 then .value (int32Bytes 1)
        else if field = 15 then .value (int32Bytes 0) else .reference (Word.ptr (args.getD 1 0)) }) }

theorem bound_of_installed {metadata : Metadata} {photonResult guardResult : Bool} {installed : System}
    (run : Installed build metadata photonResult guardResult installed) (world : World) :
    (Scene.mk installed world).system.core.Bound :=
  run.outcome.1.bound

/-- The sample game when `ConnectScene.HandleGoBtnClicked` is called in it. -/
abbrev routeScene : Scene := ⟨Sample.installed, routeWorld⟩

theorem connectScene_called_once :
    (originals routeConduct (throughEntry Sample.build routeConduct)
      (Hook.proxy Sample.build .connectSceneGo [16, 0])
      routeScene).length = 1 := by
  -- one evaluation of the installed library for all of them
  have known : routeScene.system.memory.slot .connectSceneGo = some 49440 ∧
      routeScene.system.memory.patched routeScene.useCloudFn = some .useCloudRegion ∧
        routeScene.settings = 7 ∧
      routeScene.useCloudFn ≠ 0 ∧ routeScene.useCloudInfo ≠ 0 ∧
      (routeScene.routed routeConduct).contentOf 7 "HostType" = .value [1, 0, 0, 0] ∧
      (routeScene.routed routeConduct).contentOf 7 "PreferredRegion" = .value [0, 0, 0, 0] ∧
      (routeScene.routed routeConduct).contentOf 7 "AppID" = .reference 9 ∧
      (routeScene.routed routeConduct).number 7 "HostType" = some 1 ∧
      (routeScene.routed routeConduct).number 7 "PreferredRegion" = some 0 ∧
      (routeScene.routed routeConduct).target 7 "AppID" = some routeScene.appIdString := by decide +kernel
  obtain ⟨site, hooked, settings, code, info, host, region, appId, cloud, eu, string⟩ := known
  have laid : (routeScene.routed routeConduct).Laid 7 :=
    ⟨fun _ => ⟨_, host, by decide⟩, fun _ => ⟨_, region, by decide⟩, fun _ => ⟨_, appId⟩⟩
  have bound : routeScene.system.core.Bound := bound_of_installed Sample.installs routeWorld
  rw [← settings] at laid
  obtain ⟨forced, once, _⟩ := guard_fails_closed (s := routeScene)
    (show guardsConnection .connectSceneGo = true from rfl)
    (show Sample.build.selfhosted = false from rfl) bound site (Or.inr hooked) laid [16, 0]
  have routed : routeScene.Routed Sample.build routeConduct := by
    refine ⟨by decide, by rw [settings]; decide, show (9 : Ptr) ≠ 0 by decide, ⟨code, info⟩, ?_⟩
    rw [settings]
    exact ⟨cloud, eu, string⟩
  rw [once, forced.mpr routed]
  rfl

end Opg3d.CloudGuard
