import Opg3d.Scene.Frame

namespace Opg3d

open Kit Native HookEngine

namespace World

/-- The number in an integer field of an object, if there is such a field. -/
def number (w : World) (object : Ptr) (name : String) : Option Nat :=
  if w.HasField object name then
    match w.contentOf object name with
    | .value bytes => some (leNat bytes)
    | .reference _ => none
  else none

/-- The reference in a field of an object, if there is such a field. -/
def target (w : World) (object : Ptr) (name : String) : Option Ptr :=
  if w.HasField object name then
    match w.contentOf object name with
    | .value _ => none
    | .reference target => some target
  else none

/-- The settings object stands for the route to Photon Cloud in the EU, with
the given string as its AppID. -/
structure Forced (w : World) (settings string : Ptr) : Prop where
  host : w.number settings "HostType" = some 1
  region : w.number settings "PreferredRegion" = some 0
  appId : w.target settings "AppID" = some string

/-- The kinds of the three fields, where the settings have them. -/
structure Laid (w : World) (settings : Ptr) : Prop where
  host : w.HasField settings "HostType" → ∃ bytes,
    w.contentOf settings "HostType" = .value bytes ∧ bytes.length ≤ 4
  region : w.HasField settings "PreferredRegion" →
    ∃ bytes, w.contentOf settings "PreferredRegion" = .value bytes ∧ bytes.length ≤ 4
  appId : w.HasField settings "AppID" → ∃ target, w.contentOf settings "AppID" = .reference target

/-- What `read_field` makes of a narrow integer field is the number in it. -/
theorem read_number {w : World} {object : Ptr} {name : String}
    (kind : w.HasField object name → ∃ bytes, w.contentOf object name = .value bytes ∧ bytes.length ≤ 4)
    (n : Nat) (small : n < 2 ^ 31) :
    (w.read object name 4).map int32OfBytes = some (n : Int) ↔ w.number object name = some n := by
  unfold read number
  split
  · rename_i has
    obtain ⟨bytes, content, narrow⟩ := kind has
    have bound : leNat bytes < 2 ^ 32 :=
      (leNat_lt bytes).trans_le (Nat.pow_le_pow_right (by decide) narrow)
    simp only [content, FieldValue.copied, scratch_take narrow (by decide), Option.map_some,
      Option.some.injEq, int32OfBytes, leNat_append_zeros, signedOf]
    split <;> omega
  · simp

theorem read_target {w : World} {object : Ptr} {name : String}
    (kind : w.HasField object name → ∃ target, w.contentOf object name = .reference target) (p : Ptr) :
    (w.read object name 4).map ptrOfBytes = some p ↔ w.target object name = some p := by
  unfold read target
  split
  · rename_i has
    obtain ⟨found, content⟩ := kind has
    have width : (ptrBytes found).length = 4 := length_leBytes 4 _
    simp only [content, FieldValue.copied, scratch_take width.le (by decide), width, Nat.sub_self,
      List.replicate_zero, List.append_nil, Option.map_some, ptrOfBytes_ptrBytes]
  · simp

end World

namespace Scene

variable {build : Build} {conduct : Conduct} {useCloud : Ptr → List Word → Scene → Word × Scene} {s : Scene}

/-- The handle of a static field that a cached lookup yields. -/
def handle (s : Scene) (cell : Static) (klass field : String) : Ptr :=
  if s.system.memory.static cell = 0 then s.world.metadata.fieldNamed "" klass field
  else s.system.memory.static cell

def withHandle (s : Scene) (cell : Static) (klass field : String) : Scene :=
  if s.system.memory.static cell = 0 then s.withStatic cell (s.world.metadata.fieldNamed "" klass field) else s

theorem static_withHandle (s : Scene) (cell : Static) (klass field : String) :
    (s.withHandle cell klass field).system.memory.static =
      Function.update s.system.memory.static cell (s.handle cell klass field) := by
  unfold withHandle handle
  split
  · rfl
  · exact (Function.update_eq_self ..).symm

theorem same_withHandle (s : Scene) (cell : Static) (klass field : String) :
    s.Same (s.withHandle cell klass field) := by
  unfold withHandle
  split
  · exact ⟨rfl, rfl⟩
  · exact .refl s

theorem same_cached (s : Scene) (fnCell methodCell : Static) (target : ManagedMethod) :
    s.Same (s.cached fnCell methodCell target) := by
  unfold cached
  split
  · exact ⟨rfl, rfl⟩
  · exact .refl s

theorem cacheField_wp (bound : s.system.core.Bound) (cell : Static) (klass field : String) :
    (cacheField cell klass field).wp (watch conduct useCloud) (fun t _ =>
      t = s.withHandle cell klass field) s := by
  refine ⟨rfl, fun held read => ?_⟩
  obtain rfl : held = s.system.memory.static cell := read
  unfold withHandle
  refine .ite (fun empty => ?_) fun full => ?_
  · rw [if_pos empty]
    exact ((answers bound).findField_wp "" klass field).seq ⟨rfl, fun _ _ => rfl⟩
  · rw [if_neg full]
    rfl

/-- PUN's settings object, null until `PhotonNetwork` has one. -/
def settings (s : Scene) : Ptr :=
  if s.handle .guardSettingsField "PhotonNetwork" "PhotonServerSettings" = 0 then 0
  else s.world.staticContent (s.handle .guardSettingsField "PhotonNetwork" "PhotonServerSettings")

/-- The scene once the handle of the settings field has been looked up. -/
abbrev prepared (s : Scene) : Scene :=
  s.withHandle .guardSettingsField "PhotonNetwork" "PhotonServerSettings"

theorem currentServerSettings_wp (bound : s.system.core.Bound) :
    CloudGuard.currentServerSettings.wp (watch conduct useCloud)
      (fun t found => t = s.prepared ∧ found = s.settings) s := by
  refine (cacheField_wp bound _ _ _).bind ?_
  rintro _ _ rfl
  have same := s.same_withHandle .guardSettingsField "PhotonNetwork" "PhotonServerSettings"
  have held : s.prepared.system.memory.static .guardSettingsField =
      s.handle .guardSettingsField "PhotonNetwork" "PhotonServerSettings" := by
    rw [static_withHandle]
    exact Function.update_self ..
  refine ⟨rfl, fun field read => ?_⟩
  obtain rfl := Eq.trans read held
  rw [settings]
  refine .ite (fun missing => ⟨rfl, (if_pos missing).symm⟩) fun present => ?_
  rw [if_neg present]
  have bound' : s.prepared.system.core.Bound := same.2 ▸ bound
  refine ((answers bound').anyNull_wp (by decide)).seq (.ite (absurd · Bool.false_ne_true) fun _ => ?_)
  refine ⟨rfl, fun field read => ?_⟩
  obtain rfl := Eq.trans read held
  refine .ite (absurd · present) fun _ => ⟨rfl, fun fn _ => ⟨rfl, fun object told => ⟨rfl, ?_⟩⟩⟩
  obtain rfl : object = _ := told
  show s.prepared.world.staticContent _ = _
  rw [same.1]

/-- The string that `il2cpp_string_new` makes of the AppID. -/
abbrev appIdString (s : Scene) : Ptr := s.world.allocation .photonAppId

theorem newAppIdString_wp (bound : s.system.core.Bound) :
    CloudGuard.newAppIdString.wp (watch conduct useCloud) (fun t string =>
      t = s ∧ string = s.appIdString) s := by
  refine ((answers bound).anyNull_wp (by decide)).seq (.ite (absurd · Bool.false_ne_true) fun _ => ?_)
  exact ⟨rfl, fun fn _ => ⟨rfl, fun string told => ⟨rfl, told⟩⟩⟩

/-- The code of `UseCloud(appId, region)` and its `MethodInfo`, cached or found. -/
def useCloudFn (s : Scene) : Ptr := s.lookup .guardUseCloudFn CloudGuard.useCloudTarget

def useCloudInfo (s : Scene) : Ptr :=
  if s.system.memory.static .guardUseCloudFn = 0 then s.world.metadata.methodInfo CloudGuard.useCloudTarget
  else s.system.memory.static .guardUseCloudMethod

theorem static_cached (s : Scene) :
    (s.cached .guardUseCloudFn .guardUseCloudMethod CloudGuard.useCloudTarget).system.memory.static
      .guardUseCloudMethod = s.useCloudInfo := by
  unfold cached useCloudInfo
  split
  · simp [withStatic]
  · rfl

/-- The words that `force_cloud` passes to `UseCloud`. -/
def useCloudArgs (s : Scene) : List Word :=
  [Ptr.word s.settings, Ptr.word s.appIdString, CloudGuard.kForcedRegionEu, Ptr.word s.useCloudInfo]

/-- The game's side after the call of `UseCloud`. -/
def routed (conduct : Conduct) (s : Scene) : World :=
  (conduct.body .useCloudRegion s.world s.useCloudArgs).2

/-- Everything that a forced route takes. -/
structure Routed (build : Build) (conduct : Conduct) (s : Scene) : Prop where
  keyed : build.appId ≠ []
  settings : s.settings ≠ 0
  string : s.appIdString ≠ 0
  useCloud : s.useCloudFn ≠ 0 ∧ s.useCloudInfo ≠ 0
  forced : (s.routed conduct).Forced s.settings s.appIdString

theorem lookup_prepared (s : Scene) :
    s.prepared.lookup .guardUseCloudFn CloudGuard.useCloudTarget = s.useCloudFn := by
  have same := s.same_withHandle .guardSettingsField "PhotonNetwork" "PhotonServerSettings"
  have kept : s.prepared.system.memory.static .guardUseCloudFn = s.system.memory.static .guardUseCloudFn := by
    rw [static_withHandle]
    simp
  rw [useCloudFn, lookup, lookup, kept, same.1]

theorem useCloudInfo_prepared (s : Scene) : s.prepared.useCloudInfo = s.useCloudInfo := by
  have same := s.same_withHandle .guardSettingsField "PhotonNetwork" "PhotonServerSettings"
  simp [useCloudInfo, static_withHandle, same.1]

/-- The proxy of `UseCloud` comes down to the call of the original. -/
theorem hookUseCloudRegion_run (s : Scene) (self appId method : Ptr) (region : Int) :
    let t := ((Photon.hookUseCloudRegion self appId region method).eval (answerWith conduct useCloud) s).2
    t.world = (conduct.body .useCloudRegion s.world [Ptr.word self, Ptr.word appId, region,
      Ptr.word method]).2 ∧ t.system.core = s.system.core := by
  intro t
  have front : Keeps (do
      let summary ← Photon.secretSummary appId
      logI "trace: ServerSettings.UseCloud(region=%d) app={%s}" [.int region, .str summary]) :=
    (Keeps.secretSummary appId).seq fun summary => Keeps.log _ _ _
  have back : Keeps (do Photon.logSettings "UseCloud(region)/end" self; return (0 : Word)) :=
    (Keeps.logSettings _ _).seq fun _ => Keeps.done _
  let u := (Prog.eval (answerWith conduct useCloud) (do
      let summary ← Photon.secretSummary appId
      logI "trace: ServerSettings.UseCloud(region=%d) app={%s}" [.int region, .str summary]) s).2
  have before : s.Same u := front.same s
  have split : t = (Prog.eval (answerWith conduct useCloud)
      (do Photon.logSettings "UseCloud(region)/end" self; return (0 : Word))
      (u.runBody conduct .useCloudRegion [Ptr.word self, Ptr.word appId, region,
        Ptr.word method]).2).2 := by
    simp only [t, u, Photon.hookUseCloudRegion, Prog.bind_eq, Prog.eval_bind]
    rfl
  have after : Scene.Same (u.runBody conduct .useCloudRegion [Ptr.word self, Ptr.word appId, region,
    Ptr.word method]).2 t := by
    rw [split]
    exact back.same _
  exact ⟨by rw [after.1, runBody, before.1], by rw [after.2]; exact before.2⟩

/-- The same through the entry of `UseCloud`, hooked or not. -/
theorem throughEntry_run (build : Build) (conduct : Conduct) {fn : Ptr}
    (entry : s.system.memory.patched fn = none ∨ s.system.memory.patched fn = some .useCloudRegion)
    (self appId method : Ptr) (region : Int) :
    let args := [Ptr.word self, Ptr.word appId, region, Ptr.word method]
    (throughEntry build conduct fn args s).2.world = (conduct.body .useCloudRegion s.world args).2 ∧
      (throughEntry build conduct fn args s).2.system.core = s.system.core := by
  intro args
  unfold throughEntry
  rcases entry with free | hooked
  · rw [free]
    exact ⟨rfl, rfl⟩
  · rw [hooked]
    simpa [Hook.proxy, args, direct] using hookUseCloudRegion_run s self appId method region

theorem readBack_wp (bound : s.system.core.Bound) {settings : Ptr} (laid : s.world.Laid settings)
    (string : Ptr) :
    (CloudGuard.readBack settings).wp (watch conduct useCloud)
      (fun t read => t = s ∧ (read.ready string = true ↔ s.world.Forced settings string)) s := by
  have int (name : String) : (readInt32 settings name).wp (watch conduct useCloud)
      (fun t i => t = s ∧ i = (s.world.read settings name 4).map int32OfBytes) s :=
    (Keeps.readInt32 settings name).wp_of_eval (Prog.eval_seq (eval_readField bound settings name 4))
  have ref (name : String) : (readRef settings name).wp (watch conduct useCloud)
      (fun t p => t = s ∧ p = (s.world.read settings name 4).map ptrOfBytes) s :=
    (Keeps.readRef settings name).wp_of_eval (Prog.eval_seq (eval_readField bound settings name 4))
  refine (int "HostType").seq ((int "PreferredRegion").seq ((ref "AppID").seq ⟨rfl, ?_⟩))
  have host := World.read_number laid.host 1 (by decide)
  have region := World.read_number laid.region 0 (by decide)
  have appId := World.read_target laid.appId string
  rw [CloudGuard.ReadBack.ready, Bool.and_eq_true, Bool.and_eq_true]
  constructor
  · rintro ⟨⟨one, zero⟩, stored⟩
    exact ⟨host.mp (of_decide_eq_true one), region.mp (of_decide_eq_true zero),
      appId.mp (of_decide_eq_true stored)⟩
  · intro forced
    exact ⟨⟨decide_eq_true (host.mpr forced.host), decide_eq_true (region.mpr forced.region)⟩,
      decide_eq_true (appId.mpr forced.appId)⟩

end Scene

end Opg3d
