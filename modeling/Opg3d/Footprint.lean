import Opg3d.Activation.Accounts
import Opg3d.Activation.StartupRule

namespace Opg3d

open Kit Native HookEngine Photon CloudGuard

/-- The object was read from the static field whose handle is kept there. -/
def Fetched (cell : Static) (object : Ptr) (seen : Account) : Prop :=
  ∃ fn, ∃ field : Ptr, ⟨.static cell, field⟩ ∈ seen ∧ ⟨.call fn (.fieldStaticGetValue field), object⟩ ∈ seen

/-- The string was made of a text of the build. -/
def Made (text : ConfigText) (string : Ptr) (seen : Account) : Prop :=
  ∃ fn, ⟨.call fn (.stringNew text), string⟩ ∈ seen

/-- The handle was found in the class of the object under the name. -/
def FieldOf (object : Ptr) (name : String) (field : Ptr) (seen : Account) : Prop :=
  ∃ fn fn', ∃ klass : Ptr,
    ⟨.call fn (.objectGetClass object), klass⟩ ∈ seen ∧
      ⟨.call fn' (.classGetFieldFromName klass name), field⟩ ∈ seen

/-- The value that the build has for a field of the settings. -/
inductive Configured (build : Build) (seen : Account) : String → Bytes → Prop
  | appId {string} : build.appId ≠ [] → string ≠ 0 → Made .photonAppId string seen →
      Configured build seen "AppID" (ptrBytes string)
  | hostType : build.selfhosted = true → Configured build seen "HostType" (int32Bytes 2)
  | protocol : build.selfhosted = true → Configured build seen "Protocol" (int32Bytes 0)
  | serverAddress {string} : build.serverAddress ≠ [] → Made .photonServerAddress string seen →
      Configured build seen "ServerAddress" (ptrBytes string)
  | serverPort : build.serverAddress ≠ [] → Configured build seen "ServerPort" (int32Bytes build.serverPort)

/-- The hooks that turn on Photon's own logging. -/
def Hook.raisesLogs (hook : Hook) : Prop :=
  hook ∈ [Hook.setUpPhoton, .connectUsingSettings, .connectToMaster]

/-- What the proxy of a hook may do to the game after such answers. Getters may
be called at any time, the code pointer and the method info that a managed
call passes may be any, and the original is that of the hook itself. -/
def Provided (build : Build) (hook : Hook) (seen : Account) : NativeOp → Prop
  | .call _ (.fieldSetValue object field value) =>
    hook = .setUpPhoton ∧ object ≠ 0 ∧ Fetched .settingsField object seen ∧
      ∃ name, FieldOf object name field seen ∧ Configured build seen name value.bytes
  | .call _ (.fieldStaticSetValue field value) => hook.raisesLogs ∧ field ≠ 0 ∧
      ⟨.static .logLevelField, field⟩ ∈ seen ∧
      value = int32Bytes 2
  | .call _ (.stringNew .photonAppId) => build.appId ≠ [] ∧
      (hook = .selectAppId ∨ hook = .setUpPhoton ∨ guardsConnection hook = true ∧ build.selfhosted = false)
  | .call _ (.stringNew .photonServerAddress) => build.serverAddress ≠ [] ∧ hook = .setUpPhoton
  | .call _ (.threadAttach _) | .call _ (.threadDetach _) => False
  | .managed .setDebugOut _ args => hook.raisesLogs ∧
      ∃ peer method, args = [Ptr.word peer, 5, Ptr.word method] ∧ peer ≠ 0 ∧ Fetched .peerField peer seen
  | .managed .useCloud _ args => guardsConnection hook = true ∧ build.selfhosted = false ∧
      build.appId ≠ [] ∧
      ∃ settings appId method, args = [Ptr.word settings, Ptr.word appId, kForcedRegionEu,
        Ptr.word method] ∧
        settings ≠ 0 ∧ Fetched .guardSettingsField settings seen ∧ appId ≠ 0 ∧ Made .photonAppId appId seen
  | .original other _ _ => other = hook
  | .mark (.forceCloud _ _) => guardsConnection hook = true
  | op => op.effect ≠ some .setup

abbrev provenance (build : Build) (hook : Hook) : Monitor nativeSignature Account :=
  Prog.history anyAnswer (Provided build hook)

/-- The code does to the game what is provided for, given such knowledge. -/
def Provides (build : Build) (hook : Hook) (known : Account → Prop) {α : Type} (p : Native α) : Prop :=
  ∀ seen, known seen → p.wp (provenance build hook) (fun _ _ => True) seen

theorem fetched_lasting (cell : Static) (object : Ptr) : Lasting (Fetched cell object) := by
  rintro seen after within ⟨fn, field, read, got⟩
  exact ⟨fn, field, within read, within got⟩

theorem made_lasting (text : ConfigText) (string : Ptr) : Lasting (Made text string) := by
  rintro seen after within ⟨fn, made⟩
  exact ⟨fn, within made⟩

theorem configured_lasting (build : Build) (name : String) (value : Bytes) :
    Lasting fun seen => Configured build seen name value := by
  intro seen after within configured
  cases configured with
  | appId some present made => exact .appId some present (made_lasting _ _ _ _ within made)
  | hostType own => exact .hostType own
  | protocol own => exact .protocol own
  | serverAddress some made => exact .serverAddress some (made_lasting _ _ _ _ within made)
  | serverPort some => exact .serverPort some

theorem Lasting.and {known others : Account → Prop} (lasting : Lasting known) (also : Lasting others) :
    Lasting fun seen => known seen ∧ others seen :=
  fun seen after within both => ⟨lasting seen after within both.1, also seen after within both.2⟩

theorem true_lasting : Lasting fun _ => True := fun _ _ _ => id

namespace Provides

variable {build : Build} {hook : Hook} {known : Account → Prop} {α β : Type} {p : Native α} {f : α → Native β}

/-- The first part may find out more. -/
theorem learn {more : α → Account → Prop} (lasting : Lasting known)
    (first : ∀ seen, known seen → p.wp (provenance build hook) (fun after a => more a after) seen)
    (second : ∀ a, Provides build hook (fun seen => known seen ∧ more a seen) (f a)) :
    Provides build hook known (p >>= f) := by
  intro seen holds
  refine (first seen holds).grows.bind fun after a both => ?_
  exact second a after ⟨lasting seen after both.1 holds, both.2⟩

theorem seq (lasting : Lasting known) (first : Provides build hook known p)
    (second : ∀ a, Provides build hook known (f a)) : Provides build hook known (p >>= f) :=
  fun seen holds =>
    (first seen holds).grows.bind fun after a both => second a after (lasting seen after both.1 holds)

theorem ite {c : Prop} [Decidable c] {q : Native α} (yes : c → Provides build hook known p)
    (no : ¬c → Provides build hook known q) : Provides build hook known (if c then p else q) :=
  fun seen holds => .ite (fun met => yes met seen holds) fun failed => no failed seen holds

/-- Code that only asks, and code that calls getters and uses what is cached. -/
theorem asks (effects : List Effect) (confined : Confined anyAnswer effects p)
    (within : ∀ e ∈ effects, e = .cache ∨ e = .getter) : Provides build hook known p := by
  refine fun seen _ => confined.accepted (fun seen op shown => ?_) (fun _ _ _ _ => trivial) seen
  have only (e : Effect) (effect : op.effect = some e) : e = .cache ∨ e = .getter :=
    within e (shown e effect)
  cases op with
  | original => exact absurd (only _ rfl) (by decide)
  | call fn request =>
    cases request with
    | stringNew | fieldSetValue | fieldStaticSetValue | threadAttach | threadDetach =>
      exact absurd (only _ rfl) (by decide)
    | _ => exact nofun
  | managed method =>
    cases method with
    | setDebugOut | useCloud => exact absurd (only _ rfl) (by decide)
    | _ => exact nofun
  | mark m => cases m <;> exact absurd (only _ rfl) (by decide)
  | bindApi | setSlot | shadowhookInit | shadowhookHook | shadowhookUnhook =>
    exact absurd (only _ rfl) (by decide)
  | _ => exact fun setup => absurd (only _ setup) (by decide)

theorem quiet (confined : Confined anyAnswer [] p) : Provides build hook known p :=
  asks [] confined (by simp)

theorem quiet_wp (confined : Confined anyAnswer [] p) (seen : Account) :
    p.wp (provenance build hook) (fun _ _ => True) seen := by
  have said : Provides build hook (fun _ => True) p := quiet confined
  exact said seen trivial

/-- The object in a static field, if there is one. -/
theorem staticObject_wp (cell : Static) (seen : Account) : (staticObject cell).wp (provenance build hook)
    (fun after object => object ≠ 0 → Fetched cell object after) seen := by
  refine ⟨nofun, fun field _ => .ite (fun _ null => absurd rfl null) fun _ => ?_⟩
  exact ⟨nofun, fun fn _ => ⟨nofun, fun object _ _ => ⟨fn, field, by simp, by simp⟩⟩⟩

theorem serverSettings_wp (seen : Account) : Photon.currentServerSettings.wp (provenance build hook)
    (fun after object => object ≠ 0 → Fetched .settingsField object after) seen := by
  have cached : Provides build hook (fun _ => True)
    (cacheField .settingsField "PhotonNetwork" "PhotonServerSettings") :=
    asks [.cache] (.cacheField _ _ _ (by decide)) (by simp)
  exact (cached seen trivial).bind fun after _ _ => staticObject_wp _ after

theorem guardServerSettings_wp (seen : Account) :
    CloudGuard.currentServerSettings.wp (provenance build hook)
      (fun after object => object ≠ 0 → Fetched .guardSettingsField object after) seen := by
  have cached : Provides build hook (fun _ => True)
    (cacheField .guardSettingsField "PhotonNetwork" "PhotonServerSettings") :=
    asks [.cache] (.cacheField _ _ _ (by decide)) (by simp)
  have bound : Provides build hook (fun _ => True) (anyNull [.fieldStaticGetValue]) := quiet (.anyNull _)
  refine (cached seen trivial).bind fun after _ _ =>
    ⟨nofun, fun field _ => .ite (fun _ null => absurd rfl null) fun _ => ?_⟩
  refine (bound _ trivial).bind fun after unbound _ => .ite (fun _ null => absurd rfl null) fun _ => ?_
  exact staticObject_wp _ after

theorem writeField {settings : Ptr} {name : String} {value : Bytes} (lasting : Lasting known)
    (fetched : ∀ seen, known seen → Fetched .settingsField settings seen)
    (configured : ∀ seen, known seen → Configured build seen name value) :
    Provides build .setUpPhoton known (writeField settings name value) := by
  refine ite (fun _ => quiet (.done _)) fun present => seq lasting (quiet (.anyNull _)) fun unbound => ?_
  refine ite (fun _ => quiet (.done _)) fun _ seen holds => ⟨nofun, fun fn _ => ⟨nofun, fun klass _ => ?_⟩⟩
  refine .ite (fun _ => trivial) fun _ => ⟨nofun, fun fn' _ =>
    ⟨nofun, fun field _ => .ite (fun _ => trivial) fun _ => ?_⟩⟩
  refine ⟨nofun, fun here _ => ⟨nofun, fun setter _ =>
    ⟨⟨rfl, present, ?_, name, ⟨fn, fn', klass, by simp, by simp⟩, ?_⟩, fun _ _ => trivial⟩⟩⟩
  · exact fetched_lasting _ _ _ _ (fun e member => by simp [member]) (fetched seen holds)
  · exact configured_lasting _ _ _ _ _ (fun e member => by simp [member]) (configured seen holds)

theorem made_wp (text : ConfigText) (may : ∀ fn seen, Provided build hook seen (.call fn (.stringNew text)))
    (seen : Account) : (api (.stringNew text)).wp (provenance build hook) (fun after string =>
      Made text string after) seen :=
  ⟨nofun, fun fn _ => ⟨may fn _, fun string _ => ⟨fn, by simp⟩⟩⟩

theorem applyConfigToSettings (settings : Ptr) (point : String) :
    Provides build .setUpPhoton (fun seen => settings ≠ 0 → Fetched .settingsField settings seen)
      (applyConfigToSettings build settings point) := by
  by_cases present : settings = 0
  · exact ite (fun _ => quiet (.done _)) (absurd present)
  have lasting := fetched_lasting .settingsField settings
  have appId : Provides build .setUpPhoton (Fetched .settingsField settings) (writeAppId build settings) := by
    refine ite (fun _ => quiet (.done _)) fun some =>
      learn lasting (fun seen _ => made_wp .photonAppId
        (fun _ _ => ⟨some, .inr (.inl rfl)⟩) seen) fun string => ?_
    refine ite (fun _ => quiet (.done _)) fun made =>
      writeField (lasting.and (made_lasting _ _)) (fun _ both => both.1) ?_
    exact fun seen both => .appId some made both.2
  have route : Provides build .setUpPhoton (Fetched .settingsField settings)
    (writeSelfhostedRoute build settings) := by
    refine ite (fun _ => quiet (.done _)) fun cloud => ?_
    have own : build.selfhosted = true := by simpa using cloud
    refine seq lasting (writeField lasting (fun _ => id) fun _ _ => .hostType own) fun _ => ?_
    exact seq lasting (writeField lasting (fun _ => id) fun _ _ => .protocol own) fun _ => quiet (.done _)
  have server : Provides build .setUpPhoton (Fetched .settingsField settings) (writeServer build settings) := by
    refine ite (fun _ => quiet (.done _)) fun some =>
      learn lasting (fun seen _ => made_wp .photonServerAddress (fun _ _ => ⟨some, rfl⟩) seen) fun string => ?_
    have both := lasting.and (made_lasting .photonServerAddress string)
    refine seq both (writeField both (fun _ known => known.1) fun _ known =>
      .serverAddress some known.2) fun _ => ?_
    exact seq both (writeField both (fun _ known => known.1) fun _ _ => .serverPort some) fun _ =>
      quiet (.done _)
  intro seen fetched
  refine ite (absurd · present) (fun _ => seq lasting appId fun _ => seq lasting route fun _ =>
    seq lasting server fun _ => ?_) seen (fetched present)
  exact ite (fun _ => seq lasting (quiet (.log _ _ _)) fun _ => quiet (.done _)) fun _ => quiet (.done _)

theorem enableVerbosePhotonLogs (raises : hook.raisesLogs) :
    Provides build hook (fun _ => True) enableVerbosePhotonLogs := by
  have cached (cell : Static) (name : String) : Provides build hook (fun _ => True)
    (cacheField cell "PhotonNetwork" name) :=
    asks [.cache] (.cacheField _ _ _ (by decide)) (by simp)
  have raised : Provides build hook (fun _ => True) raiseLogLevel := by
    refine fun seen _ => ⟨nofun, fun field _ => .ite (fun present => ?_) fun _ => trivial⟩
    exact ⟨nofun, fun fn _ => ⟨⟨raises, present, by simp, rfl⟩, fun _ _ => trivial⟩⟩
  refine seq true_lasting (cached _ _) fun _ => seq true_lasting raised fun _ =>
    seq true_lasting (cached _ _) fun _ => ?_
  refine learn true_lasting (fun seen _ => staticObject_wp .peerField seen) fun peer seen fetched => ?_
  have looked : Provides build hook (fun seen => peer ≠ 0 → Fetched .peerField peer seen)
      (lookupCached .setDebugFn .setDebugMethod ⟨"ExitGames.Client.Photon", "PhotonPeer",
        "set_DebugOut", 1⟩) :=
    asks [.cache] (.lookupCached _ _ _ (by decide)) (by simp)
  have lasting : Lasting fun seen => peer ≠ 0 → Fetched .peerField peer seen :=
    fun _ _ within got present => fetched_lasting _ _ _ _ within (got present)
  refine seq lasting looked (fun setDebug => ite (fun both seen fetched => ?_) fun _ =>
    quiet (.done _)) seen fetched.2
  refine ⟨nofun, fun method _ => ⟨⟨raises, peer, method, rfl, both.1, ?_⟩, fun _ _ => ?_⟩⟩
  · exact fetched_lasting _ _ _ _ (fun e member => by simp [member]) (fetched both.1)
  · refine quiet_wp ?_ _
    exact (Confined.quiet rfl).seq fun logged => .ite (fun _ => .log _ _ _) fun _ => .done _

theorem forceCloudRoute (guards : guardsConnection hook = true) (cloud : build.selfhosted = false)
    (point : String) : Provides build hook (fun _ => True) (forceCloudRoute build point) := by
  have failed {known : Account → Prop} (p : Native Unit) (said : Confined anyAnswer [] p) :
      Provides build hook known (do p; return false) := quiet (said.seq fun _ => .done _)
  refine ite (fun _ => quiet ?_) fun some => learn true_lasting (fun seen _ =>
    guardServerSettings_wp seen) fun settings => ?_
  · exact (Confined.quiet rfl).seq fun logged => .ite (fun _ =>
      (Confined.log _ _ _).seq fun _ => .done _) fun _ => .done _
  have lasting : Lasting fun seen => True ∧ (settings ≠ 0 → Fetched .guardSettingsField settings seen) :=
    true_lasting.and fun _ _ within got present => fetched_lasting _ _ _ _ within (got present)
  have made (seen : Account) : newAppIdString.wp (provenance build hook)
      (fun after string => string ≠ 0 → Made .photonAppId string after) seen := by
    refine (quiet_wp (.anyNull _) seen).bind fun after unbound _ =>
      .ite (fun _ null => absurd rfl null) fun _ => ?_
    refine (made_wp .photonAppId (fun _ _ => ⟨some, .inr (.inr ⟨guards, cloud⟩)⟩) after).mono ?_
    exact fun _ _ made _ => made
  refine ite (fun _ => failed _ (.log _ _ _)) fun present =>
    learn lasting (fun seen _ => made seen) fun appId => ?_
  have string : Lasting fun seen => appId ≠ 0 → Made .photonAppId appId seen :=
    fun _ _ within got present => made_lasting _ _ _ _ within (got present)
  have both := lasting.and string
  refine ite (fun _ => failed _ (.log _ _ _)) fun filled => seq both ?_ fun useCloud => ?_
  · exact asks [.cache] (.lookupCached _ _ _ (by decide)) (by simp)
  refine fun seen known => ⟨nofun, fun method _ => .ite (fun _ => ?_) fun _ => ?_⟩
  · refine quiet_wp ?_ _
    exact (Confined.log _ _ _).seq fun _ => (Confined.quiet rfl).seq fun _ => .done _
  · have later := both _ (seen ++ [⟨.static .guardUseCloudMethod, method⟩])
      (fun e member => by simp [member]) known
    refine ⟨⟨guards, cloud, some, settings, appId, method, rfl, present, later.1.2 present, filled,
      later.2 filled⟩, fun _ _ => ?_⟩
    exact quiet_wp (.verifyRoute _ _ _) _

theorem rule (build : Build) (hook : Hook) : ProxyRule build hook (Provides build hook fun _ => True) where
  seq := seq true_lasting
  quiet := quiet
  original _ := fun _ _ => ⟨nofun, fun _ _ => ⟨rfl, fun _ _ => trivial⟩⟩
  selected same _ := fun _ _ => ⟨nofun, fun _ _ => .ite (fun _ => trivial) fun _ =>
    ⟨same.symm, fun _ _ => trivial⟩⟩
  appId same := by
    refine ite (fun _ => quiet (.done _)) fun some seen _ => ?_
    exact (made_wp .photonAppId (fun _ _ => ⟨some, .inl same⟩) seen).mono fun _ _ _ => trivial
  state := asks [.cache, .getter] (.connectionStateVia _ _ (by decide) (by decide)) (by simp)
  server := asks [.cache, .getter] (.serverAddress (by decide) (by decide)) (by simp)
  auth _ := asks [.cache, .getter] (.logAuthSnapshot _ (by decide) (by decide)) (by simp)
  verbose := enableVerbosePhotonLogs
  settings _ := asks [.cache] (.currentServerSettings (by decide)) (by simp)
  repair same point := by
    subst same
    refine learn true_lasting (fun seen _ => serverSettings_wp seen) fun settings seen known => ?_
    refine (applyConfigToSettings settings point seen known.2).bind fun _ _ _ => trivial
  guardState _ := asks [.cache, .getter] (.connectionStateVia _ _ (by decide) (by decide)) (by simp)
  route := forceCloudRoute
  verdict guards _ := fun _ _ => ⟨guards, fun _ _ => trivial⟩

end Provides

/-- In every run from the loading of the library on in which no entry is taken
while `hook::install` executes, whatever a proxy is about to do is provided
for by what the same call has got to know; the start-up thread only attaches
itself, binds exports and places hooks. -/
theorem footprint {build : Build} {labels : List GameLabel} {c : GameConfig} {calls : List GameCall}
    (run : (system build).Records anyLabel (loading build) [] labels c calls) :
    (∀ site op next rest, c.stack = .code site (.ask op next) :: rest → ∃ hook call others,
      calls = call :: others ∧
      call.site = site ∧ c.shared.memory.patched site = some hook ∧ Provided build hook call.exchanged op) ∧
    ∀ op next, c.beside = .ask op next → ∀ effect ∈ op.effect, effect ∈ startupEffects := by
  refine ⟨fun site op next rest top => ?_, fun op next here => ?_⟩
  · have kept := (libraryDiscipline build).run_any (fun _ _ _ => trivial) (kept_initial build) run.run
    obtain ⟨hook, carried, _⟩ := kept.2.2 site _ (top ▸ List.mem_cons_self ..)
    obtain ⟨call, others, rfl, at_, path, _⟩ := proxy_in_control run top carried
    refine ⟨hook, call, others, rfl, at_, carried, ?_⟩
    exact Prog.wp.allowed path (fun _ _ => trivial) ((Provides.rule build hook).proxy call.args [] trivial)
  · have beside := run.run.beside (StartsUp.initThread build)
    rw [here] at beside
    exact beside.1

/-- The field that the innermost proxy is about to write, and its hook. -/
def writingAt (c : GameConfig) : Option (Ptr × Ptr × Bytes × Option Hook) :=
  match c.stack with
  | .code site (.ask (.call _ (.fieldSetValue object field value)) _) :: _ =>
    some (object, field, value.bytes, c.shared.memory.patched site)
  | _ => none

theorem writing_of_writingAt {c : GameConfig} {object field : Ptr} {bytes : Bytes} {hook : Option Hook}
    (writing : writingAt c = some (object, field, bytes, hook)) : ∃ site fn address next rest,
      c.stack = .code site (.ask (.call fn (.fieldSetValue object field ⟨address, bytes⟩)) next) :: rest ∧
        c.shared.memory.patched site = hook := by
  unfold writingAt at writing
  split at writing
  · rename_i site fn object' field' value next rest top
    cases writing
    exact ⟨site, fn, value.address, next, rest, top, rfl⟩
  · cases writing

def Sample.setUpSite : Ptr := Sample.metadata.codeOf ⟨"", "Switcher", "SetUpPhoton", 1⟩

/-- After the game has set up Photon, the AppID is written to the settings. -/
theorem setUpPhoton_provided : ∃ labels c calls,
    (system Sample.build).Records anyLabel (loading Sample.build) [] labels c calls ∧
    ∃ call others fn address, calls = call :: others ∧
      Provided Sample.build .setUpPhoton call.exchanged
        (.call fn (.fieldSetValue 7 5 ⟨address, ptrBytes 9⟩)) := by
  have played : (Sample.play [.go Sample.startupSteps, .call Sample.setUpSite [16, 0], .go 3,
    .finish 0, .go 62, .finish 0,
      .go 33]).bind writingAt = some (7, 5, ptrBytes 9, some .setUpPhoton) := by decide +kernel
  obtain ⟨c, reached, writing⟩ := Option.bind_eq_some_iff.mp played
  obtain ⟨labels, calls, records⟩ := Sample.play_records reached
  obtain ⟨site, fn, address, next, rest, top, carried⟩ := writing_of_writingAt writing
  obtain ⟨hook, call, others, same, _, carried', provided⟩ := (footprint records).1 site _ next rest top
  obtain rfl : hook = .setUpPhoton := Option.some.inj (carried'.symm.trans carried)
  exact ⟨labels, c, calls, records, call, others, fn, address, same, provided⟩

end Opg3d
