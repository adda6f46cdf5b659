import Opg3d.Lockstep.Runtime
import Opg3d.Native.CloudGuard

namespace Opg3d

open Kit Native HookEngine Photon

/-- Two builds that differ in the AppID, under one length and fingerprint. -/
structure BuildsAgree (build build' : Build) : Prop where
  selfhosted : build.selfhosted = build'.selfhosted
  serverAddress : build.serverAddress = build'.serverAddress
  serverPort : build.serverPort = build'.serverPort
  appId : SameSummary build.appId build'.appId

theorem BuildsAgree.empty {build build' : Build} (agree : BuildsAgree build build') :
    build.appId = [] ↔ build'.appId = [] := by
  rw [← List.length_eq_zero_iff, ← List.length_eq_zero_iff, agree.appId.1]

theorem BuildsAgree.summary {build build' : Build} (agree : BuildsAgree build build') :
    configuredSecretSummary build = configuredSecretSummary build' := by
  simp only [configuredSecretSummary, agree.appId.1, agree.appId.2]

theorem BuildsAgree.refl (build : Build) : BuildsAgree build build := ⟨rfl, rfl, rfl, rfl, rfl⟩

section Lockstep

variable {L : Labelling} {owner : Option Hook} {site : Ptr}

theorem ite_congr_lockstep {α β : Type} {rel : α → β → Prop} {c c' : Prop} [Decidable c] [Decidable c']
    {p p' : Native α} {q q' : Native β} (same : c ↔ c') (yes : c → Twin (lockstep L owner site) rel p q)
    (no : ¬c → Twin (lockstep L owner site) rel p' q') :
    Twin (lockstep L owner site) rel (if c then p else p') (if c' then q else q') := by
  by_cases holds : c
  · simpa only [if_pos holds, if_pos (same.mp holds)] using yes holds
  · simpa only [if_neg holds, if_neg (fun other => holds (same.mpr other))] using no holds

theorem stringLengthOr_lockstep (fallback : Int) (value : Ptr) :
    Twin (lockstep L owner site) Eq (stringLengthOr fallback value) (stringLengthOr fallback value) := by
  refine (apiPtr_lockstep .stringLength).bind ?_
  rintro fn _ ⟨rfl, _⟩
  exact .ite (fun _ => .done rfl) fun _ =>
    (api_lockstep (.stringLength value) nofun).mono fun _ _ agree => agree.1

/-- The summary of a string is the same text in both runs. -/
theorem secretSummary_lockstep {value : Ptr} (appId : L.within value .appId) :
    Twin (lockstep L owner site) Eq (secretSummary value) (secretSummary value) := by
  refine .ite (fun _ => .done rfl) fun _ => ?_
  refine (toUtf8_summary appId).bind fun text text' same => ?_
  refine (stringLengthOr_lockstep (-1) value).seq fun chars => .done ?_
  rw [same.1, same.2]

theorem currentServerSettings_lockstep :
    Twin (lockstep L owner site) Eq Photon.currentServerSettings Photon.currentServerSettings :=
  (cacheField_lockstep _ _ _).seq fun _ => staticObject_lockstep _

theorem logSettings_lockstep (point : String) (settings : Ptr) :
    Twin (lockstep L owner site) Eq (logSettings point settings) (logSettings point settings) := by
  refine .ite (fun _ => log_lockstep _ _ _) fun _ => ?_
  refine (readInt32_lockstep _ _).seq fun host => ?_
  refine (readInt32_lockstep _ _).seq fun protocol => ?_
  refine (readRef_lockstep _ _).bind ?_
  rintro address _ ⟨rfl, addressClear⟩
  refine (readInt32_lockstep _ _).seq fun port => ?_
  refine (readRef_lockstep _ _).bind ?_
  rintro appId _ ⟨rfl, appIdSecret⟩
  refine (readInt32_lockstep _ _).seq fun region => ?_
  refine (readInt32_lockstep _ _).seq fun regions => ?_
  refine (readBool_lockstep _ _).seq fun joinLobby => ?_
  refine (readBool_lockstep _ _).seq fun lobbyStats => ?_
  refine (toUtf8_lockstep addressClear 256).seq fun server => ?_
  exact (secretSummary_lockstep appIdSecret).seq fun app => log_lockstep _ _ _

theorem writeAppId_lockstep {build build' : Build} (agree : BuildsAgree build build') (settings : Ptr) :
    Twin (lockstep L owner site) Eq (writeAppId build settings) (writeAppId build' settings) := by
  refine ite_congr_lockstep agree.empty (fun _ => .done rfl) fun _ => ?_
  refine (api_lockstep (.stringNew .photonAppId) nofun).bind ?_
  rintro appId _ ⟨rfl, _⟩
  exact .ite (fun _ => .done rfl) fun _ => writeField_lockstep _ _ _

theorem writeSelfhostedRoute_lockstep {build build' : Build} (agree : BuildsAgree build build')
    (settings : Ptr) :
    Twin (lockstep L owner site) Eq (writeSelfhostedRoute build settings)
      (writeSelfhostedRoute build' settings) := by
  refine ite_congr_lockstep (by rw [agree.selfhosted]) (fun _ => .done rfl) fun _ => ?_
  refine (writeField_lockstep _ _ _).seq fun wroteHost => ?_
  exact (writeField_lockstep _ _ _).seq fun wroteProtocol => .done rfl

theorem writeServer_lockstep {build build' : Build} (agree : BuildsAgree build build') (settings : Ptr) :
    Twin (lockstep L owner site) Eq (writeServer build settings) (writeServer build' settings) := by
  refine ite_congr_lockstep (by rw [agree.serverAddress]) (fun _ => .done rfl) fun _ => ?_
  refine (api_lockstep (.stringNew .photonServerAddress) nofun).bind ?_
  rintro address _ ⟨rfl, _⟩
  refine (writeField_lockstep _ _ _).seq fun wroteAddress => ?_
  rw [agree.serverPort]
  exact (writeField_lockstep _ _ _).seq fun wrotePort => .done rfl

theorem applyConfigToSettings_lockstep {build build' : Build} (agree : BuildsAgree build build')
    (settings : Ptr) (point : String) :
    Twin (lockstep L owner site) Eq (applyConfigToSettings build settings point)
      (applyConfigToSettings build' settings point) := by
  refine .ite (fun _ => .done rfl) fun _ => ?_
  refine (writeAppId_lockstep agree settings).seq fun wroteAppId => ?_
  refine (writeSelfhostedRoute_lockstep agree settings).seq fun wroteRoute => ?_
  refine (writeServer_lockstep agree settings).seq fun wroteServer => ?_
  exact .ite (fun _ => (log_lockstep _ _ _).seq fun _ => .done rfl) fun _ => .done rfl

theorem connectionState_lockstep :
    Twin (lockstep L owner site) Eq Photon.connectionState Photon.connectionState :=
  connectionStateVia_lockstep _ _

theorem serverAddress_lockstep :
    Twin (lockstep L owner site) Eq Photon.serverAddress Photon.serverAddress := by
  refine (lookupCached_lockstep _ _ _).seq fun fn => .ite (fun _ => .done rfl) fun found => ?_
  refine (static_lockstep _).seq fun method => ?_
  refine (managed_lockstep .serverAddress found trivial).bind ?_
  rintro address _ ⟨rfl, clear⟩
  exact toUtf8_lockstep clear 256

theorem lengthOrZero_lockstep (string : Option Ptr) :
    Twin (lockstep L owner site) Eq (lengthOrZero string) (lengthOrZero string) := by
  cases string with
  | none => exact .done rfl
  | some p => exact .ite (fun _ => .done rfl) fun _ => stringLengthOr_lockstep 0 p

/-- Of a token and a user id only nullness and length reach the log. -/
theorem logAuthSnapshot_lockstep (point : String) :
    Twin (lockstep L owner site) Eq (logAuthSnapshot point) (logAuthSnapshot point) := by
  refine (lookupCached_lockstep _ _ _).seq fun fn => .ite (fun _ => log_lockstep _ _ _) fun found => ?_
  refine (static_lockstep _).seq fun method => ?_
  refine (managed_lockstep .authValues found trivial).bind ?_
  rintro auth _ ⟨rfl, _⟩
  refine .ite (fun _ => log_lockstep _ _ _) fun _ => ?_
  refine (readInt32_lockstep _ _).seq fun type => ?_
  refine (readRef_lockstep _ _).bind ?_
  rintro token _ ⟨rfl, _⟩
  refine (readRef_lockstep _ _).bind ?_
  rintro userId _ ⟨rfl, _⟩
  refine (lengthOrZero_lockstep token).seq fun tokenLen => ?_
  exact (lengthOrZero_lockstep userId).seq fun userLen => log_lockstep _ _ _

theorem raiseLogLevel_lockstep : Twin (lockstep L owner site) Eq raiseLogLevel raiseLogLevel := by
  refine (static_lockstep _).seq fun field => .ite (fun _ => ?_) fun _ => .done rfl
  exact api_lockstep (.fieldStaticSetValue field _) nofun

theorem setDebugOut_lockstep (peer : Ptr) {setDebug : Ptr} (found : setDebug ≠ 0) :
    Twin (lockstep L owner site) Eq (setDebugOut peer setDebug) (setDebugOut peer setDebug) := by
  refine (static_lockstep _).seq fun method => ?_
  refine ((managed_lockstep .setDebugOut found trivial).mono fun _ _ agree => agree.1).seq fun _ => ?_
  exact (exchange_lockstep _).seq fun logged => .ite (fun _ => log_lockstep _ _ _) fun _ => .done rfl

theorem enableVerbosePhotonLogs_lockstep :
    Twin (lockstep L owner site) Eq enableVerbosePhotonLogs enableVerbosePhotonLogs := by
  refine (cacheField_lockstep _ _ _).seq fun _ => raiseLogLevel_lockstep.seq fun _ => ?_
  refine (cacheField_lockstep _ _ _).seq fun _ => (staticObject_lockstep _).seq fun peer => ?_
  refine (lookupCached_lockstep _ _ _).seq fun setDebug => ?_
  exact .ite (fun found => setDebugOut_lockstep peer found.2) fun _ => .done rfl

theorem callOriginal_same {hook : Hook} (args : List Word) :
    Twin (lockstep L (some hook) site) Eq (callOriginal hook args) (callOriginal hook args) :=
  (callOriginal_lockstep hook args).mono fun _ _ agree => agree.1

theorem configuredAppId_lockstep {build build' : Build} (agree : BuildsAgree build build') :
    Twin (lockstep L owner site) Eq (configuredAppId build) (configuredAppId build') :=
  ite_congr_lockstep agree.empty (fun _ => .done rfl) fun _ =>
    (api_lockstep (.stringNew .photonAppId) nofun).mono fun _ _ same => same.1

theorem logSelectFallback_lockstep {build build' : Build} (agree : BuildsAgree build build') :
    Twin (lockstep L owner site) Eq (logSelectFallback build) (logSelectFallback build') :=
  ite_congr_lockstep agree.empty (fun _ => log_lockstep _ _ _) fun _ => log_lockstep _ _ _

theorem selectOriginal_lockstep (args : List Word) :
    Twin (lockstep L (some .selectAppId) site) (fun a b => a = b ∧ L.within (Word.ptr a) .appId)
      (selectOriginal args) (selectOriginal args) := by
  refine (slot_lockstep _).bind ?_
  rintro trampoline _ ⟨rfl, own⟩
  exact .ite (fun _ => .done ⟨rfl, Or.inl rfl⟩) fun _ =>
    .ask ⟨⟨rfl, own rfl⟩, trivial⟩ fun _ _ same => .done same

theorem hookSelectAppId_lockstep {build build' : Build} (agree : BuildsAgree build build')
    (settings method : Ptr) :
    Twin (lockstep L (some .selectAppId) site) Eq (hookSelectAppId build settings method)
      (hookSelectAppId build' settings method) := by
  refine (fetchAdd_lockstep _).seq fun call => (configuredAppId_lockstep agree).seq fun replacement => ?_
  refine .ite (fun _ => ?_) fun _ => ?_
  · rw [agree.summary]
    exact (log_lockstep _ _ _).seq fun _ => .done rfl
  refine (logSelectFallback_lockstep agree).seq fun _ => (selectOriginal_lockstep _).bind ?_
  rintro original _ ⟨rfl, secret⟩
  refine (secretSummary_lockstep secret).seq fun summary => ?_
  exact (log_lockstep _ _ _).seq fun _ => .done rfl

theorem hookSetUpPhoton_lockstep {build build' : Build} (agree : BuildsAgree build build')
    (settings method : Ptr) :
    Twin (lockstep L (some .setUpPhoton) site) Eq (hookSetUpPhoton build settings method)
      (hookSetUpPhoton build' settings method) := by
  refine (log_lockstep _ _ _).seq fun _ => (callOriginal_same _).seq fun _ => ?_
  refine enableVerbosePhotonLogs_lockstep.seq fun _ =>
    currentServerSettings_lockstep.seq fun serverSettings => ?_
  refine (applyConfigToSettings_lockstep agree _ _).seq fun _ => ?_
  exact (logSettings_lockstep _ _).seq fun _ => .done rfl

theorem tracedUseCloud_lockstep (hook : Hook) (message point : String) (self : Ptr) {appId : Ptr}
    (secret : L.within appId .appId) (method : Ptr) :
    Twin (lockstep L (some hook) site) Eq (tracedUseCloud hook message point self appId method)
      (tracedUseCloud hook message point self appId method) := by
  refine (secretSummary_lockstep secret).seq fun summary => (log_lockstep _ _ _).seq fun _ => ?_
  exact (callOriginal_same _).seq fun _ => (logSettings_lockstep _ _).seq fun _ => .done rfl

theorem hookUseCloudRegion_lockstep (self : Ptr) {appId : Ptr} (secret : L.within appId .appId)
    (region : Int) (method : Ptr) :
    Twin (lockstep L (some .useCloudRegion) site) Eq (hookUseCloudRegion self appId region method)
      (hookUseCloudRegion self appId region method) := by
  refine (secretSummary_lockstep secret).seq fun summary => (log_lockstep _ _ _).seq fun _ => ?_
  exact (callOriginal_same _).seq fun _ => (logSettings_lockstep _ _).seq fun _ => .done rfl

theorem hookUseMyServer_lockstep (self : Ptr) {address appId : Ptr} (clear : L.within address .clear)
    (secret : L.within appId .appId) (port : Int) (method : Ptr) :
    Twin (lockstep L (some .useMyServer) site) Eq (hookUseMyServer self address port appId method)
      (hookUseMyServer self address port appId method) := by
  refine (toUtf8_lockstep clear 256).seq fun host => (secretSummary_lockstep secret).seq fun summary => ?_
  refine (log_lockstep _ _ _).seq fun _ => (callOriginal_same _).seq fun _ => ?_
  exact (logSettings_lockstep _ _).seq fun _ => .done rfl

theorem logConnectEnd_lockstep (message : String) (result : Word) :
    Twin (lockstep L owner site) Eq (logConnectEnd message result) (logConnectEnd message result) :=
  connectionState_lockstep.seq fun _ => serverAddress_lockstep.seq fun _ => log_lockstep _ _ _

theorem hookConnectUsingSettings_lockstep {gameVersion : Ptr} (clear : L.within gameVersion .clear)
    (method : Ptr) :
    Twin (lockstep L (some .connectUsingSettings) site) Eq (hookConnectUsingSettings gameVersion method)
      (hookConnectUsingSettings gameVersion method) := by
  refine enableVerbosePhotonLogs_lockstep.seq fun _ => (toUtf8_lockstep clear 128).seq fun version => ?_
  refine connectionState_lockstep.seq fun state => serverAddress_lockstep.seq fun server => ?_
  refine (log_lockstep _ _ _).seq fun _ => currentServerSettings_lockstep.seq fun settings => ?_
  refine (logSettings_lockstep _ _).seq fun _ => (logAuthSnapshot_lockstep _).seq fun _ => ?_
  exact (callOriginal_same _).seq fun result => (logConnectEnd_lockstep _ _).seq fun _ => .done rfl

theorem hookConnectToMaster_lockstep {address appId gameVersion : Ptr}
    (addressClear : L.within address .clear) (secret : L.within appId .appId)
    (versionClear : L.within gameVersion .clear) (port : Int) (method : Ptr) :
    Twin (lockstep L (some .connectToMaster) site) Eq (hookConnectToMaster address port appId gameVersion method)
      (hookConnectToMaster address port appId gameVersion method) := by
  refine enableVerbosePhotonLogs_lockstep.seq fun _ => (toUtf8_lockstep addressClear 256).seq fun host => ?_
  refine (toUtf8_lockstep versionClear 128).seq fun version =>
    (secretSummary_lockstep secret).seq fun app => ?_
  refine connectionState_lockstep.seq fun state => (log_lockstep _ _ _).seq fun _ => ?_
  refine (logAuthSnapshot_lockstep _).seq fun _ => (callOriginal_same _).seq fun result => ?_
  exact (logConnectEnd_lockstep _ _).seq fun _ => .done rfl

theorem hookGetGameVersion_lockstep (method : Ptr) :
    Twin (lockstep L (some .getGameVersion) site) Eq (hookGetGameVersion method) (hookGetGameVersion method) := by
  refine (callOriginal_lockstep _ _).bind ?_
  rintro result _ ⟨rfl, clear⟩
  refine (toUtf8_lockstep clear 128).seq fun version => ?_
  exact (log_lockstep _ _ _).seq fun _ => .done rfl

theorem hookGameConnect_lockstep (method : Ptr) :
    Twin (lockstep L (some .gameConnect) site) Eq (hookGameConnect method) (hookGameConnect method) := by
  refine connectionState_lockstep.seq fun before => (log_lockstep _ _ _).seq fun _ => ?_
  refine (callOriginal_same _).seq fun result => connectionState_lockstep.seq fun after => ?_
  exact (log_lockstep _ _ _).seq fun _ => .done rfl

theorem notified_lockstep (hook : Hook) (priority : Priority) (message : String) (front : List Arg)
    (args : List Word) :
    Twin (lockstep L (some hook) site) Eq (notified hook priority message front args)
      (notified hook priority message front args) := by
  refine connectionState_lockstep.seq fun state => serverAddress_lockstep.seq fun server => ?_
  exact (log_lockstep _ _ _).seq fun _ => (callOriginal_same _).seq fun _ => .done rfl

theorem hookDebugReturn_lockstep (self : Ptr) (level : Int) {message : Ptr}
    (clear : L.within message .clear) (method : Ptr) :
    Twin (lockstep L (some .debugReturn) site) Eq (hookDebugReturn self level message method)
      (hookDebugReturn self level message method) := by
  refine (toUtf8_lockstep clear 1024).seq fun text => (log_lockstep _ _ _).seq fun _ => ?_
  exact (callOriginal_same _).seq fun _ => .done rfl

theorem hookOnStatusChanged_lockstep (self : Ptr) (status : Int) (method : Ptr) :
    Twin (lockstep L (some .onStatusChanged) site) Eq (hookOnStatusChanged self status method)
      (hookOnStatusChanged self status method) := by
  refine connectionState_lockstep.seq fun before => (log_lockstep _ _ _).seq fun _ => ?_
  refine (callOriginal_same _).seq fun _ => connectionState_lockstep.seq fun after => ?_
  exact serverAddress_lockstep.seq fun server => (log_lockstep _ _ _).seq fun _ => .done rfl

theorem hookOnOperationResponse_lockstep (self response method : Ptr) :
    Twin (lockstep L (some .onOperationResponse) site) Eq (hookOnOperationResponse self response method)
      (hookOnOperationResponse self response method) := by
  refine (readField_lockstep _ _ _).seq fun operation => (readField_lockstep _ _ _).seq fun code => ?_
  refine (readRef_lockstep _ _).bind ?_
  rintro debugMessage _ ⟨rfl, clear⟩
  refine (toUtf8_lockstep clear 512).seq fun debug => ?_
  refine .ite (fun _ => ?_) fun _ => ?_
  · exact (log_lockstep _ _ _).seq fun _ => (callOriginal_same _).seq fun _ => .done rfl
  · exact (log_lockstep _ _ _).seq fun _ => (callOriginal_same _).seq fun _ => .done rfl

theorem guardServerSettings_lockstep :
    Twin (lockstep L owner site) Eq CloudGuard.currentServerSettings CloudGuard.currentServerSettings := by
  refine (cacheField_lockstep _ _ _).seq fun _ => (static_lockstep _).seq fun field => ?_
  refine .ite (fun _ => .done rfl) fun _ => (anyNull_lockstep _).seq fun unbound => ?_
  exact .ite (fun _ => .done rfl) fun _ => staticObject_lockstep _

theorem readBack_lockstep (settings : Ptr) :
    Twin (lockstep L owner site) Eq (CloudGuard.readBack settings) (CloudGuard.readBack settings) := by
  refine (readInt32_lockstep _ _).seq fun host => (readInt32_lockstep _ _).seq fun region => ?_
  refine (readRef_lockstep _ _).bind ?_
  rintro storedApp _ ⟨rfl, _⟩
  exact .done rfl

theorem verifyRoute_lockstep (point : String) (settings appId : Ptr) :
    Twin (lockstep L owner site) Eq (CloudGuard.verifyRoute point settings appId)
      (CloudGuard.verifyRoute point settings appId) := by
  refine (readBack_lockstep _).seq fun read => (stringLengthOr_lockstep _ _).seq fun chars => ?_
  refine (fetchAdd_lockstep _).seq fun apply => (setFlag_lockstep _ _).seq fun _ =>
    (log_lockstep _ _ _).seq fun _ => ?_
  exact .ite (fun _ => (log_lockstep _ _ _).seq fun _ => .done rfl) fun _ => .done rfl

theorem applyRoute_lockstep (point : String) (settings : Ptr) {appId : Ptr} (secret : L.within appId .appId)
    {useCloud : Ptr} (found : useCloud ≠ 0) (useCloudMethod : Ptr) :
    Twin (lockstep L owner site) Eq (CloudGuard.applyRoute point settings appId useCloud useCloudMethod)
      (CloudGuard.applyRoute point settings appId useCloud useCloudMethod) :=
  ((managed_lockstep .useCloud found (by simpa [Labelling.passes] using secret)).mono fun _ _ agree =>
    agree.1).seq fun _ => verifyRoute_lockstep _ _ _

theorem newAppIdString_lockstep :
    Twin (lockstep L owner site) (fun a b => a = b ∧ L.within a .appId) CloudGuard.newAppIdString
      CloudGuard.newAppIdString := by
  refine (anyNull_lockstep _).seq fun unbound => .ite (fun _ => .done ⟨rfl, Or.inl rfl⟩) fun _ => ?_
  exact api_lockstep (.stringNew .photonAppId) nofun

theorem forceCloudRoute_lockstep {build build' : Build} (agree : BuildsAgree build build')
    (point : String) :
    Twin (lockstep L owner site) Eq (CloudGuard.forceCloudRoute build point)
      (CloudGuard.forceCloudRoute build' point) := by
  refine ite_congr_lockstep agree.empty (fun _ => ?_) fun _ => ?_
  · exact (exchange_lockstep _).seq fun logged =>
      .ite (fun _ => (log_lockstep _ _ _).seq fun _ => .done rfl) fun _ => .done rfl
  refine guardServerSettings_lockstep.seq fun settings => ?_
  refine .ite (fun _ => (log_lockstep _ _ _).seq fun _ => .done rfl) fun _ => ?_
  refine newAppIdString_lockstep.bind ?_
  rintro appId _ ⟨rfl, secret⟩
  refine .ite (fun _ => (log_lockstep _ _ _).seq fun _ => .done rfl) fun _ => ?_
  refine (lookupCached_lockstep _ _ _).seq fun useCloud => (static_lockstep _).seq fun useCloudMethod => ?_
  refine .ite (fun _ => ?_) fun found => applyRoute_lockstep _ _ secret (fun null => found (Or.inl null)) _
  exact (log_lockstep _ _ _).seq fun _ => (setFlag_lockstep _ _).seq fun _ => .done rfl

theorem forceCloudBody_lockstep {build build' : Build} (agree : BuildsAgree build build') (point : String)
    (reapply : Bool) :
    Twin (lockstep L owner site) Eq (CloudGuard.forceCloudBody build point reapply)
      (CloudGuard.forceCloudBody build' point reapply) := by
  refine ite_congr_lockstep (by rw [agree.selfhosted]) (fun _ => .done rfl) fun _ => ?_
  refine .ite (fun _ => (flag_lockstep _).seq fun ready => ?_) fun _ => forceCloudRoute_lockstep agree point
  exact .ite (fun _ => .done rfl) fun _ => forceCloudRoute_lockstep agree point

theorem forceCloud_lockstep {build build' : Build} (agree : BuildsAgree build build') (point : String)
    (reapply : Bool) :
    Twin (lockstep L owner site) Eq (CloudGuard.forceCloud build point reapply)
      (CloudGuard.forceCloud build' point reapply) :=
  (forceCloudBody_lockstep agree point reapply).seq fun _ => (markForce_lockstep _ _).seq fun _ => .done rfl

theorem guarded_lockstep {build build' : Build} (agree : BuildsAgree build build') (hook : Hook)
    (point : String) (blocked : Option String) (args : List Word) :
    Twin (lockstep L (some hook) site) Eq (CloudGuard.guarded build hook point blocked args)
      (CloudGuard.guarded build' hook point blocked args) := by
  refine (forceCloud_lockstep agree point true).seq fun ready =>
    .ite (fun _ => callOriginal_same _) fun _ => ?_
  cases blocked with
  | none => exact .done rfl
  | some message => exact (log_lockstep _ _ _).seq fun _ => .done rfl

theorem hookFriendsUpdate_lockstep (self method : Ptr) :
    Twin (lockstep L (some .friendsUpdate) site) Eq (CloudGuard.hookFriendsUpdate self method)
      (CloudGuard.hookFriendsUpdate self method) := by
  refine (connectionStateVia_lockstep _ _).seq fun state => .ite (fun _ => ?_) fun _ => ?_
  · refine Twin.seq ((fetchAdd_lockstep _).seq fun count => ?_) fun _ => .done rfl
    exact .ite (fun _ => log_lockstep _ _ _) fun _ => .done rfl
  · exact (callOriginal_same _).seq fun _ => .done rfl

/-- What the arguments of a proxy may be: credentials only where it expects
them, and no secrets in the strings that it logs. -/
def Hook.argsWithin (L : Labelling) (args : List Word) : Hook → Prop
  | .useCloud | .useCloudBest | .useCloudRegion => L.within (Word.ptr (args.getD 1 0)) .appId
  | .useMyServer => L.within (Word.ptr (args.getD 1 0)) .clear ∧ L.within (Word.ptr (args.getD 3 0)) .appId
  | .connectUsingSettings => L.within (Word.ptr (args.getD 0 0)) .clear
  | .connectToMaster =>
    L.within (Word.ptr (args.getD 0 0)) .clear ∧ L.within (Word.ptr (args.getD 2 0)) .appId ∧
      L.within (Word.ptr (args.getD 3 0)) .clear
  | .debugReturn => L.within (Word.ptr (args.getD 2 0)) .clear
  | _ => True

/-- Every proxy runs in lockstep with itself in the other build: the same
operations, so the same log lines, on corresponding answers. -/
theorem proxy_lockstep {build build' : Build} (agree : BuildsAgree build build') (hook : Hook)
    {args : List Word} (within : hook.argsWithin L args) :
    Twin (lockstep L (some hook) site) Eq (hook.proxy build args) (hook.proxy build' args) := by
  cases hook with
  | selectAppId => exact hookSelectAppId_lockstep agree _ _
  | setUpPhoton => exact hookSetUpPhoton_lockstep agree _ _
  | useCloud => exact tracedUseCloud_lockstep _ _ _ _ within _
  | useCloudBest => exact tracedUseCloud_lockstep _ _ _ _ within _
  | useCloudRegion => exact hookUseCloudRegion_lockstep _ within _ _
  | useMyServer => exact hookUseMyServer_lockstep _ within.1 within.2 _ _
  | connectUsingSettings => exact hookConnectUsingSettings_lockstep within _
  | connectToMaster => exact hookConnectToMaster_lockstep within.1 within.2.1 within.2.2 _ _
  | getGameVersion => exact hookGetGameVersion_lockstep _
  | gameConnect => exact hookGameConnect_lockstep _
  | debugReturn => exact hookDebugReturn_lockstep _ _ within _
  | onStatusChanged => exact hookOnStatusChanged_lockstep _ _ _
  | onOperationResponse => exact hookOnOperationResponse_lockstep _ _ _
  | disconnect => exact notified_lockstep _ _ _ _ _
  | failedToConnect => exact notified_lockstep _ _ _ _ _
  | disconnected => exact notified_lockstep _ _ _ _ _
  | connectedToMaster => exact notified_lockstep _ _ _ _ _
  | friendsUpdate => exact hookFriendsUpdate_lockstep _ _
  | connectSceneGo =>
    simp only [Hook.proxy, CloudGuard.hookConnectSceneGo]
    exact guarded_lockstep agree _ _ _ _
  | connectionControlConnect =>
    simp only [Hook.proxy, CloudGuard.hookConnectionControlConnect]
    exact guarded_lockstep agree _ _ _ _
  | gameConnectTier =>
    simp only [Hook.proxy, CloudGuard.hookGameConnectTier]
    exact guarded_lockstep agree _ _ _ _
  | gameConnectSquad =>
    simp only [Hook.proxy, CloudGuard.hookGameConnectSquad]
    exact guarded_lockstep agree _ _ _ _

end Lockstep

end Opg3d
