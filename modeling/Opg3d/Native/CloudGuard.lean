import Opg3d.Native.PhotonHooks

namespace Opg3d.CloudGuard

open Native HookEngine Photon

def kPhotonCloudHost : Int := 1

def kForcedRegionEu : Int := 0

def currentServerSettings : Native Ptr := do
  cacheField .guardSettingsField "PhotonNetwork" "PhotonServerSettings"
  let field ← static .guardSettingsField
  if field = 0 then return 0
  if ← anyNull [.fieldStaticGetValue] then return 0
  staticObject .guardSettingsField

def connectionState : Native Int := connectionStateVia .guardStateFn .guardStateMethod

/-- PUN's `ClientState`, in the order of its values. -/
inductive ClientState where
  | Uninitialized | PeerCreated | Queued | Authenticated | JoinedLobby | DisconnectingFromMasterserver
  | ConnectingToGameserver | ConnectedToGameserver | Joining | Joined | Leaving | DisconnectingFromGameserver
  | ConnectingToMasterserver | QueuedComingFromGameserver | Disconnecting | Disconnected | ConnectedToMaster
  | ConnectingToNameServer | ConnectedToNameServer | DisconnectingFromNameServer | Authenticating
  deriving DecidableEq, Repr

def ClientState.value (state : ClientState) : Int := state.ctorIdx

def stateName : Int → String
  | 0 => "Uninitialized"
  | 1 => "PeerCreated"
  | 2 => "Queued"
  | 3 => "Authenticated"
  | 4 => "JoinedLobby"
  | 5 => "DisconnectingFromMasterserver"
  | 6 => "ConnectingToGameserver"
  | 7 => "ConnectedToGameserver"
  | 8 => "Joining"
  | 9 => "Joined"
  | 10 => "Leaving"
  | 11 => "DisconnectingFromGameserver"
  | 12 => "ConnectingToMasterserver"
  | 13 => "QueuedComingFromGameserver"
  | 14 => "Disconnecting"
  | 15 => "Disconnected"
  | 16 => "ConnectedToMaster"
  | 17 => "ConnectingToNameServer"
  | 18 => "ConnectedToNameServer"
  | 19 => "DisconnectingFromNameServer"
  | 20 => "Authenticating"
  | _ => "unknown"

def shouldQuarantineFriendsUpdate (state : Int) : Bool := state ≥ 2 && state ≠ 15

def useCloudTarget : ManagedMethod := ⟨"", "ServerSettings", "UseCloud", 2⟩

/-- What `force_cloud` reads back from the settings after `UseCloud`. -/
structure ReadBack where
  host : Option Int
  region : Option Int
  storedApp : Option Ptr
  deriving DecidableEq, Repr

def readBack (settings : Ptr) : Native ReadBack := do
  let host ← readInt32 settings "HostType"
  let region ← readInt32 settings "PreferredRegion"
  let storedApp ← readRef settings "AppID"
  return ⟨host, region, storedApp⟩

/-- The test for `ready`: each field was read and has the forced value. -/
def ReadBack.ready (read : ReadBack) (appId : Ptr) : Bool :=
  read.host = some kPhotonCloudHost && read.region = some kForcedRegionEu && read.storedApp = some appId

/-- The last part of `force_cloud`, from the read-back on. -/
def verifyRoute (point : String) (settings appId : Ptr) : Native Bool := do
  let read ← readBack settings
  let chars ← stringLengthOr (-1) appId
  let apply := (← fetchAdd .cloudApplyCount) + 1
  let ready := read.ready appId
  setFlag .cloudReady ready
  logI "cloud-force[%s]: apply#%u sdk=1 host=%d(PhotonCloud expected=1) region=%d(eu expected=0) appChars=%d storedSame=%d ready=%d"
    [text point, .nat apply.toNat, .int (read.host.getD (-1)), .int (read.region.getD (-1)), .int chars,
      ofBool (read.storedApp = some appId), ofBool ready]
  if !ready then
    logE "cloud-force[%s]: FAIL-CLOSED — PhotonCloud/eu route was not applied" [text point]
  return ready

def applyRoute (point : String) (settings appId useCloud useCloudMethod : Ptr) : Native Bool := do
  let _ ← managed .useCloud useCloud
    [Ptr.word settings, Ptr.word appId, kForcedRegionEu, Ptr.word useCloudMethod]
  verifyRoute point settings appId

/-- `il2cpp::string_new(PHOTON_APP_ID)` behind its null check. -/
def newAppIdString : Native Ptr := do
  if ← anyNull [.stringNew] then return 0
  api (.stringNew .photonAppId)

def forceCloudRoute (build : Build) (point : String) : Native Bool := do
  if build.appId = [] then
    let logged ← exchange .missingAppIdLogged
    if !logged then
      logE "cloud-force[%s]: PHOTON_APP_ID is empty; refusing fake success" [text point]
    return false
  let settings ← currentServerSettings
  if settings = 0 then
    logW "cloud-force[%s]: PhotonServerSettings is not ready" [text point]
    return false
  let appId ← newAppIdString
  if appId = 0 then
    logE "cloud-force[%s]: il2cpp_string_new failed" [text point]
    return false
  let useCloud ← lookupCached .guardUseCloudFn .guardUseCloudMethod useCloudTarget
  let useCloudMethod ← static .guardUseCloudMethod
  if useCloud = 0 ∨ useCloudMethod = 0 then
    logE "cloud-force[%s]: UseCloud(appId, eu) unavailable; connection blocked" [text point]
    setFlag .cloudReady false
    return false
  applyRoute point settings appId useCloud useCloudMethod

def forceCloudBody (build : Build) (point : String) (reapply : Bool) : Native Bool := do
  if build.selfhosted then return true
  if !reapply then
    if ← flag .cloudReady then return true
  forceCloudRoute build point

def forceCloud (build : Build) (point : String) (reapply : Bool) : Native Bool := do
  let result ← forceCloudBody build point reapply
  mark (.forceCloud reapply result)
  return result

/-- The guard entry hooks: the original runs only behind a forced route. The
two that guard `void` methods also log that they blocked. -/
def guarded (build : Build) (hook : Hook) (point : String) (blocked : Option String) (args : List Word) :
    Native Word := do
  if ← forceCloud build point true then
    callOriginal hook args
  else
    match blocked with
    | some message => logE message []
    | none => pure ()
    return 0

def hookConnectSceneGo (build : Build) (self method : Ptr) : Native Word :=
  guarded build .connectSceneGo "ConnectScene.HandleGoBtnClicked"
    (some "cloud-force: blocked ConnectScene.HandleGoBtnClicked") [Ptr.word self, Ptr.word method]

def hookConnectionControlConnect (build : Build) (self method : Ptr) : Native Word :=
  guarded build .connectionControlConnect "ConnectionControl.ConnectToPhoton"
    (some "cloud-force: blocked ConnectionControl.ConnectToPhoton") [Ptr.word self, Ptr.word method]

def hookGameConnectTier (build : Build) (tier : Int) (method : Ptr) : Native Word :=
  guarded build .gameConnectTier "GameConnect.ConnectToPhoton(tier)" none [tier, Ptr.word method]

def hookGameConnectSquad (build : Build) (method : Ptr) : Native Word :=
  guarded build .gameConnectSquad "GameConnect.ConnectToPhotonSquad" none [Ptr.word method]

/-- A call held back: counted, and logged now and then. -/
def skipFriendsUpdate (state : Int) : Native Unit := do
  let count := (← fetchAdd .quarantinedUpdates) + 1
  if count ≤ 8 ∨ count % 120 = 0 then
    logW "backend-guard: skipped FriendsController.Update #%u state=%d(%s); blocks proven Disconnect call site +0x310"
      [.nat count.toNat, .int state, text (stateName state)]

def hookFriendsUpdate (self method : Ptr) : Native Word := do
  let state ← connectionState
  if shouldQuarantineFriendsUpdate state then
    skipFriendsUpdate state
    return 0
  let _ ← callOriginal .friendsUpdate [Ptr.word self, Ptr.word method]
  return 0

def friendsUpdateTarget : ManagedMethod := ⟨"", "FriendsController", "Update", 0⟩

/-- The connection entries the guard hooks, in the order of `install_hooks`. -/
def guardedTargets : List (ManagedMethod × Hook) :=
  [(⟨"", "ConnectScene", "HandleGoBtnClicked", 0⟩, .connectSceneGo),
   (⟨"", "ConnectionControl", "ConnectToPhoton", 0⟩, .connectionControlConnect),
   (⟨"", "GameConnect", "ConnectToPhoton", 1⟩, .gameConnectTier),
   (⟨"", "GameConnect", "ConnectToPhotonSquad", 0⟩, .gameConnectSquad)]

def guardsConnection (hook : Hook) : Bool := hook ∈ guardedTargets.map Prod.snd

/-- The name under which a guard hook forces the route. -/
def entryPoint : Hook → String
  | .connectSceneGo => "ConnectScene.HandleGoBtnClicked"
  | .connectionControlConnect => "ConnectionControl.ConnectToPhoton"
  | .gameConnectTier => "GameConnect.ConnectToPhoton(tier)"
  | .gameConnectSquad => "GameConnect.ConnectToPhotonSquad"
  | _ => ""

def installHooks (build : Build) : Native Bool := do
  if build.selfhosted then
    logI "cloud-force: PHOTON_MODE=selfhosted; cloud routing guard disabled" []
    return true
  let backendGuard ← install friendsUpdateTarget (some .friendsUpdate) (some .friendsUpdate) true
  let installed ← installOptionals guardedTargets (if backendGuard then 1 else 0)
  logI "cloud-force: installed %d hooks (backend-guard=%s)"
    [.int installed, text (if backendGuard then "OK" else "FAILED")]
  return backendGuard && decide (installed ≥ 2)

end Opg3d.CloudGuard

namespace Opg3d

open Native

/-- The proxy function of each hook, its arguments taken from the words the
caller passed; a word that is missing reads as zero. -/
def Hook.proxy (build : Build) (hook : Hook) (args : List Word) : Native Word :=
  let word (i : Nat) : Word := args.getD i 0
  let ptr (i : Nat) : Ptr := Word.ptr (word i)
  match hook with
  | .selectAppId => Photon.hookSelectAppId build (ptr 0) (ptr 1)
  | .setUpPhoton => Photon.hookSetUpPhoton build (ptr 0) (ptr 1)
  | .useCloud => Photon.hookUseCloud (ptr 0) (ptr 1) (ptr 2)
  | .useCloudBest => Photon.hookUseCloudBest (ptr 0) (ptr 1) (ptr 2)
  | .useCloudRegion => Photon.hookUseCloudRegion (ptr 0) (ptr 1) (word 2) (ptr 3)
  | .useMyServer => Photon.hookUseMyServer (ptr 0) (ptr 1) (word 2) (ptr 3) (ptr 4)
  | .connectUsingSettings => Photon.hookConnectUsingSettings (ptr 0) (ptr 1)
  | .connectToMaster => Photon.hookConnectToMaster (ptr 0) (word 1) (ptr 2) (ptr 3) (ptr 4)
  | .getGameVersion => Photon.hookGetGameVersion (ptr 0)
  | .gameConnect => Photon.hookGameConnect (ptr 0)
  | .disconnect => Photon.hookDisconnect (ptr 0)
  | .debugReturn => Photon.hookDebugReturn (ptr 0) (word 1) (ptr 2) (ptr 3)
  | .onStatusChanged => Photon.hookOnStatusChanged (ptr 0) (word 1) (ptr 2)
  | .onOperationResponse => Photon.hookOnOperationResponse (ptr 0) (ptr 1) (ptr 2)
  | .failedToConnect => Photon.hookFailedToConnect (ptr 0) (word 1) (ptr 2)
  | .disconnected => Photon.hookDisconnected (ptr 0) (ptr 1)
  | .connectedToMaster => Photon.hookConnectedToMaster (ptr 0) (ptr 1)
  | .friendsUpdate => CloudGuard.hookFriendsUpdate (ptr 0) (ptr 1)
  | .connectSceneGo => CloudGuard.hookConnectSceneGo build (ptr 0) (ptr 1)
  | .connectionControlConnect => CloudGuard.hookConnectionControlConnect build (ptr 0) (ptr 1)
  | .gameConnectTier => CloudGuard.hookGameConnectTier build (word 0) (ptr 1)
  | .gameConnectSquad => CloudGuard.hookGameConnectSquad build (ptr 0)

namespace CloudGuard

theorem proxy_guarded (build : Build) {hook : Hook} (guards : guardsConnection hook = true)
    (args : List Word) :
    ∃ blocked passed, hook.proxy build args = guarded build hook (entryPoint hook) blocked passed := by
  cases hook with
  | connectSceneGo | connectionControlConnect | gameConnectTier | gameConnectSquad =>
    simp only [Hook.proxy, hookConnectSceneGo, hookConnectionControlConnect, hookGameConnectTier,
      hookGameConnectSquad]
    exact ⟨_, _, rfl⟩
  | _ => cases guards

end CloudGuard

end Opg3d
