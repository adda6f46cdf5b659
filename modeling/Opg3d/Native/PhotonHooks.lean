import Opg3d.Native.Photon

namespace Opg3d.Photon

open Native HookEngine

-- Where the sources evaluate several calls as arguments of one log statement,
-- the order is taken from left to right.

/-- `il2cpp::string_new(PHOTON_APP_ID)` unless the AppID is empty. -/
def configuredAppId (build : Build) : Native Ptr := do
  if build.appId = [] then return 0
  api (.stringNew .photonAppId)

def logSelectFallback (build : Build) : Native Unit := do
  if build.appId = [] then
    logW "appid: PHOTON_APP_ID is empty; passthrough to game logic" []
  else
    logE "appid: il2cpp_string_new failed; falling back to game logic" []

/-- `g_select_app_id != nullptr ? g_select_app_id(..) : nullptr`. -/
def selectOriginal (args : List Word) : Native Word := do
  let trampoline ← slot .selectAppId
  if trampoline = none then return 0
  .ask (.original .selectAppId trampoline args) .done

def hookSelectAppId (build : Build) (settings method : Ptr) : Native Word := do
  let call := (← fetchAdd .selectCalls) + 1
  let replacement ← configuredAppId build
  if replacement ≠ 0 then
    logI "appid: SelectPhotonAppId #%u -> configured AppID {%s}; original kill-switch path skipped"
      [.nat call.toNat, .str (configuredSecretSummary build)]
    return Ptr.word replacement
  logSelectFallback build
  let original ← selectOriginal [Ptr.word settings, Ptr.word method]
  let summary ← secretSummary (Word.ptr original)
  logI "appid: game result {%s}" [.str summary]
  return original

def hookSetUpPhoton (build : Build) (settings method : Ptr) : Native Word := do
  logI "trace: Switcher.SetUpPhoton begin (HiddenSettings=%p)" [pointer settings]
  let _ ← callOriginal .setUpPhoton [Ptr.word settings, Ptr.word method]
  enableVerbosePhotonLogs
  let serverSettings ← currentServerSettings
  let _ ← applyConfigToSettings build serverSettings "SetUpPhoton/end"
  logSettings "SetUpPhoton/end" serverSettings
  return 0

/-- `hook_use_cloud` and `hook_use_cloud_best` differ in slot and texts only. -/
def tracedUseCloud (hook : Hook) (message : String) (point : String) (self appId method : Ptr) :
    Native Word :=
  do
  let summary ← secretSummary appId
  logI message [.str summary]
  let _ ← callOriginal hook [Ptr.word self, Ptr.word appId, Ptr.word method]
  logSettings point self
  return 0

def hookUseCloud : Ptr → Ptr → Ptr → Native Word :=
  tracedUseCloud .useCloud "trace: ServerSettings.UseCloud app={%s}" "UseCloud/end"

def hookUseCloudBest : Ptr → Ptr → Ptr → Native Word :=
  tracedUseCloud .useCloudBest "trace: ServerSettings.UseCloudBestRegion app={%s}" "UseCloudBestRegion/end"

def hookUseCloudRegion (self appId : Ptr) (region : Int) (method : Ptr) : Native Word := do
  let summary ← secretSummary appId
  logI "trace: ServerSettings.UseCloud(region=%d) app={%s}" [.int region, .str summary]
  let _ ← callOriginal .useCloudRegion [Ptr.word self, Ptr.word appId, region, Ptr.word method]
  logSettings "UseCloud(region)/end" self
  return 0

def hookUseMyServer (self address : Ptr) (port : Int) (appId method : Ptr) : Native Word := do
  let host ← Il2cpp.toUtf8 address 256
  let summary ← secretSummary appId
  logI "trace: ServerSettings.UseMyServer '%s':%d app={%s}" [.str host, .int port, .str summary]
  let _ ← callOriginal .useMyServer [Ptr.word self, Ptr.word address, port, Ptr.word appId, Ptr.word method]
  logSettings "UseMyServer/end" self
  return 0

/-- The line both connect hooks close with. -/
def logConnectEnd (message : String) (result : Word) : Native Unit := do
  let state ← connectionState
  let server ← serverAddress
  logI message [ofBool (Word.bool result), .int state, .str server]

def hookConnectUsingSettings (gameVersion method : Ptr) : Native Word := do
  enableVerbosePhotonLogs
  let version ← Il2cpp.toUtf8 gameVersion 128
  let state ← connectionState
  let server ← serverAddress
  logI "net: ConnectUsingSettings begin version='%s' state=%d server='%s'" [.str version, .int state, .str server]
  let settings ← currentServerSettings
  logSettings "ConnectUsingSettings/before" settings
  logAuthSnapshot "ConnectUsingSettings/before"
  let result ← callOriginal .connectUsingSettings [Ptr.word gameVersion, Ptr.word method]
  logConnectEnd "net: ConnectUsingSettings end result=%d state=%d server='%s'" result
  return result

def hookConnectToMaster (address : Ptr) (port : Int) (appId gameVersion method : Ptr) : Native Word := do
  enableVerbosePhotonLogs
  let host ← Il2cpp.toUtf8 address 256
  let version ← Il2cpp.toUtf8 gameVersion 128
  let app ← secretSummary appId
  let state ← connectionState
  logI "net: ConnectToMaster begin '%s':%d version='%s' app={%s} state=%d"
    [.str host, .int port, .str version, .str app, .int state]
  logAuthSnapshot "ConnectToMaster/before"
  let result ← callOriginal .connectToMaster
    [Ptr.word address, port, Ptr.word appId, Ptr.word gameVersion, Ptr.word method]
  logConnectEnd "net: ConnectToMaster end result=%d state=%d server='%s'" result
  return result

def hookGetGameVersion (method : Ptr) : Native Word := do
  let result ← callOriginal .getGameVersion [Ptr.word method]
  let version ← Il2cpp.toUtf8 (Word.ptr result) 128
  logI "net: GameConnect.GetConnectGameVersion -> '%s'" [.str version]
  return result

def hookGameConnect (method : Ptr) : Native Word := do
  let before ← connectionState
  logI "net: GameConnect.ConnectToPhoton begin state=%d" [.int before]
  let result ← callOriginal .gameConnect [Ptr.word method]
  let after ← connectionState
  logI "net: GameConnect.ConnectToPhoton end result=%d state=%d" [ofBool (Word.bool result), .int after]
  return result

/-- A proxy that logs the state and the server address, behind arguments of
its own, and calls the original. -/
def notified (hook : Hook) (priority : Priority) (message : String) (front : List Arg) (args : List Word) :
    Native Word := do
  let state ← connectionState
  let server ← serverAddress
  log priority message (front ++ [.int state, .str server])
  let _ ← callOriginal hook args
  return 0

def hookDisconnect (method : Ptr) : Native Word :=
  notified .disconnect .warn "net: PhotonNetwork.Disconnect requested state=%d server='%s'" [] [Ptr.word method]

def debugPriority (level : Int) : Priority :=
  if level = 1 then .error else if level = 2 then .warn else .info

def hookDebugReturn (self : Ptr) (level : Int) (message method : Ptr) : Native Word := do
  let message' ← Il2cpp.toUtf8 message 1024
  log (debugPriority level) "photon[%s/%d]: %s" [text (debugLevelName level), .int level, .str message']
  let _ ← callOriginal .debugReturn [Ptr.word self, level, Ptr.word message, Ptr.word method]
  return 0

def hookOnStatusChanged (self : Ptr) (status : Int) (method : Ptr) : Native Word := do
  let before ← connectionState
  logI "photon-status: %d (%s), state-before=%d" [.int status, text (statusName status), .int before]
  let _ ← callOriginal .onStatusChanged [Ptr.word self, status, Ptr.word method]
  let after ← connectionState
  let server ← serverAddress
  logI "photon-status: handled %d, state-after=%d server='%s'" [.int status, .int after, .str server]
  return 0

def markMissing (present : Bool) : Arg := text (if present then "" else "?")

def hookOnOperationResponse (self response method : Ptr) : Native Word := do
  let operation ← readField response "OperationCode" 1
  let code ← readField response "ReturnCode" 2
  let debugMessage ← readRef response "DebugMessage"
  let debug ← Il2cpp.toUtf8 (debugMessage.getD 0) 512
  let operationCode := leNat (operation.getD [])
  let returnCode := int16OfBytes (code.getD [])
  if code.isSome ∧ returnCode ≠ 0 then
    logE "photon-op: code=%s%u return=%d debug='%s'"
      [markMissing operation.isSome, .nat operationCode, .int returnCode, .str debug]
  else
    logI "photon-op: code=%s%u return=%s%d debug='%s'"
      [markMissing operation.isSome, .nat operationCode, markMissing code.isSome,
        .int returnCode, .str debug]
  let _ ← callOriginal .onOperationResponse [Ptr.word self, Ptr.word response, Ptr.word method]
  return 0

def hookFailedToConnect (self : Ptr) (cause : Int) (method : Ptr) : Native Word :=
  notified .failedToConnect .error "ui: ConnectionControl.OnFailedToConnect cause=%d (%s) state=%d server='%s'"
    [.int cause, text (disconnectName cause)] [Ptr.word self, cause, Ptr.word method]

def hookDisconnected (self method : Ptr) : Native Word :=
  notified .disconnected .warn "ui: ConnectionControl.OnDisconnected state=%d server='%s'" []
    [Ptr.word self, Ptr.word method]

def hookConnectedToMaster (self method : Ptr) : Native Word :=
  notified .connectedToMaster .info "ui: ConnectionControl.OnConnectedToMaster state=%d server='%s'" []
    [Ptr.word self, Ptr.word method]

/-- The hooks `install_hooks` tries after the mandatory one, in its order. -/
def optionalTargets : List (ManagedMethod × Hook) :=
  [(⟨"", "Switcher", "SetUpPhoton", 1⟩, .setUpPhoton),
   (⟨"", "ServerSettings", "UseCloud", 1⟩, .useCloud),
   (⟨"", "ServerSettings", "UseCloudBestRegion", 1⟩, .useCloudBest),
   (⟨"", "ServerSettings", "UseCloud", 2⟩, .useCloudRegion),
   (⟨"", "ServerSettings", "UseMyServer", 3⟩, .useMyServer),
   (⟨"", "PhotonNetwork", "ConnectUsingSettings", 1⟩, .connectUsingSettings),
   (⟨"", "PhotonNetwork", "ConnectToMaster", 4⟩, .connectToMaster),
   (⟨"", "PhotonNetwork", "Disconnect", 0⟩, .disconnect),
   (⟨"", "GameConnect", "GetConnectGameVersion", 0⟩, .getGameVersion),
   (⟨"", "GameConnect", "ConnectToPhoton", 0⟩, .gameConnect),
   (⟨"", "NetworkingPeer", "DebugReturn", 2⟩, .debugReturn),
   (⟨"", "NetworkingPeer", "OnStatusChanged", 1⟩, .onStatusChanged),
   (⟨"", "NetworkingPeer", "OnOperationResponse", 1⟩, .onOperationResponse),
   (⟨"", "ConnectionControl", "OnFailedToConnect", 1⟩, .failedToConnect),
   (⟨"", "ConnectionControl", "OnDisconnected", 0⟩, .disconnected),
   (⟨"", "ConnectionControl", "OnConnectedToMaster", 0⟩, .connectedToMaster)]

def selectAppIdTarget : ManagedMethod := ⟨"", "Switcher", "SelectPhotonAppId", 1⟩

def installHooks (build : Build) : Native Bool := do
  let version : Bytes ← .ask .shadowhookVersion .done
  logI "hook: engine %s; resolving targets through IL2CPP metadata" [.str version]
  let core ← install selectAppIdTarget (some .selectAppId) (some .selectAppId) true
  let installed ← installOptionals optionalTargets (if core then 1 else 0)
  logI "hook: installed %d managed hooks (core=%s)" [.int installed, text (if core then "OK" else "FAILED")]
  logI "settings[post-install]: deferred to SetUpPhoton hook (PhotonNetwork statics are not safe to touch yet)" []
  if build.appId = [] then
    logW "appid: build has no PHOTON_APP_ID secret; hook is diagnostic passthrough" []
  return core

end Opg3d.Photon
