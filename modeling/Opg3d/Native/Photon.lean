import Opg3d.Native.Fields

namespace Opg3d.Photon

open Native HookEngine

def fnv1a (data : Bytes) : UInt32 :=
  data.foldl (fun hash byte => (hash ^^^ byte.toUInt32) * 16777619) 2166136261

/-- `string_length` where it is bound. -/
def stringLengthOr (fallback : Int) (value : Ptr) : Native Int := do
  if (← apiPtr .stringLength) = 0 then return fallback
  api (.stringLength value)

/-- Length and fingerprint in place of a credential. -/
def secretSummary (value : Ptr) : Native Bytes := do
  if value = 0 then return literal "<null>"
  let text ← Il2cpp.toUtf8 value 256
  let chars ← stringLengthOr (-1) value
  return Logger.truncate 128 <|
    printf "chars=%d utf8=%zu fnv1a=%08x" [.int chars, .nat text.length, .nat (fnv1a text).toNat]

def configuredSecretSummary (build : Build) : Bytes :=
  Logger.truncate 128 <| printf "chars=%zu utf8=%zu fnv1a=%08x"
    [.nat build.appId.length, .nat build.appId.length, .nat (fnv1a build.appId).toNat]

def currentServerSettings : Native Ptr := do
  cacheField .settingsField "PhotonNetwork" "PhotonServerSettings"
  staticObject .settingsField

def hostingName : Int → String
  | 0 => "NotSet"
  | 1 => "PhotonCloud"
  | 2 => "SelfHosted"
  | 3 => "OfflineMode"
  | 4 => "BestRegion"
  | _ => "unknown"

def protocolName : Int → String
  | 0 => "Udp"
  | 1 => "Tcp"
  | 4 => "WebSocket"
  | 5 => "WebSocketSecure"
  | _ => "unknown"

def text (s : String) : Arg := .str (literal s)

def ofBool (b : Bool) : Arg := .int (if b then 1 else 0)

def logSettings (point : String) (settings : Ptr) : Native Unit := do
  if settings = 0 then
    logW "settings[%s]: <null>" [text point]
  else
    let host := (← readInt32 settings "HostType").getD (-1)
    let protocol := (← readInt32 settings "Protocol").getD (-1)
    let address := (← readRef settings "ServerAddress").getD 0
    let port := (← readInt32 settings "ServerPort").getD (-1)
    let appId := (← readRef settings "AppID").getD 0
    let region := (← readInt32 settings "PreferredRegion").getD (-1)
    let regions := (← readInt32 settings "EnabledRegions").getD (-1)
    let joinLobby := (← readBool settings "JoinLobby").getD false
    let lobbyStats := (← readBool settings "EnableLobbyStatistics").getD false
    let server ← Il2cpp.toUtf8 address 256
    let app ← secretSummary appId
    logI "settings[%s]: host=%d(%s) protocol=%d(%s) server='%s':%d app={%s} region=%d enabled=0x%x joinLobby=%d lobbyStats=%d"
      [text point, .int host, text (hostingName host), .int protocol,
        text (protocolName protocol), .str server,
        .int port, .str app, .int region, .nat (regions % 2 ^ 32).toNat, ofBool joinLobby,
          ofBool lobbyStats]

def writeAppId (build : Build) (settings : Ptr) : Native Bool := do
  if build.appId = [] then return false
  let appId ← api (.stringNew .photonAppId)
  if appId = 0 then return false
  writeField settings "AppID" (ptrBytes appId)

def writeSelfhostedRoute (build : Build) (settings : Ptr) : Native Bool := do
  if !build.selfhosted then return false
  let wroteHost ← writeField settings "HostType" (int32Bytes 2)
  let wroteProtocol ← writeField settings "Protocol" (int32Bytes 0)
  return wroteHost || wroteProtocol

/-- The block both modes share: the address is written whatever it is. -/
def writeServer (build : Build) (settings : Ptr) : Native Bool := do
  if build.serverAddress = [] then return false
  let address ← api (.stringNew .photonServerAddress)
  let wroteAddress ← writeField settings "ServerAddress" (ptrBytes address)
  let wrotePort ← writeField settings "ServerPort" (int32Bytes build.serverPort)
  return wroteAddress || wrotePort

def applyConfigToSettings (build : Build) (settings : Ptr) (point : String) : Native Bool := do
  if settings = 0 then return false
  let wroteAppId ← writeAppId build settings
  let wroteRoute ← writeSelfhostedRoute build settings
  let wroteServer ← writeServer build settings
  let changed := wroteAppId || wroteRoute || wroteServer
  if changed then
    logI "settings[%s]: build configuration applied" [text point]
  return changed

def connectionState : Native Int := connectionStateVia .stateFn .stateMethod

def serverAddress : Native Bytes := do
  let fn ← lookupCached .serverAddressFn .serverAddressMethod ⟨"", "PhotonNetwork", "get_ServerAddress", 0⟩
  if fn = 0 then return literal "<unavailable>"
  let method ← static .serverAddressMethod
  let address ← managed .serverAddress fn [Ptr.word method]
  Il2cpp.toUtf8 (Word.ptr address) 256

/-- `string_length` of an optional string, 0 where there is nothing to measure. -/
def lengthOrZero (string : Option Ptr) : Native Int := do
  match string with
  | none => return 0
  | some p => if p = 0 then return 0 else stringLengthOr 0 p

def logAuthSnapshot (point : String) : Native Unit := do
  let fn ← lookupCached .authFn .authMethod ⟨"", "PhotonNetwork", "get_AuthValues", 0⟩
  if fn = 0 then
    logW "auth[%s]: getter unavailable" [text point]
  else
    let method ← static .authMethod
    let auth := Word.ptr (← managed .authValues fn [Ptr.word method])
    if auth = 0 then
      logI "auth[%s]: <null>" [text point]
    else
      let type ← readInt32 auth "authType"
      let token ← readRef auth "token"
      let userId ← readRef auth "userId"
      let tokenLen ← lengthOrZero token
      let userLen ← lengthOrZero userId
      logI "auth[%s]: object=%p type=%s%d token=%s(len=%d) userId=%s(len=%d)"
        [text point, pointer auth, text (if type.isSome then "" else "?"), .int (type.getD (-1)),
          text (if token.getD 0 ≠ 0 then "set" else "null"), .int tokenLen,
          text (if userId.getD 0 ≠ 0 then "set" else "null"), .int userLen]

/-- Sets `PhotonNetwork.logLevel` to `PhotonLogLevel.Full`. -/
def raiseLogLevel : Native Unit := do
  let field ← static .logLevelField
  if field ≠ 0 then
    api (.fieldStaticSetValue field (int32Bytes 2))

def setDebugOut (peer setDebug : Ptr) : Native Unit := do
  let method ← static .setDebugMethod
  let _ ← managed .setDebugOut setDebug [Ptr.word peer, 5, Ptr.word method]
  let logged ← exchange .verboseReady
  if !logged then
    logI "trace: PhotonLogLevel=Full, PhotonPeer.DebugOut=ALL" []

def enableVerbosePhotonLogs : Native Unit := do
  cacheField .logLevelField "PhotonNetwork" "logLevel"
  raiseLogLevel
  cacheField .peerField "PhotonNetwork" "networkingPeer"
  let peer ← staticObject .peerField
  let setDebug ← lookupCached .setDebugFn .setDebugMethod ⟨"ExitGames.Client.Photon", "PhotonPeer",
    "set_DebugOut", 1⟩
  if peer ≠ 0 ∧ setDebug ≠ 0 then
    setDebugOut peer setDebug

def statusName : Int → String
  | 1022 => "SecurityExceptionOnConnect"
  | 1023 => "ExceptionOnConnect"
  | 1024 => "Connect"
  | 1025 => "Disconnect"
  | 1026 => "Exception"
  | 1027 => "QueueOutgoingReliableWarning"
  | 1029 => "QueueOutgoingUnreliableWarning"
  | 1030 => "SendError"
  | 1031 => "QueueOutgoingAcksWarning"
  | 1033 => "QueueSentWarning"
  | 1039 => "InternalReceiveException"
  | 1040 => "TimeoutDisconnect"
  | 1041 => "DisconnectByServer"
  | 1042 => "DisconnectByServerUserLimit"
  | 1043 => "DisconnectByServerLogic"
  | 1048 => "EncryptionEstablished"
  | 1049 => "EncryptionFailedToEstablish"
  | _ => "unknown"

def disconnectName : Int → String
  | 1022 => "SecurityExceptionOnConnect"
  | 1023 => "ExceptionOnConnect"
  | 1026 => "Exception"
  | 1039 => "InternalReceiveException"
  | 1040 => "DisconnectByClientTimeout"
  | 1041 => "DisconnectByServerTimeout"
  | 1042 => "DisconnectByServerUserLimit"
  | 1043 => "DisconnectByServerLogic"
  | 32753 => "AuthenticationTicketExpired"
  | 32756 => "InvalidRegion"
  | 32757 => "MaxCcuReached"
  | 32767 => "InvalidAuthentication"
  | _ => "unknown"

def debugLevelName : Int → String
  | 0 => "OFF"
  | 1 => "ERROR"
  | 2 => "WARNING"
  | 3 => "INFO"
  | 5 => "ALL"
  | _ => "unknown"

end Opg3d.Photon
