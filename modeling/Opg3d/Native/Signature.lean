import Opg3d.Kit.Program
import Opg3d.Native.Logger

namespace Opg3d

/-- Machine words passed to and returned by managed code: integers, `bool` as
zero or one, references by address. -/
abbrev Word := Int

def Word.bool (w : Word) : Bool := w ≠ 0

def Word.ptr (w : Word) : Ptr := UInt32.ofNat w.toNat

def Ptr.word (p : Ptr) : Word := p.toNat

@[simp] theorem word_ptr_word (p : Ptr) : Word.ptr (Ptr.word p) = p := by
  rw [Word.ptr, Ptr.word, Int.toNat_natCast, UInt32.ofNat_toNat]

/-- The exports of `libil2cpp.so` that `il2cpp.h` keeps function pointers to. -/
inductive Api where
  | stringNew | stringLength | stringChars | domainGet | domainGetAssemblies | assemblyGetImage | imageGetName
  | classFromName | classGetMethodFromName | classGetFieldFromName | objectGetClass | fieldGetValue
  | fieldSetValue | fieldStaticGetValue | fieldStaticSetValue | threadAttach | threadDetach
  deriving DecidableEq, Repr

/-- The hooks: each has a proxy function and a slot `g_*` for its trampoline.
The first seventeen are Photon's, the last five the cloud guard's. -/
inductive Hook where
  | selectAppId | setUpPhoton | useCloud | useCloudBest | useCloudRegion | useMyServer
  | connectUsingSettings | connectToMaster | getGameVersion | gameConnect | disconnect | debugReturn
  | onStatusChanged | onOperationResponse | failedToConnect | disconnected | connectedToMaster
  | friendsUpdate | connectSceneGo | connectionControlConnect | gameConnectTier | gameConnectSquad
  deriving DecidableEq, Repr

/-- The function-local `static` pointers, by the function that owns them. -/
inductive Static where
  | settingsField | stateFn | stateMethod | serverAddressFn | serverAddressMethod | authFn | authMethod
  | logLevelField | peerField | setDebugFn | setDebugMethod
  | guardSettingsField | guardStateFn | guardStateMethod | guardUseCloudFn | guardUseCloudMethod
  deriving DecidableEq, Repr

inductive Flag where
  | engineStarted | engineReady | verboseReady | cloudReady | missingAppIdLogged
  deriving DecidableEq, Repr

inductive Counter where
  | selectCalls | cloudApplyCount | quarantinedUpdates
  deriving DecidableEq, Repr

/-- Managed methods the library calls through a method pointer it looked up. -/
inductive Managed where
  | connectionState | serverAddress | authValues | setDebugOut | useCloud
  deriving DecidableEq, Repr

/-- The texts compiled in by the build, from `config.h`. -/
inductive ConfigText where
  | photonAppId | photonServerAddress
  deriving DecidableEq, Repr

/-- A `&value` passed to the runtime: where it points and what is there. -/
structure Buffer where
  address : Ptr
  bytes : Bytes

/-- What `il2cpp_domain_get_assemblies` returns: the count it stores, and the
array of that many pointers unless it returns null. -/
structure Assemblies where
  count : Nat
  array : Option (List Ptr)
  length_eq : ∀ entries ∈ array, entries.length = count

/-- Without an array any count will do. -/
theorem Assemblies.unlisted (count : Nat) :
    ∀ entries ∈ (none : Option (List Ptr)), entries.length = count :=
  fun _ listed => absurd listed (by simp)

/-- A call of an IL2CPP export with its arguments. -/
inductive ApiCall where
  | stringNew (text : ConfigText)
  | stringLength (string : Ptr)
  | stringChars (string : Ptr)
  | domainGet
  | domainGetAssemblies (domain : Ptr)
  | assemblyGetImage (assembly : Ptr)
  | imageGetName (image : Ptr)
  | classFromName (image : Ptr) (namespaze name : String)
  | classGetMethodFromName (klass : Ptr) (name : String) (argsCount : Int)
  | classGetFieldFromName (klass : Ptr) (name : String)
  | objectGetClass (object : Ptr)
  | fieldGetValue (object field : Ptr)
  | fieldSetValue (object field : Ptr) (value : Buffer)
  | fieldStaticGetValue (field : Ptr)
  | fieldStaticSetValue (field : Ptr) (value : Bytes)
  | threadAttach (domain : Ptr)
  | threadDetach (thread : Ptr)

def ApiCall.api : ApiCall → Api
  | .stringNew _ => .stringNew
  | .stringLength _ => .stringLength
  | .stringChars _ => .stringChars
  | .domainGet => .domainGet
  | .domainGetAssemblies _ => .domainGetAssemblies
  | .assemblyGetImage _ => .assemblyGetImage
  | .imageGetName _ => .imageGetName
  | .classFromName _ _ _ => .classFromName
  | .classGetMethodFromName _ _ _ => .classGetMethodFromName
  | .classGetFieldFromName _ _ => .classGetFieldFromName
  | .objectGetClass _ => .objectGetClass
  | .fieldGetValue _ _ => .fieldGetValue
  | .fieldSetValue _ _ _ => .fieldSetValue
  | .fieldStaticGetValue _ => .fieldStaticGetValue
  | .fieldStaticSetValue _ _ => .fieldStaticSetValue
  | .threadAttach _ => .threadAttach
  | .threadDetach _ => .threadDetach

/-- Results; a null result of a pointer to text is `none`. The value getters
answer the bytes they copy into the caller's buffer. -/
abbrev ApiCall.Result : ApiCall → Type
  | .stringLength _ => Int
  | .stringChars _ => Option (List UInt16)
  | .domainGetAssemblies _ => Assemblies
  | .imageGetName _ => Option String
  | .fieldGetValue _ _ => Bytes
  | .fieldStaticGetValue _ => Ptr
  | .fieldSetValue _ _ _ => Unit
  | .fieldStaticSetValue _ _ => Unit
  | .threadDetach _ => Unit
  | _ => Ptr

/-- ShadowHook's answer to a hook request: the stub, null on failure, and what
it left in the slot, `some a` being a trampoline into the code at `a`. -/
structure HookAnswer where
  stub : Ptr
  trampoline : Option Ptr

inductive Priority where
  | info | warn | error
  deriving DecidableEq, Repr

/-- Marks for the specifications; they are nothing the library does. -/
inductive Mark where
  | installBegins | installEnds | forceCloud (reapply result : Bool)
  deriving DecidableEq, Repr

/-- Everything the library does that is not computation: reads and writes of
its globals, calls through pointers with the value the pointer has at that
moment, requests to ShadowHook and the system, and log lines. -/
inductive NativeOp where
  | apiPtr (f : Api)
  | bindApi (f : Api) (fn : Ptr)
  | slot (hook : Hook)
  | setSlot (hook : Hook) (trampoline : Option Ptr)
  | static (cell : Static)
  | setStatic (cell : Static) (value : Ptr)
  | flag (f : Flag)
  | setFlag (f : Flag) (value : Bool)
  | exchange (f : Flag)
  | fetchAdd (counter : Counter)
  | call (fn : Ptr) (request : ApiCall)
  | original (hook : Hook) (trampoline : Option Ptr) (args : List Word)
  | managed (method : Managed) (fn : Ptr) (args : List Word)
  | methodPointer (methodInfo : Ptr)
  | addressOfValue
  | shadowhookInit
  | shadowhookHook (address : Ptr) (replacement slot : Hook)
  | shadowhookUnhook (stub : Ptr)
  | shadowhookErrno
  | shadowhookErrmsg (code : Int)
  | shadowhookVersion
  | findLibrary
  | findSymbol (name : String)
  | usleep (microseconds : Nat)
  | log (priority : Priority) (text : Bytes)
  | mark (m : Mark)

abbrev NativeOp.Ans : NativeOp → Type
  | .apiPtr _ => Ptr
  | .slot _ => Option Ptr
  | .static _ => Ptr
  | .flag _ => Bool
  | .exchange _ => Bool
  | .fetchAdd _ => UInt32
  | .call _ request => request.Result
  | .original _ _ _ => Word
  | .managed _ _ _ => Word
  | .methodPointer _ => Ptr
  | .addressOfValue => Ptr
  | .shadowhookInit => Int
  | .shadowhookHook _ _ _ => HookAnswer
  | .shadowhookErrno => Int
  | .shadowhookErrmsg _ => Bytes
  | .shadowhookVersion => Bytes
  | .findLibrary => Option Ptr
  | .findSymbol _ => Ptr
  | .log _ _ => Logger.CallSite
  | _ => Unit

def NativeOp.isOriginal : NativeOp → Bool
  | .original _ _ _ => true
  | _ => false

/-- A call of a trampoline into the code at an address. -/
def NativeOp.reaches (address : Ptr) : NativeOp → Bool
  | .original _ trampoline _ => trampoline = some address
  | _ => false

abbrev nativeSignature : Kit.Signature := ⟨NativeOp, NativeOp.Ans⟩

/-- Code of the library. -/
abbrev Native := Kit.Prog nativeSignature

namespace Native

def apiPtr (f : Api) : Native Ptr := .ask (.apiPtr f) .done

def bindApi (f : Api) (fn : Ptr) : Native Unit := .ask (.bindApi f fn) .done

def slot (hook : Hook) : Native (Option Ptr) := .ask (.slot hook) .done

def setSlot (hook : Hook) (trampoline : Option Ptr) : Native Unit := .ask (.setSlot hook trampoline) .done

def static (cell : Static) : Native Ptr := .ask (.static cell) .done

def setStatic (cell : Static) (value : Ptr) : Native Unit := .ask (.setStatic cell value) .done

def flag (f : Flag) : Native Bool := .ask (.flag f) .done

def setFlag (f : Flag) (value : Bool) : Native Unit := .ask (.setFlag f value) .done

def exchange (f : Flag) : Native Bool := .ask (.exchange f) .done

def fetchAdd (counter : Counter) : Native UInt32 := .ask (.fetchAdd counter) .done

/-- A call through an `il2cpp::` function pointer. -/
def api (request : ApiCall) : Native request.Result :=
  .ask (.apiPtr request.api) fun fn => .ask (.call fn request) .done

/-- A call through the trampoline slot of a hook. -/
def callOriginal (hook : Hook) (args : List Word) : Native Word :=
  .ask (.slot hook) fun trampoline => .ask (.original hook trampoline args) .done

def managed (method : Managed) (fn : Ptr) (args : List Word) : Native Word :=
  .ask (.managed method fn args) .done

/-- The first member of a `MethodInfo`, read from memory. -/
def firstMember (methodInfo : Ptr) : Native Ptr := .ask (.methodPointer methodInfo) .done

/-- The address of a by-value parameter on the stack. -/
def addressOfValue : Native Ptr := .ask .addressOfValue .done

def findLibrary : Native (Option Ptr) := .ask .findLibrary .done

def findSymbol (name : String) : Native Ptr := .ask (.findSymbol name) .done

def usleep (microseconds : Nat) : Native Unit := .ask (.usleep microseconds) .done

def mark (m : Mark) : Native Unit := .ask (.mark m) .done

/-- `LOGI` and the like, which get the strings as `c_str()`. -/
def log (priority : Priority) (format : String) (args : List Arg) : Native Unit :=
  .ask (.log priority (printf format (args.map Arg.read))) fun _ => .done ()

def logI : String → List Arg → Native Unit := log .info

def logW : String → List Arg → Native Unit := log .warn

def logE : String → List Arg → Native Unit := log .error

/-- The tests `!il2cpp::f || !il2cpp::g || ...`, evaluated from the left. -/
def anyNull : List Api → Native Bool
  | [] => .done false
  | f :: rest => do
    let fn ← apiPtr f
    if fn = 0 then .done true else anyNull rest

end Native

/-- The build's configuration: `PHOTON_MODE_SELFHOSTED` and `config.h`. -/
structure Build where
  selfhosted : Bool
  appId : Bytes
  serverAddress : Bytes
  serverPort : Int

end Opg3d
