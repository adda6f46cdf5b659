import Opg3d.Native.Metadata
import Opg3d.Native.System

namespace Opg3d

/-- An instance field: a value of as many bytes as the field is wide, or a
reference. -/
inductive FieldValue where
  | value (bytes : Bytes)
  | reference (target : Ptr)
  deriving DecidableEq, Repr

/-- The game's side of the process. -/
structure World where
  metadata : Metadata
  classOf : Ptr → Ptr
  content : Ptr → Ptr → FieldValue
  staticContent : Ptr → Ptr
  string : Ptr → Option (List UInt16)
  allocation : ConfigText → Ptr
  behind : Bytes
  state : CloudGuard.ClientState

def FieldValue.copied : FieldValue → Bytes
  | .value bytes => bytes
  | .reference target => ptrBytes target

/-- `il2cpp_field_set_value`: a value is copied from the buffer, and from what
lies behind it if the field is wider; a reference becomes the pointer passed. -/
def FieldValue.stored (old : FieldValue) (buffer : Buffer) (behind : Bytes) : FieldValue :=
  match old with
  | .value bytes => .value ((buffer.bytes ++ behind).take bytes.length)
  | .reference _ => .reference buffer.address

namespace World

def setField (w : World) (object field : Ptr) (value : FieldValue) : World :=
  { w with content := Function.update w.content object (Function.update (w.content object) field value) }

def respond (w : World) : (request : ApiCall) → request.Result × World
  | .stringNew text => (w.allocation text, w)
  | .stringLength p => (((w.string p).getD []).length, w)
  | .stringChars p => (w.string p, w)
  | .domainGet => (w.metadata.domain, w)
  | .domainGetAssemblies domain => (w.metadata.assemblies domain, w)
  | .assemblyGetImage assembly => (w.metadata.image assembly, w)
  | .imageGetName image => (w.metadata.imageName image, w)
  | .classFromName image namespaze name => (w.metadata.klass image namespaze name, w)
  | .classGetMethodFromName klass name argsCount => (w.metadata.method klass name argsCount, w)
  | .classGetFieldFromName klass name => (w.metadata.field klass name, w)
  | .objectGetClass object => (w.classOf object, w)
  | .fieldGetValue object field => ((w.content object field).copied, w)
  | .fieldSetValue object field value =>
    ((), w.setField object field ((w.content object field).stored value w.behind))
  | .fieldStaticGetValue field => (w.staticContent field, w)
  | .fieldStaticSetValue field value =>
    ((), { w with staticContent := Function.update w.staticContent field (ptrOfBytes value) })
  | .threadAttach domain => (domain, w)
  | .threadDetach _ => ((), w)

end World

/-- How the game's code behaves, and what the rest of the system answers. -/
structure Conduct where
  body : Hook → World → List Word → Word × World
  getter : Managed → World → List Word → Word
  other : (op : NativeOp) → op.Ans

/-- The library and the game together. -/
structure Scene where
  system : System
  world : World

namespace Scene

def reply (conduct : Conduct) (s : Scene) : (op : NativeOp) → op.Ans
  | .apiPtr f => s.system.memory.api f
  | .slot hook => s.system.memory.slot hook
  | .static cell => s.system.memory.static cell
  | .flag f => s.system.memory.flag f
  | .exchange f => s.system.memory.flag f
  | .fetchAdd counter => s.system.memory.counter counter
  | op => conduct.other op

/-- The body of hooked code, which does as it likes with the game's side. -/
def runBody (conduct : Conduct) (hook : Hook) (args : List Word) (s : Scene) : Word × Scene :=
  ((conduct.body hook s.world args).1, { s with world := (conduct.body hook s.world args).2 })

/-- Answers in a scene, given what a call of `UseCloud` through its method
pointer does. -/
def answerWith (conduct : Conduct) (useCloud : Ptr → List Word → Scene → Word × Scene) (s : Scene) :
    (op : NativeOp) → op.Ans × Scene
  | .call _ request => ((s.world.respond request).1, { s with world := (s.world.respond request).2 })
  | .original hook _ args => s.runBody conduct hook args
  | .managed .useCloud fn args => useCloud fn args s
  | .managed .connectionState _ _ => (s.world.state.value, s)
  | .managed method _ args => (conduct.getter method s.world args, s)
  | .methodPointer info => (s.world.metadata.code info, s)
  | op => (s.reply conduct op, { s with system := s.system.after op (s.reply conduct op) })

/-- Answers where `UseCloud` is reached directly. -/
def direct (conduct : Conduct) : Scene → (op : NativeOp) → op.Ans × Scene :=
  answerWith conduct fun _ args s => s.runBody conduct .useCloudRegion args

/-- A call of `UseCloud` by its address: a patched entry leads through its proxy. -/
def throughEntry (build : Build) (conduct : Conduct) (fn : Ptr) (args : List Word) (s : Scene) :
    Word × Scene :=
  match s.system.memory.patched fn with
  | none => s.runBody conduct .useCloudRegion args
  | some hook => (hook.proxy build args).eval (direct conduct) s

def answer (build : Build) (conduct : Conduct) : Scene → (op : NativeOp) → op.Ans × Scene :=
  answerWith conduct (throughEntry build conduct)

end Scene

/-- The answers of a game in which nothing happens. -/
def ApiCall.nothing : (request : ApiCall) → request.Result
  | .stringLength _ => (0 : Int)
  | .stringChars _ => none
  | .domainGetAssemblies _ => ⟨0, none, Assemblies.unlisted 0⟩
  | .imageGetName _ => none
  | .fieldGetValue _ _ => []
  | .fieldSetValue _ _ _ | .fieldStaticSetValue _ _ | .threadDetach _ => ()
  | .stringNew _ | .domainGet | .assemblyGetImage _ | .classFromName _ _ _ | .classGetMethodFromName _ _ _
  | .classGetFieldFromName _ _ | .objectGetClass _ | .fieldStaticGetValue _ | .threadAttach _ => (0 : Ptr)

def NativeOp.nothing : (op : NativeOp) → op.Ans
  | .apiPtr _ | .static _ | .methodPointer _ | .findSymbol _ => (0 : Ptr)
  | .addressOfValue => (0xBEFFF6A0 : Ptr)
  | .slot _ | .findLibrary => none
  | .flag _ | .exchange _ => false
  | .fetchAdd _ => (0 : UInt32)
  | .call _ request => request.nothing
  | .original _ _ _ | .managed _ _ _ => (0 : Word)
  | .shadowhookInit | .shadowhookErrno => (0 : Int)
  | .shadowhookHook _ _ _ => ⟨0, none⟩
  | .shadowhookErrmsg _ | .shadowhookVersion => ([] : Bytes)
  | .log _ _ => ⟨0, 0, 0, 0, none⟩
  | .bindApi _ _ | .setSlot _ _ | .setStatic _ _ | .setFlag _ _ | .shadowhookUnhook _ | .usleep _ | .mark _ => ()

def Conduct.passive : Conduct := ⟨fun _ w _ => (0, w), fun _ _ _ => 0, NativeOp.nothing⟩

def Metadata.empty : Metadata :=
  ⟨0, fun _ => ⟨0, none, nofun⟩, fun _ => 0, fun _ => none, fun _ _ _ => 0, fun _ _ _ => 0,
    fun _ _ => 0, fun _ => 0⟩

def World.empty : World :=
  ⟨.empty, fun _ => 0, fun _ _ => .value [], fun _ => 0, fun _ => none, fun _ => 0, [], .Uninitialized⟩

/-- The exports are bound, and no hook is installed. -/
def Scene.loaded (world : World) : Scene :=
  ⟨{ System.initial with memory := { Memory.initial with api := fun _ => 1 } }, world⟩

end Opg3d
