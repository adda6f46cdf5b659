import Opg3d.Kit.Ledger
import Opg3d.Native.CloudGuard

namespace Opg3d

open Kit Native HookEngine Photon

/-- What an operation can start or change in the game; and the access to the
pointers into the game that the library keeps. -/
inductive Effect where
  | original | getter | setDebugOut | useCloud | newString | setField | setStaticField
  | thread | route | setup | cache
  deriving DecidableEq, Repr

def ApiCall.effect : ApiCall → Option Effect
  | .stringNew _ => some .newString
  | .fieldSetValue _ _ _ => some .setField
  | .fieldStaticSetValue _ _ => some .setStaticField
  | .threadAttach _ | .threadDetach _ => some .thread
  | _ => none

def Managed.effect : Managed → Effect
  | .setDebugOut => .setDebugOut
  | .useCloud => .useCloud
  | _ => .getter

def NativeOp.effect : NativeOp → Option Effect
  | .original _ _ _ => some .original
  | .managed method _ _ => some method.effect
  | .call _ request => request.effect
  | .mark (.forceCloud _ _) => some .route
  | .static _ | .setStatic _ _ => some .cache
  | .mark _ | .bindApi _ _ | .setSlot _ _ | .shadowhookInit | .shadowhookHook _ _ _ | .shadowhookUnhook _ =>
    some .setup
  | .setFlag .engineStarted _ | .setFlag .engineReady _ | .exchange .engineStarted | .exchange .engineReady =>
    some .setup
  | _ => none

/-- The operation has one of these effects. -/
def NativeOp.shows (effects : List Effect) (op : NativeOp) : Bool := op.effect.any (· ∈ effects)

/-- The code has no effects but these, as long as it is told such answers. -/
def Confined {α : Type} (told : (op : NativeOp) → op.Ans → Prop) (effects : List Effect) (p : Native α) :
    Prop :=
  Prog.Only (S := nativeSignature) told (fun op => ∀ e ∈ op.effect, e ∈ effects) p

abbrev anyAnswer : (op : NativeOp) → op.Ans → Prop := fun _ _ => True

namespace Confined

variable {told : (op : NativeOp) → op.Ans → Prop} {effects more : List Effect} {α β : Type}

theorem done (value : α) : Confined told effects (.done value : Native α) := trivial

theorem seq {p : Native α} {f : α → Native β} (first : Confined told effects p)
    (second : ∀ a, Confined told effects (f a)) : Confined told effects (p >>= f) :=
  Prog.Only.seq first second

theorem ite {c : Prop} [Decidable c] {p q : Native α} (yes : c → Confined told effects p)
    (no : ¬c → Confined told effects q) : Confined told effects (if c then p else q) :=
  Prog.Only.ite yes no

theorem mono {p : Native α} (confined : Confined told effects p) (within : effects ⊆ more) :
    Confined told more p :=
  Prog.Only.mono confined fun _ allowed e effect => within (allowed e effect)

/-- Code without any of the effects that are recorded leaves the record as it is. -/
theorem unrecorded {p : Native α} (confined : Confined told effects p) (apart : ∀ e ∈ effects, e ∉ more)
    (seen : List (Exchange nativeSignature)) :
    p.wp (Prog.recorder told (NativeOp.shows more)) (fun after _ => after = seen) seen := by
  refine Prog.Only.records confined (fun op within => ?_) seen
  cases effect : op.effect with
  | none => simp [NativeOp.shows, effect]
  | some e =>
    have inside : e ∈ effects := within e (by simp [effect])
    have outside : e ∉ more := apart e inside
    simp [NativeOp.shows, effect, outside]

theorem quiet {op : NativeOp} (none : op.effect = none) :
    Confined told effects (Prog.ask op .done : Native op.Ans) :=
  Prog.Only.perform (by simp [none])

theorem perform {op : NativeOp} {e : Effect} (effect : op.effect = some e) (within : e ∈ effects) :
    Confined told effects (Prog.ask op .done : Native op.Ans) :=
  Prog.Only.perform (by simp [effect, within])

theorem read {request : ApiCall} (none : request.effect = none) : Confined told effects (api request) :=
  .ask (by simp [NativeOp.effect]) fun _ _ => quiet none

theorem api {request : ApiCall} {e : Effect} (effect : request.effect = some e) (within : e ∈ effects) :
    Confined told effects (api request) :=
  .ask (by simp [NativeOp.effect]) fun _ _ => perform effect within

theorem log (priority : Priority) (format : String) (args : List Arg) :
    Confined told effects (Native.log priority format args) :=
  .ask (by simp [NativeOp.effect]) fun _ _ => done _

theorem anyNull (fs : List Api) : Confined told effects (anyNull fs) := by
  induction fs with
  | nil => exact done _
  | cons f rest ih => exact (quiet rfl).seq fun fn => .ite (fun _ => done _) fun _ => ih

theorem loadedAssemblies : Confined told effects Il2cpp.loadedAssemblies := by
  refine (read rfl).seq fun domain => .ite (fun _ => done _) fun _ => (read rfl).seq fun assemblies => ?_
  split
  · exact done _
  · exact .ite (fun _ => done _) fun _ => done _

theorem findClassIn (namespaze name : String) (assemblies : List Ptr) :
    Confined told effects (Il2cpp.findClassIn namespaze name assemblies) := by
  induction assemblies with
  | nil => exact done _
  | cons assembly rest ih =>
    refine .ite (fun _ => ih) fun _ => (read rfl).seq fun image => .ite (fun _ => ih) fun _ => ?_
    exact (read rfl).seq fun klass => .ite (fun _ => done _) fun _ => ih

theorem findClass (namespaze name : String) : Confined told effects (Il2cpp.findClass namespaze name) := by
  refine (anyNull _).seq fun unbound => .ite (fun _ => done _) fun _ => ?_
  exact loadedAssemblies.seq fun assemblies => findClassIn namespaze name assemblies

theorem findMethodInfo (namespaze klass method : String) (argsCount : Int) :
    Confined told effects (Il2cpp.findMethodInfo namespaze klass method argsCount) := by
  refine (anyNull _).seq fun unbound => .ite (fun _ => done _) fun _ => ?_
  exact (findClass namespaze klass).seq fun type => .ite (fun _ => done _) fun _ => read rfl

theorem methodPointer (methodInfo : Ptr) : Confined told effects (Il2cpp.methodPointer methodInfo) :=
  .ite (fun _ => done _) fun _ => quiet rfl

theorem findField (namespaze klass field : String) :
    Confined told effects (Il2cpp.findField namespaze klass field) := by
  refine (anyNull _).seq fun unbound => .ite (fun _ => done _) fun _ => ?_
  exact (findClass namespaze klass).seq fun type => .ite (fun _ => done _) fun _ => read rfl

theorem toUtf8 (string : Ptr) (maxCodeUnits : Nat) :
    Confined told effects (Il2cpp.toUtf8 string maxCodeUnits) := by
  refine .ite (fun _ => done _) fun _ => (anyNull _).seq fun unbound => .ite (fun _ => done _) fun _ => ?_
  refine (read rfl).seq fun length => .ite (fun _ => done _) fun _ => (read rfl).seq fun chars => ?_
  cases chars with
  | none => exact done _
  | some units => exact done _

theorem stringLengthOr (fallback : Int) (value : Ptr) :
    Confined told effects (stringLengthOr fallback value) :=
  (quiet rfl).seq fun _ => .ite (fun _ => done _) fun _ => read rfl

theorem secretSummary (value : Ptr) : Confined told effects (secretSummary value) := by
  refine .ite (fun _ => done _) fun _ => (toUtf8 value 256).seq fun text => ?_
  exact (stringLengthOr _ _).seq fun chars => done _

theorem readField (object : Ptr) (name : String) (size : Nat) :
    Confined told effects (readField object name size) := by
  refine .ite (fun _ => done _) fun _ => (anyNull _).seq fun unbound => .ite (fun _ => done _) fun _ => ?_
  refine (read rfl).seq fun klass => .ite (fun _ => done _) fun _ => ?_
  refine (read rfl).seq fun field => .ite (fun _ => done _) fun _ => ?_
  exact (read rfl).seq fun copied => done _

theorem readInt32 (object : Ptr) (name : String) : Confined told effects (readInt32 object name) :=
  (readField object name 4).seq fun _ => done _

theorem readRef (object : Ptr) (name : String) : Confined told effects (readRef object name) :=
  (readField object name 4).seq fun _ => done _

theorem readBool (object : Ptr) (name : String) : Confined told effects (readBool object name) :=
  (readField object name 1).seq fun _ => done _

theorem writeField (object : Ptr) (name : String) (value : Bytes) (within : .setField ∈ effects) :
    Confined told effects (writeField object name value) := by
  refine .ite (fun _ => done _) fun _ => (anyNull _).seq fun unbound => .ite (fun _ => done _) fun _ => ?_
  refine (read rfl).seq fun klass => .ite (fun _ => done _) fun _ => ?_
  refine (read rfl).seq fun field => .ite (fun _ => done _) fun _ => ?_
  exact (quiet rfl).seq fun here => (api rfl within).seq fun _ => done _

theorem cacheField (cell : Static) (klass field : String) (within : .cache ∈ effects) :
    Confined told effects (cacheField cell klass field) := by
  refine (perform rfl within).seq fun held => .ite (fun _ => ?_) fun _ => done _
  exact (findField "" klass field).seq fun handle => perform rfl within

theorem staticObject (cell : Static) (within : .cache ∈ effects) :
    Confined told effects (staticObject cell) :=
  (perform rfl within).seq fun _ => .ite (fun _ => done _) fun _ => read rfl

theorem lookupCached (fnCell methodCell : Static) (target : ManagedMethod) (within : .cache ∈ effects) :
    Confined told effects (lookupCached fnCell methodCell target) := by
  refine (perform rfl within).seq fun held => .ite (fun _ => ?_) fun _ => perform rfl within
  refine (findMethodInfo ..).seq fun method => (perform rfl within).seq fun _ => ?_
  exact (methodPointer method).seq fun fn => (perform rfl within).seq fun _ => perform rfl within

theorem logSettings (point : String) (settings : Ptr) :
    Confined told effects (logSettings point settings) := by
  refine .ite (fun _ => log _ _ _) fun _ => (readInt32 _ _).seq fun host =>
    (readInt32 _ _).seq fun protocol => ?_
  refine (readRef _ _).seq fun address => (readInt32 _ _).seq fun port => (readRef _ _).seq fun appId => ?_
  refine (readInt32 _ _).seq fun region => (readInt32 _ _).seq fun regions =>
    (readBool _ _).seq fun joinLobby => ?_
  refine (readBool _ _).seq fun lobbyStats => (toUtf8 _ _).seq fun server =>
    (secretSummary _).seq fun app => ?_
  exact log _ _ _

theorem currentServerSettings (within : .cache ∈ effects) :
    Confined told effects Photon.currentServerSettings :=
  (cacheField _ _ _ within).seq fun _ => staticObject _ within

theorem guardServerSettings (within : .cache ∈ effects) :
    Confined told effects CloudGuard.currentServerSettings := by
  refine (cacheField _ _ _ within).seq fun _ => (perform rfl within).seq fun field =>
    .ite (fun _ => done _) fun _ => ?_
  exact (anyNull _).seq fun unbound => .ite (fun _ => done _) fun _ => staticObject _ within

theorem connectionStateVia (fnCell methodCell : Static) (within : .cache ∈ effects)
    (calls : .getter ∈ effects) : Confined told effects (connectionStateVia fnCell methodCell) := by
  refine (lookupCached _ _ _ within).seq fun fn => .ite (fun _ => done _) fun _ => ?_
  exact (perform rfl within).seq fun method => perform rfl calls

theorem serverAddress (within : .cache ∈ effects) (calls : .getter ∈ effects) :
    Confined told effects Photon.serverAddress := by
  refine (lookupCached _ _ _ within).seq fun fn => .ite (fun _ => done _) fun _ =>
    (perform rfl within).seq fun method => ?_
  exact (perform rfl calls).seq fun address => toUtf8 _ _

theorem lengthOrZero (string : Option Ptr) : Confined told effects (lengthOrZero string) := by
  cases string with
  | none => exact done _
  | some p => exact .ite (fun _ => done _) fun _ => stringLengthOr _ _

theorem logAuthSnapshot (point : String) (within : .cache ∈ effects) (calls : .getter ∈ effects) :
    Confined told effects (logAuthSnapshot point) := by
  refine (lookupCached _ _ _ within).seq fun fn => .ite (fun _ => log _ _ _) fun _ =>
    (perform rfl within).seq fun method => ?_
  refine (perform rfl calls).seq fun auth => .ite (fun _ => log _ _ _) fun _ =>
    (readInt32 _ _).seq fun type => ?_
  refine (readRef _ _).seq fun token => (readRef _ _).seq fun userId =>
    (lengthOrZero _).seq fun tokenLen => ?_
  exact (lengthOrZero _).seq fun userLen => log _ _ _

theorem logConnectEnd (message : String) (result : Word) (within : .cache ∈ effects)
    (calls : .getter ∈ effects) : Confined told effects (logConnectEnd message result) :=
  (connectionStateVia _ _ within calls).seq fun _ => (serverAddress within calls).seq fun _ => log _ _ _

theorem raiseLogLevel (within : .cache ∈ effects) (raises : .setStaticField ∈ effects) :
    Confined told effects raiseLogLevel :=
  (perform rfl within).seq fun _ => .ite (fun _ => api rfl raises) fun _ => done _

theorem setDebugOut (peer setDebug : Ptr) (within : .cache ∈ effects) (sets : .setDebugOut ∈ effects) :
    Confined told effects (setDebugOut peer setDebug) := by
  refine (perform rfl within).seq fun method => (perform rfl sets).seq fun _ =>
    (quiet rfl).seq fun logged => ?_
  exact .ite (fun _ => log _ _ _) fun _ => done _

theorem enableVerbosePhotonLogs (within : .cache ∈ effects) (raises : .setStaticField ∈ effects)
    (sets : .setDebugOut ∈ effects) : Confined told effects enableVerbosePhotonLogs := by
  refine (cacheField _ _ _ within).seq fun _ => (raiseLogLevel within raises).seq fun _ =>
    (cacheField _ _ _ within).seq fun _ => ?_
  refine (staticObject _ within).seq fun peer => (lookupCached _ _ _ within).seq fun setDebugFn => ?_
  exact .ite (fun _ => setDebugOut peer setDebugFn within sets) fun _ => done _

theorem applyConfigToSettings (build : Build) (settings : Ptr) (point : String)
    (allocates : .newString ∈ effects) (writes : .setField ∈ effects) :
    Confined told effects (applyConfigToSettings build settings point) := by
  have appId : Confined told effects (writeAppId build settings) :=
    .ite (fun _ => done _) fun _ => (api rfl allocates).seq fun p => .ite (fun _ => done _) fun _ =>
      writeField _ _ _ writes
  have route : Confined told effects (writeSelfhostedRoute build settings) :=
    .ite (fun _ => done _) fun _ => (writeField _ _ _ writes).seq fun _ =>
      (writeField _ _ _ writes).seq fun _ => done _
  have server : Confined told effects (writeServer build settings) :=
    .ite (fun _ => done _) fun _ => (api rfl allocates).seq fun p =>
      (writeField _ _ _ writes).seq fun _ => (writeField _ _ _ writes).seq fun _ => done _
  refine .ite (fun _ => done _) fun _ => appId.seq fun _ => route.seq fun _ => server.seq fun _ => ?_
  exact .ite (fun _ => (log _ _ _).seq fun _ => done _) fun _ => done _

theorem verifyRoute (point : String) (settings appId : Ptr) :
    Confined told effects (CloudGuard.verifyRoute point settings appId) := by
  have back : Confined told effects (CloudGuard.readBack settings) :=
    (readInt32 _ _).seq fun host => (readInt32 _ _).seq fun region =>
      (readRef _ _).seq fun storedApp => done _
  refine back.seq fun read => (stringLengthOr _ _).seq fun chars => (quiet rfl).seq fun count => ?_
  refine (quiet rfl).seq fun _ => (log _ _ _).seq fun _ => ?_
  exact .ite (fun _ => (log _ _ _).seq fun _ => done _) fun _ => done _

theorem newAppIdString (allocates : .newString ∈ effects) :
    Confined told effects CloudGuard.newAppIdString :=
  (anyNull _).seq fun _ => .ite (fun _ => done _) fun _ => api rfl allocates

theorem forceCloudRoute (build : Build) (point : String) (within : .cache ∈ effects)
    (allocates : .newString ∈ effects) (calls : .useCloud ∈ effects) :
    Confined told effects (CloudGuard.forceCloudRoute build point) := by
  refine .ite (fun _ => (quiet rfl).seq fun logged => ?_) fun _ =>
    (guardServerSettings within).seq fun settings => ?_
  · exact .ite (fun _ => (log _ _ _).seq fun _ => done _) fun _ => done _
  refine .ite (fun _ => (log _ _ _).seq fun _ => done _) fun _ =>
    (newAppIdString allocates).seq fun appId => ?_
  refine .ite (fun _ => (log _ _ _).seq fun _ => done _) fun _ =>
    (lookupCached _ _ _ within).seq fun useCloud => ?_
  refine (perform rfl within).seq fun method => .ite (fun _ => ?_) fun _ => ?_
  · exact (log _ _ _).seq fun _ => (quiet rfl).seq fun _ => done _
  · exact (perform rfl calls).seq fun _ => verifyRoute _ _ _

theorem forceCloudBody (build : Build) (point : String) (reapply : Bool) (within : .cache ∈ effects)
    (allocates : .newString ∈ effects) (calls : .useCloud ∈ effects) :
    Confined told effects (CloudGuard.forceCloudBody build point reapply) := by
  refine .ite (fun _ => done _) fun _ => .ite (fun _ => (quiet rfl).seq fun ready => ?_) fun _ => ?_
  · exact .ite (fun _ => done _) fun _ => forceCloudRoute _ _ within allocates calls
  · exact forceCloudRoute _ _ within allocates calls

end Confined

end Opg3d
