import Opg3d.Kit.Twins
import Opg3d.Native.InitThread

namespace Opg3d

open Kit Native HookEngine

/-- How secret the text of a managed string is: nothing about it, its
contents under a fingerprint, or everything but its length. -/
inductive Secrecy where
  | clear | appId | auth
  deriving DecidableEq, Repr

def Secrecy.rank : Secrecy → Nat
  | .clear => 0
  | .appId => 1
  | .auth => 2

/-- What two runs know in common of the runtime: the secrecy of each managed
string, the lengths it may report, and the names a field handle may stand for. -/
structure Labelling where
  secrecy : Ptr → Secrecy
  measures : Ptr → Int → Prop
  names : Ptr → String → Prop

/-- A runtime without secrets, which may answer anything. -/
def Labelling.unrestricted : Labelling := ⟨fun _ => .clear, fun _ _ => True, fun _ _ => True⟩

def Labelling.within (L : Labelling) (p : Ptr) (bound : Secrecy) : Prop :=
  p = 0 ∨ (L.secrecy p).rank ≤ bound.rank

/-- The fields that hold credentials, and those whose strings are logged. -/
def fieldSecrecy : String → Secrecy
  | "AppID" => .appId
  | "ServerAddress" => .clear
  | "DebugMessage" => .clear
  | _ => .auth

def Hook.resultSecrecy : Hook → Secrecy
  | .selectAppId => .appId
  | .getGameVersion => .clear
  | _ => .auth

def Managed.resultSecrecy : Managed → Secrecy
  | .serverAddress => .clear
  | _ => .auth

def ConfigText.secrecy : ConfigText → Secrecy
  | .photonAppId => .appId
  | .photonServerAddress => .clear

/-- The same fingerprint: byte length and FNV-1a value of the converted text. -/
def SameSummary (a b : Bytes) : Prop := a.length = b.length ∧ Photon.fnv1a a = Photon.fnv1a b

/-- Corresponding contents of a string in the two runs. -/
def Labelling.charsAgree (L : Labelling) (p : Ptr) : Option (List UInt16) → Option (List UInt16) → Prop :=
  match L.secrecy p with
  | .clear => Eq
  | .auth => fun a b => a.isSome = b.isSome
  | .appId => fun
    | none, none => True
    | some u, some v => ∀ n, L.measures p n →
        SameSummary (Il2cpp.convertCapped u n.toNat 256) (Il2cpp.convertCapped v n.toNat 256)
    | _, _ => False

def Labelling.resultsAgree (L : Labelling) : (request : ApiCall) → request.Result → request.Result → Prop
  | .stringNew text, a, b => a = b ∧ L.within a text.secrecy
  | .stringLength p, a, b => a = b ∧ L.measures p a
  | .stringChars p, a, b => L.charsAgree p a b
  | .classGetFieldFromName _ name, a, b => a = b ∧ (a ≠ 0 → L.names a name)
  | .fieldGetValue _ field, a, b =>
    a = b ∧ ∀ name, L.names field name → L.within (ptrOfBytes ((scratch a).take 4)) (fieldSecrecy name)
  | _, a, b => a = b

/-- Corresponding answers to an operation of a proxy. The exports are bound,
and the slot of the proxy's own hook leads to the code it was called at. -/
def Labelling.answersAgree (L : Labelling) (owner : Option Hook) (site : Ptr) :
    (op : NativeOp) → op.Ans → op.Ans → Prop
  | .apiPtr f, a, b => a = b ∧ (f ≠ .threadDetach → a ≠ 0)
  | .slot hook, a, b => a = b ∧ (owner = some hook → a = some site)
  | .call _ request, a, b => L.resultsAgree request a b
  | .original hook _ _, a, b => a = b ∧ L.within (Word.ptr a) hook.resultSecrecy
  | .managed method _ _, a, b => a = b ∧ L.within (Word.ptr a) method.resultSecrecy
  | _, a, b => a = b

/-- What a proxy may do: no call through null, no trampoline but its own, and
nothing of the business of `init_thread`. -/
def proxyMay (owner : Option Hook) (site : Ptr) : NativeOp → Prop
  | .call fn _ => fn ≠ 0
  | .original hook trampoline _ => owner = some hook ∧ trampoline = some site
  | .managed _ fn _ => fn ≠ 0
  | .bindApi _ _ => False
  | .setSlot _ _ => False
  | .shadowhookInit => False
  | .shadowhookHook _ _ _ => False
  | .shadowhookUnhook _ => False
  | .mark .installBegins => False
  | .mark .installEnds => False
  | _ => True

/-- `UseCloud` is handed an AppID where its proxy expects one. -/
def Labelling.passes (L : Labelling) : NativeOp → Prop
  | .managed .useCloud _ args => L.within (Word.ptr (args.getD 1 0)) .appId
  | _ => True

def lockstep (L : Labelling) (owner : Option Hook) (site : Ptr) : Twins nativeSignature :=
  ⟨L.answersAgree owner site, fun op => proxyMay owner site op ∧ L.passes op⟩

section Lockstep

variable {L : Labelling} {owner : Option Hook} {site : Ptr}

theorem apiPtr_lockstep (f : Api) :
    Twin (lockstep L owner site) (fun a b => a = b ∧ (f ≠ .threadDetach → a ≠ 0)) (apiPtr f) (apiPtr f) :=
  .ask ⟨trivial, trivial⟩ fun _ _ agree => .done agree

theorem slot_lockstep (hook : Hook) :
    Twin (lockstep L owner site) (fun a b => a = b ∧
      (owner = some hook → a = some site)) (slot hook) (slot hook) :=
  .ask ⟨trivial, trivial⟩ fun _ _ agree => .done agree

theorem static_lockstep (cell : Static) : Twin (lockstep L owner site) Eq (static cell) (static cell) :=
  .ask ⟨trivial, trivial⟩ fun _ _ agree => .done agree

theorem setStatic_lockstep (cell : Static) (value : Ptr) :
    Twin (lockstep L owner site) Eq (setStatic cell value) (setStatic cell value) :=
  .ask ⟨trivial, trivial⟩ fun _ _ agree => .done agree

theorem flag_lockstep (f : Flag) : Twin (lockstep L owner site) Eq (flag f) (flag f) :=
  .ask ⟨trivial, trivial⟩ fun _ _ agree => .done agree

theorem setFlag_lockstep (f : Flag) (value : Bool) :
    Twin (lockstep L owner site) Eq (setFlag f value) (setFlag f value) :=
  .ask ⟨trivial, trivial⟩ fun _ _ agree => .done agree

theorem exchange_lockstep (f : Flag) : Twin (lockstep L owner site) Eq (exchange f) (exchange f) :=
  .ask ⟨trivial, trivial⟩ fun _ _ agree => .done agree

theorem fetchAdd_lockstep (counter : Counter) :
    Twin (lockstep L owner site) Eq (fetchAdd counter) (fetchAdd counter) :=
  .ask ⟨trivial, trivial⟩ fun _ _ agree => .done agree

theorem addressOfValue_lockstep : Twin (lockstep L owner site) Eq addressOfValue addressOfValue :=
  .ask ⟨trivial, trivial⟩ fun _ _ agree => .done agree

theorem firstMember_lockstep (methodInfo : Ptr) :
    Twin (lockstep L owner site) Eq (firstMember methodInfo) (firstMember methodInfo) :=
  .ask ⟨trivial, trivial⟩ fun _ _ agree => .done agree

theorem log_lockstep (priority : Priority) (format : String) (args : List Arg) :
    Twin (lockstep L owner site) Eq (log priority format args) (log priority format args) :=
  .ask ⟨trivial, trivial⟩ fun _ _ _ => .done rfl

theorem markForce_lockstep (reapply result : Bool) :
    Twin (lockstep L owner site) Eq (mark (.forceCloud reapply result)) (mark (.forceCloud reapply result)) :=
  .ask ⟨trivial, trivial⟩ fun _ _ agree => .done agree

/-- A bound export is called through a pointer that is not null. -/
theorem api_lockstep (request : ApiCall) (needed : request.api ≠ .threadDetach) :
    Twin (lockstep L owner site) (L.resultsAgree request) (api request) (api request) :=
  .ask ⟨trivial, trivial⟩ fun a b agree => by
    obtain ⟨rfl, bound⟩ : a = b ∧ _ := agree
    exact .ask ⟨bound needed, trivial⟩ fun _ _ results => .done results

theorem managed_lockstep (method : Managed) {fn : Ptr} (found : fn ≠ 0) {args : List Word}
    (passes : L.passes (.managed method fn args)) :
    Twin (lockstep L owner site) (fun a b => a = b ∧ L.within (Word.ptr a) method.resultSecrecy)
      (managed method fn args) (managed method fn args) :=
  .ask ⟨found, passes⟩ fun _ _ agree => .done agree

theorem callOriginal_lockstep (hook : Hook) (args : List Word) :
    Twin (lockstep L (some hook) site) (fun a b => a = b ∧ L.within (Word.ptr a) hook.resultSecrecy)
      (callOriginal hook args) (callOriginal hook args) :=
  .ask ⟨trivial, trivial⟩ fun a b agree => by
    obtain ⟨rfl, own⟩ : a = b ∧ _ := agree
    exact .ask ⟨⟨rfl, own rfl⟩, trivial⟩ fun _ _ results => .done results

theorem anyNull_lockstep (fs : List Api) : Twin (lockstep L owner site) Eq (anyNull fs) (anyNull fs) := by
  induction fs with
  | nil => exact .done rfl
  | cons f rest ih =>
    refine (apiPtr_lockstep f).bind ?_
    rintro a _ ⟨rfl, _⟩
    exact .ite (fun _ => .done rfl) fun _ => ih

theorem loadedAssemblies_lockstep :
    Twin (lockstep L owner site) Eq Il2cpp.loadedAssemblies Il2cpp.loadedAssemblies := by
  refine (api_lockstep .domainGet nofun).seq fun domain => .ite (fun _ => .done rfl) fun _ => ?_
  refine (api_lockstep (.domainGetAssemblies domain) nofun).seq fun assemblies => ?_
  split
  · exact .done rfl
  · exact .ite (fun _ => .done rfl) fun _ => .done rfl

theorem findImageIn_lockstep (name : String) (assemblies : List Ptr) :
    Twin (lockstep L owner site) Eq (Il2cpp.findImageIn name assemblies)
      (Il2cpp.findImageIn name assemblies) := by
  induction assemblies with
  | nil => exact .done rfl
  | cons assembly rest ih =>
    refine .ite (fun _ => ih) fun _ => ?_
    refine (api_lockstep (.assemblyGetImage assembly) nofun).seq fun image => .ite (fun _ => ih) fun _ => ?_
    refine (api_lockstep (.imageGetName image) nofun).seq fun imageName => ?_
    exact .ite (fun _ => .done rfl) fun _ => ih

theorem findImage_lockstep (name : String) :
    Twin (lockstep L owner site) Eq (Il2cpp.findImage name) (Il2cpp.findImage name) := by
  refine (anyNull_lockstep _).seq fun unbound => .ite (fun _ => .done rfl) fun _ => ?_
  exact loadedAssemblies_lockstep.seq fun assemblies => findImageIn_lockstep name assemblies

theorem assemblyCount_lockstep (domain : Ptr) :
    Twin (lockstep L owner site) Eq (InitThread.assemblyCount domain) (InitThread.assemblyCount domain) := by
  refine .ite (fun _ => .done rfl) fun _ => (anyNull_lockstep _).seq fun unbound => ?_
  refine .ite (fun _ => .done rfl) fun _ => ?_
  exact (api_lockstep (.domainGetAssemblies domain) nofun).seq fun assemblies => .done rfl

theorem findClassIn_lockstep (namespaze name : String) (assemblies : List Ptr) :
    Twin (lockstep L owner site) Eq (Il2cpp.findClassIn namespaze name assemblies)
      (Il2cpp.findClassIn namespaze name assemblies) := by
  induction assemblies with
  | nil => exact .done rfl
  | cons assembly rest ih =>
    refine .ite (fun _ => ih) fun _ => ?_
    refine (api_lockstep (.assemblyGetImage assembly) nofun).seq fun image => .ite (fun _ => ih) fun _ => ?_
    refine (api_lockstep (.classFromName image namespaze name) nofun).seq fun klass => ?_
    exact .ite (fun _ => .done rfl) fun _ => ih

theorem findClass_lockstep (namespaze name : String) :
    Twin (lockstep L owner site) Eq (Il2cpp.findClass namespaze name) (Il2cpp.findClass namespaze name) := by
  refine (anyNull_lockstep _).seq fun unbound => .ite (fun _ => .done rfl) fun _ => ?_
  exact loadedAssemblies_lockstep.seq fun assemblies => findClassIn_lockstep namespaze name assemblies

theorem findMethodInfo_lockstep (namespaze klass method : String) (argsCount : Int) :
    Twin (lockstep L owner site) Eq (Il2cpp.findMethodInfo namespaze klass method argsCount)
      (Il2cpp.findMethodInfo namespaze klass method argsCount) := by
  refine (anyNull_lockstep _).seq fun unbound => .ite (fun _ => .done rfl) fun _ => ?_
  refine (findClass_lockstep namespaze klass).seq fun type => .ite (fun _ => .done rfl) fun _ => ?_
  exact api_lockstep (.classGetMethodFromName type method argsCount) nofun

theorem methodPointer_lockstep (methodInfo : Ptr) :
    Twin (lockstep L owner site) Eq (Il2cpp.methodPointer methodInfo) (Il2cpp.methodPointer methodInfo) :=
  .ite (fun _ => .done rfl) fun _ => firstMember_lockstep methodInfo

theorem findField_lockstep (namespaze klass field : String) :
    Twin (lockstep L owner site) Eq (Il2cpp.findField namespaze klass field)
      (Il2cpp.findField namespaze klass field) := by
  refine (anyNull_lockstep _).seq fun unbound => .ite (fun _ => .done rfl) fun _ => ?_
  refine (findClass_lockstep namespaze klass).seq fun type => .ite (fun _ => .done rfl) fun _ => ?_
  exact (api_lockstep (.classGetFieldFromName type field) nofun).mono fun _ _ agree => agree.1

/-- A string without secrets is converted to the same bytes. -/
theorem toUtf8_lockstep {p : Ptr} (clear : L.within p .clear) (maxCodeUnits : Nat) :
    Twin (lockstep L owner site) Eq (Il2cpp.toUtf8 p maxCodeUnits) (Il2cpp.toUtf8 p maxCodeUnits) := by
  refine .ite (fun _ => .done rfl) fun present => ?_
  refine (anyNull_lockstep _).seq fun unbound => .ite (fun _ => .done rfl) fun _ => ?_
  refine (api_lockstep (.stringLength p) nofun).bind ?_
  rintro length _ ⟨rfl, _⟩
  refine .ite (fun _ => .done rfl) fun _ => ?_
  refine (api_lockstep (.stringChars p) nofun).bind fun chars chars' agree => ?_
  have secrecy : L.secrecy p = .clear := by
    rcases clear with null | low
    · exact absurd null present
    · cases kind : L.secrecy p <;> simp_all [Secrecy.rank]
  have same : chars = chars' := by simpa only [Labelling.resultsAgree, Labelling.charsAgree, secrecy] using agree
  subst same
  cases chars with
  | none => exact .done rfl
  | some units => exact .done rfl

/-- A string under a fingerprint is converted to bytes with the same one. -/
theorem toUtf8_summary {p : Ptr} (appId : L.within p .appId) :
    Twin (lockstep L owner site) SameSummary (Il2cpp.toUtf8 p 256) (Il2cpp.toUtf8 p 256) := by
  by_cases clear : L.within p .clear
  · exact (toUtf8_lockstep clear 256).mono fun a b same => same ▸ ⟨rfl, rfl⟩
  refine .ite (fun _ => .done ⟨rfl, rfl⟩) fun present => ?_
  refine (anyNull_lockstep _).seq fun unbound => .ite (fun _ => .done ⟨rfl, rfl⟩) fun _ => ?_
  refine (api_lockstep (.stringLength p) nofun).bind ?_
  rintro length _ ⟨rfl, measured⟩
  refine .ite (fun _ => .done ⟨rfl, rfl⟩) fun _ => ?_
  refine (api_lockstep (.stringChars p) nofun).bind fun chars chars' agree => ?_
  have secrecy : L.secrecy p = .appId := by
    cases kind : L.secrecy p <;> simp_all [Labelling.within, Secrecy.rank]
  simp only [Labelling.resultsAgree, Labelling.charsAgree, secrecy] at agree
  cases chars with
  | none =>
    cases chars' with
    | none => exact .done ⟨rfl, rfl⟩
    | some => exact agree.elim
  | some units =>
    cases chars' with
    | none => exact agree.elim
    | some units' => exact .done (agree length measured)

/-- A reference read from a field is as secret as the field. -/
theorem readField_secrecy (object : Ptr) (name : String) (size : Nat) :
    Twin (lockstep L owner site)
      (fun a b => a = b ∧ ∀ bytes ∈ a, size = 4 → L.within (ptrOfBytes bytes) (fieldSecrecy name))
      (readField object name size) (readField object name size) := by
  refine .ite (fun _ => .done ⟨rfl, by simp⟩) fun _ => ?_
  refine (anyNull_lockstep _).seq fun unbound => .ite (fun _ => .done ⟨rfl, by simp⟩) fun _ => ?_
  refine (api_lockstep (.objectGetClass object) nofun).seq fun klass =>
    .ite (fun _ => .done ⟨rfl, by simp⟩) fun _ => ?_
  refine (api_lockstep (.classGetFieldFromName klass name) nofun).bind ?_
  rintro field _ ⟨rfl, named⟩
  refine .ite (fun _ => .done ⟨rfl, by simp⟩) fun found => ?_
  refine (api_lockstep (.fieldGetValue object field) nofun).bind ?_
  rintro copied _ ⟨rfl, bounded⟩
  refine .done ⟨rfl, ?_⟩
  rintro _ ⟨⟩ rfl
  exact bounded name (named found)

theorem readField_lockstep (object : Ptr) (name : String) (size : Nat) :
    Twin (lockstep L owner site) Eq (readField object name size) (readField object name size) :=
  (readField_secrecy object name size).mono fun _ _ agree => agree.1

theorem readInt32_lockstep (object : Ptr) (name : String) :
    Twin (lockstep L owner site) Eq (readInt32 object name) (readInt32 object name) :=
  (readField_lockstep object name 4).seq fun _ => .done rfl

theorem readBool_lockstep (object : Ptr) (name : String) :
    Twin (lockstep L owner site) Eq (readBool object name) (readBool object name) :=
  (readField_lockstep object name 1).seq fun _ => .done rfl

theorem readRef_lockstep (object : Ptr) (name : String) :
    Twin (lockstep L owner site) (fun a b => a = b ∧ L.within (a.getD 0) (fieldSecrecy name))
      (readRef object name) (readRef object name) := by
  refine (readField_secrecy object name 4).bind ?_
  rintro bytes _ ⟨rfl, bounded⟩
  refine .done ⟨rfl, ?_⟩
  cases bytes with
  | none => exact Or.inl rfl
  | some bytes => exact bounded bytes rfl rfl

theorem writeField_lockstep (object : Ptr) (name : String) (value : Bytes) :
    Twin (lockstep L owner site) Eq (writeField object name value) (writeField object name value) := by
  refine .ite (fun _ => .done rfl) fun _ => ?_
  refine (anyNull_lockstep _).seq fun unbound => .ite (fun _ => .done rfl) fun _ => ?_
  refine (api_lockstep (.objectGetClass object) nofun).seq fun klass =>
    .ite (fun _ => .done rfl) fun _ => ?_
  refine (api_lockstep (.classGetFieldFromName klass name) nofun).bind ?_
  rintro field _ ⟨rfl, _⟩
  refine .ite (fun _ => .done rfl) fun _ => ?_
  refine addressOfValue_lockstep.seq fun here => ?_
  exact (api_lockstep (.fieldSetValue object field ⟨here, value⟩) nofun).seq fun _ => .done rfl

theorem staticObject_lockstep (cell : Static) :
    Twin (lockstep L owner site) Eq (staticObject cell) (staticObject cell) := by
  refine (static_lockstep cell).seq fun field => .ite (fun _ => .done rfl) fun _ => ?_
  exact api_lockstep (.fieldStaticGetValue field) nofun

theorem cacheField_lockstep (cell : Static) (klass field : String) :
    Twin (lockstep L owner site) Eq (cacheField cell klass field) (cacheField cell klass field) := by
  refine (static_lockstep cell).seq fun cached => .ite (fun _ => ?_) fun _ => .done rfl
  exact (findField_lockstep _ _ _).seq fun handle => setStatic_lockstep cell handle

theorem lookupCached_lockstep (fnCell methodCell : Static) (target : ManagedMethod) :
    Twin (lockstep L owner site) Eq (lookupCached fnCell methodCell target)
      (lookupCached fnCell methodCell target) := by
  refine (static_lockstep fnCell).seq fun cached => .ite (fun _ => ?_) fun _ => static_lockstep fnCell
  refine (findMethodInfo_lockstep _ _ _ _).seq fun method => ?_
  refine (setStatic_lockstep methodCell method).seq fun _ => ?_
  refine (methodPointer_lockstep method).seq fun fn => ?_
  exact (setStatic_lockstep fnCell fn).seq fun _ => static_lockstep fnCell

theorem connectionStateVia_lockstep (fnCell methodCell : Static) :
    Twin (lockstep L owner site) Eq (connectionStateVia fnCell methodCell)
      (connectionStateVia fnCell methodCell) := by
  refine (lookupCached_lockstep _ _ _).seq fun fn => .ite (fun _ => .done rfl) fun found => ?_
  refine (static_lockstep methodCell).seq fun method => ?_
  exact (managed_lockstep .connectionState found trivial).mono fun _ _ agree => agree.1

end Lockstep

end Opg3d
