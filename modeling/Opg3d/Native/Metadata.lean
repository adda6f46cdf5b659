import Opg3d.Native.HookInstall

namespace Opg3d

open Kit Native HookEngine

/-- What the runtime answers about the game's code: the loaded assemblies,
classes and members, and the code address each `MethodInfo` starts with. -/
structure Metadata where
  domain : Ptr
  assemblies : Ptr → Assemblies
  image : Ptr → Ptr
  imageName : Ptr → Option String
  klass : Ptr → String → String → Ptr
  method : Ptr → String → Int → Ptr
  field : Ptr → String → Ptr
  code : Ptr → Ptr

namespace Metadata

/-- The assemblies that the lookups go through. -/
def loaded (m : Metadata) : List Ptr :=
  if m.domain = 0 then [] else
    match (m.assemblies m.domain).array with
    | none => []
    | some entries => if (m.assemblies m.domain).count > Il2cpp.kMaxAssemblies then [] else entries

def classIn (m : Metadata) (namespaze name : String) : List Ptr → Ptr
  | [] => 0
  | assembly :: rest =>
    if assembly = 0 ∨ m.image assembly = 0 ∨ m.klass (m.image assembly) namespaze name = 0 then
      classIn m namespaze name rest
    else m.klass (m.image assembly) namespaze name

def classNamed (m : Metadata) (namespaze name : String) : Ptr := m.classIn namespaze name m.loaded

def methodInfo (m : Metadata) (target : ManagedMethod) : Ptr :=
  let type := m.classNamed target.namespaze target.klass
  if type = 0 then 0 else m.method type target.method target.argsCount

/-- The code of a managed method, null where the metadata has no such method. -/
def codeOf (m : Metadata) (target : ManagedMethod) : Ptr :=
  let info := m.methodInfo target
  if info = 0 then 0 else m.code info

def fieldNamed (m : Metadata) (namespaze klass field : String) : Ptr :=
  let type := m.classNamed namespaze klass
  if type = 0 then 0 else m.field type field

variable {σ : Type}

/-- The runtime's answer to a question about metadata. -/
def respond (m : Metadata) : (request : ApiCall) → Option request.Result
  | .domainGet => some m.domain
  | .domainGetAssemblies domain => some (m.assemblies domain)
  | .assemblyGetImage assembly => some (m.image assembly)
  | .imageGetName image => some (m.imageName image)
  | .classFromName image namespaze name => some (m.klass image namespaze name)
  | .classGetMethodFromName klass name argsCount => some (m.method klass name argsCount)
  | .classGetFieldFromName klass name => some (m.field klass name)
  | _ => none

/-- An operation answered as the metadata says, if it asks about that. -/
def AnswersTo (m : Metadata) : (op : NativeOp) → op.Ans → Prop
  | .call _ request, result => ∀ known, m.respond request = some known → result = known
  | .methodPointer info, fn => fn = m.code info
  | _, _ => True

/-- In a state of a monitor the exports are bound, questions about metadata
are allowed, and their answers agree with it. -/
structure Answers (m : Metadata) (M : Monitor nativeSignature σ) (s : σ) : Prop where
  apiPtr : ∀ f, M.ok s (.apiPtr f) ∧ ∀ fn, M.allow s (.apiPtr f) fn →
    M.next s (.apiPtr f) fn = s ∧ (f ≠ .threadDetach → fn ≠ 0)
  call : ∀ fn request known, fn ≠ 0 → m.respond request = some known → M.ok s (.call fn request) ∧
    ∀ result, M.allow s (.call fn request) result → M.next s (.call fn request) result = s ∧ result = known
  methodPointer : ∀ info, M.ok s (.methodPointer info) ∧ ∀ fn, M.allow s (.methodPointer info) fn →
    M.next s (.methodPointer info) fn = s ∧ fn = m.code info

namespace Answers

variable {m : Metadata} {M : Monitor nativeSignature σ} {s : σ}

theorem api_wp (answers : m.Answers M s) (request : ApiCall) {known : request.Result}
    (needed : request.api ≠ .threadDetach) (question : m.respond request = some known) :
    (api request).wp M (fun t result => t = s ∧ result = known) s := by
  refine ⟨(answers.apiPtr _).1, fun fn read => ?_⟩
  obtain ⟨still, bound⟩ := (answers.apiPtr _).2 fn read
  rw [still]
  exact ⟨(answers.call fn request known (bound needed) question).1,
    (answers.call fn request known (bound needed) question).2⟩

theorem anyNull_wp (answers : m.Answers M s) {fs : List Api} (needed : .threadDetach ∉ fs) :
    (anyNull fs).wp M (fun t unbound => t = s ∧ unbound = false) s := by
  induction fs with
  | nil => exact ⟨rfl, rfl⟩
  | cons f rest ih =>
    obtain ⟨other, later⟩ := not_or.mp (mt List.mem_cons.mpr needed)
    refine ⟨(answers.apiPtr f).1, fun fn read => ?_⟩
    obtain ⟨still, bound⟩ := (answers.apiPtr f).2 fn read
    rw [still]
    exact .ite (fun null => absurd null (bound (Ne.symm other))) fun _ => ih later

theorem loadedAssemblies_wp (answers : m.Answers M s) :
    Il2cpp.loadedAssemblies.wp M (fun t assemblies => t = s ∧ assemblies = m.loaded) s := by
  refine (answers.api_wp .domainGet nofun rfl).seq (.ite (fun outside => ?_) fun inside => ?_)
  · exact ⟨rfl, (if_pos outside).symm⟩
  rw [loaded, if_neg inside]
  refine (answers.api_wp (.domainGetAssemblies m.domain) nofun rfl).seq ?_
  cases (m.assemblies m.domain).array with
  | none => exact ⟨rfl, rfl⟩
  | some entries =>
    exact .ite (fun large => ⟨rfl, (if_pos large).symm⟩) fun small =>
      ⟨rfl, (if_neg small).symm⟩

theorem findClassIn_wp (answers : m.Answers M s) (namespaze name : String) (assemblies : List Ptr) :
    (Il2cpp.findClassIn namespaze name assemblies).wp M
      (fun t klass => t = s ∧ klass = m.classIn namespaze name assemblies) s := by
  induction assemblies with
  | nil => exact ⟨rfl, rfl⟩
  | cons assembly rest ih =>
    rw [classIn]
    refine .ite (fun missing => ?_) fun present => ?_
    · rwa [if_pos (Or.inl missing)]
    refine (answers.api_wp (.assemblyGetImage assembly) nofun rfl).seq
      (.ite (fun imageless => ?_) fun image => ?_)
    · rwa [if_pos (Or.inr (Or.inl imageless))]
    refine (answers.api_wp (.classFromName _ namespaze name) nofun rfl).seq
      (.ite (fun known => ?_) fun unknown => ?_)
    · exact ⟨rfl, (if_neg (not_or.mpr ⟨present, not_or.mpr ⟨image, known⟩⟩)).symm⟩
    · rwa [if_pos (Or.inr (Or.inr (not_not.mp unknown)))]

theorem findClass_wp (answers : m.Answers M s) (namespaze name : String) :
    (Il2cpp.findClass namespaze name).wp M (fun t klass =>
      t = s ∧ klass = m.classNamed namespaze name) s := by
  refine (answers.anyNull_wp (by decide)).seq (.ite nofun fun _ => ?_)
  exact answers.loadedAssemblies_wp.seq (answers.findClassIn_wp namespaze name _)

theorem findMethodInfo_wp (answers : m.Answers M s) (target : ManagedMethod) :
    (Il2cpp.findMethodInfo target.namespaze target.klass target.method target.argsCount).wp M
      (fun t info => t = s ∧ info = m.methodInfo target) s := by
  refine (answers.anyNull_wp (by decide)).seq (.ite nofun fun _ => ?_)
  refine (answers.findClass_wp _ _).seq (.ite (fun unknown => ?_) fun known => ?_)
  · exact ⟨rfl, (if_pos unknown).symm⟩
  · rw [methodInfo, if_neg known]
    exact answers.api_wp (.classGetMethodFromName _ target.method target.argsCount) nofun rfl

theorem methodPointer_wp (answers : m.Answers M s) (info : Ptr) :
    (Il2cpp.methodPointer info).wp M (fun t fn => t = s ∧ fn = if info = 0 then 0 else m.code info) s := by
  refine .ite (fun null => ⟨rfl, (if_pos null).symm⟩) fun present => ?_
  rw [if_neg present]
  exact answers.methodPointer info

theorem findField_wp (answers : m.Answers M s) (namespaze klass field : String) :
    (Il2cpp.findField namespaze klass field).wp M (fun t handle =>
      t = s ∧ handle = m.fieldNamed namespaze klass field) s := by
  refine (answers.anyNull_wp (by decide)).seq (.ite nofun fun _ => ?_)
  refine (answers.findClass_wp _ _).seq (.ite (fun unknown => ?_) fun known => ?_)
  · exact ⟨rfl, (if_pos unknown).symm⟩
  · rw [fieldNamed, if_neg known]
    exact answers.api_wp (.classGetFieldFromName _ field) nofun rfl

end Answers

end Metadata

end Opg3d
