import Opg3d.Scene.Runtime

namespace Opg3d

namespace Metadata

open Kit Native HookEngine

/-- The images of the assemblies in their order, null ones left out. -/
def images (m : Metadata) (assemblies : List Ptr) : List Ptr :=
  ((assemblies.filter (· ≠ 0)).map m.image).filter (· ≠ 0)

/-- An image knows a class of the name, and the class has the method. -/
def HasMethod (m : Metadata) (target : ManagedMethod) (image : Ptr) : Prop :=
  m.klass image target.namespaze target.klass ≠ 0 ∧
    m.method (m.klass image target.namespaze target.klass) target.method target.argsCount ≠ 0

def HasField (m : Metadata) (namespaze klass field : String) (image : Ptr) : Prop :=
  m.klass image namespaze klass ≠ 0 ∧ m.field (m.klass image namespaze klass) field ≠ 0

/-- The first image that knows the class has the member in it, or no image has. -/
def FirstDecides (m : Metadata) (namespaze klass : String) (has : Ptr → Prop) (images : List Ptr) : Prop :=
  (∀ image, images.find? (m.klass · namespaze klass ≠ 0) = some image → has image) ∨
    ∀ image ∈ images, ¬has image

variable {m : Metadata}

theorem classIn_eq (namespaze name : String) (assemblies : List Ptr) : m.classIn namespaze name assemblies =
    match (m.images assemblies).find? (m.klass · namespaze name ≠ 0) with
    | none => 0
    | some image => m.klass image namespaze name := by
  induction assemblies with
  | nil => rfl
  | cons assembly rest ih =>
    rw [classIn]
    by_cases missing : assembly = 0
    · have skipped : m.images (assembly :: rest) = m.images rest := by simp [images, missing]
      rw [if_pos (Or.inl missing), skipped, ih]
    by_cases imageless : m.image assembly = 0
    · have skipped : m.images (assembly :: rest) = m.images rest := by simp [images, missing, imageless]
      rw [if_pos (Or.inr (Or.inl imageless)), skipped, ih]
    have kept : m.images (assembly :: rest) = m.image assembly :: m.images rest := by
      simp [images, missing, imageless]
    rw [kept]
    by_cases unknown : m.klass (m.image assembly) namespaze name = 0
    · rw [if_pos (Or.inr (Or.inr unknown)), List.find?_cons_of_neg (by simp [unknown]), ih]
    · rw [if_neg (not_or.mpr ⟨missing, not_or.mpr ⟨imageless, unknown⟩⟩),
        List.find?_cons_of_pos (by simp [unknown])]

/-- What asking the class that `find_class` chooses comes to. -/
theorem chosen_iff (namespaze klass : String) (member : Ptr → Ptr) (assemblies : List Ptr) :
    (if m.classIn namespaze klass assemblies = 0 then 0 else member (m.classIn namespaze klass assemblies)) ≠ 0 ↔
      ∃ image, (m.images assemblies).find? (m.klass · namespaze klass ≠ 0) = some image ∧
        member (m.klass image namespaze klass) ≠ 0 := by
  rw [classIn_eq]
  cases first : (m.images assemblies).find? (m.klass · namespaze klass ≠ 0) with
  | none => simp
  | some image =>
    have known : m.klass image namespaze klass ≠ 0 := by simpa using List.find?_some first
    simp [known]

/-- The class that is chosen decides for all of them in just these cases. -/
theorem chosen_complete_iff (namespaze klass : String) (member : Ptr → Ptr) (assemblies : List Ptr) :
    let has (image : Ptr) : Prop :=
  m.klass image namespaze klass ≠ 0 ∧ member (m.klass image namespaze klass) ≠ 0
    ((if m.classIn namespaze klass assemblies = 0 then 0 else member (m.classIn namespaze klass assemblies)) ≠ 0 ↔
        ∃ image ∈ m.images assemblies, has image) ↔
      m.FirstDecides namespaze klass has (m.images assemblies) := by
  intro has
  rw [chosen_iff]
  constructor
  · intro complete
    by_cases found : ∃ image ∈ m.images assemblies, has image
    · obtain ⟨image, first, present⟩ := complete.mpr found
      refine .inl fun other same => ?_
      obtain rfl : image = other := Option.some.inj (first.symm.trans same)
      exact ⟨by simpa using List.find?_some first, present⟩
    · exact .inr fun image member present => found ⟨image, member, present⟩
  · intro decides
    constructor
    · rintro ⟨image, first, present⟩
      exact ⟨image, List.mem_of_find?_eq_some first, by simpa using List.find?_some first, present⟩
    · rintro ⟨image, member, known, present⟩
      have defined : ((m.images assemblies).find? (m.klass · namespaze klass ≠ 0)).isSome :=
        List.find?_isSome.mpr ⟨image, member, by simpa using known⟩
      obtain ⟨first, found⟩ := Option.isSome_iff_exists.mp defined
      rcases decides with first_has | none_has
      · exact ⟨first, found, (first_has first found).2⟩
      · exact absurd ⟨known, present⟩ (none_has image member)

theorem loaded_eq {entries : List Ptr} (domain : m.domain ≠ 0)
    (listed : (m.assemblies m.domain).array = some entries)
    (few : entries.length ≤ Il2cpp.kMaxAssemblies) : m.loaded = entries := by
  have count := (m.assemblies m.domain).length_eq entries listed
  rw [loaded, if_neg domain, listed]
  exact if_neg (by omega)

end Metadata

namespace Scene

open Kit Native HookEngine

/-- The lookups see every assembly exactly where the first class of the name
decides for all of them. -/
theorem find_complete_iff (build : Build) (conduct : Conduct) {s : Scene} (bound : s.system.core.Bound)
    {entries : List Ptr} (domain : s.world.metadata.domain ≠ 0)
    (listed : (s.world.metadata.assemblies s.world.metadata.domain).array = some entries)
    (few : entries.length ≤ Il2cpp.kMaxAssemblies) :
    let m := s.world.metadata
    (∀ target : ManagedMethod,
      let found := (Il2cpp.findMethodInfo target.namespaze target.klass target.method target.argsCount).eval
        (answer build conduct) s
      (found.1 ≠ 0 ↔ ∃ image ∈ m.images entries, m.HasMethod target image) ↔
        m.FirstDecides target.namespaze target.klass (m.HasMethod target) (m.images entries)) ∧
    ∀ namespaze klass field : String,
      let found := (Il2cpp.findField namespaze klass field).eval (answer build conduct) s
      (found.1 ≠ 0 ↔ ∃ image ∈ m.images entries, m.HasField namespaze klass field image) ↔
        m.FirstDecides namespaze klass (m.HasField namespaze klass field) (m.images entries) := by
  intro m
  have loaded : m.loaded = entries := Metadata.loaded_eq domain listed few
  constructor
  · intro target found
    have result : found.1 = m.methodInfo target := congrArg Prod.fst (eval_findMethodInfo bound target)
    rw [result, Metadata.methodInfo, Metadata.classNamed, loaded]
    exact Metadata.chosen_complete_iff _ _ (m.method · target.method target.argsCount) entries
  · intro namespaze klass field found
    have result : found.1 = m.fieldNamed namespaze klass field :=
      congrArg Prod.fst (eval_findField bound namespaze klass field)
    rw [result, Metadata.fieldNamed, Metadata.classNamed, loaded]
    exact Metadata.chosen_complete_iff _ _ (m.field · field) entries

/-- A plugin is loaded twice, and only the second copy has `ConnectToMaster`
and the field `PhotonServerSettings`. -/
def twoPlugins : Metadata where
  domain := 1
  assemblies _ := ⟨4, some [10, 0, 20, 30], fun _ same => Option.some.inj same ▸ rfl⟩
  image assembly := if assembly = 20 then 0 else assembly + 1
  imageName _ := none
  klass image _ name := if name = "PhotonNetwork" then image + 1 else 0
  method klass name argsCount := if klass = 32 ∧ name = "ConnectToMaster" ∧ argsCount = 4 then 33 else 0
  field klass name := if klass = 32 ∧ name = "PhotonServerSettings" then 34 else 0
  code info := info

def connectTarget : ManagedMethod := ⟨"", "PhotonNetwork", "ConnectToMaster", 4⟩

theorem find_complete_twoPlugins :
    let found := (Il2cpp.findMethodInfo "" "PhotonNetwork" "ConnectToMaster" 4).eval
      (answer ⟨false, [], [], 0⟩ .passive) (loaded { World.empty with metadata := twoPlugins })
    ¬(found.1 ≠ 0 ↔ ∃ image ∈ twoPlugins.images [10, 0, 20, 30], twoPlugins.HasMethod connectTarget image) := by
  intro found
  have complete := (find_complete_iff ⟨false, [], [], 0⟩ .passive
    (s := loaded { World.empty with metadata := twoPlugins })
    (loaded_bound _) (by decide) rfl (by decide)).1 connectTarget
  refine mt complete.mp ?_
  rintro (first | never)
  · exact absurd (first 11 (by decide)).2 (by decide)
  · exact never 31 (by decide) ⟨by decide, by decide⟩

/-- The class is found, and the member is not: it is the other image's class that has it. -/
theorem second_plugin_missed :
    let scene := loaded { World.empty with metadata := twoPlugins }
    ((Il2cpp.findMethodInfo "" "PhotonNetwork" "ConnectToMaster" 4).eval
      (answer ⟨false, [], [], 0⟩ .passive) scene).1 = 0 ∧
      ((Il2cpp.findField "" "PhotonNetwork" "PhotonServerSettings").eval
        (answer ⟨false, [], [], 0⟩ .passive) scene).1 = 0 ∧
      (∃ image ∈ twoPlugins.images [10, 0, 20, 30], twoPlugins.HasMethod connectTarget image) ∧
      ∃ image ∈ twoPlugins.images [10, 0, 20, 30],
        twoPlugins.HasField "" "PhotonNetwork" "PhotonServerSettings" image := by
  refine ⟨by decide +kernel, by decide +kernel, ?_, ?_⟩
  · exact ⟨31, by decide, by decide, by decide⟩
  · exact ⟨31, by decide, by decide, by decide⟩

end Scene

end Opg3d
