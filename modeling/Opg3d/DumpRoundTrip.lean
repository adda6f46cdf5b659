import Opg3d.Tool.DumpParsing

namespace Opg3d.Symbolize

variable (db : Unicode)

theorem fillers_run (fillers : List Filler) (s : Parsing) :
    ∃ pending, (fillers.map Filler.line).foldl (parseLine db) s = { s with pendingRva := pending } := by
  induction fillers generalizing s with
  | nil => exact ⟨s.pendingRva, rfl⟩
  | cons filler fillers ih =>
    obtain ⟨between, first⟩ := filler.parse db s
    obtain ⟨pending, later⟩ := ih { s with pendingRva := between }
    exact ⟨pending, by rw [List.map_cons, List.foldl_cons, first, later]⟩

theorem MethodDecl.run (m : MethodDecl) (s : Parsing) :
    ∃ pending, m.lines.foldl (parseLine db) s = { s with
      methods := s.methods ++ (m.heard db s.currentType s.namespace_).toList, pendingRva := pending } := by
  obtain ⟨next, declared⟩ := m.parse_declaration db { s with pendingRva := some m.rva } rfl
  obtain ⟨pending, rest⟩ := fillers_run db m.after { s with
    methods := s.methods ++ (m.heard db s.currentType s.namespace_).toList, pendingRva := next }
  refine ⟨pending, ?_⟩
  rw [MethodDecl.lines, List.foldl_cons, List.foldl_cons, m.parse_rvaLine, declared, rest]

theorem methods_run (methods : List MethodDecl) (s : Parsing) :
    ∃ pending, (methods.flatMap MethodDecl.lines).foldl (parseLine db) s = { s with
      methods := s.methods ++ methods.filterMap (MethodDecl.heard db s.currentType s.namespace_),
        pendingRva := pending } := by
  induction methods generalizing s with
  | nil => exact ⟨s.pendingRva, by simp⟩
  | cons m methods ih =>
    obtain ⟨between, first⟩ := m.run db s
    obtain ⟨pending, later⟩ := ih { s with
      methods := s.methods ++ (m.heard db s.currentType s.namespace_).toList, pendingRva := between }
    refine ⟨pending, ?_⟩
    rw [List.flatMap_cons, List.foldl_append, first, later, List.filterMap_cons]
    cases m.heard db s.currentType s.namespace_ <;> simp

theorem TypeDecl.run (t : TypeDecl) (s : Parsing) :
    ∃ pending, t.lines.foldl (parseLine db) s = ⟨t.space, t.owner s.currentType, pending,
      s.methods ++ t.methods.filterMap (MethodDecl.heard db (t.owner s.currentType) t.space)⟩ := by
  obtain ⟨before, first⟩ := fillers_run db t.before s
  obtain ⟨between, declared⟩ :=
    t.parse_declaration db { s with namespace_ := t.space, pendingRva := none } rfl
  obtain ⟨opened, opening⟩ := fillers_run db t.opening { s with
    namespace_ := t.space, currentType := t.owner s.currentType, pendingRva := between }
  obtain ⟨pending, methods⟩ := methods_run db t.methods { s with
    namespace_ := t.space, currentType := t.owner s.currentType, pendingRva := opened }
  refine ⟨pending, ?_⟩
  rw [TypeDecl.lines, List.foldl_append, List.foldl_append, first, List.foldl_cons, List.foldl_cons,
    t.parse_namespaceLine, declared, opening, methods]

theorem dump_run (types : List TypeDecl) (s : Parsing) :
    ((dumpLines types).foldl (parseLine db) s).methods =
      s.methods ++ (attributed s.currentType types).flatMap fun place =>
        place.2.methods.filterMap (MethodDecl.heard db place.1 place.2.space) := by
  induction types generalizing s with
  | nil => simp [dumpLines, attributed]
  | cons t types ih =>
    obtain ⟨pending, first⟩ := t.run db s
    rw [dumpLines, List.flatMap_cons, List.foldl_append, first, ← dumpLines, ih, attributed,
      List.flatMap_cons, List.append_assoc]

/-- The parser hears a dump as its lines attribute the methods. -/
theorem parseDump_dumpLines (types : List TypeDecl) :
    parseDump db (dumpLines types) = sortedSet (heardMethods db types) := by
  rw [parseDump, dump_run]
  rfl

variable {db}

theorem mem_heardMethods {types : List TypeDecl} {entry : Method} : entry ∈ heardMethods db types ↔
    ∃ place ∈ attributed "<unknown-type>".toList types, ∃ m ∈ place.2.methods,
      m.heard db place.1 place.2.space = some entry := by
  simp [heardMethods]

theorem attributed_types (current : Text) (types : List TypeDecl) :
    (attributed current types).map (·.2) = types := by
  induction types generalizing current with
  | nil => rfl
  | cons t types ih => rw [attributed, List.map_cons, ih]

theorem mem_writtenMethods (current : Text) {types : List TypeDecl} {entry : Method} :
    entry ∈ writtenMethods types ↔
      ∃ place ∈ attributed current types, ∃ m ∈ place.2.methods, place.2.written m = entry := by
  have places : ∀ t, t ∈ types ↔ ∃ place ∈ attributed current types, place.2 = t := by
    intro t
    rw [← List.mem_map, attributed_types]
  simp only [writtenMethods, List.mem_flatMap, List.mem_map, places]
  constructor
  · rintro ⟨_, ⟨place, among, rfl⟩, m, mem, same⟩
    exact ⟨place, among, m, mem, same⟩
  · rintro ⟨place, among, m, mem, same⟩
    exact ⟨place.2, ⟨place, among, rfl⟩, m, mem, same⟩

theorem qualified_dotted (space type method : Text) :
    ∃ owner, qualified space type method = owner ++ '.' :: method :=
  ⟨_, List.append_assoc _ ['.'] method⟩

/-- An entry that is heard ends in a word after a dot. -/
theorem MethodDecl.heard_dotted {m : MethodDecl} {owner space : Text} {entry : Method}
    (heard : m.heard db owner space = some entry) :
    ∃ front word, entry.qualifiedName = front ++ '.' :: word ∧ ∀ c ∈ word, isSpace c = false := by
  unfold MethodDecl.heard at heard
  split at heard
  · cases heard
  · cases heard
    obtain ⟨front, split⟩ := qualified_dotted space owner m.heardName
    exact ⟨front, m.heardName, split, m.heardName_solid.2⟩

/-- The last of several generic parameters stands after a blank, and no dot follows. -/
theorem TypeDecl.written_more (t : TypeDecl) {m : MethodDecl} (several : 1 < m.generics.length) :
    ∃ front last, (t.written m).qualifiedName = front ++ ' ' :: last ∧ '.' ∉ last := by
  rcases m.generics_cases with none | ⟨g, one⟩ | ⟨others, last, split, more⟩
  · simp [none] at several
  · simp [one] at several
  · obtain ⟨owner, name⟩ := qualified_dotted t.space t.name m.fullName
    refine ⟨owner ++ '.' :: (m.name ++ '<' :: (", ".toList.intercalate others ++ [','])),
      last ++ ['>'], ?_, ?_⟩
    · rw [TypeDecl.written, name, MethodDecl.fullName_more split more]
      simp
    · intro dot
      rcases List.mem_append.mp dot with inside | bracket
      · exact (m.identifiers last (by simp [split]) '.' inside).2.2 rfl
      · exact absurd bracket (by decide)

theorem no_word_after_blank {front word before last : Text}
    (same : front ++ '.' :: word = before ++ ' ' :: last) (solid : ∀ c ∈ word, isSpace c = false)
    (plain : '.' ∉ last) : False := by
  rcases List.append_eq_append_iff.mp same with ⟨middle, _, later⟩ | ⟨middle, _, later⟩
  · cases middle with
    | nil => cases (List.cons.inj later).1
    | cons c middle =>
      have blank : ' ' ∈ word := by rw [(List.cons.inj later).2]; simp
      cases solid ' ' blank
  · cases middle with
    | nil => cases (List.cons.inj later).1
    | cons c middle => exact plain (by rw [(List.cons.inj later).2]; simp)

/-- Not missed and with at most one generic parameter a method is heard under its own name. -/
theorem MethodDecl.heard_few {m : MethodDecl} (few : m.generics.length ≤ 1) (kept : ¬m.Missed db)
    (owner space : Text) : m.heard db owner space = some ⟨m.rva, qualified space owner m.fullName⟩ := by
  rw [MethodDecl.heard, if_neg kept, MethodDecl.heardName, if_pos few]

/-- The condition on the other methods of a dump, said of what is heard and what is written. -/
theorem clear_iff_heard {types : List TypeDecl} : Clear db types ↔
    ∀ place ∈ attributed "<unknown-type>".toList types, ∀ m ∈ place.2.methods, m.generics.length ≤ 1 ∧
      (place.1 ≠ place.2.name ∨ m.Missed db → place.2.written m ∈ heardMethods db types ∧
        ∀ entry ∈ m.heard db place.1 place.2.space, entry ∈ writtenMethods types) := by
  constructor
  · intro clear place among m mem
    obtain ⟨few, elsewhere⟩ := clear place among m mem
    refine ⟨few, fun odd => ⟨?_, fun entry heard => ?_⟩⟩
    · obtain ⟨⟨other, among', n, mem', kept, address, name⟩, _⟩ := elsewhere odd
      refine mem_heardMethods.mpr ⟨other, among', n, mem', ?_⟩
      rw [MethodDecl.heard_few (clear other among' n mem').1 kept, address, name]
      rfl
    · by_cases missed : m.Missed db
      · rw [MethodDecl.heard, if_pos missed] at heard
        cases heard
      · rw [MethodDecl.heard_few few missed] at heard
        obtain ⟨t, among', n, mem', address, name⟩ := (elsewhere odd).2 missed
        rw [← Option.some.inj heard, ← address, ← name]
        exact List.mem_flatMap.mpr ⟨t, among', List.mem_map_of_mem mem'⟩
  · intro clear place among m mem
    obtain ⟨few, elsewhere⟩ := clear place among m mem
    refine ⟨few, fun odd => ⟨?_, fun kept => ?_⟩⟩
    · obtain ⟨other, among', n, mem', heard⟩ := mem_heardMethods.mp (elsewhere odd).1
      have kept : ¬n.Missed db := by
        intro missed
        rw [MethodDecl.heard, if_pos missed] at heard
        cases heard
      rw [MethodDecl.heard_few (clear other among' n mem').1 kept] at heard
      obtain ⟨address, name⟩ := Method.mk.inj (Option.some.inj heard)
      exact ⟨other, among', n, mem', kept, address, name⟩
    · have written := (elsewhere odd).2 _ (MethodDecl.heard_few few kept _ _)
      obtain ⟨t, among', listed⟩ := List.mem_flatMap.mp written
      obtain ⟨n, mem', same⟩ := List.mem_map.mp listed
      obtain ⟨address, name⟩ := Method.mk.inj same
      exact ⟨t, among', n, mem', address, name⟩

variable (db)

/-- `parse_dump` gives the methods of a dump, none lost, none invented and
each under its own type and name, for just these dumps. -/
theorem parseDump_exact_iff (types : List TypeDecl) :
    ((parseDump db (dumpLines types)).Pairwise (· < ·) ∧
      ∀ entry, entry ∈ parseDump db (dumpLines types) ↔ entry ∈ writtenMethods types) ↔ Clear db types := by
  rw [parseDump_dumpLines, clear_iff_heard]
  simp only [mem_sortedSet, sortedSet_increasing, true_and]
  constructor
  · intro exact place among m mem
    have writtenHere : place.2.written m ∈ writtenMethods types :=
      (mem_writtenMethods "<unknown-type>".toList).mpr ⟨place, among, m, mem, rfl⟩
    have heardHere := (exact _).mpr writtenHere
    refine ⟨?_, fun _ => ⟨heardHere, ?_⟩⟩
    · by_contra several
      obtain ⟨before, last, split, plain⟩ := place.2.written_more (Nat.lt_of_not_le several)
      obtain ⟨_, _, _, _, heard⟩ := mem_heardMethods.mp heardHere
      obtain ⟨front, word, name, solid⟩ := MethodDecl.heard_dotted heard
      exact no_word_after_blank (name.symm.trans split) solid plain
    · intro entry heard
      exact (exact entry).mp (mem_heardMethods.mpr ⟨place, among, m, mem, heard⟩)
  · intro clear entry
    constructor
    · intro heard
      obtain ⟨place, among, m, mem, same⟩ := mem_heardMethods.mp heard
      obtain ⟨few, elsewhere⟩ := clear place among m mem
      by_cases odd : place.1 ≠ place.2.name ∨ m.Missed db
      · exact (elsewhere odd).2 entry same
      · obtain ⟨own, kept⟩ := not_or.mp odd
        have direct := MethodDecl.heard_few few kept place.1 place.2.space
        cases direct.symm.trans same
        rw [not_not.mp own]
        exact (mem_writtenMethods "<unknown-type>".toList).mpr ⟨place, among, m, mem, rfl⟩
    · intro written
      obtain ⟨place, among, m, mem, same⟩ := (mem_writtenMethods "<unknown-type>".toList).mp written
      obtain ⟨few, elsewhere⟩ := clear place among m mem
      by_cases odd : place.1 ≠ place.2.name ∨ m.Missed db
      · exact same ▸ (elsewhere odd).1
      · obtain ⟨own, kept⟩ := not_or.mp odd
        have direct := MethodDecl.heard_few few kept place.1 place.2.space
        rw [not_not.mp own] at direct
        exact mem_heardMethods.mpr ⟨place, among, m, mem, (not_not.mp own).symm ▸ same ▸ direct⟩

variable {db}

theorem qualified_injective {space type type' method : Text}
    (same : qualified space type method = qualified space type' method) : type = type' := by
  have owner := List.append_cancel_right (List.append_cancel_right same)
  by_cases spaced : space ≠ []
  · rw [if_pos spaced, if_pos spaced] at owner
    exact List.append_cancel_left owner
  · rwa [if_neg spaced, if_neg spaced] at owner

/-- Every method has an address of its own. -/
def Distinct (types : List TypeDecl) : Prop := (types.flatMap fun t => t.methods.map MethodDecl.rva).Nodup

theorem Distinct.unique {types : List TypeDecl} (distinct : Distinct types) {current : Text}
    {place place' : Text × TypeDecl} {m m' : MethodDecl} (among : place ∈ attributed current types)
    (mem : m ∈ place.2.methods) (among' : place' ∈ attributed current types)
    (mem' : m' ∈ place'.2.methods) (same : m.rva = m'.rva) : place = place' ∧ m = m' := by
  let pairs := (attributed current types).flatMap fun place => place.2.methods.map (Prod.mk place)
  have nodup : (pairs.map fun pair => pair.2.rva).Nodup := by
    have addresses : (pairs.map fun pair => pair.2.rva) = types.flatMap fun t =>
      t.methods.map MethodDecl.rva := by
      conv_rhs => rw [← attributed_types current types]
      simp [pairs, List.map_flatMap, List.flatMap_map, Function.comp_def]
    rw [addresses]
    exact distinct
  have inside : (place, m) ∈ pairs := List.mem_flatMap.mpr ⟨place, among, List.mem_map_of_mem mem⟩
  have inside' : (place', m') ∈ pairs := List.mem_flatMap.mpr ⟨place', among', List.mem_map_of_mem mem'⟩
  exact Prod.mk.inj (List.inj_on_of_nodup_map nodup inside inside' same)

theorem clear_of_direct {types : List TypeDecl}
    (direct : ∀ place ∈ attributed "<unknown-type>".toList types, ∀ m ∈ place.2.methods,
      m.generics.length ≤ 1 ∧ place.1 = place.2.name ∧ ¬m.Missed db) :
    Clear db types := by
  intro place among m mem
  obtain ⟨few, own, kept⟩ := direct place among m mem
  exact ⟨few, fun odd => absurd odd (not_or.mpr ⟨not_not.mpr own, kept⟩)⟩

/-- Without two methods at one address nothing makes up for a method that is
missed or goes to another type. -/
theorem clear_iff_of_distinct {types : List TypeDecl} (distinct : Distinct types) : Clear db types ↔
    ∀ place ∈ attributed "<unknown-type>".toList types, ∀ m ∈ place.2.methods,
      m.generics.length ≤ 1 ∧ place.1 = place.2.name ∧ ¬m.Missed db := by
  refine ⟨fun clear place among m mem => ?_, clear_of_direct⟩
  obtain ⟨few, elsewhere⟩ := clear place among m mem
  by_cases odd : place.1 ≠ place.2.name ∨ m.Missed db
  · obtain ⟨⟨other, among', n, mem', kept, address, name⟩, _⟩ := elsewhere odd
    obtain ⟨rfl, rfl⟩ := distinct.unique among mem among' mem' address.symm
    exact ⟨few, qualified_injective name, kept⟩
  · obtain ⟨own, kept⟩ := not_or.mp odd
    exact ⟨few, not_not.mp own, kept⟩

variable (db)

/-- A dump of types of one-word accessibility, with methods that all have plain
names and at most one generic parameter, is read in full. -/
theorem clear_of_plain {types : List TypeDecl} (known : ∀ t ∈ types, t.Recognised)
    (plain : ∀ t ∈ types, ∀ m ∈ t.methods, m.generics.length ≤ 1 ∧ ¬m.Missed db) : Clear db types := by
  have own (current : Text) : ∀ place ∈ attributed current types,
    place.1 = place.2.name ∧ place.2 ∈ types := by
    clear plain
    induction types generalizing current with
    | nil => nofun
    | cons t types ih =>
      obtain ⟨here, later⟩ := List.forall_mem_cons.mp known
      intro place among
      rcases List.mem_cons.mp among with rfl | rest
      · exact ⟨if_pos here, List.mem_cons_self⟩
      · obtain ⟨same, mem⟩ := ih later _ place rest
        exact ⟨same, List.mem_cons_of_mem t mem⟩
  refine clear_of_direct fun place among m mem => ?_
  obtain ⟨same, inside⟩ := own _ place among
  obtain ⟨few, kept⟩ := plain place.2 inside m mem
  exact ⟨few, same, kept⟩

theorem publicVoid_words : ∀ word ∈ ["public".toList] ++ ["void".toList], IsWord word := by
  intro word mem
  rcases List.mem_cons.mp mem with rfl | last
  · exact ⟨by decide, by decide, by decide, by decide⟩
  · rw [List.mem_singleton.mp last]
    exact ⟨by decide, by decide, by decide, by decide⟩

/-- `public void Connect()` at 0x1A2B. -/
def connectMethod : MethodDecl where
  indent := ⟨"    ".toList, by decide⟩
  digits := "1A2B".toList
  offset := "1A2B".toList
  va := "1A2B".toList
  modifiers := ["public".toList]
  returnType := ["void".toList]
  name := "Connect".toList
  generics := []
  parameters := []
  body := " \x7b \x7d".toList
  after := [⟨⟨[], by decide⟩, some .closing⟩]
  indented := by decide
  hex := by decide
  returns := by decide
  words := publicVoid_words
  named := by decide
  identifiers := nofun

/-- A class `PhotonHandler` of the accessibility, with the methods. -/
def photonHandler (access : Access) (methods : List MethodDecl) : TypeDecl where
  before := []
  blanks := 1
  space := []
  access := access
  modifier := none
  kind := .klass
  name := "PhotonHandler".toList
  bases := none
  typeDefIndex := some 7
  opening := [⟨⟨[], by decide⟩, some .opening⟩]
  methods := methods
  dotted := nofun
  named := by decide
  trimmed := by decide

example : Clear asciiOnly [photonHandler .internal [connectMethod]] :=
  clear_of_plain asciiOnly (by decide) (by decide +kernel)

/-- The methods of a type that is `protected internal` go to the type before it. -/
theorem protected_internal_lost : ¬∀ (db : Unicode) (types : List TypeDecl),
    (parseDump db (dumpLines types)).Pairwise (· < ·) ∧
      ∀ entry, entry ∈ parseDump db (dumpLines types) ↔ entry ∈ writtenMethods types := by
  intro exact
  have written := ((exact asciiOnly [photonHandler .protInternal [connectMethod]]).2
    ⟨0x1A2B, "PhotonHandler.Connect".toList⟩).mpr (by decide +kernel)
  have heard : parseDump asciiOnly (dumpLines [photonHandler .protInternal [connectMethod]]) =
      [⟨0x1A2B, "<unknown-type>.Connect".toList⟩] := by decide +kernel
  rw [heard] at written
  exact absurd written (by decide)

end Opg3d.Symbolize
