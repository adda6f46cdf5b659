import Opg3d.Kit.Latest
import Opg3d.Tool.Symbolize

namespace Opg3d.Symbolize

open Kit

/-- What a line of a dump counts as: the first that applies. -/
inductive LineClass where
  | space (name : Text)
  | type (name : Text)
  | rva (address : Nat)
  | other (method : Option Text) (comment : Bool)
  deriving DecidableEq, Repr

def classify (db : Unicode) (rawLine : Text) : LineClass :=
  let line := dropNewlines rawLine
  match namespaceRe.matchStart line with
  | some found => .space (strip found.group)
  | none =>
    match typeRe.matchStart (strip line) with
    | some found => .type (strip (textBefore "//".toList found.group))
    | none =>
      match (rvaRe db).search line with
      | some found => .rva (parseHex found.group)
      | none => .other (methodNameFromDeclaration line) ("//".toList <+: strip line)

namespace LineClass

def space? : LineClass → Option Text
  | .space name => some name
  | _ => none

def type? : LineClass → Option Text
  | .type name => some name
  | _ => none

def rva? : LineClass → Option Nat
  | .rva address => some address
  | _ => none

/-- The step of the parser at a line of this class. -/
def step (s : Parsing) : LineClass → Parsing
  | .space name => { s with namespace_ := name, pendingRva := none }
  | .type name => { s with currentType := name, pendingRva := none }
  | .rva address => { s with pendingRva := some address }
  | .other method comment =>
    match s.pendingRva, method with
    | none, _ => s
    | some _, none => if comment then { s with pendingRva := none } else s
    | some address, some name =>
      { s with
        methods := s.methods ++ [⟨address, qualified s.namespace_ s.currentType name⟩]
        pendingRva := none }

end LineClass

theorem parseLine_eq (db : Unicode) (s : Parsing) (rawLine : Text) :
    parseLine db s rawLine = (classify db rawLine).step s := by
  simp only [parseLine, classify]
  cases namespaceRe.matchStart (dropNewlines rawLine) with
  | some found => rfl
  | none =>
    cases typeRe.matchStart (strip (dropNewlines rawLine)) with
    | some found => rfl
    | none =>
      cases (rvaRe db).search (dropNewlines rawLine) with
      | some found => rfl
      | none =>
        cases pending : s.pendingRva with
        | none => simp [LineClass.step, pending]
        | some rva =>
          cases name : methodNameFromDeclaration (dropNewlines rawLine) with
          | none => simp [LineClass.step, pending]
          | some name => simp [LineClass.step, pending]

/-- The address at `i` belongs to the declaration at `j`. -/
structure Paired (classes : List LineClass) (i j address : Nat) (name : Text) : Prop where
  earlier : i < j
  addressed : classes[i]? = some (.rva address)
  declared : ∃ comment, classes[j]? = some (.other (some name) comment)
  between : ∀ k, i < k → k < j → classes[k]? = some (.other none false)

/-- A line that leaves a pending address as it is. -/
def LineClass.Passes (c : LineClass) : Prop := c = .other none false

/-- A method's qualified name, by the namespace and the type told last before it. -/
def ownedName (before : List LineClass) (name : Text) : Text :=
  qualified (latest LineClass.space? [] before) (latest LineClass.type? "<unknown-type>".toList before) name

variable {classes : List LineClass} {c : LineClass} {i j address : Nat} {name : Text} {entry : Method}

namespace LineClass

theorem rva?_eq_some : c.rva? = some address ↔ c = .rva address := by
  cases c <;> simp [rva?]

variable (s : Parsing) (c)

theorem step_namespace : (c.step s).namespace_ = c.space?.getD s.namespace_ := by
  cases c with
  | space | type | rva => rfl
  | other method comment =>
    obtain ⟨_, _, pending, _⟩ := s
    cases pending <;> cases method <;> cases comment <;> rfl

theorem step_type : (c.step s).currentType = c.type?.getD s.currentType := by
  cases c with
  | space | type | rva => rfl
  | other method comment =>
    obtain ⟨_, _, pending, _⟩ := s
    cases pending <;> cases method <;> cases comment <;> rfl

theorem step_pending (address : Nat) :
    (c.step s).pendingRva = some address ↔ c.rva? = some address ∨ c.Passes ∧
      s.pendingRva = some address := by
  cases c with
  | space | type | rva => simp [step, rva?, Passes]
  | other method comment =>
    obtain ⟨_, _, pending, _⟩ := s
    cases pending <;> cases method <;> cases comment <;> simp [step, rva?, Passes]

theorem step_methods (entry : Method) : entry ∈ (c.step s).methods ↔ entry ∈ s.methods ∨
    ∃ address name comment, c = .other (some name) comment ∧ s.pendingRva = some address ∧
      entry = ⟨address, qualified s.namespace_ s.currentType name⟩ := by
  cases c with
  | space | type | rva => simp [step]
  | other method comment =>
    obtain ⟨_, _, pending, _⟩ := s
    cases pending <;> cases method <;> cases comment <;> simp [step]

end LineClass

/-- A pair is a declaration together with an address that is held until then. -/
theorem paired_iff :
    Paired classes i j address name ↔ (∃ comment, classes[j]? = some (.other (some name) comment)) ∧
      HeldAt LineClass.rva? LineClass.Passes (classes.take j) i address := by
  constructor
  · rintro ⟨earlier, addressed, declared, between⟩
    refine ⟨declared, ⟨.rva address, ?_, rfl⟩, ?_⟩
    · rw [List.getElem?_take_of_lt earlier, addressed]
    · intro k a later at_k
      have bound := (List.getElem?_eq_some_iff.mp at_k).1
      rw [List.length_take] at bound
      have before : k < j := by omega
      rw [List.getElem?_take_of_lt before, between k later before] at at_k
      exact (Option.some.inj at_k).symm
  · rintro ⟨declared, ⟨a, at_i, told⟩, kept⟩
    have earlier : i < j := by
      have bound := (List.getElem?_eq_some_iff.mp at_i).1
      rw [List.length_take] at bound
      omega
    refine ⟨earlier, ?_, declared, ?_⟩
    · rw [← List.getElem?_take_of_lt earlier, at_i, LineClass.rva?_eq_some.mp told]
    · intro k later before
      obtain ⟨comment, at_j⟩ := declared
      have bound : k < classes.length := before.trans (List.getElem?_eq_some_iff.mp at_j).1
      have at_k : (classes.take j)[k]? = some classes[k] := by
        rw [List.getElem?_take_of_lt before, List.getElem?_eq_getElem bound]
      rw [List.getElem?_eq_getElem bound, kept k classes[k] later at_k]

/-- The entry that a pair of lines makes. -/
def Entry (classes : List LineClass) (entry : Method) : Prop :=
  ∃ i j address name, Paired classes i j address name ∧ entry = ⟨address, ownedName (classes.take j) name⟩

theorem entry_concat : Entry (classes ++ [c]) entry ↔ Entry classes entry ∨
    ∃ i address name comment, c = .other (some name) comment ∧
      HeldAt LineClass.rva? LineClass.Passes classes i address ∧
        entry = ⟨address, ownedName classes name⟩ := by
  constructor
  · rintro ⟨i, j, address, name, paired, rfl⟩
    obtain ⟨⟨comment, at_j⟩, held⟩ := paired_iff.mp paired
    rcases getElem?_concat_cases at_j with ⟨below, earlier⟩ | ⟨rfl, rfl⟩
    · rw [List.take_append_of_le_length below.le] at held ⊢
      exact Or.inl ⟨i, j, address, name, paired_iff.mpr ⟨⟨comment, earlier⟩, held⟩, rfl⟩
    · rw [List.take_left] at held ⊢
      exact Or.inr ⟨i, address, name, comment, rfl, held, rfl⟩
  · rintro (⟨i, j, address, name, paired, rfl⟩ | ⟨i, address, name, comment, rfl, held, rfl⟩)
    · obtain ⟨⟨comment, at_j⟩, held⟩ := paired_iff.mp paired
      have below : j < classes.length := (List.getElem?_eq_some_iff.mp at_j).1
      refine ⟨i, j, address, name, paired_iff.mpr ⟨⟨comment, ?_⟩, ?_⟩, ?_⟩
      · rw [getElem?_concat_lt below, at_j]
      · rw [List.take_append_of_le_length below.le]
        exact held
      · rw [List.take_append_of_le_length below.le]
    · refine ⟨i, classes.length, address, name, paired_iff.mpr ⟨⟨comment, List.getElem?_concat_length⟩, ?_⟩, ?_⟩
      · rw [List.take_left]
        exact held
      · rw [List.take_left]

/-- What the parser knows after lines of these classes. -/
structure Knows (classes : List LineClass) (s : Parsing) : Prop where
  space : s.namespace_ = latest LineClass.space? [] classes
  type : s.currentType = latest LineClass.type? "<unknown-type>".toList classes
  pending : ∀ address, s.pendingRva = some address ↔
    ∃ i, HeldAt LineClass.rva? LineClass.Passes classes i address
  methods : ∀ entry, entry ∈ s.methods ↔ Entry classes entry

namespace Knows

variable {s : Parsing}

theorem start : Knows [] .start where
  space := (latest_nil _).symm
  type := (latest_nil _).symm
  pending address := by
    refine iff_of_false (Option.some_ne_none address).symm ?_
    rintro ⟨i, held⟩
    exact not_heldAt_nil held
  methods entry := by
    refine iff_of_false List.not_mem_nil ?_
    rintro ⟨i, j, address, name, paired, _⟩
    cases paired.addressed

theorem held_concat : (∃ i, HeldAt LineClass.rva? LineClass.Passes (classes ++ [c]) i address) ↔
    c.rva? = some address ∨ c.Passes ∧ ∃ i, HeldAt LineClass.rva? LineClass.Passes classes i address := by
  simp only [heldAt_concat, exists_or, exists_eq_left, exists_and_left]

theorem step (knows : Knows classes s) (c : LineClass) : Knows (classes ++ [c]) (c.step s) where
  space := by rw [LineClass.step_namespace, latest_concat, knows.space]
  type := by rw [LineClass.step_type, latest_concat, knows.type]
  pending address := by rw [LineClass.step_pending, held_concat, knows.pending]
  methods entry := by
    rw [LineClass.step_methods, entry_concat, knows.methods]
    refine or_congr_right ⟨?_, ?_⟩
    · rintro ⟨address, name, comment, other, pending, rfl⟩
      obtain ⟨i, held⟩ := (knows.pending address).mp pending
      exact ⟨i, address, name, comment, other, held, by rw [ownedName, knows.space, knows.type]⟩
    · rintro ⟨i, address, name, comment, other, held, rfl⟩
      have pending := (knows.pending address).mpr ⟨i, held⟩
      exact ⟨address, name, comment, other, pending, by rw [ownedName, knows.space, knows.type]⟩

end Knows

theorem knows_lines (db : Unicode) (lines : List Text) :
    Knows (lines.map (classify db)) (lines.foldl (parseLine db) .start) := by
  induction lines using List.reverseRecOn with
  | nil => exact .start
  | append_singleton lines line ih =>
    rw [List.foldl_concat, List.map_append, parseLine_eq]
    exact ih.step (classify db line)

theorem Paired.address_unique {i' address' : Nat} {name' : Text} (one : Paired classes i j address name)
    (two : Paired classes i' j address' name') : i = i' := by
  rcases Nat.lt_trichotomy i i' with before | same | after
  · have skipped := one.between i' before two.earlier
    rw [two.addressed] at skipped
    cases skipped
  · exact same
  · have skipped := two.between i after one.earlier
    rw [one.addressed] at skipped
    cases skipped

theorem Paired.declaration_unique {j' address' : Nat} {name' : Text} (one : Paired classes i j address name)
    (two : Paired classes i j' address' name') : j = j' := by
  obtain ⟨comment, declared⟩ := one.declared
  obtain ⟨comment', declared'⟩ := two.declared
  rcases Nat.lt_trichotomy j j' with before | same | after
  · have skipped := two.between j one.earlier before
    rw [declared] at skipped
    cases skipped
  · exact same
  · have skipped := one.between j' two.earlier after
    rw [declared'] at skipped
    cases skipped

/-- The parser's list holds exactly the entries of the pairs, sorted and once
each. No address serves two declarations, and no declaration has two. -/
theorem parseDump_pairs (db : Unicode) (lines : List Text) :
    (parseDump db lines).Pairwise (· < ·) ∧
      (∀ entry, entry ∈ parseDump db lines ↔ ∃ i j address name,
        Paired (lines.map (classify db)) i j address name ∧
        entry = ⟨address, ownedName ((lines.map (classify db)).take j) name⟩) ∧
      ∀ i j i' j' address address' name name', Paired (lines.map (classify db)) i j address name →
        Paired (lines.map (classify db)) i' j' address' name' → (i = i' ↔ j = j') := by
  refine ⟨sortedSet_increasing _, ?_, ?_⟩
  · intro entry
    rw [parseDump, mem_sortedSet, (knows_lines db lines).methods]
    rfl
  · intro i j i' j' address address' name name' one two
    constructor
    · rintro rfl
      exact one.declaration_unique two
    · rintro rfl
      exact one.address_unique two

end Opg3d.Symbolize
