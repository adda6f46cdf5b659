import Opg3d.Kit.Utf8

namespace Kit

/-- A character above the basic plane is a high and a low surrogate. -/
def utf16Char (c : Char) : List UInt16 :=
  if c.toNat < 0x10000 then [UInt16.ofNat c.toNat]
  else [UInt16.ofNat (0xD800 + (c.toNat - 0x10000) / 0x400),
    UInt16.ofNat (0xDC00 + (c.toNat - 0x10000) % 0x400)]

def utf16 (text : List Char) : List UInt16 := text.flatMap utf16Char

@[simp] theorem utf16_nil : utf16 [] = [] := rfl

@[simp] theorem utf16_cons (c : Char) (text : List Char) : utf16 (c :: text) = utf16Char c ++ utf16 text :=
  rfl

/-- A character of the basic plane is one unit, which is no surrogate. -/
theorem utf16Char_basic {c : Char} (basic : c.toNat < 0x10000) :
    ∃ unit : UInt16, utf16Char c = [unit] ∧ unit.toNat = c.toNat ∧
      (unit.toNat < 0xD800 ∨ 0xDFFF < unit.toNat) := by
  have scalar := not_surrogate c
  refine ⟨UInt16.ofNat c.toNat, if_pos basic, ?_, ?_⟩
  · rw [UInt16.toNat_ofNat']
    omega
  · rw [UInt16.toNat_ofNat']
    omega

/-- Any other character is a pair of surrogates. -/
theorem utf16Char_pair {c : Char} (above : 0x10000 ≤ c.toNat) :
    ∃ high low : UInt16, utf16Char c = [high, low] ∧
      0xD800 ≤ high.toNat ∧ high.toNat ≤ 0xDBFF ∧ 0xDC00 ≤ low.toNat ∧ low.toNat ≤ 0xDFFF ∧
      0x10000 + (high.toNat - 0xD800) * 0x400 + (low.toNat - 0xDC00) = c.toNat := by
  have bound : c.toNat < 0x110000 := by
    have valid := c.valid
    simp only [UInt32.isValidChar, Nat.isValidChar, Char.toNat_val] at valid
    omega
  refine ⟨_, _, if_neg (by omega), ?_⟩
  rw [UInt16.toNat_ofNat', UInt16.toNat_ofNat']
  omega

theorem length_utf16_ascii {text : List Char} (ascii : ∀ c ∈ text, c.toNat < 128) :
    (utf16 text).length = text.length := by
  induction text with
  | nil => rfl
  | cons c text ih =>
    obtain ⟨here, later⟩ := List.forall_mem_cons.mp ascii
    obtain ⟨unit, encoded, _⟩ := utf16Char_basic (by omega : c.toNat < 0x10000)
    rw [utf16_cons, encoded, List.singleton_append, List.length_cons, List.length_cons, ih later]

/-- What units stand for: the characters they encode, and U+FFFD for each unit
at which no character begins. -/
inductive Reads : List UInt16 → List Char → Prop
  | nil : Reads [] []
  | char {c rest text} : Reads rest text → Reads (utf16Char c ++ rest) (c :: text)
  | lone {unit rest text} : (∀ c, ¬utf16Char c <+: unit :: rest) → Reads rest text →
      Reads (unit :: rest) (replacement :: text)

theorem utf16Char_ne_nil (c : Char) : utf16Char c ≠ [] := by
  unfold utf16Char
  split <;> exact List.cons_ne_nil _ _

theorem utf16Char_injective {c d : Char} {rest rest' : List UInt16}
    (same : utf16Char c ++ rest = utf16Char d ++ rest') : c = d ∧ rest = rest' := by
  rcases Nat.lt_or_ge c.toNat 0x10000 with basic | above <;>
    rcases Nat.lt_or_ge d.toNat 0x10000 with basic' | above'
  · obtain ⟨unit, encoded, value, _⟩ := utf16Char_basic basic
    obtain ⟨unit', encoded', value', _⟩ := utf16Char_basic basic'
    rw [encoded, encoded'] at same
    obtain ⟨rfl, behind⟩ := List.cons.inj same
    exact ⟨Char.toNat_inj.mp (value.symm.trans value'), behind⟩
  · obtain ⟨unit, encoded, value, scalar⟩ := utf16Char_basic basic
    obtain ⟨high, low, encoded', bounds⟩ := utf16Char_pair above'
    rw [encoded, encoded'] at same
    obtain ⟨rfl, _⟩ := List.cons.inj same
    omega
  · obtain ⟨high, low, encoded, bounds⟩ := utf16Char_pair above
    obtain ⟨unit, encoded', value, scalar⟩ := utf16Char_basic basic'
    rw [encoded, encoded'] at same
    obtain ⟨rfl, _⟩ := List.cons.inj same
    omega
  · obtain ⟨high, low, encoded, bounds⟩ := utf16Char_pair above
    obtain ⟨high', low', encoded', bounds'⟩ := utf16Char_pair above'
    rw [encoded, encoded'] at same
    obtain ⟨rfl, second⟩ := List.cons.inj same
    obtain ⟨rfl, behind⟩ := List.cons.inj second
    exact ⟨Char.toNat_inj.mp (by omega), behind⟩

/-- Units stand for one text only. -/
theorem Reads.unique {units : List UInt16} {text other : List Char} (reads : Reads units text)
    (again : Reads units other) : other = text := by
  induction reads generalizing other with
  | nil =>
    generalize same : [] = units at again
    cases again with
    | nil => rfl
    | @char c => exact absurd (List.append_eq_nil_iff.mp same.symm).1 (utf16Char_ne_nil c)
    | lone => cases same
  | @char c rest text _ ih =>
    generalize same : utf16Char c ++ rest = units at again
    cases again with
    | nil => exact absurd (List.append_eq_nil_iff.mp same).1 (utf16Char_ne_nil c)
    | char again =>
      obtain ⟨rfl, rfl⟩ := utf16Char_injective same
      rw [ih again]
    | lone none_ _ => exact absurd ⟨rest, same⟩ (none_ c)
  | @lone unit rest text none_ _ ih =>
    generalize same : unit :: rest = units at again
    cases again with
    | nil => cases same
    | @char d rest' => exact absurd ⟨rest', same.symm⟩ (none_ d)
    | lone _ again =>
      obtain ⟨rfl, rfl⟩ := List.cons.inj same
      rw [ih again]

/-- A unit that is no surrogate is a character. -/
theorem exists_utf16Char_single {unit : UInt16} (scalar : unit.toNat < 0xD800 ∨ 0xDFFF < unit.toNat) :
    ∃ c, utf16Char c = [unit] ∧ c.toNat = unit.toNat := by
  have bound := unit.toNat_lt
  have valid : unit.toNat.isValidChar := by
    unfold Nat.isValidChar
    omega
  have value : (Char.ofNat unit.toNat).toNat = unit.toNat := by
    rw [Char.ofNat, dif_pos valid]
    rfl
  refine ⟨Char.ofNat unit.toNat, ?_, value⟩
  rw [utf16Char, value, if_pos bound, UInt16.ofNat_toNat]

/-- A high and a low surrogate are a character. -/
theorem exists_utf16Char_pair {high low : UInt16} (isHigh : 0xD800 ≤ high.toNat ∧ high.toNat ≤ 0xDBFF)
    (isLow : 0xDC00 ≤ low.toNat ∧ low.toNat ≤ 0xDFFF) :
    ∃ c, utf16Char c = [high, low] ∧ c.toNat = 0x10000 + (high.toNat - 0xD800) * 0x400 +
      (low.toNat - 0xDC00) := by
  have valid : (0x10000 + (high.toNat - 0xD800) * 0x400 + (low.toNat - 0xDC00)).isValidChar := by
    unfold Nat.isValidChar
    omega
  have value : (Char.ofNat (0x10000 + (high.toNat - 0xD800) * 0x400 + (low.toNat - 0xDC00))).toNat =
      0x10000 + (high.toNat - 0xD800) * 0x400 + (low.toNat - 0xDC00) := by
    rw [Char.ofNat, dif_pos valid]
    rfl
  refine ⟨_, ?_, value⟩
  have first : 0xD800 + (0x10000 + (high.toNat - 0xD800) * 0x400 + (low.toNat - 0xDC00) - 0x10000) / 0x400 =
    high.toNat := by omega
  have second : 0xDC00 + (0x10000 + (high.toNat - 0xD800) * 0x400 + (low.toNat - 0xDC00) - 0x10000) % 0x400 =
    low.toNat := by omega
  rw [utf16Char, value, if_neg (by omega), first, second, UInt16.ofNat_toNat, UInt16.ofNat_toNat]

/-- No character begins with a low surrogate, -/
theorem low_alone {unit : UInt16} (isLow : 0xDC00 ≤ unit.toNat ∧ unit.toNat ≤ 0xDFFF)
    (rest : List UInt16) (c : Char) : ¬utf16Char c <+: unit :: rest := by
  rintro ⟨behind, same⟩
  rcases Nat.lt_or_ge c.toNat 0x10000 with basic | above
  · obtain ⟨unit', encoded, _, scalar⟩ := utf16Char_basic basic
    rw [encoded] at same
    obtain ⟨rfl, _⟩ := List.cons.inj same
    omega
  · obtain ⟨high, low, encoded, bounds⟩ := utf16Char_pair above
    rw [encoded] at same
    obtain ⟨rfl, _⟩ := List.cons.inj same
    omega

/-- nor with a high surrogate that no low one follows. -/
theorem high_alone {unit : UInt16} {rest : List UInt16} (isHigh : 0xD800 ≤ unit.toNat ∧ unit.toNat ≤ 0xDBFF)
    (alone : ∀ next ∈ rest.head?, ¬(0xDC00 ≤ next.toNat ∧ next.toNat ≤ 0xDFFF)) (c : Char) :
    ¬utf16Char c <+: unit :: rest := by
  rintro ⟨behind, same⟩
  rcases Nat.lt_or_ge c.toNat 0x10000 with basic | above
  · obtain ⟨unit', encoded, _, scalar⟩ := utf16Char_basic basic
    rw [encoded] at same
    obtain ⟨rfl, _⟩ := List.cons.inj same
    omega
  · obtain ⟨high, low, encoded, _, _, isLow, isLow', _⟩ := utf16Char_pair above
    rw [encoded] at same
    obtain ⟨_, second⟩ := List.cons.inj same
    exact alone low (second ▸ rfl) ⟨isLow, isLow'⟩

end Kit
