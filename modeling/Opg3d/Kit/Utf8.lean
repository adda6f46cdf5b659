import Mathlib.Data.List.Basic

namespace Kit

def utf8 (text : List Char) : List UInt8 := text.flatMap String.utf8EncodeChar

/-- Well-formed UTF-8: the encoding of some sequence of Unicode scalar values. -/
def WellFormed (bytes : List UInt8) : Prop := ∃ text, bytes = utf8 text

@[simp] theorem utf8_nil : utf8 [] = [] := rfl

@[simp] theorem utf8_cons (c : Char) (text : List Char) :
    utf8 (c :: text) = String.utf8EncodeChar c ++ utf8 text :=
  rfl

@[simp] theorem utf8_append (text rest : List Char) : utf8 (text ++ rest) = utf8 text ++ utf8 rest :=
  List.flatMap_append

theorem wellFormed_utf8 (text : List Char) : WellFormed (utf8 text) := ⟨text, rfl⟩

/-- The standard decoder reads encoded text back. -/
theorem utf8Decode_utf8 (text : List Char) : (utf8 text).toByteArray.utf8Decode? = some text.toArray :=
  List.utf8Decode?_utf8Encode

theorem utf8_injective {text other : List Char} (same : utf8 text = utf8 other) : text = other := by
  have decoded := (utf8Decode_utf8 text).symm.trans
    ((congrArg (fun bytes : List UInt8 => bytes.toByteArray.utf8Decode?) same).trans
    (utf8Decode_utf8 other))
  simpa using decoded

/-- No encoded character is the beginning of another one. -/
theorem utf8EncodeChar_append_inj {c d : Char} {bytes rest : List UInt8}
    (same : String.utf8EncodeChar c ++ bytes = String.utf8EncodeChar d ++ rest) : c = d ∧ bytes = rest := by
  have decoded := congrArg (fun list : List UInt8 => ByteArray.utf8DecodeChar? list.toByteArray 0) same
  simp only [List.toByteArray_append, ByteArray.utf8DecodeChar?_utf8EncodeChar_append,
    Option.some.injEq] at decoded
  subst decoded
  exact ⟨rfl, List.append_cancel_left same⟩

theorem wellFormed_char_append {c : Char} {bytes : List UInt8} :
    WellFormed (String.utf8EncodeChar c ++ bytes) ↔ WellFormed bytes := by
  constructor
  · rintro ⟨text, same⟩
    cases text with
    | nil =>
      have empty := congrArg List.length same
      have positive := Char.utf8Size_pos c
      simp only [List.length_append, String.length_utf8EncodeChar, utf8_nil, List.length_nil] at empty
      omega
    | cons d text => exact ⟨text, (utf8EncodeChar_append_inj same).2⟩
  · rintro ⟨text, rfl⟩
    exact ⟨c :: text, rfl⟩

theorem wellFormed_append (text : List Char) {bytes : List UInt8} :
    WellFormed (utf8 text ++ bytes) ↔ WellFormed bytes := by
  induction text with
  | nil => rfl
  | cons c text ih => rw [utf8_cons, List.append_assoc, wellFormed_char_append, ih]

theorem not_surrogate (c : Char) : c.toNat < 0xD800 ∨ 0xDFFF < c.toNat := by
  have valid := c.valid
  simp only [UInt32.isValidChar, Nat.isValidChar, Char.toNat_val] at valid
  omega

/-- The bytes that would encode a surrogate begin no character. -/
theorem not_wellFormed_surrogate {second : UInt8} {rest : List UInt8} (high : 0xA0 ≤ second) :
    ¬WellFormed (0xED :: second :: rest) := by
  have bound : 0xA0 ≤ second.toNat := high
  rintro ⟨text, same⟩
  cases text with
  | nil => cases same
  | cons c text =>
    have scalar := not_surrogate c
    have first := congrArg (fun list : List UInt8 => (list.getD 0 0).toNat) same
    have next := congrArg (fun list : List UInt8 => (list.getD 1 0).toNat) same
    simp only [utf8_cons, String.utf8EncodeChar, Char.toNat_val] at first next
    -- the first byte leaves only the characters of three bytes from U+D000 on
    by_cases one : c.toNat ≤ 0x7F
    · simp [one] at first
      omega
    by_cases two : c.toNat ≤ 0x7FF
    · simp [one, two] at first
      omega
    by_cases three : c.toNat ≤ 0xFFFF
    · simp [one, two, three] at first next
      omega
    · simp [one, two, three] at first
      omega

def replacement : Char := '\uFFFD'

/-- An unfinished character: its bits so far, how many bytes are missing, and
what the next one may be. -/
structure Pending where
  value : Nat
  missing : Nat
  low : UInt8
  high : UInt8
  continuation : 0x80 ≤ low

/-- The first byte of a character. -/
def lead (b : UInt8) : List Char × Option Pending :=
  if b < 0x80 then ([Char.ofNat b.toNat], none)
  else if 0xC2 ≤ b ∧ b ≤ 0xDF then ([], some ⟨b.toNat - 0xC0, 1, 0x80, 0xBF, by decide⟩)
  else if b = 0xE0 then ([], some ⟨0, 2, 0xA0, 0xBF, by decide⟩)
  else if b = 0xED then ([], some ⟨13, 2, 0x80, 0x9F, by decide⟩)
  else if 0xE1 ≤ b ∧ b ≤ 0xEF then ([], some ⟨b.toNat - 0xE0, 2, 0x80, 0xBF, by decide⟩)
  else if b = 0xF0 then ([], some ⟨0, 3, 0x90, 0xBF, by decide⟩)
  else if 0xF1 ≤ b ∧ b ≤ 0xF3 then ([], some ⟨b.toNat - 0xF0, 3, 0x80, 0xBF, by decide⟩)
  else if b = 0xF4 then ([], some ⟨4, 3, 0x80, 0x8F, by decide⟩)
  else ([replacement], none)

/-- A byte that does not continue a character ends it and is read again. -/
def decodeByte (pending : Option Pending) (b : UInt8) : List Char × Option Pending :=
  match pending with
  | none => lead b
  | some p =>
    if p.low ≤ b ∧ b ≤ p.high then
      let value := p.value * 64 + (b.toNat - 0x80)
      if p.missing = 1 then ([Char.ofNat value], none) else ([],
        some ⟨value, p.missing - 1, 0x80, 0xBF, by decide⟩)
    else (replacement :: (lead b).1, (lead b).2)

def decodeFrom : Option Pending → List UInt8 → List Char
  | pending, [] => if pending.isSome then [replacement] else []
  | pending, b :: rest => (decodeByte pending b).1 ++ decodeFrom (decodeByte pending b).2 rest

def decode (bytes : List UInt8) : List Char := decodeFrom none bytes

/-- An ASCII byte stands for itself, whatever precedes it. -/
theorem decodeFrom_ascii {b : UInt8} (ascii : b < 0x80) (pending : Option Pending) (rest : List UInt8) :
    decodeFrom pending (b :: rest) = decodeFrom pending [] ++ Char.ofNat b.toNat :: decode rest := by
  have plain : lead b = ([Char.ofNat b.toNat], none) := if_pos ascii
  cases pending with
  | none => simp [decodeFrom, decodeByte, decode, plain]
  | some p =>
    have other : ¬(p.low ≤ b ∧ b ≤ p.high) := by
      rintro ⟨low, _⟩
      have high := UInt8.lt_of_le_of_lt (UInt8.le_trans p.continuation low) ascii
      exact absurd high (by decide)
    simp [decodeFrom, decodeByte, decode, plain, other]

theorem decodeFrom_append {b : UInt8} (ascii : b < 0x80) (bytes rest : List UInt8)
    (pending : Option Pending) :
    decodeFrom pending (bytes ++ b :: rest) = decodeFrom pending bytes ++ Char.ofNat b.toNat :: decode rest := by
  induction bytes generalizing pending with
  | nil => exact decodeFrom_ascii ascii pending rest
  | cons a bytes ih => rw [List.cons_append, decodeFrom, decodeFrom, ih, List.append_assoc]

theorem utf8EncodeChar_ascii {c : Char} (ascii : c.toNat < 128) :
    String.utf8EncodeChar c = [UInt8.ofNat c.toNat] := by
  have low : c.toNat ≤ 127 := by omega
  simp [String.utf8EncodeChar, low]

theorem ofNat_ascii {c : Char} (ascii : c.toNat < 128) :
    UInt8.ofNat c.toNat < 0x80 ∧ Char.ofNat (UInt8.ofNat c.toNat).toNat = c := by
  have same : (UInt8.ofNat c.toNat).toNat = c.toNat := by
    rw [UInt8.toNat_ofNat']
    omega
  refine ⟨UInt8.lt_iff_toNat_lt.mpr (by rw [same]; exact ascii), ?_⟩
  rw [same, Char.ofNat_toNat]

theorem length_utf8_ascii {text : List Char} (ascii : ∀ c ∈ text, c.toNat < 128) :
    (utf8 text).length = text.length := by
  induction text with
  | nil => rfl
  | cons c text ih =>
    obtain ⟨here, later⟩ := List.forall_mem_cons.mp ascii
    rw [utf8_cons, utf8EncodeChar_ascii here, List.singleton_append, List.length_cons,
      List.length_cons, ih later]

/-- Encoded ASCII text cuts the bytes around it apart. -/
theorem decode_append_char {c : Char} (ascii : c.toNat < 128) (bytes rest : List UInt8) :
    decode (bytes ++ (String.utf8EncodeChar c ++ rest)) = decode bytes ++ c :: decode rest := by
  obtain ⟨low, same⟩ := ofNat_ascii ascii
  rw [utf8EncodeChar_ascii ascii, decode, List.singleton_append, decodeFrom_append low, same]
  rfl

theorem decode_utf8_append {text : List Char} (ascii : ∀ c ∈ text, c.toNat < 128) (rest : List UInt8) :
    decode (utf8 text ++ rest) = text ++ decode rest := by
  induction text with
  | nil => rfl
  | cons c text ih =>
    obtain ⟨here, later⟩ := List.forall_mem_cons.mp ascii
    rw [utf8_cons, List.append_assoc, List.cons_append, ← ih later]
    exact decode_append_char here [] _

example : decode [0x61, 0xE2, 0x82, 0x41, 0xF0, 0x9F, 0x98, 0x80, 0xC0] =
    ['a', replacement, 'A', Char.ofNat 0x1F600, replacement] := by decide

end Kit
