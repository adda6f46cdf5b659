import Mathlib.Tactic.IntervalCases
import Opg3d.Kit.Utf8

namespace Kit

theorem decodeFrom_continues {p : Pending} {x : Nat} (low : p.low.toNat ≤ x + 0x80)
    (high : x + 0x80 ≤ p.high.toNat) (rest : List UInt8) :
    decodeFrom (some p) (UInt8.ofNat (x + 0x80) :: rest) =
        if p.missing = 1 then Char.ofNat (p.value * 64 + x) :: decode rest
        else decodeFrom (some ⟨p.value * 64 + x, p.missing - 1, 0x80, 0xBF, by decide⟩) rest := by
  have bound := p.high.toNat_lt
  have same : (UInt8.ofNat (x + 0x80)).toNat = x + 0x80 := by
    rw [UInt8.toNat_ofNat']
    omega
  have within : p.low ≤ UInt8.ofNat (x + 0x80) ∧ UInt8.ofNat (x + 0x80) ≤ p.high := by
    simp only [UInt8.le_iff_toNat_le, same]
    exact ⟨low, high⟩
  simp only [decodeFrom, decodeByte, if_pos within, same, Nat.add_sub_cancel]
  split <;> rfl

theorem lead_two {x : Nat} (least : 2 ≤ x) (most : x < 32) :
    lead (UInt8.ofNat (x + 0xC0)) = ([], some ⟨x, 1, 0x80, 0xBF, by decide⟩) := by
  interval_cases x <;> rfl

theorem lead_three {x : Nat} (most : x < 16) :
    ∃ p, lead (UInt8.ofNat (x + 0xE0)) = ([], some p) ∧ p.value = x ∧
      p.missing = 2 ∧ p.low.toNat = (if x = 0 then 0xA0 else 0x80) ∧
        p.high.toNat = if x = 13 then 0x9F else 0xBF := by
  interval_cases x <;> exact ⟨_, rfl, rfl, rfl, rfl, rfl⟩

theorem lead_four {x : Nat} (most : x < 5) :
    ∃ p, lead (UInt8.ofNat (x + 0xF0)) = ([], some p) ∧ p.value = x ∧
      p.missing = 3 ∧ p.low.toNat = (if x = 0 then 0x90 else 0x80) ∧
        p.high.toNat = if x = 4 then 0x8F else 0xBF := by
  interval_cases x <;> exact ⟨_, rfl, rfl, rfl, rfl, rfl⟩

/-- A character is decoded as it is encoded. -/
theorem decode_char (c : Char) (rest : List UInt8) :
    decode (String.utf8EncodeChar c ++ rest) = c :: decode rest := by
  have scalar := not_surrogate c
  have limit : c.toNat < 0x110000 := by
    have valid := c.valid
    simp only [UInt32.isValidChar, Nat.isValidChar, Char.toNat_val] at valid
    omega
  have again {v : Nat} (same : v = c.toNat) : Char.ofNat v = c := by rw [same, Char.ofNat_toNat]
  by_cases one : c.toNat ≤ 0x7F
  · exact decode_append_char (by omega) [] rest
  have open_ (b : UInt8) (bytes : List UInt8) (p : Pending) (leads : lead b = ([], some p)) :
      decode (b :: bytes) = decodeFrom (some p) bytes := by
    simp only [decode, decodeFrom, decodeByte, leads, List.nil_append]
  by_cases two : c.toNat ≤ 0x7FF
  · have lead_ := lead_two (x := c.toNat / 64 % 32) (by omega) (by omega)
    simp only [String.utf8EncodeChar, Char.toNat_val, one, two, if_false, if_true, List.cons_append,
      List.nil_append]
    rw [open_ _ _ _ lead_, decodeFrom_continues (by simp) (by simp; omega), if_pos rfl,
      again (by simp only; omega)]
  by_cases three : c.toNat ≤ 0xFFFF
  · obtain ⟨p, lead_, value, missing, low, high⟩ := lead_three (x := c.toNat / 4096 % 16) (by omega)
    simp only [String.utf8EncodeChar, Char.toNat_val, one, two, three, if_false, if_true, List.cons_append,
      List.nil_append]
    rw [open_ _ _ _ lead_, decodeFrom_continues (by rw [low]; split <;> omega) (by rw [high]; split <;> omega),
      if_neg (by omega), decodeFrom_continues (by simp) (by simp; omega), if_pos (by simp only; omega),
      again (by simp only [value]; omega)]
  · obtain ⟨p, lead_, value, missing, low, high⟩ := lead_four (x := c.toNat / 262144 % 8) (by omega)
    simp only [String.utf8EncodeChar, Char.toNat_val, one, two, three, if_false, List.cons_append,
      List.nil_append]
    rw [open_ _ _ _ lead_, decodeFrom_continues (by rw [low]; split <;> omega) (by rw [high]; split <;> omega),
      if_neg (by omega), decodeFrom_continues (by simp) (by simp; omega), if_neg (by simp only; omega),
      decodeFrom_continues (by simp) (by simp; omega), if_pos (by simp only; omega),
      again (by simp only [value]; omega)]

/-- Text in front of other bytes is decoded as it was. -/
theorem decode_text_append (text : List Char) (rest : List UInt8) :
    decode (utf8 text ++ rest) = text ++ decode rest := by
  induction text with
  | nil => rfl
  | cons c text ih => rw [utf8_cons, List.append_assoc, decode_char, ih, List.cons_append]

theorem decode_utf8 (text : List Char) : decode (utf8 text) = text := by
  have whole := decode_text_append text []
  rwa [List.append_nil, show decode [] = [] from rfl, List.append_nil] at whole

theorem lead_continuation {b : UInt8} (least : 0x80 ≤ b.toNat) (most : b.toNat < 0xC2) :
    lead b = ([replacement], none) := by
  have bound := b.toNat_lt
  simp only [lead, UInt8.lt_iff_toNat_lt, UInt8.le_iff_toNat_le, ← UInt8.toNat_inj, UInt8.reduceToNat]
  repeat rw [if_neg (by omega)]

/-- The bytes that would encode a surrogate are three that begin no character. -/
theorem decode_surrogate {second third : UInt8} (high : 0xA0 ≤ second.toNat ∧ second.toNat < 0xC0)
    (last : 0x80 ≤ third.toNat ∧ third.toNat < 0xC0) (rest : List UInt8) :
    decode (0xED :: second :: third :: rest) = replacement :: replacement :: replacement :: decode rest := by
  have open_ : lead 0xED = ([], some ⟨13, 2, 0x80, 0x9F, by decide⟩) := rfl
  have outside : ¬(0x80 ≤ second ∧ second ≤ 0x9F) := by
    simp only [UInt8.le_iff_toNat_le, UInt8.reduceToNat]
    omega
  simp only [decode, decodeFrom, decodeByte, open_, if_neg outside,
    lead_continuation (by omega) (by omega : second.toNat < 0xC2),
    lead_continuation last.1 (by omega : third.toNat < 0xC2), List.nil_append, List.cons_append]

/-- A character that stands for no single byte. -/
def Foreign (c : Char) : Prop := c.toNat = 0 ∨ 128 ≤ c.toNat

theorem foreign_ofNat {v : Nat} (large : 128 ≤ v) : Foreign (Char.ofNat v) := by
  by_cases valid : v.isValidChar
  · right
    rwa [Char.ofNat, dif_pos valid]
  · left
    rw [Char.ofNat, dif_neg valid]
    rfl

/-- The character will not be one of ASCII, whatever its last bytes. -/
def Pending.Large (p : Pending) : Prop :=
  p.missing ≠ 0 ∧ 128 ≤ (p.value * 64 + (p.low.toNat - 0x80)) * 64 ^ (p.missing - 1)

theorem lead_large {b : UInt8} {p : Pending} (leads : (lead b).2 = some p) : p.Large := by
  unfold lead at leads
  simp only [UInt8.lt_iff_toNat_lt, UInt8.le_iff_toNat_le, UInt8.reduceToNat] at leads
  split_ifs at leads
  all_goals
    obtain rfl := Option.some.inj leads
    refine ⟨Nat.succ_ne_zero _, ?_⟩
    simp
    try omega

theorem lead_char {b : UInt8} {c : Char} (leads : c ∈ (lead b).1) :
    Foreign c ∨ b < 0x80 ∧ c = Char.ofNat b.toNat := by
  unfold lead at leads
  split_ifs at leads with ascii
  case pos => exact .inr ⟨ascii, List.mem_singleton.mp leads⟩
  case neg =>
    obtain rfl := List.mem_singleton.mp leads
    exact .inl (.inr (by decide))
  all_goals exact absurd leads List.not_mem_nil

theorem Pending.Large.continues {p : Pending} (large : p.Large) {b : UInt8} (low : p.low ≤ b) :
    if p.missing = 1 then 128 ≤ p.value * 64 + (b.toNat - 0x80)
    else (Pending.mk (p.value * 64 + (b.toNat - 0x80)) (p.missing - 1) 0x80 0xBF (by decide)).Large := by
  obtain ⟨some_, bound⟩ := large
  have above : p.low.toNat ≤ b.toNat := low
  split
  · rename_i last
    rw [last] at bound
    omega
  · rename_i more
    obtain ⟨n, same⟩ : ∃ n, p.missing = n + 2 := ⟨p.missing - 2, by omega⟩
    refine ⟨by simp only; omega, ?_⟩
    have grown : p.value * 64 + (p.low.toNat - 0x80) ≤ p.value * 64 + (b.toNat - 0x80) := by omega
    simp only [same, UInt8.reduceToNat, Nat.sub_self, Nat.add_zero] at bound ⊢
    have power : 64 ^ (n + 1) = 64 * 64 ^ n := Nat.pow_succ'
    calc 128 ≤ (p.value * 64 + (p.low.toNat - 0x80)) * 64 ^ (n + 1) := bound
      _ ≤ (p.value * 64 + (b.toNat - 0x80)) * 64 ^ (n + 1) := Nat.mul_le_mul_right _ grown
      _ = (p.value * 64 + (b.toNat - 0x80)) * 64 * 64 ^ n := by rw [power, Nat.mul_assoc]

theorem mem_decodeFrom {bytes : List UInt8} {pending : Option Pending} {c : Char}
    (large : ∀ p ∈ pending, p.Large) (mem : c ∈ decodeFrom pending bytes) :
    Foreign c ∨ ∃ b ∈ bytes, b < 0x80 ∧ c = Char.ofNat b.toNat := by
  have lost : Foreign replacement := .inr (by decide)
  induction bytes generalizing pending with
  | nil =>
    rw [decodeFrom] at mem
    split at mem
    · obtain rfl := List.mem_singleton.mp mem
      exact .inl lost
    · cases mem
  | cons b rest ih =>
    have later (next : Option Pending) (still : ∀ p ∈ next, p.Large) (mem : c ∈ decodeFrom next rest) :
        Foreign c ∨ ∃ b' ∈ b :: rest, b' < 0x80 ∧ c = Char.ofNat b'.toNat := by
      rcases ih still mem with foreign | ⟨b', among, same⟩
      · exact .inl foreign
      · exact .inr ⟨b', List.mem_cons_of_mem b among, same⟩
    have leads (mem : c ∈ (lead b).1) : Foreign c ∨ ∃ b' ∈ b :: rest, b' < 0x80 ∧ c = Char.ofNat b'.toNat :=
      (lead_char mem).imp_right fun same => ⟨b, List.mem_cons_self, same⟩
    rw [decodeFrom, List.mem_append] at mem
    cases pending with
    | none =>
      rw [decodeByte] at mem
      exact mem.elim leads (later _ fun _ => lead_large)
    | some p =>
      rw [decodeByte] at mem
      split_ifs at mem with within last
      · have value := (large p rfl).continues within.1
        rw [if_pos last] at value
        rcases mem with here | there
        · rw [List.mem_singleton.mp here]
          exact .inl (foreign_ofNat value)
        · exact later none (fun p none_ => absurd none_ (Option.not_mem_none p)) there
      · have still := (large p rfl).continues within.1
        rw [if_neg last] at still
        rcases mem with here | there
        · exact absurd here List.not_mem_nil
        · refine later _ (fun q same => ?_) there
          obtain rfl := Option.some.inj same
          exact still
      · refine mem.elim (fun here => ?_) (later _ fun _ => lead_large)
        rcases List.mem_cons.mp here with rfl | began
        · exact .inl lost
        · exact leads began

/-- A character of ASCII, other than NUL, has been decoded from its byte. -/
theorem mem_decode {bytes : List UInt8} {c : Char} (mem : c ∈ decode bytes) (ascii : c.toNat < 128)
    (some_ : c.toNat ≠ 0) : UInt8.ofNat c.toNat ∈ bytes := by
  rcases mem_decodeFrom (fun p none_ => absurd none_ (Option.not_mem_none p)) mem with (null | large) |
    ⟨b, among, low, rfl⟩
  · exact absurd null some_
  · omega
  · have bound : b.toNat < 128 := low
    have valid : b.toNat.isValidChar := .inl (by omega)
    have same : (Char.ofNat b.toNat).toNat = b.toNat := by
      rw [Char.ofNat, dif_pos valid]
      rfl
    rwa [same, UInt8.ofNat_toNat]

end Kit
