import Opg3d.Scene.Runtime

namespace Opg3d.Il2cpp

open Kit Native

/-- A byte made of a tag and a payload of a few bits below it. -/
theorem toUInt8_tagged {tag x : UInt32} (bits value payload : Nat) (tagged : tag.toNat = 2 ^ bits * value)
    (small : payload < 2 ^ bits) (held : x.toNat = payload) :
    (tag ||| x).toUInt8 = UInt8.ofNat (payload + 2 ^ bits * value) := by
  apply UInt8.toNat_inj.mp
  rw [UInt32.toNat_toUInt8, UInt32.toNat_or, tagged, held, ← Nat.two_pow_add_eq_or_of_lt small,
    UInt8.toNat_ofNat', Nat.add_comm]

theorem toNat_shift (x k : UInt32) (bound : k.toNat < 32) : (x >>> k).toNat = x.toNat / 2 ^ k.toNat := by
  rw [UInt32.toNat_shiftRight, Nat.mod_eq_of_lt bound, Nat.shiftRight_eq_div_pow]

theorem toNat_low (x : UInt32) : (x &&& 0x3F).toNat = x.toNat % 64 := by
  rw [UInt32.toNat_and]
  exact Nat.and_two_pow_sub_one_eq_mod x.toNat 6

theorem tail_byte (x : UInt32) :
    ((0x80 : UInt32) ||| (x &&& 0x3F)).toUInt8 = UInt8.ofNat (x.toNat % 64 + 0x80) :=
  toUInt8_tagged 6 2 _ rfl (Nat.mod_lt _ (by decide)) (toNat_low x)

theorem lead_byte {x k : UInt32} (tag : UInt32) (bits value : Nat)
    (tagged : tag.toNat = 2 ^ bits * value) (bound : k.toNat < 32)
    (small : x.toNat / 2 ^ k.toNat < 2 ^ bits) :
    (tag ||| (x >>> k)).toUInt8 = UInt8.ofNat (x.toNat / 2 ^ k.toNat % 2 ^ bits + 2 ^ bits * value) :=
  toUInt8_tagged bits value _ tagged (Nat.mod_lt _ (by positivity))
    ((toNat_shift x k bound).trans (Nat.mod_eq_of_lt small).symm)

/-- A scalar value is appended as its encoding. -/
theorem appendUtf8_val (c : Char) : appendUtf8 c.val = String.utf8EncodeChar c := by
  have limit : c.val.toNat < 0x110000 := by
    have valid := c.valid
    simp only [UInt32.isValidChar, Nat.isValidChar] at valid
    omega
  have six := toNat_shift c.val 6 (by decide)
  have twelve := toNat_shift c.val 12 (by decide)
  unfold appendUtf8 String.utf8EncodeChar
  simp only [UInt32.le_iff_toNat_le, tail_byte, six, twelve]
  refine ite_congr rfl (fun _ => ?_) fun _ => ite_congr rfl (fun two => ?_) fun _ =>
    ite_congr rfl (fun three => ?_) fun _ => ?_
  · exact congrArg (· :: []) (UInt8.ofNat_uInt32ToNat ..).symm
  · rw [lead_byte 0xC0 5 6 rfl (by decide)]
    · rfl
    · exact (Nat.div_lt_iff_lt_mul (by decide)).mpr (Nat.lt_succ_of_le two)
  · rw [lead_byte 0xE0 4 14 rfl (by decide)]
    · rfl
    · exact (Nat.div_lt_iff_lt_mul (by decide)).mpr (Nat.lt_succ_of_le three)
  · rw [lead_byte 0xF0 3 30 rfl (by decide)]
    · rfl
    · exact (Nat.div_lt_iff_lt_mul (by decide)).mpr (by simpa using Nat.lt_trans limit (by decide))

theorem exists_char (value : UInt32) (scalar : value.toNat < 0xD800 ∨ 0xDFFF < value.toNat)
    (bound : value.toNat < 0x110000) : ∃ c : Char, c.val = value := by
  refine ⟨⟨value, ?_⟩, rfl⟩
  simp only [UInt32.isValidChar, Nat.isValidChar]
  omega

theorem isHigh_iff (unit : UInt16) : isHigh unit = true ↔ 0xD800 ≤ unit.toNat ∧ unit.toNat ≤ 0xDBFF := by
  simp [isHigh, UInt16.le_iff_toNat_le]

theorem isLow_iff (unit : UInt16) : isLow unit = true ↔ 0xDC00 ≤ unit.toNat ∧ unit.toNat ≤ 0xDFFF := by
  simp [isLow, UInt16.le_iff_toNat_le]

/-- A unit that is no high surrogate is appended as one character. -/
theorem appendUtf8_single {unit : UInt16} (plain : isHigh unit = false) :
    ∃ c, appendUtf8 (single unit) = String.utf8EncodeChar c := by
  have limit := unit.toNat_lt
  have notHigh := mt (isHigh_iff unit).mpr (by simp [plain])
  obtain ⟨c, same⟩ : ∃ c : Char, c.val = single unit := by
    unfold single
    split
    · exact exists_char _ (by decide) (by decide)
    · rename_i other
      have notLow := mt (isLow_iff unit).mpr other
      have value : unit.toUInt32.toNat = unit.toNat := UInt16.toNat_toUInt32 unit
      exact exists_char _ (by omega) (by omega)
  exact ⟨c, same ▸ appendUtf8_val c⟩

theorem toNat_combine {high low : UInt16} (isHigh' : isHigh high = true) (isLow' : isLow low = true) :
    (combine high low).toNat = 0x10000 + (high.toNat - 0xD800) * 0x400 + (low.toNat - 0xDC00) := by
  have bounds := (isHigh_iff high).mp isHigh'
  have bounds' := (isLow_iff low).mp isLow'
  have first : (high.toUInt32 - 0xD800).toNat = high.toNat - 0xD800 :=
    UInt32.toNat_sub_of_le _ _ (UInt32.le_iff_toNat_le.mpr (by simpa using bounds.1))
  have second : (low.toUInt32 - 0xDC00).toNat = low.toNat - 0xDC00 :=
    UInt32.toNat_sub_of_le _ _ (UInt32.le_iff_toNat_le.mpr (by simpa using bounds'.1))
  unfold combine
  rw [UInt32.toNat_add, UInt32.toNat_add, UInt32.toNat_shiftLeft, first, second, Nat.shiftLeft_eq]
  simp only [UInt32.reduceToNat, Nat.reduceMod, Nat.reducePow]
  omega

theorem appendUtf8_combine {high low : UInt16} (isHigh' : isHigh high = true) (isLow' : isLow low = true) :
    ∃ c, appendUtf8 (combine high low) = String.utf8EncodeChar c := by
  have value := toNat_combine isHigh' isLow'
  have bounds := (isHigh_iff high).mp isHigh'
  have bounds' := (isLow_iff low).mp isLow'
  obtain ⟨c, same⟩ := exists_char (combine high low) (by omega) (by omega)
  exact ⟨c, same ▸ appendUtf8_val c⟩

/-- The last unit is a high surrogate, which has no successor to pair with. -/
def EndsHigh (units : List UInt16) : Prop := ∃ unit ∈ units.getLast?, isHigh unit = true

instance (units : List UInt16) : Decidable (EndsHigh units) :=
  match last : units.getLast? with
  | none => isFalse (by simp [EndsHigh, last])
  | some unit => decidable_of_iff (isHigh unit = true) (by simp [EndsHigh, last])

theorem endsHigh_cons {unit next : UInt16} {rest : List UInt16} :
    EndsHigh (unit :: next :: rest) ↔ EndsHigh (next :: rest) := by
  simp only [EndsHigh, List.getLast?_cons_cons]

/-- A low surrogate takes no part in how the units end. -/
theorem endsHigh_cons_low {low : UInt16} {rest : List UInt16} (isLow' : isLow low = true) :
    EndsHigh (low :: rest) ↔ EndsHigh rest := by
  cases rest with
  | nil =>
    have bounds := (isLow_iff low).mp isLow'
    have notHigh : ¬isHigh low = true := fun high => by
      have := (isHigh_iff low).mp high
      omega
    simpa [EndsHigh] using notHigh
  | cons next rest => exact endsHigh_cons

theorem appendUtf8_replacement : appendUtf8 0xFFFD = utf8 ['\uFFFD'] := by decide

theorem convertUnits_wellFormed (units : List UInt16) (plain : ¬EndsHigh units) :
    ∃ text, convertUnits units = utf8 text := by
  fun_induction convertUnits units with
  | case1 => exact ⟨[], rfl⟩
  | case2 unit =>
    have low : isHigh unit = false := by simpa [EndsHigh] using plain
    obtain ⟨c, same⟩ := appendUtf8_single low
    exact ⟨[c], by simp [same]⟩
  | case3 unit next rest high low ih =>
    rw [endsHigh_cons, endsHigh_cons_low low] at plain
    obtain ⟨c, same⟩ := appendUtf8_combine high low
    obtain ⟨text, others⟩ := ih plain
    exact ⟨c :: text, by rw [same, others, utf8_cons]⟩
  | case4 unit next rest high low ih =>
    obtain ⟨text, others⟩ := ih (endsHigh_cons.not.mp plain)
    exact ⟨_ :: text, by rw [appendUtf8_replacement, others, ← utf8_append, List.singleton_append]⟩
  | case5 unit next rest high ih =>
    obtain ⟨c, same⟩ := appendUtf8_single (Bool.eq_false_iff.mpr high)
    obtain ⟨text, others⟩ := ih (endsHigh_cons.not.mp plain)
    exact ⟨c :: text, by rw [same, others, utf8_cons]⟩

/-- A high surrogate in the last place comes out as the three bytes that
would encode a surrogate. -/
theorem appendUtf8_high (unit : UInt16) (high : isHigh unit = true) :
    ∃ second third, 0xA0 ≤ second ∧ appendUtf8 (single unit) = [0xED, second, third] := by
  have bounds := (isHigh_iff unit).mp high
  have notLow : ¬isLow unit = true := fun low => by
    have := (isLow_iff unit).mp low
    omega
  have value : unit.toUInt32.toNat = unit.toNat := UInt16.toNat_toUInt32 unit
  have six := toNat_shift unit.toUInt32 6 (by decide)
  have lead := lead_byte (x := unit.toUInt32) (k := 12) 0xE0 4 14 rfl (by decide)
    ((Nat.div_lt_iff_lt_mul (by decide)).mpr (by rw [value]; show _ < 65536; omega))
  rw [single, if_neg notLow, appendUtf8]
  simp only [UInt32.le_iff_toNat_le, tail_byte, value, six] at lead ⊢
  rw [if_neg (by show ¬ _ ≤ 0x7F; omega), if_neg (by show ¬ _ ≤ 0x7FF; omega),
    if_pos (by show _ ≤ 0xFFFF; omega), lead]
  refine ⟨_, _, ?_, congrArg (· :: _) ?_⟩
  · rw [UInt8.le_iff_toNat_le, UInt8.toNat_ofNat']
    show 0xA0 ≤ (unit.toNat / 64 % 64 + 0x80) % 256
    omega
  · have value : unit.toNat / 4096 % 16 + 224 = 0xED := by omega
    exact congrArg UInt8.ofNat value

theorem convertUnits_endsHigh (units : List UInt16) (ends : EndsHigh units) :
    ∃ text second third, 0xA0 ≤ second ∧ convertUnits units = utf8 text ++ [0xED, second, third] := by
  fun_induction convertUnits units with
  | case1 => simp [EndsHigh] at ends
  | case2 unit =>
    obtain ⟨second, third, bound, same⟩ := appendUtf8_high unit (by simpa [EndsHigh] using ends)
    exact ⟨[], second, third, bound, same⟩
  | case3 unit next rest high low ih =>
    rw [endsHigh_cons, endsHigh_cons_low low] at ends
    obtain ⟨c, same⟩ := appendUtf8_combine high low
    obtain ⟨text, second, third, bound, others⟩ := ih ends
    exact ⟨c :: text, second, third, bound, by rw [same, others, utf8_cons, List.append_assoc]⟩
  | case4 unit next rest high low ih =>
    obtain ⟨text, second, third, bound, others⟩ := ih (endsHigh_cons.mp ends)
    refine ⟨'\uFFFD' :: text, second, third, bound, ?_⟩
    rw [appendUtf8_replacement, others, ← List.append_assoc, ← utf8_append, List.singleton_append]
  | case5 unit next rest high ih =>
    obtain ⟨c, same⟩ := appendUtf8_single (Bool.eq_false_iff.mpr high)
    obtain ⟨text, second, third, bound, others⟩ := ih (endsHigh_cons.mp ends)
    exact ⟨c :: text, second, third, bound, by rw [same, others, utf8_cons, List.append_assoc]⟩

theorem convertCapped_eq (units : List UInt16) (maxCodeUnits : Nat) :
    convertCapped units units.length maxCodeUnits =
      convertUnits (units.take maxCodeUnits) ++ utf8
        (if maxCodeUnits < units.length then ['.', '.', '.'] else []) := by
  by_cases longer : maxCodeUnits < units.length
  · simp only [convertCapped, Nat.min_eq_right longer.le, if_pos longer, literal]
    rfl
  · simp [convertCapped, Nat.min_eq_left (not_lt.mp longer),
      List.take_of_length_le (not_lt.mp longer), longer]

theorem convertCapped_wellFormed_iff (units : List UInt16) (maxCodeUnits : Nat) :
    WellFormed (convertCapped units units.length maxCodeUnits) ↔ ¬EndsHigh (units.take maxCodeUnits) := by
  rw [convertCapped_eq]
  constructor
  · intro wellFormed ends
    obtain ⟨text, second, third, high, same⟩ := convertUnits_endsHigh _ ends
    rw [same, List.append_assoc, wellFormed_append] at wellFormed
    exact not_wellFormed_surrogate high wellFormed
  · intro plain
    obtain ⟨text, same⟩ := convertUnits_wellFormed _ plain
    rw [same, ← utf8_append]
    exact wellFormed_utf8 _

/-- `to_utf8` returns well-formed UTF-8, with the dots of a cut string at its
end, exactly when the last unit below the cap is no high surrogate. -/
theorem toUtf8_wellFormed_iff {build : Build} {conduct : Conduct} {s : Scene} (bound : s.system.core.Bound)
    {string : Ptr} {units : List UInt16} (present : string ≠ 0) (held : s.world.string string = some units)
    (maxCodeUnits : Nat) :
    (WellFormed ((toUtf8 string maxCodeUnits).eval (Scene.answer build conduct) s).1 ∧
      (maxCodeUnits < units.length →
        literal "..." <:+ ((toUtf8 string maxCodeUnits).eval (Scene.answer build conduct) s).1)) ↔
      ¬EndsHigh (units.take maxCodeUnits) := by
  rw [Scene.answer, Scene.eval_toUtf8 bound present held, convertCapped_wellFormed_iff, and_iff_left]
  intro longer
  rw [convertCapped_eq, if_pos longer]
  exact List.suffix_append _ _

/-- A string of an ASCII letter and a surrogate pair. -/
def pairWorld : World := { World.empty with string := fun _ => some [0x61, 0xD83D, 0xDE00] }

theorem toUtf8_cut_pair :
    ¬WellFormed ((toUtf8 16 2).eval (Scene.answer ⟨false, [], [], 0⟩ .passive) (.loaded pairWorld)).1 := by
  rw [Scene.answer, Scene.eval_toUtf8 (Scene.loaded_bound _) (by decide) rfl,
    convertCapped_wellFormed_iff]
  decide

theorem toUtf8_whole_pair :
    WellFormed ((toUtf8 16 3).eval (Scene.answer ⟨false, [], [], 0⟩ .passive) (.loaded pairWorld)).1 :=
  ((toUtf8_wellFormed_iff (Scene.loaded_bound pairWorld) (by decide) rfl 3).mpr (by decide)).1

end Opg3d.Il2cpp
