import Opg3d.Kit.Decoding
import Opg3d.Utf16RoundTrip

namespace Opg3d.Il2cpp

open Kit Native

/-- A unit that is no surrogate is appended as its character. -/
theorem exists_char_single {unit : UInt16} (plain : isHigh unit = false) (other : isLow unit = false) :
    ∃ c, utf16Char c = [unit] ∧ appendUtf8 (single unit) = String.utf8EncodeChar c := by
  have notHigh := mt (isHigh_iff unit).mpr (by simp [plain])
  have notLow := mt (isLow_iff unit).mpr (by simp [other])
  have scalar : unit.toNat < 0xD800 ∨ 0xDFFF < unit.toNat := by omega
  obtain ⟨c, encoded, value⟩ := exists_utf16Char_single scalar
  have same : single unit = c.val := by
    rw [single, if_neg (by simp [other])]
    exact UInt32.toNat_inj.mp ((UInt16.toNat_toUInt32 unit).trans value.symm)
  exact ⟨c, encoded, by rw [same, appendUtf8_val]⟩

theorem exists_char_combine {high low : UInt16} (isHigh' : isHigh high = true) (isLow' : isLow low = true) :
    ∃ c, utf16Char c = [high, low] ∧ appendUtf8 (combine high low) = String.utf8EncodeChar c := by
  obtain ⟨c, encoded, value⟩ := exists_utf16Char_pair ((isHigh_iff high).mp isHigh') ((isLow_iff low).mp isLow')
  have same : combine high low = c.val := UInt32.toNat_inj.mp ((toNat_combine isHigh' isLow').trans value.symm)
  exact ⟨c, encoded, by rw [same, appendUtf8_val]⟩

/-- The bytes of a high surrogate in the last place, each by itself. -/
theorem appendUtf8_high_bytes {unit : UInt16} (high : isHigh unit = true) :
    ∃ second third : UInt8, (0xA0 ≤ second.toNat ∧ second.toNat < 0xC0) ∧
      (0x80 ≤ third.toNat ∧ third.toNat < 0xC0) ∧
      appendUtf8 (single unit) = [0xED, second, third] := by
  have bounds := (isHigh_iff unit).mp high
  have notLow : ¬isLow unit = true := fun low => by
    have := (isLow_iff unit).mp low
    omega
  have value : unit.toUInt32.toNat = unit.toNat := UInt16.toNat_toUInt32 unit
  obtain ⟨_, _, _, same⟩ := appendUtf8_high unit high
  rw [same]
  rw [single, if_neg notLow, appendUtf8] at same
  simp only [UInt32.le_iff_toNat_le, tail_byte, value, toNat_shift unit.toUInt32 6 (by decide)] at same
  rw [if_neg (by show ¬_ ≤ 0x7F; omega), if_neg (by show ¬_ ≤ 0x7FF; omega),
    if_pos (by show _ ≤ 0xFFFF; omega)] at same
  obtain ⟨_, same⟩ := List.cons.inj same
  obtain ⟨second, same⟩ := List.cons.inj same
  obtain ⟨third, _⟩ := List.cons.inj same
  refine ⟨_, _, ?_, ?_, rfl⟩
  · rw [← second, UInt8.toNat_ofNat']
    show 0xA0 ≤ (unit.toNat / 64 % 64 + 0x80) % 256 ∧ _ < 0xC0
    omega
  · rw [← third, UInt8.toNat_ofNat']
    show 0x80 ≤ (unit.toNat % 64 + 0x80) % 256 ∧ _ < 0xC0
    omega

/-- What a high surrogate in the last place is read as beside the one
replacement that it should be. -/
def spilled (units : List UInt16) : List Char := if EndsHigh units then [replacement, replacement] else []

theorem spilled_cons (unit next : UInt16) (rest : List UInt16) :
    spilled (unit :: next :: rest) = spilled (next :: rest) := by
  simp only [spilled, endsHigh_cons]

theorem spilled_cons_low {low : UInt16} (isLow' : isLow low = true) (rest : List UInt16) :
    spilled (low :: rest) = spilled rest := by
  simp only [spilled, endsHigh_cons_low isLow']

theorem spilled_single (unit : UInt16) :
    spilled [unit] = if isHigh unit then [replacement, replacement] else [] := by
  simp [spilled, EndsHigh]

/-- A unit by itself is read as what it stands for. -/
theorem decode_single {unit : UInt16} (plain : isHigh unit = false) (rest : List UInt16) {text : List Char}
    (reads : Reads rest text) : ∃ c, Reads (unit :: rest) (c :: text) ∧
      ∀ bytes, decode (appendUtf8 (single unit) ++ bytes) = c :: decode bytes := by
  cases low : isLow unit with
  | true =>
    refine ⟨replacement, .lone (low_alone ((isLow_iff unit).mp low) rest) reads, fun bytes => ?_⟩
    rw [single, if_pos low]
    exact decode_char replacement bytes
  | false =>
    obtain ⟨c, encoded, appended⟩ := exists_char_single plain low
    refine ⟨c, ?_, fun bytes => by rw [appended, decode_char]⟩
    have first := Reads.char (c := c) reads
    rwa [encoded] at first

theorem decode_convertUnits (units : List UInt16) : ∃ text, Reads units text ∧
    ∀ bytes, decode (convertUnits units ++ bytes) = text ++ (spilled units ++ decode bytes) := by
  fun_induction convertUnits units with
  | case1 => exact ⟨[], .nil, fun bytes => rfl⟩
  | case2 unit =>
    rw [spilled_single]
    cases high : isHigh unit with
    | true =>
      obtain ⟨second, third, within, within', same⟩ := appendUtf8_high_bytes high
      have last (next : UInt16) (none_ : next ∈ ([] : List UInt16).head?) :
          ¬(0xDC00 ≤ next.toNat ∧ next.toNat ≤ 0xDFFF) :=
        absurd none_ (Option.not_mem_none next)
      refine ⟨[replacement], .lone (high_alone ((isHigh_iff unit).mp high) last) .nil, fun bytes => ?_⟩
      rw [same]
      exact decode_surrogate within within' bytes
    | false =>
      obtain ⟨c, reads, decoded⟩ := decode_single high [] .nil
      exact ⟨[c], reads, decoded⟩
  | case3 unit next rest high low ih =>
    obtain ⟨text, reads, decoded⟩ := ih
    obtain ⟨c, encoded, appended⟩ := exists_char_combine high low
    refine ⟨c :: text, ?_, fun bytes => ?_⟩
    · have first := Reads.char (c := c) reads
      rwa [encoded] at first
    · rw [appended, List.append_assoc, decode_char, decoded, spilled_cons, spilled_cons_low low,
        List.cons_append]
  | case4 unit next rest high low ih =>
    obtain ⟨text, reads, decoded⟩ := ih
    refine ⟨replacement :: text, .lone (high_alone ((isHigh_iff unit).mp high) ?_) reads, fun bytes => ?_⟩
    · rintro _ ⟨⟩ isLow'
      exact low ((isLow_iff next).mpr isLow')
    · rw [appendUtf8_replacement, List.append_assoc, decode_text_append, decoded, spilled_cons]
      rfl
  | case5 unit next rest high ih =>
    obtain ⟨text, reads, decoded⟩ := ih
    obtain ⟨c, reads', decoded'⟩ := decode_single (Bool.eq_false_iff.mpr high) _ reads
    refine ⟨c :: text, reads', fun bytes => ?_⟩
    rw [List.append_assoc, decoded', decoded, spilled_cons, List.cons_append]

/-- Whatever units a managed string holds, the bytes that `to_utf8` makes of
them, behind any text in UTF-8 and before any bytes, are read back as the one
text that the units below the cap stand for, and three dots where the cap
cuts. A high surrogate that is the last one of these units is read as U+FFFD
three times. -/
theorem toUtf8_read_back {build : Build} {conduct : Conduct} {s : Scene} (bound : s.system.core.Bound)
    {string : Ptr} {units : List UInt16} (present : string ≠ 0)
    (held : s.world.string string = some units) (maxCodeUnits : Nat) :
    let result := ((toUtf8 string maxCodeUnits).eval (Scene.answer build conduct) s).1
    let dots := if maxCodeUnits < units.length then ['.', '.', '.'] else []
    ∃ text, Reads (units.take maxCodeUnits) text ∧
      (∀ other, Reads (units.take maxCodeUnits) other → other = text) ∧
      ∀ front behind, decode (utf8 front ++ (result ++ behind)) =
        front ++ (text ++ (spilled (units.take maxCodeUnits) ++ (dots ++ decode behind))) := by
  intro result dots
  have converted : result = convertUnits (units.take maxCodeUnits) ++ utf8 dots := by
    rw [← convertCapped_eq, show result = _ from congrArg Prod.fst
      (Scene.eval_toUtf8 bound present held maxCodeUnits)]
  obtain ⟨text, reads, decoded⟩ := decode_convertUnits (units.take maxCodeUnits)
  refine ⟨text, reads, fun other => reads.unique, fun front behind => ?_⟩
  rw [converted, decode_text_append, List.append_assoc, decoded, decode_text_append]

/-- A lone surrogate before a letter, and a pair that the cap cuts. -/
def brokenWorld : World := { World.empty with string := fun _ => some [0xD83D, 0x61, 0xD83D, 0xDE00] }

theorem toUtf8_read_back_cut :
    decode ((toUtf8 16 3).eval (Scene.answer ⟨false, [], [], 0⟩ .passive) (.loaded brokenWorld)).1 =
      [replacement, 'a', replacement, replacement, replacement, '.', '.', '.'] := by
  obtain ⟨text, _, only, decoded⟩ :=
    @toUtf8_read_back ⟨false, [], [], 0⟩ .passive (.loaded brokenWorld) (Scene.loaded_bound _) 16 _
      (by decide) rfl 3
  have known : Reads [0xD83D, 0x61, 0xD83D] [replacement, 'a', replacement] := by
    refine .lone (high_alone (by decide) (by decide))
      (.char (c := 'a') (.lone (high_alone (by decide) (by decide)) .nil))
  have whole := decoded [] []
  rw [← only _ known, List.append_nil, utf8_nil, List.nil_append] at whole
  exact whole

end Opg3d.Il2cpp
