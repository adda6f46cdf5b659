import Opg3d.Kit.Utf16
import Opg3d.Utf8WellFormed

namespace Opg3d.Il2cpp

open Kit Native

theorem convertUnits_single {unit : UInt16} (plain : isHigh unit = false) (rest : List UInt16) :
    convertUnits (unit :: rest) = appendUtf8 (single unit) ++ convertUnits rest := by
  cases rest with
  | nil => simp [convertUnits]
  | cons next rest => rw [convertUnits, if_neg (by simp [plain])]

theorem convertUnits_pair {high low : UInt16} (isHigh' : isHigh high = true) (isLow' : isLow low = true)
    (rest : List UInt16) :
    convertUnits (high :: low :: rest) = appendUtf8 (combine high low) ++ convertUnits rest := by
  rw [convertUnits, if_pos isHigh', if_pos isLow']

/-- The conversion loop turns the units of a character into its bytes. -/
theorem convertUnits_utf16Char (c : Char) (rest : List UInt16) :
    convertUnits (utf16Char c ++ rest) = String.utf8EncodeChar c ++ convertUnits rest := by
  rcases Nat.lt_or_ge c.toNat 0x10000 with basic | above
  · obtain ⟨unit, encoded, value, scalar⟩ := utf16Char_basic basic
    have notHigh : isHigh unit = false := Bool.eq_false_iff.mpr fun high => by
      have := (isHigh_iff unit).mp high
      omega
    have notLow : ¬isLow unit = true := fun low => by
      have := (isLow_iff unit).mp low
      omega
    have same : single unit = c.val := by
      rw [single, if_neg notLow]
      exact UInt32.toNat_inj.mp ((UInt16.toNat_toUInt32 unit).trans value)
    rw [encoded, List.singleton_append, convertUnits_single notHigh, same, appendUtf8_val]
  · obtain ⟨high, low, encoded, highLow, highHigh, lowLow, lowHigh, value⟩ := utf16Char_pair above
    have isHigh' : isHigh high = true := (isHigh_iff high).mpr ⟨highLow, highHigh⟩
    have isLow' : isLow low = true := (isLow_iff low).mpr ⟨lowLow, lowHigh⟩
    have same : combine high low = c.val := UInt32.toNat_inj.mp ((toNat_combine isHigh' isLow').trans value)
    rw [encoded, List.cons_append, List.singleton_append, convertUnits_pair isHigh' isLow', same,
      appendUtf8_val]

theorem convertUnits_utf16 (text : List Char) : convertUnits (utf16 text) = utf8 text := by
  induction text with
  | nil => rfl
  | cons c text ih => rw [utf16_cons, convertUnits_utf16Char, ih, utf8_cons]

/-- A string that the cap does not cut. -/
theorem convertCapped_utf16 {text : List Char} {maxCodeUnits : Nat}
    (fits : (utf16 text).length ≤ maxCodeUnits) :
    convertCapped (utf16 text) (utf16 text).length maxCodeUnits = utf8 text := by
  rw [convertCapped_eq, if_neg (not_lt.mpr fits), List.take_of_length_le fits, convertUnits_utf16]
  exact List.append_nil _

/-- `to_utf8` of a managed string that holds Unicode text is the text in UTF-8:
the standard decoder gives the text back, and no other text has that result. -/
theorem toUtf8_roundTrip {build : Build} {conduct : Conduct} {s : Scene} (bound : s.system.core.Bound)
    {string : Ptr} {text : List Char} (present : string ≠ 0)
    (held : s.world.string string = some (utf16 text)) {maxCodeUnits : Nat}
    (fits : (utf16 text).length ≤ maxCodeUnits) :
    let result := ((toUtf8 string maxCodeUnits).eval (Scene.answer build conduct) s).1
    result = utf8 text ∧ result.toByteArray.utf8Decode? = some text.toArray ∧
      ∀ other text', other ≠ 0 → s.world.string other = some (utf16 text') →
        (utf16 text').length ≤ maxCodeUnits →
        ((toUtf8 other maxCodeUnits).eval (Scene.answer build conduct) s).1 = result → text' = text := by
  intro result
  have converted {string : Ptr} {text : List Char} (present : string ≠ 0)
      (held : s.world.string string = some (utf16 text)) (fits : (utf16 text).length ≤ maxCodeUnits) :
      ((toUtf8 string maxCodeUnits).eval (Scene.answer build conduct) s).1 = utf8 text := by
    rw [Scene.answer, Scene.eval_toUtf8 bound present held, convertCapped_utf16 fits]
  have whole : result = utf8 text := converted present held fits
  refine ⟨whole, ?_, fun other text' present' held' fits' same => ?_⟩
  · rw [whole]
    exact utf8Decode_utf8 text
  · rw [whole, converted present' held' fits'] at same
    exact utf8_injective same

/-- The last scalar values of one, two, three and four bytes. -/
def boundaryText : List Char := ['\x7F', '\u07FF', '\uFFFF', Char.ofNat 0x10FFFF]

theorem boundaryText_roundTrip :
    ((toUtf8 16 5).eval (Scene.answer ⟨false, [], [], 0⟩ .passive)
      (.loaded { World.empty with string := fun _ => some (utf16 boundaryText) })).1 = utf8 boundaryText :=
  (toUtf8_roundTrip (Scene.loaded_bound _) (by decide) rfl (by decide)).1

end Opg3d.Il2cpp
