import Mathlib.Data.LawfulXor.Basic
import Opg3d.Utf16RoundTrip

namespace Opg3d.Photon

open Kit Native

def fnvStep (hash : UInt32) (byte : UInt8) : UInt32 := (hash ^^^ byte.toUInt32) * 16777619

theorem fnv1a_append (front back : Bytes) : fnv1a (front ++ back) = back.foldl fnvStep (fnv1a front) :=
  List.foldl_append

/-- The prime is odd, so multiplication by it can be undone. -/
theorem mul_prime_injective {x y : UInt32} (same : x * 16777619 = y * 16777619) : x = y := by
  have unit : (16777619 : UInt32) * 899433627 = 1 := by decide
  have cancelled := congrArg (· * (899433627 : UInt32)) same
  simpa [UInt32.mul_assoc, unit] using cancelled

theorem fnvStep_injective {hash hash' : UInt32} {byte : UInt8}
    (same : fnvStep hash byte = fnvStep hash' byte) : hash = hash' :=
  (UInt32.xor_left_inj _).mp (mul_prime_injective same)

theorem foldl_fnvStep_injective {hash hash' : UInt32} (bytes : Bytes)
    (same : bytes.foldl fnvStep hash = bytes.foldl fnvStep hash') : hash = hash' := by
  induction bytes generalizing hash hash' with
  | nil => exact same
  | cons byte bytes ih => exact fnvStep_injective (ih same)

/-- One byte replaced by another one changes the hash. -/
theorem fnv1a_replaced {a b : UInt8} (different : a ≠ b) (front back : Bytes) :
    fnv1a (front ++ a :: back) ≠ fnv1a (front ++ b :: back) := by
  intro same
  rw [fnv1a_append, fnv1a_append, List.foldl_cons, List.foldl_cons] at same
  have xors := mul_prime_injective (foldl_fnvStep_injective back same)
  have bytes : a.toUInt32 = b.toUInt32 := (UInt32.xor_right_inj _).mp xors
  exact different (UInt8.toUInt32_inj.mp bytes)

/-- Words whose difference is in the low byte only agree above it. -/
theorem high_of_xor {x y : UInt32} {byte : UInt8} (close : x ^^^ y = byte.toUInt32) :
    x.toNat / 256 = y.toNat / 256 := by
  have low : x.toNat ^^^ y.toNat < 256 := by
    rw [← UInt32.toNat_xor, close, UInt8.toNat_toUInt32]
    exact byte.toNat_lt
  have none : (x.toNat ^^^ y.toNat) / 2 ^ 8 = 0 := Nat.div_eq_of_lt low
  rw [Nat.xor_div_two_pow] at none
  exact xor_eq_zero_iff.mp none

/-- The carry argument: a multiple of the prime by less than 256 is not within
a byte of a multiple of 2^32. -/
theorem no_carry {e t d : Int} (positive : 1 ≤ e) (small : e ≤ 255) (low : -255 ≤ d) (high : d ≤ 255) :
    e * 16777619 ≠ 4294967296 * t + d := by
  intro same
  have sign : t ≤ 0 ∨ 1 ≤ t := by omega
  rcases sign with before | after
  · omega
  · omega

theorem mul_prime_split (x : UInt32) :
    ∃ q, x.toNat * 16777619 = 4294967296 * q + (x * 16777619).toNat := by
  refine ⟨x.toNat * 16777619 / 4294967296, ?_⟩
  rw [UInt32.toNat_mul]
  exact (Nat.div_add_mod ..).symm

/-- Two different words that agree above the low byte are multiplied to words
that do not. -/
theorem mul_prime_spreads {x y : UInt32} (different : x ≠ y) (close : x.toNat / 256 = y.toNat / 256) :
    (x * 16777619).toNat / 256 ≠ (y * 16777619).toNat / 256 := by
  intro agree
  have apart : x.toNat ≠ y.toNat := fun same => different (UInt32.toNat_inj.mp same)
  obtain ⟨q, whole⟩ := mul_prime_split x
  obtain ⟨q', whole'⟩ := mul_prime_split y
  generalize (x * 16777619).toNat = r at whole agree
  generalize (y * 16777619).toNat = r' at whole' agree
  rcases Nat.lt_or_gt_of_ne apart with less | more
  · exact @no_carry (y.toNat - x.toNat) (q' - q) (r' - r) (by omega) (by omega) (by omega) (by omega) (by omega)
  · exact @no_carry (x.toNat - y.toNat) (q - q') (r - r') (by omega) (by omega) (by omega) (by omega) (by omega)

theorem xor_xor_cancel (hash x y : UInt32) : (hash ^^^ x) ^^^ (hash ^^^ y) = x ^^^ y := by
  rw [xor_comm hash x, xor_assoc, xor_cancel_left]

theorem xor_of_crossed {u v x y : UInt32} (crossed : u ^^^ y = v ^^^ x) : u ^^^ v = x ^^^ y := by
  rw [(xor_eq_iff_left_eq u y _).mp crossed, xor_assoc v x y, xor_comm v (x ^^^ y), xor_cancel_right]

/-- Two different neighbours swapped change the hash. -/
theorem fnv1a_swapped {a b : UInt8} (different : a ≠ b) (front back : Bytes) :
    fnv1a (front ++ a :: b :: back) ≠ fnv1a (front ++ b :: a :: back) := by
  intro same
  simp only [fnv1a_append, List.foldl_cons] at same
  generalize fnv1a front = hash at same
  have swapped : fnvStep (fnvStep hash a) b = fnvStep (fnvStep hash b) a :=
    foldl_fnvStep_injective back same
  have crossed : fnvStep hash a ^^^ b.toUInt32 = fnvStep hash b ^^^ a.toUInt32 :=
    mul_prime_injective swapped
  have bytes : a.toUInt32 ^^^ b.toUInt32 = (a ^^^ b).toUInt32 := (UInt8.toUInt32_xor ..).symm
  have before := high_of_xor ((xor_xor_cancel hash a.toUInt32 b.toUInt32).trans bytes)
  have after := high_of_xor ((xor_of_crossed crossed).trans bytes)
  have distinct : hash ^^^ a.toUInt32 ≠ hash ^^^ b.toUInt32 := fun agree =>
    different (UInt8.toUInt32_inj.mp ((UInt32.xor_right_inj _).mp agree))
  exact mul_prime_spreads distinct before after

def summary (chars size : Nat) (hash : UInt32) : Bytes :=
  literal "chars=" ++ decimal chars ++ literal " utf8=" ++ decimal size ++ literal " fnv1a=" ++
    zeroPad 8 (hexadecimal hash.toNat)

theorem summary_injective {chars chars' size size' : Nat} {hash hash' : UInt32}
    (same : summary chars size hash = summary chars' size' hash') :
    chars = chars' ∧ size = size' ∧ hash = hash' := by
  have utf8Text : literal " utf8=" = 32 :: literal "utf8=" := by decide
  have hashText : literal " fnv1a=" = 32 :: literal "fnv1a=" := by decide
  simp only [summary, List.append_assoc, utf8Text, hashText, List.cons_append] at same
  obtain ⟨counts, same⟩ := decimal_space_injective (List.append_cancel_left same)
  obtain ⟨sizes, same⟩ := decimal_space_injective (List.append_cancel_left same)
  have hashes := zeroPad_hexadecimal_injective (List.append_cancel_left same)
  exact ⟨counts, sizes, UInt32.toNat_inj.mp hashes⟩

theorem truncate_summary {chars size : Nat} (short : chars < 10 ^ 40) (short' : size < 10 ^ 40)
    (hash : UInt32) : Logger.truncate 128 (summary chars size hash) = summary chars size hash := by
  refine List.take_of_length_le ?_
  have charsSize := length_decimal_le (by decide : 0 < 40) short
  have sizeSize := length_decimal_le (by decide : 0 < 40) short'
  have digits : (hexadecimal hash.toNat).length ≤ 8 := length_hexadecimal_le (by decide) hash.toNat_lt
  have fixed : (literal "chars=").length + (literal " utf8=").length + (literal " fnv1a=").length = 19 := by
    decide
  simp only [summary, List.length_append, length_zeroPad]
  omega

theorem configuredSecretSummary_eq {build : Build} (short : build.appId.length < 10 ^ 40) :
    configuredSecretSummary build = summary build.appId.length build.appId.length (fnv1a build.appId) := by
  rw [← truncate_summary short short]
  simp [configuredSecretSummary, printf, formatFrom, convert, summary, literal, zeroPad]

theorem eval_secretSummary {build : Build} {conduct : Conduct} {s : Scene} (bound : s.system.core.Bound)
    {string : Ptr} {units : List UInt16} (present : string ≠ 0)
    (held : s.world.string string = some units) :
    ((secretSummary string).eval (Scene.answer build conduct) s).1 =
      Logger.truncate 128 (summary units.length (Il2cpp.convertCapped units units.length 256).length
        (fnv1a (Il2cpp.convertCapped units units.length 256))) := by
  rw [Scene.answer]
  have measured : (stringLengthOr (-1) string).eval
      (Scene.answerWith conduct (Scene.throughEntry build conduct)) s =
      ((units.length : Int), s) := by
    refine (Prog.eval_seq (Scene.eval_apiPtr .stringLength)).trans
      ((Prog.eval_neg (bound .stringLength (by decide))).trans ?_)
    refine (Scene.eval_api (.stringLength string)).trans ?_
    simp only [World.respond, held, Option.getD_some]
  refine congrArg Prod.fst ((Prog.eval_neg present).trans
    ((Prog.eval_seq (Scene.eval_toUtf8 bound present held 256)).trans (Prog.eval_seq measured))) |>.trans ?_
  refine congrArg (Logger.truncate 128) ?_
  simp [printf, formatFrom, convert, summary, literal, zeroPad, signedDecimal_natCast]

theorem byte_ne {c d : Char} (ascii : c.toNat < 128) (ascii' : d.toNat < 128) (different : c ≠ d) :
    UInt8.ofNat c.toNat ≠ UInt8.ofNat d.toNat := by
  intro same
  rw [← (ofNat_ascii ascii).2, same, (ofNat_ascii ascii').2] at different
  exact different rfl

/-- The summaries of the compiled-in AppID and of the game's string are the
same text for the same AppID, and different texts if the lengths differ, one
character is replaced, or two different neighbours are swapped. -/
theorem summaries_compare (build : Build) (conduct : Conduct) {s : Scene} (bound : s.system.core.Bound)
    {string : Ptr} (present : string ≠ 0) {a b : List Char} (compiled : build.appId = utf8 a)
    (held : s.world.string string = some (utf16 b)) (ascii : ∀ c ∈ a, c.toNat < 128)
    (ascii' : ∀ c ∈ b, c.toNat < 128) (short : a.length ≤ 256) (short' : b.length ≤ 256) :
    let configured := configuredSecretSummary build
    let game := ((secretSummary string).eval (Scene.answer build conduct) s).1
    (a = b → configured = game) ∧ (a.length ≠ b.length → configured ≠ game) ∧
      (∀ front back c d, c ≠ d → a = front ++ c :: back → b = front ++ d :: back → configured ≠ game) ∧
      (∀ front back c d, c ≠ d → a = front ++ c :: d :: back → b = front ++ d :: c :: back →
        configured ≠ game) := by
  intro configured game
  have small : build.appId.length < 10 ^ 40 := by
    rw [compiled, length_utf8_ascii ascii]
    exact short.trans_lt (by decide)
  have first : configured = summary a.length a.length (fnv1a (utf8 a)) := by
    rw [← length_utf8_ascii ascii, ← compiled]
    exact configuredSecretSummary_eq small
  have second : game = summary b.length b.length (fnv1a (utf8 b)) := by
    have fits : (utf16 b).length ≤ 256 := (length_utf16_ascii ascii').trans_le short'
    have tiny : b.length < 10 ^ 40 := short'.trans_lt (by decide)
    refine (eval_secretSummary bound present held).trans ?_
    rw [Il2cpp.convertCapped_utf16 fits, length_utf16_ascii ascii', length_utf8_ascii ascii']
    exact truncate_summary tiny tiny _
  rw [first, second]
  refine ⟨?_, ?_, ?_, ?_⟩
  · rintro rfl
    rfl
  · exact fun longer same => longer (summary_injective same).1
  · rintro front back c d different rfl rfl same
    have hashes := (summary_injective same).2.2
    rw [utf8_append, utf8_append, utf8_cons, utf8_cons, utf8EncodeChar_ascii (ascii c (by simp)),
      utf8EncodeChar_ascii (ascii' d (by simp))] at hashes
    exact fnv1a_replaced (byte_ne (ascii c (by simp)) (ascii' d (by simp)) different) _ _ hashes
  · rintro front back c d different rfl rfl same
    have hashes := (summary_injective same).2.2
    rw [utf8_append, utf8_append, utf8_cons, utf8_cons, utf8_cons, utf8_cons,
      utf8EncodeChar_ascii (ascii c (by simp)),
      utf8EncodeChar_ascii (ascii d (by simp))] at hashes
    exact fnv1a_swapped (byte_ne (ascii c (by simp)) (ascii d (by simp)) different) _ _ hashes

/-- A GUID compiled in and the game's GUID with one digit mistyped. -/
theorem mistyped_guid_differs :
    let guid := "3f2c7b1e-8d44-4c1a-9f0e-5b6a7c8d9e0f".toList
    let other := "3f2c7b1e-8d44-4c1a-9f0e-5b6a7c8d9e1f".toList
    configuredSecretSummary ⟨false, utf8 guid, [], 0⟩ ≠
      ((secretSummary 16).eval (Scene.answer ⟨false, utf8 guid, [], 0⟩ .passive)
        (.loaded { World.empty with string := fun _ => some (utf16 other) })).1 := by
  intro guid other
  have compared := summaries_compare ⟨false, utf8 guid, [], 0⟩ .passive
    (Scene.loaded_bound { World.empty with string := fun _ => some (utf16 other) })
    (by decide : (16 : Ptr) ≠ 0) rfl rfl
    (by decide) (by decide) (by decide) (by decide)
  exact compared.2.2.1 "3f2c7b1e-8d44-4c1a-9f0e-5b6a7c8d9e".toList "f".toList '0' '1' (by decide)
    (by decide) (by decide)

end Opg3d.Photon
