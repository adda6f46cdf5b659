import Opg3d.Kit.Numeral
import Opg3d.Kit.Utf8

namespace Opg3d

open Kit

/-- The bytes of C strings and of `std::string`, without the final NUL. -/
abbrev Bytes := List UInt8

/-- A string literal of the sources, which are UTF-8 files. -/
def literal (text : String) : Bytes := utf8 text.toList

def decimal (n : Nat) : Bytes := utf8 ((Kit.numeral 10 n).map Nat.digitChar)

def hexadecimal (n : Nat) : Bytes := utf8 ((Kit.numeral 16 n).map Nat.digitChar)

def signedDecimal (i : Int) : Bytes :=
  if i < 0 then literal "-" ++ decimal i.natAbs else decimal i.natAbs

def zeroPad (width : Nat) (digits : Bytes) : Bytes :=
  List.replicate (width - digits.length) 48 ++ digits

/-- An argument of a format string. -/
inductive Arg where
  | str (bytes : Bytes)
  | int (i : Int)
  | nat (n : Nat)

/-- The argument as `%s` and the others read it: a string ends at its first NUL. -/
def Arg.read : Arg → Arg
  | .str bytes => .str (bytes.takeWhile (· ≠ 0))
  | arg => arg

/-- One conversion. The sources use `s`, `d`, `u`, `x` and `p`, and the flag
`0` with a width for `u` and `x` only; bionic prints pointers with `0x`. -/
def convert (width : Nat) (conversion : Char) : Arg → Bytes
  | .str bytes => bytes
  | .int i => signedDecimal i
  | .nat n =>
    if conversion = 'x' then zeroPad width (hexadecimal n)
    else if conversion = 'p' then literal "0x" ++ hexadecimal n
    else zeroPad width (decimal n)

/-- Scanning a format string: outside a conversion, or inside one whose width
so far is given. Length modifiers select the C type and nothing else. -/
def formatFrom : Option Nat → List Char → List Arg → Bytes
  | _, [], _ => []
  | none, c :: rest, args =>
    if c = '%' then formatFrom (some 0) rest args else String.utf8EncodeChar c ++ formatFrom none rest args
  | some width, c :: rest, args =>
    if c.isDigit then formatFrom (some (10 * width + (c.toNat - 48))) rest args
    else if c = 'l' ∨ c = 'z' then formatFrom (some width) rest args
    else match args with
      | [] => formatFrom none rest []
      | arg :: others => convert width c arg ++ formatFrom none rest others

def printf (format : String) (args : List Arg) : Bytes := formatFrom none format.toList args

theorem signedDecimal_natCast (n : Nat) : signedDecimal n = decimal n := by
  rw [signedDecimal, if_neg (Int.not_lt.mpr (Int.natCast_nonneg n)), Int.natAbs_natCast]

theorem length_digits {base : Nat} (large : 1 < base) (small : base ≤ 16) (n : Nat) :
    (utf8 ((numeral base n).map Nat.digitChar)).length = (numeral base n).length := by
  have ascii : ∀ d < 16, (Nat.digitChar d).toNat < 128 := by decide
  rw [length_utf8_ascii, List.length_map]
  intro c member
  obtain ⟨d, digit, rfl⟩ := List.mem_map.mp member
  exact ascii d ((numeral_lt large digit).trans_le small)

theorem length_decimal_le {n k : Nat} (positive : 0 < k) (bound : n < 10 ^ k) : (decimal n).length ≤ k :=
  (length_digits (by decide) (by decide) n).trans_le (numeral_length_le (by decide) positive bound)

theorem length_hexadecimal_le {n k : Nat} (positive : 0 < k) (bound : n < 16 ^ k) :
    (hexadecimal n).length ≤ k :=
  (length_digits (by decide) (by decide) n).trans_le (numeral_length_le (by decide) positive bound)

theorem length_zeroPad (width : Nat) (digits : Bytes) :
    (zeroPad width digits).length = max width digits.length :=
  List.length_leftpad

theorem decimal_injective {n m : Nat} (same : decimal n = decimal m) : n = m := by
  have small (k : Nat) : ∀ d ∈ numeral 10 k, d < 16 :=
    fun d digit => (numeral_lt (by decide) digit).trans (by decide)
  exact numeral_injective 10 (map_digitChar_injective (small n) (small m) (utf8_injective same))

theorem decimal_spaceless (n : Nat) : ∀ b ∈ decimal n, b ≠ 32 := by
  have digits : ∀ d < 16, ∀ b ∈ String.utf8EncodeChar (Nat.digitChar d), b ≠ 32 := by decide
  intro b member
  obtain ⟨c, digit, inside⟩ := List.mem_flatMap.mp member
  obtain ⟨d, within, rfl⟩ := List.mem_map.mp digit
  exact digits d ((numeral_lt (by decide) within).trans (by decide)) b inside

/-- What stands in front of the first space can be cut off. -/
theorem spaceless_injective {front front' rest rest' : Bytes} (clear : ∀ b ∈ front, b ≠ 32)
    (clear' : ∀ b ∈ front', b ≠ 32) (same : front ++ 32 :: rest = front' ++ 32 :: rest') :
    front = front' ∧ rest = rest' := by
  have fronts := congrArg (List.takeWhile fun b : UInt8 => b ≠ 32) same
  rw [List.takeWhile_append_of_pos fun b member => decide_eq_true (clear b member),
    List.takeWhile_append_of_pos fun b member => decide_eq_true (clear' b member)] at fronts
  obtain rfl : front = front' := by simpa using fronts
  exact ⟨rfl, (List.cons.inj (List.append_cancel_left same)).2⟩

/-- A number that ends at a space can be cut off. -/
theorem decimal_space_injective {n m : Nat} {rest rest' : Bytes}
    (same : decimal n ++ 32 :: rest = decimal m ++ 32 :: rest') : n = m ∧ rest = rest' := by
  obtain ⟨digits, rests⟩ := spaceless_injective (decimal_spaceless n) (decimal_spaceless m) same
  exact ⟨decimal_injective digits, rests⟩

theorem zeros_eq (k : Nat) : List.replicate k (48 : UInt8) = utf8 (List.replicate k '0') := by
  induction k with
  | zero => rfl
  | succ k ih =>
    rw [List.replicate_succ, List.replicate_succ, utf8_cons, ih]
    rfl

theorem zeroPad_numeral_injective {base width n m : Nat} (large : 1 < base) (within : base ≤ 16)
    (same : zeroPad width (utf8 ((numeral base n).map Nat.digitChar)) =
      zeroPad width (utf8 ((numeral base m).map Nat.digitChar))) : n = m := by
  have digits (k : Nat) : zeroPad width (utf8 ((numeral base k).map Nat.digitChar)) = utf8
      ((List.replicate (width - (utf8 ((numeral base k).map Nat.digitChar)).length) 0 ++
        numeral base k).map Nat.digitChar) := by
    rw [zeroPad, zeros_eq, List.map_append, List.map_replicate, utf8_append]
    rfl
  have small (zeros k : Nat) : ∀ d ∈ List.replicate zeros 0 ++ numeral base k, d < 16 := by
    intro d digit
    rcases List.mem_append.mp digit with zero | other
    · rw [List.eq_of_mem_replicate zero]
      decide
    · exact (numeral_lt large other).trans_le within
  rw [digits, digits] at same
  have values := congrArg (numeralValue base) (map_digitChar_injective (small _ n) (small _ m)
    (utf8_injective same))
  simpa only [numeralValue_zeros, numeralValue_numeral] using values

theorem zeroPad_hexadecimal_injective {width n m : Nat}
    (same : zeroPad width (hexadecimal n) = zeroPad width (hexadecimal m)) : n = m :=
  zeroPad_numeral_injective (by decide) (by decide) same

theorem zeroPad_decimal_injective {width n m : Nat}
    (same : zeroPad width (decimal n) = zeroPad width (decimal m)) : n = m :=
  zeroPad_numeral_injective (by decide) (by decide) same

theorem zeroPad_spaceless {width : Nat} {digits : Bytes} (clear : ∀ b ∈ digits, b ≠ 32) :
    ∀ b ∈ zeroPad width digits, b ≠ 32 := by
  intro b member
  rcases List.mem_append.mp member with zero | digit
  · rw [List.eq_of_mem_replicate zero]
    decide
  · exact clear b digit

example : printf "[#%06u +%06llums tid=%ld pc=%s+0x%x] %s"
    [.nat 42, .nat 15237, .int 19925, .str (literal "libil2cpp.so"), .nat 0x118f750, .str (literal "hi")] =
    literal "[#000042 +015237ms tid=19925 pc=libil2cpp.so+0x118f750] hi" := by decide

end Opg3d
