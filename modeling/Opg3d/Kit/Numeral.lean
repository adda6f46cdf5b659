import Mathlib.Data.Nat.Digits.Lemmas

namespace Kit

/-- Statements about the members of a list are decided member by member, also
over types that could be gone through as a whole. -/
instance (priority := high) decidableForallMem {α : Type*} (p : α → Prop) [DecidablePred p]
    (items : List α) : Decidable (∀ a ∈ items, p a) :=
  List.decidableBAll p items

instance (priority := high) decidableForallOption {α : Type*} (p : α → Prop) [DecidablePred p]
    (item : Option α) : Decidable (∀ a ∈ item, p a) :=
  Option.decidableForallMem item

/-- The digits of a number, the most significant first; zero has one digit. -/
def numeral (base n : Nat) : List Nat :=
  if n = 0 then [0] else (Nat.digits base n).reverse

/-- The number a digit sequence denotes, read from left to right. -/
def numeralValue (base : Nat) (digits : List Nat) : Nat :=
  digits.foldl (fun value digit => value * base + digit) 0

theorem numeralValue_reverse (base : Nat) (digits : List Nat) :
    numeralValue base digits.reverse = Nat.ofDigits base digits := by
  induction digits with
  | nil => rfl
  | cons digit rest ih =>
    rw [numeralValue] at ih
    rw [numeralValue, List.reverse_cons, List.foldl_append, ih, Nat.ofDigits_cons]
    simp only [List.foldl_cons, List.foldl_nil]
    ring

theorem numeralValue_numeral (base n : Nat) : numeralValue base (numeral base n) = n := by
  unfold numeral
  split
  · simp_all [numeralValue]
  · rw [numeralValue_reverse, Nat.ofDigits_digits]

theorem numeral_lt {base n digit : Nat} (large : 1 < base) (member : digit ∈ numeral base n) :
    digit < base := by
  unfold numeral at member
  split at member
  · simp only [List.mem_singleton] at member
    omega
  · exact Nat.digits_lt_base large (List.mem_reverse.mp member)

theorem numeral_ne_nil (base n : Nat) : numeral base n ≠ [] := by
  unfold numeral
  split
  · simp
  · rename_i positive
    simpa using Nat.digits_ne_nil_iff_ne_zero.mpr positive

theorem numeral_length_le {base n k : Nat} (large : 1 < base) (positive : 0 < k) (bound : n < base ^ k) :
    (numeral base n).length ≤ k := by
  unfold numeral
  split
  · exact positive
  · rw [List.length_reverse]
    exact (Nat.digits_length_le_iff large n).mpr bound

theorem numeral_injective (base : Nat) {n m : Nat} (same : numeral base n = numeral base m) : n = m := by
  rw [← numeralValue_numeral base n, same, numeralValue_numeral]

/-- Leading zeros do not count. -/
theorem numeralValue_zeros (base k : Nat) (digits : List Nat) :
    numeralValue base (List.replicate k 0 ++ digits) = numeralValue base digits := by
  induction k with
  | zero => rfl
  | succ k ih => simpa [numeralValue, List.replicate_succ] using ih

theorem digitChar_injective : ∀ d < 16, ∀ e < 16, Nat.digitChar d = Nat.digitChar e → d = e := by decide

theorem map_digitChar_injective {digits others : List Nat} (small : ∀ d ∈ digits, d < 16)
    (small' : ∀ d ∈ others, d < 16) (same : digits.map Nat.digitChar = others.map Nat.digitChar) :
    digits = others := by
  induction digits generalizing others with
  | nil => exact (List.map_eq_nil_iff.mp same.symm).symm
  | cons d digits ih =>
    cases others with
    | nil => cases same
    | cons e others =>
      obtain ⟨here, later⟩ := List.cons.inj same
      obtain ⟨low, lows⟩ := List.forall_mem_cons.mp small
      obtain ⟨low', lows'⟩ := List.forall_mem_cons.mp small'
      rw [digitChar_injective d low e low' here, ih lows lows' later]

end Kit
