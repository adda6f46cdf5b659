import Mathlib.Logic.Function.Iterate
import Mathlib.Logic.Relation
import Opg3d.Kit.Replace

namespace Kit

open Relation

variable {α : Type} {needle text rest rest' : List α}

/-- One occurrence of the needle is taken out of a text. -/
def Removes (needle text rest : List α) : Prop := ∃ xs ys, text = xs ++ needle ++ ys ∧ rest = xs ++ ys

theorem Removes.infix (removes : Removes needle text rest) : needle <:+: text := by
  obtain ⟨xs, ys, rfl, _⟩ := removes
  exact ⟨xs, ys, rfl⟩

theorem Removes.cons (a : α) (removes : Removes needle text rest) :
    Removes needle (a :: text) (a :: rest) := by
  obtain ⟨xs, ys, rfl, rfl⟩ := removes
  exact ⟨a :: xs, ys, rfl, rfl⟩

/-- A text without the needle stays as it is. -/
theorem removals_absent (absent : ¬needle <:+: text) (removals : ReflTransGen (Removes needle) text rest) :
    rest = text :=
  (reflTransGen_iff_eq fun _ removes => absent removes.infix).mp removals

section Order

variable [DecidableEq α]

/-- Of two occurrences of a needle that does not overlap itself, the second
one is still there when the first one is taken out, and the other way round. -/
theorem Unbordered.apart (plain : Unbordered needle) (xs : List α) {ys w ys' : List α}
    (same : needle ++ ys = w ++ (needle ++ ys')) :
    xs ++ ys = xs ++ w ++ ys' ∨ ∃ last, Removes needle (xs ++ ys) last ∧
      Removes needle (xs ++ w ++ ys') last := by
  by_cases none : w = []
  · subst none
    left
    rw [List.append_cancel_left same, List.append_nil]
  right
  have begins : needle <+: w ++ (needle ++ ys') := same ▸ List.prefix_append needle ys
  obtain ⟨v, rfl⟩ := plain.begins_first none (Or.inr (List.prefix_append needle ys')) begins
  rw [List.append_assoc] at same
  obtain rfl := List.append_cancel_left same
  exact ⟨xs ++ v ++ ys', ⟨xs ++ v, ys', by simp, rfl⟩, ⟨xs, v ++ ys', by simp, by simp⟩⟩

theorem Removes.diamond (plain : Unbordered needle) (first : Removes needle text rest)
    (second : Removes needle text rest') :
    rest = rest' ∨ ∃ last, Removes needle rest last ∧ Removes needle rest' last := by
  obtain ⟨xs, ys, rfl, rfl⟩ := first
  obtain ⟨xs', ys', same, rfl⟩ := second
  rw [List.append_assoc, List.append_assoc] at same
  rcases List.append_eq_append_iff.mp same with ⟨w, rfl, later⟩ | ⟨w, rfl, later⟩
  · exact plain.apart xs later
  · rcases plain.apart xs' later with equal | ⟨last, left, right⟩
    · exact Or.inl equal.symm
    · exact Or.inr ⟨last, right, left⟩

/-- However the needles are taken out one by one, what is left in the end is
the same. -/
theorem removals_unique (plain : Unbordered needle) (first : ReflTransGen (Removes needle) text rest)
    (clean : ¬needle <:+: rest) (second : ReflTransGen (Removes needle) text rest')
    (clean' : ¬needle <:+: rest') : rest' = rest := by
  have meet (a b c : List α) (left : Removes needle a b) (right : Removes needle a c) :
      ∃ d, ReflGen (Removes needle) b d ∧ ReflTransGen (Removes needle) c d := by
    rcases left.diamond plain right with rfl | ⟨d, left, right⟩
    · exact ⟨b, .refl, .refl⟩
    · exact ⟨d, .single left, .single right⟩
  obtain ⟨last, left, right⟩ := church_rosser meet first second
  rw [← removals_absent clean left, ← removals_absent clean' right]

theorem removals_removed (filled : needle ≠ []) (text : List α) :
    ReflTransGen (Removes needle) text (replaceAll needle [] text) := by
  induction text using replaceAll_induction filled with
  | nil => exact .refl
  | found rest ih =>
    rw [replaceAll_found filled]
    exact .head ⟨[], rest, rfl, rfl⟩ ih
  | other a rest absent ih =>
    rw [replaceAll_other absent]
    exact ih.lift (a :: ·) fun _ _ => Removes.cons a

theorem removals_iterate (filled : needle ≠ []) (n : Nat) (text : List α) :
    ReflTransGen (Removes needle) text ((replaceAll needle [])^[n] text) := by
  induction n generalizing text with
  | zero => exact .refl
  | succ n ih => exact (removals_removed filled text).trans (ih _)

theorem length_removed_le (filled : needle ≠ []) (text : List α) :
    (replaceAll needle [] text).length ≤ text.length := by
  induction text using replaceAll_induction filled with
  | nil => exact le_rfl
  | found rest ih =>
    rw [replaceAll_found filled, List.nil_append, List.length_append]
    omega
  | other a rest absent ih =>
    rw [replaceAll_other absent, List.length_cons, List.length_cons]
    omega

/-- A pass that finds the needle makes the text shorter by one at least. -/
theorem length_removed (plain : Unbordered needle) (filled : needle ≠ []) (inside : needle <:+: text) :
    (replaceAll needle [] text).length + needle.length ≤ text.length := by
  obtain ⟨xs, ys, rfl⟩ := inside
  have first := length_removed_le filled xs
  have second := length_removed_le filled ys
  rw [replaceAll_append_needle plain filled, List.append_nil]
  simp only [List.length_append]
  omega

/-- As many passes as a text could hold needles leave none. -/
theorem absent_iterate (plain : Unbordered needle) (filled : needle ≠ []) {n : Nat}
    (enough : text.length < (n + 1) * needle.length) : ¬needle <:+: (replaceAll needle [])^[n] text := by
  induction n generalizing text with
  | zero =>
    intro inside
    have fits : needle.length ≤ text.length := inside.length_le
    omega
  | succ n ih =>
    by_cases inside : needle <:+: text
    · have shorter := length_removed plain filled inside
      rw [Nat.succ_mul] at enough
      rw [Function.iterate_succ_apply]
      exact ih (by omega)
    · rwa [Function.iterate_fixed (replaceAll_absent inside)]

end Order

end Kit
