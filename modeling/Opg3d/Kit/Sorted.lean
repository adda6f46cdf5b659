import Mathlib.Data.Finset.Card
import Mathlib.Data.List.Sort
import Mathlib.Order.Bounds.Basic

namespace Kit

variable {α : Type} [LinearOrder α]

/-- The first members of a finite set in their order: so many, or all if there
are fewer. -/
structure FirstOf (count : Nat) (members : Finset α) (shown : List α) : Prop where
  increasing : shown.Pairwise (· < ·)
  among : ∀ a ∈ shown, a ∈ members
  size : shown.length = min count members.card
  before : ∀ a ∈ members, a ∉ shown → ∀ b ∈ shown, b < a

variable {items shown other : List α} {members : Finset α} {count : Nat} {x a : α}

theorem card_of_increasing (increasing : items.Pairwise (· < ·)) (same : ∀ a, a ∈ members ↔ a ∈ items) :
    members.card = items.length := by
  have whole : members = items.toFinset := by
    ext a
    rw [same, List.mem_toFinset]
  rw [whole, List.toFinset_card_of_nodup (increasing.imp ne_of_lt)]

theorem firstOf_take (increasing : items.Pairwise (· < ·)) (same : ∀ a, a ∈ members ↔ a ∈ items)
    (count : Nat) : FirstOf count members (items.take count) where
  increasing := increasing.sublist (List.take_sublist count items)
  among a mem := (same a).mpr (List.mem_of_mem_take mem)
  size := by
    rw [List.length_take, card_of_increasing increasing same]
  before a mem left b kept := by
    rw [← List.take_append_drop count items] at increasing
    rw [same, ← List.take_append_drop count items, List.mem_append, or_iff_right left] at mem
    exact (List.pairwise_append.mp increasing).2.2 b kept a mem

namespace FirstOf

theorem nodup (first : FirstOf count members shown) : shown.Nodup := first.increasing.imp ne_of_lt

theorem subset (first : FirstOf count members shown) (second : FirstOf count members other) :
    shown ⊆ other := by
  intro a mem
  by_contra absent
  have within : other ⊆ shown := by
    intro b later
    by_contra missing
    have below := first.before b (second.among b later) missing a mem
    exact absurd below (second.before a (first.among a mem) absent b later).asymm
  have room := second.nodup.subperm within
  have same : other.length = shown.length := by rw [first.size, second.size]
  exact absent ((room.perm_of_length_le same.ge).mem_iff.mpr mem)

theorem unique (first : FirstOf count members shown) (second : FirstOf count members other) :
    shown = other :=
  first.increasing.eq_of_mem_iff second.increasing fun _ =>
    ⟨fun mem => first.subset second mem, fun mem => second.subset first mem⟩

end FirstOf

theorem mem_takeWhile_le (increasing : items.Pairwise (· < ·)) :
    a ∈ items.takeWhile (· ≤ x) ↔ a ∈ items ∧ a ≤ x := by
  induction items with
  | nil => simp
  | cons b items ih =>
    obtain ⟨above, later⟩ := List.pairwise_cons.mp increasing
    by_cases within : b ≤ x
    · rw [List.takeWhile_cons_of_pos (by simpa using within), List.mem_cons, List.mem_cons,
        ih later, or_and_right]
      exact or_congr_left ⟨fun same => ⟨same, same ▸ within⟩, And.left⟩
    · rw [List.takeWhile_cons_of_neg (by simpa using within)]
      refine iff_of_false List.not_mem_nil ?_
      rintro ⟨mem, bound⟩
      rcases List.mem_cons.mp mem with rfl | inside
      · exact within bound
      · exact within ((above a inside).le.trans bound)

/-- The last of the members up to a bound is the greatest of them. -/
theorem isGreatest_takeWhile_le (increasing : items.Pairwise (· < ·)) {front : List α}
    (split : items.takeWhile (· ≤ x) = front ++ [a]) : IsGreatest {b | b ∈ items ∧ b ≤ x} a := by
  have last : a ∈ items.takeWhile (· ≤ x) := by simp [split]
  refine ⟨(mem_takeWhile_le increasing).mp last, ?_⟩
  rintro b ⟨mem, bound⟩
  have ordered : (front ++ [a]).Pairwise (· < ·) := split ▸ increasing.sublist (List.takeWhile_sublist _)
  have within : b ∈ front ++ [a] := split ▸ (mem_takeWhile_le increasing).mpr ⟨mem, bound⟩
  rcases List.mem_append.mp within with earlier | same
  · exact ((List.pairwise_append.mp ordered).2.2 b earlier a (List.mem_singleton_self a)).le
  · exact (List.mem_singleton.mp same).le

end Kit
