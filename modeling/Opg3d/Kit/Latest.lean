import Mathlib.Data.List.Basic

namespace Kit

variable {α β : Type} {read : α → Option β} {passes : α → Prop} {items : List α} {a : α} {b : β} {i : Nat}

/-- What the last item tells that tells something. -/
def latest (read : α → Option β) (default : β) (items : List α) : β :=
  (items.filterMap read).getLastD default

@[simp] theorem latest_nil (default : β) : latest read default [] = default := rfl

theorem latest_concat (default : β) (items : List α) (a : α) :
    latest read default (items ++ [a]) = (read a).getD (latest read default items) := by
  cases told : read a with
  | none => simp [latest, List.filterMap_append, told]
  | some b => simp [latest, List.filterMap_append, told]

/-- The item at this place tells something, and all items after it let it pass. -/
structure HeldAt (read : α → Option β) (passes : α → Prop) (items : List α) (i : Nat) (b : β) : Prop where
  told : ∃ a, items[i]? = some a ∧ read a = some b
  kept : ∀ k a, i < k → items[k]? = some a → passes a

theorem getElem?_concat_lt (below : i < items.length) : (items ++ [a])[i]? = items[i]? :=
  List.getElem?_append_left below

theorem getElem?_concat_cases {c : α} (at_i : (items ++ [a])[i]? = some c) :
    (i < items.length ∧ items[i]? = some c) ∨ (i = items.length ∧ c = a) := by
  have bound : i < (items ++ [a]).length := (List.getElem?_eq_some_iff.mp at_i).1
  rw [List.length_append, List.length_singleton] at bound
  rcases Nat.lt_or_ge i items.length with below | last
  · rw [getElem?_concat_lt below] at at_i
    exact Or.inl ⟨below, at_i⟩
  · obtain rfl : i = items.length := by omega
    rw [List.getElem?_concat_length] at at_i
    exact Or.inr ⟨rfl, (Option.some.inj at_i).symm⟩

/-- What is held after one more item: what it tells itself, or what it lets pass. -/
theorem heldAt_concat : HeldAt read passes (items ++ [a]) i b ↔
    (i = items.length ∧ read a = some b) ∨ (passes a ∧ HeldAt read passes items i b) := by
  constructor
  · rintro ⟨⟨c, at_i, told⟩, kept⟩
    rcases getElem?_concat_cases at_i with ⟨below, earlier⟩ | ⟨rfl, rfl⟩
    · refine Or.inr ⟨kept items.length a below List.getElem?_concat_length, ⟨c, earlier, told⟩, ?_⟩
      intro k d later at_k
      have inside : k < items.length := (List.getElem?_eq_some_iff.mp at_k).1
      exact kept k d later (by rw [getElem?_concat_lt inside]; exact at_k)
    · exact Or.inl ⟨rfl, told⟩
  · rintro (⟨rfl, told⟩ | ⟨through, ⟨c, at_i, told⟩, kept⟩)
    · refine ⟨⟨a, List.getElem?_concat_length, told⟩, ?_⟩
      intro k d later at_k
      rcases getElem?_concat_cases at_k with ⟨below, _⟩ | ⟨same, _⟩ <;> omega
    · have below : i < items.length := (List.getElem?_eq_some_iff.mp at_i).1
      refine ⟨⟨c, by rw [getElem?_concat_lt below]; exact at_i, told⟩, ?_⟩
      intro k d later at_k
      rcases getElem?_concat_cases at_k with ⟨_, inside⟩ | ⟨_, rfl⟩
      · exact kept k d later inside
      · exact through

theorem not_heldAt_nil : ¬HeldAt read passes [] i b := by
  rintro ⟨⟨c, at_i, _⟩, _⟩
  cases at_i

end Kit
