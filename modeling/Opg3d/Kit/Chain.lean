import Mathlib.Data.List.Nodup

namespace Kit

/-- The list that is linked by `next` from an element on, as far as `last`,
which is no member of it. -/
inductive Chain {α : Type*} (next : α → α) (last : α) : α → List α → Prop
  | ends : Chain next last last []
  | step {a : α} {chain : List α} (more : a ≠ last) (rest : Chain next last (next a) chain) :
      Chain next last a (a :: chain)

/-- The members that so many steps of a walk meet. -/
def walk {α : Type*} [DecidableEq α] (next : α → α) (last : α) : Nat → α → List α
  | 0, _ => []
  | fuel + 1, a => if a = last then [] else a :: walk next last fuel (next a)

namespace Chain

variable {α : Type*} {next : α → α} {last a : α} {chain : List α}

theorem unique {other : List α} (links : Chain next last a chain) (again : Chain next last a other) :
    chain = other := by
  induction links generalizing other with
  | ends =>
    cases again with
    | ends => rfl
    | step more => exact absurd rfl more
  | step more _ ih =>
    cases again with
    | ends => exact absurd rfl more
    | step _ rest => rw [ih rest]

theorem suffix {b : α} {before after : List α} (links : Chain next last a chain)
    (split : chain = before ++ b :: after) : Chain next last b (b :: after) := by
  induction links generalizing before with
  | ends => simp at split
  | step more rest ih =>
    cases before with
    | nil =>
      obtain ⟨rfl, rfl⟩ := List.cons.inj split
      exact .step more rest
    | cons first before => exact ih (List.cons.inj split).2

/-- A member met again would lead into the same chain for ever. -/
theorem nodup (links : Chain next last a chain) : chain.Nodup := by
  induction links with
  | ends => exact List.nodup_nil
  | @step a chain more rest ih =>
    refine List.nodup_cons.mpr ⟨?_, ih⟩
    intro again
    obtain ⟨before, after, split⟩ := List.append_of_mem again
    have same := (step more rest).unique (rest.suffix split)
    have equal : chain.length = after.length := congrArg List.length (List.cons.inj same).2
    have longer := congrArg List.length split
    rw [List.length_append, List.length_cons] at longer
    omega

theorem walk_eq [DecidableEq α] {fuel : Nat} (links : Chain next last a chain)
    (enough : chain.length ≤ fuel) : walk next last fuel a = chain := by
  induction links generalizing fuel with
  | ends => cases fuel <;> simp [walk]
  | step more rest ih =>
    cases fuel with
    | zero => simp at enough
    | succ fuel => rw [walk, if_neg more, ih (by simpa using enough)]

end Chain

end Kit
