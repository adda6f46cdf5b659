import Opg3d.Kit.Program

namespace Kit

/-- Two surroundings compared: which pairs of answers an operation may get in
them, and which operations are allowed at all. -/
structure Twins (S : Signature) where
  pair : (op : S.Op) → S.Ans op → S.Ans op → Prop
  ok : S.Op → Prop

/-- Two programs in lockstep: on paired answers they perform the same allowed
operations, and their results are related. -/
inductive Twin {S : Signature} {α β : Type} (T : Twins S) (rel : α → β → Prop) : Prog S α → Prog S β → Prop
  | done {a b} : rel a b → Twin T rel (.done a) (.done b)
  | ask {op next next'} : T.ok op → (∀ a b, T.pair op a b → Twin T rel (next a) (next' b)) →
      Twin T rel (.ask op next) (.ask op next')

namespace Twin

variable {S : Signature} {α β γ δ σ : Type} {T : Twins S} {rel : α → β → Prop} {rel' : γ → δ → Prop}

theorem bind {p : Prog S α} {q : Prog S β} {f : α → Prog S γ} {g : β → Prog S δ} (first : Twin T rel p q)
    (second : ∀ a b, rel a b → Twin T rel' (f a) (g b)) : Twin T rel' (p >>= f) (q >>= g) := by
  induction first with
  | done related => exact second _ _ related
  | ask allowed _ ih => exact .ask allowed ih

/-- Results that agree are passed on as one. -/
theorem seq {p q : Prog S α} {f g : α → Prog S γ} {rel' : γ → γ → Prop} (first : Twin T Eq p q)
    (second : ∀ a, Twin T rel' (f a) (g a)) : Twin T rel' (p >>= f) (q >>= g) :=
  first.bind fun a _ same => same ▸ second a

theorem mono {p : Prog S α} {q : Prog S β} {weaker : α → β → Prop} (twin : Twin T rel p q)
    (weaken : ∀ a b, rel a b → weaker a b) : Twin T weaker p q := by
  induction twin with
  | done related => exact .done (weaken _ _ related)
  | ask allowed _ ih => exact .ask allowed ih

theorem ite {c : Prop} [Decidable c] {p p' : Prog S α} {q q' : Prog S β} (yes : c → Twin T rel p q)
    (no : ¬c → Twin T rel p' q') : Twin T rel (if c then p else p') (if c then q else q') := by
  split
  · rename_i holds
    exact yes holds
  · rename_i fails
    exact no fails

/-- A program in lockstep with itself passes a monitor that, in the states
kept, considers only answers paired with themselves. -/
theorem wp {M : Monitor S σ} (keep : σ → Prop) {rel : α → α → Prop} {p : Prog S α} {s : σ}
    (twin : Twin T rel p p) (start : keep s)
    (answers : ∀ s op a, keep s → M.allow s op a → T.pair op a a)
    (permits : ∀ s op, keep s → T.ok op → M.ok s op)
    (kept : ∀ s op a, keep s → T.ok op → M.allow s op a → keep (M.next s op a)) :
    p.wp M (fun t a => keep t ∧ rel a a) s := by
  induction p generalizing s with
  | done value =>
    cases twin with
    | done related => exact ⟨start, related⟩
  | ask op next ih =>
    cases twin with
    | ask allowed rest =>
      refine ⟨permits s op start allowed, fun a given => ?_⟩
      exact ih a (rest a a (answers s op a start given)) (kept s op a start allowed given)

end Twin

end Kit
