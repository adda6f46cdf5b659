import Mathlib.Data.List.Infix

namespace Kit

variable {α : Type}

/-- A word that begins a joined text lies in its first part or goes on in its second. -/
theorem prefix_append_cases {word xs ys : List α} (begins : word <+: xs ++ ys) :
    word <+: xs ∨ ∃ w, w ≠ [] ∧ word = xs ++ w ∧ w <+: ys := by
  obtain ⟨rest, split⟩ := begins
  rcases List.append_eq_append_iff.mp split with ⟨w, whole, _⟩ | ⟨w, whole, later⟩
  · exact Or.inl ⟨w, whole.symm⟩
  · by_cases none : w = []
    · exact Or.inl ⟨[], by simp [whole, none]⟩
    · exact Or.inr ⟨w, none, whole, rest, later.symm⟩

/-- No proper end of the word begins it. -/
def Unbordered (word : List α) : Prop := ∀ w ∈ word.tails, w ≠ [] → w <+: word → w = word

variable {needle text : List α}

/-- A word with whole needles between its letters, or at its ends. -/
inductive Spread (needle : List α) : List α → List α → Prop
  | whole (word) : Spread needle word word
  | cut (front) {word text} : Spread needle word text →
      Spread needle (front ++ word) (front ++ needle ++ text)

/-- The text holds the needle with whole needles between its letters, at least one. -/
def Interrupted (needle text : List α) : Prop :=
  ∃ before front back inner after, front ≠ [] ∧ back ≠ [] ∧ needle = front ++ back ∧
    Spread needle back inner ∧ text = before ++ front ++ needle ++ inner ++ after

theorem Interrupted.extend (interrupted : Interrupted needle text) (xs ys : List α) :
    Interrupted needle (xs ++ text ++ ys) := by
  obtain ⟨before, front, back, inner, after, first, last, split, spread, rfl⟩ := interrupted
  exact ⟨xs ++ before, front, back, inner, after ++ ys, first, last, split, spread,
    by simp only [List.append_assoc]⟩

theorem Spread.cons {word : List α} (spread : Spread needle word text) (a : α) :
    Spread needle (a :: word) (a :: text) := by
  cases spread with
  | whole => exact .whole _
  | cut front later => exact .cut (a :: front) later

variable [DecidableEq α]

instance (word : List α) : Decidable (Unbordered word) :=
  inferInstanceAs (Decidable (∀ w ∈ word.tails, w ≠ [] → w <+: word → w = word))

/-- The pass over a text that replaces a needle, with so many letters of the
last occurrence still to be passed over. -/
def replaceFrom (needle replacement : List α) : Nat → List α → List α
  | _, [] => []
  | skip + 1, _ :: rest => replaceFrom needle replacement skip rest
  | 0, a :: rest =>
    if needle <+: a :: rest then replacement ++ replaceFrom needle replacement (needle.length - 1) rest
    else a :: replaceFrom needle replacement 0 rest

/-- The occurrences of the needle replaced from left to right, none of which
overlaps the one before. -/
def replaceAll (needle replacement text : List α) : List α := replaceFrom needle replacement 0 text

/-- The position of the first occurrence. -/
def position? (needle : List α) : List α → Option Nat
  | [] => if needle = [] then some 0 else none
  | a :: rest => if needle <+: a :: rest then some 0 else (position? needle rest).map (· + 1)

variable {replacement : List α}

theorem position?_eq_none_iff {text : List α} : position? needle text = none ↔ ¬needle <:+: text := by
  induction text with
  | nil => simp [position?]
  | cons a rest ih =>
    rw [position?, List.infix_cons_iff, not_or, ← ih]
    by_cases here : needle <+: a :: rest <;> simp [here]

theorem replaceFrom_drop (skip : Nat) (text : List α) :
    replaceFrom needle replacement skip text = replaceAll needle replacement (text.drop skip) := by
  induction text generalizing skip with
  | nil => cases skip <;> rfl
  | cons a rest ih =>
    cases skip with
    | zero => rfl
    | succ skip => exact ih skip

@[simp] theorem replaceAll_nil : replaceAll needle replacement [] = [] := rfl

theorem replaceAll_found (filled : needle ≠ []) (rest : List α) :
    replaceAll needle replacement (needle ++ rest) = replacement ++ replaceAll needle replacement rest := by
  obtain ⟨a, tail, rfl⟩ := List.exists_cons_of_ne_nil filled
  have passed : (tail ++ rest).drop ((a :: tail).length - 1) = rest := List.drop_left
  rw [List.cons_append, replaceAll, replaceFrom, if_pos ⟨rest, rfl⟩, replaceFrom_drop, passed]

theorem replaceAll_needle (filled : needle ≠ []) : replaceAll needle replacement needle = replacement := by
  have whole : replaceAll needle replacement (needle ++ []) = replacement ++ [] :=
    replaceAll_found filled []
  simpa using whole

theorem replaceAll_other {a : α} {rest : List α} (other : ¬needle <+: a :: rest) :
    replaceAll needle replacement (a :: rest) = a :: replaceAll needle replacement rest := if_neg other

/-- Induction along the pass: a text is empty, begins with the needle, or
begins with a letter that is kept. -/
theorem replaceAll_induction (filled : needle ≠ []) {motive : List α → Prop} (nil : motive [])
    (found : ∀ rest, motive rest → motive (needle ++ rest))
    (other : ∀ a rest, ¬needle <+: a :: rest → motive rest → motive (a :: rest)) (text : List α) :
    motive text := by
  have positive : 0 < needle.length := List.length_pos_iff.mpr filled
  induction size : text.length using Nat.strong_induction_on generalizing text with
  | _ n ih =>
    subst size
    cases text with
    | nil => exact nil
    | cons a rest =>
      by_cases here : needle <+: a :: rest
      · obtain ⟨later, split⟩ := here
        rw [← split]
        refine found later (ih later.length ?_ later rfl)
        rw [← split, List.length_append]
        omega
      · exact other a rest here (ih rest.length (Nat.lt_succ_self _) rest rfl)

theorem replaceAll_absent {text : List α} (absent : ¬needle <:+: text) :
    replaceAll needle replacement text = text := by
  induction text with
  | nil => rfl
  | cons a rest ih =>
    obtain ⟨here, later⟩ := not_or.mp (mt List.infix_cons_iff.mpr absent)
    rw [replaceAll_other here, ih later]

theorem infix_replaceAll (filled : needle ≠ []) {text : List α} (inside : needle <:+: text) :
    replacement <:+: replaceAll needle replacement text := by
  induction text using replaceAll_induction filled with
  | nil => exact absurd (List.eq_nil_of_infix_nil inside) filled
  | found rest ih =>
    rw [replaceAll_found filled]
    exact List.infix_append [] replacement _
  | other a rest absent ih =>
    rw [replaceAll_other absent]
    have later := (List.infix_cons_iff.mp inside).resolve_left absent
    exact List.infix_cons (ih later)

/-- No end of the needle begins the replacement, no end of the replacement
begins the needle, and neither lies in the other. -/
structure Separate (needle replacement : List α) : Prop where
  starts : ∀ w ∈ needle.tails, w ≠ [] → ¬w <+: replacement
  ends : ∀ w ∈ replacement.tails, w ≠ [] → ¬w <+: needle
  outside : ¬needle <:+: replacement
  inside : ¬replacement <:+: needle

namespace Separate

/-- What begins the result with an end of the needle has been there before. -/
theorem prefix_of_replaced (separate : Separate needle replacement) (filled : needle ≠ []) {w : List α}
    (ends : w <:+ needle) (begins : w <+: replaceAll needle replacement text) : w <+: text := by
  induction text using replaceAll_induction filled generalizing w with
  | nil => exact begins
  | found rest ih =>
    rw [replaceAll_found filled] at begins
    by_cases none : w = []
    · exact none ▸ List.nil_prefix
    rcases prefix_append_cases begins with within | ⟨v, _, rfl, _⟩
    · exact absurd within (separate.starts w ((List.mem_tails ..).mpr ends) none)
    · exact absurd ((List.prefix_append replacement v).isInfix.trans ends.isInfix) separate.inside
  | other a rest absent ih =>
    rw [replaceAll_other absent] at begins
    rcases List.prefix_cons_iff.mp begins with rfl | ⟨v, rfl, later⟩
    · exact List.nil_prefix
    · have within := ih ((List.suffix_cons a v).trans ends) later
      exact (List.prefix_cons_inj a).mpr within

/-- One pass leaves no needle. -/
theorem absent_replaced (separate : Separate needle replacement) (filled : needle ≠ []) (text : List α) :
    ¬needle <:+: replaceAll needle replacement text := by
  induction text using replaceAll_induction filled with
  | nil =>
    rw [replaceAll_nil]
    exact fun inside => filled (List.eq_nil_of_infix_nil inside)
  | found rest ih =>
    rw [replaceAll_found filled]
    rintro ⟨before, after, split⟩
    rw [List.append_assoc] at split
    rcases List.append_eq_append_iff.mp split with ⟨w, whole, later⟩ | ⟨w, whole, later⟩
    · rcases prefix_append_cases ⟨after, later⟩ with within | ⟨v, _, rest_, _⟩
      · exact separate.outside (within.isInfix.trans ⟨before, [], by simp [whole]⟩)
      · by_cases none : w = []
        · refine ih ⟨[], after, ?_⟩
          rw [none] at later
          simpa using later
        · exact separate.ends w ((List.mem_tails ..).mpr ⟨before, whole.symm⟩) none ⟨v, rest_.symm⟩
    · exact ih ⟨w, after, by rw [later, List.append_assoc]⟩
  | other a rest absent ih =>
    rw [replaceAll_other absent, List.infix_cons_iff]
    rintro (begins | later)
    · rw [← replaceAll_other absent] at begins
      exact absent (separate.prefix_of_replaced filled List.suffix_rfl begins)
    · exact ih later

end Separate

section Removal

variable {xs ys : List α}

/-- An occurrence does not reach from one text into another that goes together with the needle. -/
theorem Unbordered.begins_first (plain : Unbordered needle) (some_ : xs ≠ [])
    (fits : ys <+: needle ∨ needle <+: ys) (begins : needle <+: xs ++ ys) : needle <+: xs := by
  rcases prefix_append_cases begins with within | ⟨w, more, split, later⟩
  · exact within
  · have positive := List.length_pos_iff.mpr some_
    have size := congrArg List.length split
    rw [List.length_append] at size
    have short : w <+: needle := by
      rcases fits with shorter | longer
      · exact later.trans shorter
      · exact List.prefix_of_prefix_length_le later longer (by omega)
    rw [plain w ((List.mem_tails ..).mpr ⟨xs, split.symm⟩) more short] at size
    omega

/-- An occurrence is met wherever it stands. -/
theorem replaceAll_append_needle (plain : Unbordered needle) (filled : needle ≠ []) (xs ys : List α) :
    replaceAll needle replacement (xs ++ needle ++ ys) =
      replaceAll needle replacement xs ++ replacement ++ replaceAll needle replacement ys := by
  induction xs using replaceAll_induction filled with
  | nil => exact replaceAll_found filled ys
  | found rest ih =>
    rw [List.append_assoc, List.append_assoc, ← List.append_assoc rest, replaceAll_found filled,
      replaceAll_found filled, ih]
    simp only [List.append_assoc]
  | other a rest absent ih =>
    have kept : ¬needle <+: a :: (rest ++ needle ++ ys) := by
      intro begins
      rw [← List.cons_append, ← List.cons_append, List.append_assoc] at begins
      exact absent (plain.begins_first (List.cons_ne_nil a rest) (Or.inr (List.prefix_append needle ys)) begins)
    rw [List.cons_append, List.cons_append, replaceAll_other kept, ih, replaceAll_other absent]
    rfl

theorem replaceAll_short (short : text.length < needle.length) :
    replaceAll needle replacement text = text :=
  replaceAll_absent fun inside => absurd inside.length_le (Nat.not_le.mpr short)

/-- A beginning of the needle that ends a text is left alone. -/
theorem replaceAll_append_front (plain : Unbordered needle) {front back : List α}
    (split : needle = front ++ back) (more : back ≠ []) (xs : List α) :
    replaceAll needle replacement (xs ++ front) = replaceAll needle replacement xs ++ front := by
  have positive := List.length_pos_iff.mpr more
  have size : needle.length = front.length + back.length := by rw [split, List.length_append]
  have filled : needle ≠ [] := by
    rw [split]
    exact List.append_ne_nil_of_right_ne_nil _ more
  induction xs using replaceAll_induction filled with
  | nil => exact replaceAll_short (show front.length < needle.length by omega)
  | found rest ih =>
    rw [List.append_assoc, replaceAll_found filled, replaceAll_found filled, ih,
      List.append_assoc]
  | other a rest absent ih =>
    have kept : ¬needle <+: a :: (rest ++ front) := by
      intro begins
      rw [← List.cons_append] at begins
      exact absent (plain.begins_first (List.cons_ne_nil a rest) (Or.inl ⟨back, split.symm⟩) begins)
    rw [List.cons_append, replaceAll_other kept, ih, replaceAll_other absent]
    rfl

/-- An end of the needle that begins a text is left alone. -/
theorem replaceAll_back_append (plain : Unbordered needle) {front back : List α}
    (split : needle = front ++ back) (more : front ≠ []) (ys : List α) :
    replaceAll needle replacement (back ++ ys) = back ++ replaceAll needle replacement ys := by
  induction back generalizing front with
  | nil => rfl
  | cons a back ih =>
    have kept : ¬needle <+: a :: (back ++ ys) := by
      intro begins
      have positive := List.length_pos_iff.mpr more
      have short : a :: back <+: needle := by
        refine List.prefix_of_prefix_length_le (List.prefix_append (a :: back) ys) begins ?_
        simp [split]
      have same := plain (a :: back) ((List.mem_tails ..).mpr ⟨front, split.symm⟩) (List.cons_ne_nil a back) short
      have longer := congrArg List.length split
      rw [same, List.length_append] at longer
      omega
    have next := @ih (front ++ [a]) (by rw [split, List.append_assoc]; rfl) (by simp)
    rw [List.cons_append, replaceAll_other kept, next, List.cons_append]

/-- What the removal leaves of a text stands in it, spread out. -/
theorem spread_removed (filled : needle ≠ []) (text : List α) :
    Spread needle (replaceAll needle [] text) text := by
  induction text using replaceAll_induction filled with
  | nil => exact .whole []
  | found rest ih =>
    rw [replaceAll_found filled]
    exact .cut [] ih
  | other a rest absent ih =>
    rw [replaceAll_other absent]
    exact ih.cons a

/-- Of an end of the needle, spread out, the removal leaves that end. -/
theorem Spread.removed (plain : Unbordered needle) {front back inner : List α}
    (spread : Spread needle back inner) (split : needle = front ++ back) (more : front ≠ [])
    (after : List α) : replaceAll needle [] (inner ++ after) = back ++ replaceAll needle [] after := by
  have filled : needle ≠ [] := by
    rw [split]
    exact List.append_ne_nil_of_left_ne_nil more _
  induction spread generalizing front with
  | whole word => exact replaceAll_back_append plain split more after
  | @cut first word text _ ih =>
    have positive := List.length_pos_iff.mpr more
    have short : first.length < needle.length := by
      rw [split, List.length_append, List.length_append]
      omega
    have later := @ih (front ++ first) (by rw [split, List.append_assoc])
      (List.append_ne_nil_of_left_ne_nil more _)
    rw [List.append_assoc, replaceAll_append_needle plain filled, later, replaceAll_short short]
    simp

/-- The removal leaves what it leaves of the parts of some split of the text. -/
theorem removed_split (filled : needle ≠ []) {text : List α}
    (split : replaceAll needle [] text = xs ++ ys) :
    ∃ first second, text = first ++ second ∧ replaceAll needle [] first = xs ∧
      replaceAll needle [] second = ys := by
  induction text using replaceAll_induction filled generalizing xs with
  | nil =>
    obtain ⟨rfl, rfl⟩ := List.append_eq_nil_iff.mp split.symm
    exact ⟨[], [], rfl, rfl, rfl⟩
  | found rest ih =>
    rw [replaceAll_found filled] at split
    obtain ⟨first, second, rfl, left, right⟩ := ih split
    refine ⟨needle ++ first, second, (List.append_assoc ..).symm, ?_, right⟩
    rw [replaceAll_found filled, left, List.nil_append]
  | other a rest absent ih =>
    rw [replaceAll_other absent] at split
    cases xs with
    | nil => exact ⟨[], a :: rest, rfl, rfl, by rw [replaceAll_other absent]; exact split⟩
    | cons b xs =>
      obtain ⟨rfl, later⟩ := List.cons.inj split
      obtain ⟨first, second, rfl, left, right⟩ := ih later
      have kept : ¬needle <+: a :: first := fun begins =>
        absent (begins.trans (List.prefix_append (a :: first) second))
      exact ⟨a :: first, second, rfl, by rw [replaceAll_other kept, left], right⟩

/-- A text of which the removal leaves the needle is interrupted. -/
theorem Spread.interrupted (plain : Unbordered needle) (filled : needle ≠ []) {word : List α}
    (spread : Spread needle word text) (whole : word = needle) (left : replaceAll needle [] text = needle) :
    Interrupted needle text := by
  induction spread with
  | whole =>
    subst whole
    rw [replaceAll_needle filled] at left
    exact absurd left.symm filled
  | @cut front word text later ih =>
    rw [replaceAll_append_needle plain filled, List.append_nil] at left
    by_cases first : front = []
    · subst first
      have inner := (ih whole left).extend needle []
      simpa using inner
    by_cases last : word = []
    · subst last
      rw [List.append_nil] at whole
      have rest := later.removed plain (List.append_nil needle).symm filled []
      rw [List.append_nil] at rest
      rw [whole, replaceAll_needle filled, rest] at left
      exact absurd left.symm filled
    · exact ⟨[], front, word, text, [], first, last, whole.symm, later, by simp⟩

/-- The removal leaves a needle exactly if the text is interrupted. -/
theorem infix_removed_iff (plain : Unbordered needle) (filled : needle ≠ []) :
    needle <:+: replaceAll needle [] text ↔ Interrupted needle text := by
  constructor
  · rintro ⟨before, after, split⟩
    obtain ⟨front, _, rfl, left, _⟩ := removed_split filled split.symm
    obtain ⟨first, inner, rfl, _, whole⟩ := removed_split filled left
    have interrupted := (spread_removed filled inner).interrupted plain filled whole whole
    exact interrupted.extend _ _
  · rintro ⟨before, front, back, inner, after, first, last, split, spread, rfl⟩
    have later := spread.removed plain split first after
    rw [List.append_assoc _ inner, replaceAll_append_needle plain filled,
      replaceAll_append_front plain split last, later]
    refine ⟨replaceAll needle [] before, replaceAll needle [] after, ?_⟩
    rw [split]
    simp

end Removal

end Kit
