import Mathlib.Data.List.Basic

namespace Kit

/-- A place in a text, the characters before it nearest first, and what the
group of the pattern holds. -/
structure Cursor where
  before : List Char
  rest : List Char
  group : List Char
  deriving DecidableEq, Repr

/-- The place after a literal text that follows. -/
def Cursor.skip : List Char → Cursor → Option Cursor
  | [], c => some c
  | a :: word, ⟨before, b :: rest, group⟩ => if a = b then skip word ⟨b :: before, rest, group⟩ else none
  | _ :: _, ⟨_, [], _⟩ => none

/-- Patterns with at most one group. -/
inductive Regex where
  | empty
  | char (test : Char → Bool)
  | text (word : List Char)
  | seq (first second : Regex)
  | alt (first second : Regex)
  | star (body : Regex)
  | few (body : Regex)
  | group (body : Regex)
  | boundary (word : Char → Bool)
  | atStart
  | atEnd

namespace Regex

variable {α : Type}

/-- Up to so many rounds of a greedy loop. -/
def greedily (body : (Cursor → Option α) → Cursor → Option α) :
    Nat → (Cursor → Option α) → Cursor → Option α
  | 0, k, c => k c
  | n + 1, k, c => (body (greedily body n k) c).or (k c)

/-- Up to so many rounds of a reluctant loop. -/
def sparingly (body : (Cursor → Option α) → Cursor → Option α) :
    Nat → (Cursor → Option α) → Cursor → Option α
  | 0, k, c => k c
  | n + 1, k, c => (k c).or (body (sparingly body n k) c)

/-- Matching with backtracking: the first way to match, in the order of
preference, after which the rest `k` of the pattern succeeds. No loop needs
more rounds than there are characters left. -/
def run : Regex → (Cursor → Option α) → Cursor → Option α
  | .empty, k, c => k c
  | .char test, k, c =>
    match c.rest with
    | [] => none
    | a :: rest => if test a then k ⟨a :: c.before, rest, c.group⟩ else none
  | .text word, k, c => (c.skip word).bind k
  | .seq first second, k, c => first.run (second.run k) c
  | .alt first second, k, c => (first.run k c).or (second.run k c)
  | .star body, k, c => greedily body.run c.rest.length k c
  | .few body, k, c => sparingly body.run c.rest.length k c
  | .group body, k, c =>
    body.run (fun d => k { d with group := (d.before.take (d.before.length - c.before.length)).reverse }) c
  | .boundary word, k, c => if c.before.head?.any word ≠ c.rest.head?.any word then k c else none
  | .atStart, k, c => if c.before = [] then k c else none
  | .atEnd, k, c => if c.rest = [] ∨ c.rest = ['\n'] then k c else none

def opt (body : Regex) : Regex := .alt body .empty

def plus (body : Regex) : Regex := .seq body (.star body)

def fewPlus (body : Regex) : Regex := .seq body (.few body)

/-- One pattern after the other. -/
def sequence : List Regex → Regex
  | [] => .empty
  | r :: rs => .seq r (sequence rs)

/-- One of several literal texts. -/
def oneOf : List (List Char) → Regex
  | [] => .char fun _ => false
  | [word] => .text word
  | word :: words => .alt (.text word) (oneOf words)

/-- The match at the beginning of a text. -/
def matchStart (r : Regex) (text : List Char) : Option Cursor := r.run some ⟨[], text, []⟩

def searchFrom (r : Regex) : List Char → List Char → Option Cursor
  | before, [] => r.run some ⟨before, [], []⟩
  | before, a :: rest => (r.run some ⟨before, a :: rest, []⟩).or (searchFrom r (a :: before) rest)

/-- The leftmost match in a text. -/
def search (r : Regex) (text : List Char) : Option Cursor := r.searchFrom [] text

end Regex

theorem Cursor.skip_append (word : List Char) (before rest group : List Char) :
    Cursor.skip word ⟨before, word ++ rest, group⟩ = some ⟨word.reverse ++ before, rest, group⟩ := by
  induction word generalizing before with
  | nil => rfl
  | cons a word ih => simp [Cursor.skip, ih]

theorem Cursor.skip_eq_some {word before rest group : List Char} {d : Cursor} :
    Cursor.skip word ⟨before, rest, group⟩ = some d ↔
      ∃ after, rest = word ++ after ∧ d = ⟨word.reverse ++ before, after, group⟩ := by
  constructor
  · intro skipped
    induction word generalizing before rest with
    | nil => exact ⟨rest, rfl, (Option.some.inj skipped).symm⟩
    | cons a word ih =>
      cases rest with
      | nil => cases skipped
      | cons b rest =>
        rw [Cursor.skip] at skipped
        split at skipped
        · rename_i same
          obtain ⟨after, rfl, rfl⟩ := ih skipped
          exact ⟨after, by rw [same, List.cons_append], by simp [same]⟩
        · cases skipped
  · rintro ⟨after, rfl, rfl⟩
    exact Cursor.skip_append ..

theorem Cursor.skip_eq_none {word before rest group : List Char} (absent : ¬word <+: rest) :
    Cursor.skip word ⟨before, rest, group⟩ = none := by
  rw [Option.eq_none_iff_forall_not_mem]
  intro d found
  obtain ⟨after, rfl, _⟩ := Cursor.skip_eq_some.mp found
  exact absent ⟨after, rfl⟩

namespace Regex

variable {α : Type} {k : Cursor → Option α} {before group : List Char} {test : Char → Bool}

theorem run_text (word rest : List Char) :
    (text word).run k ⟨before, word ++ rest, group⟩ = k ⟨word.reverse ++ before, rest, group⟩ := by
  show (Cursor.skip word ⟨before, word ++ rest, group⟩).bind k = _
  rw [Cursor.skip_append]
  rfl

/-- At the beginning of a text `^` matches. -/
theorem matchStart_atStart (rs : List Regex) (text : List Char) :
    (sequence (.atStart :: rs)).matchStart text = (sequence rs).run some ⟨[], text, []⟩ := by
  show (if ([] : List Char) = [] then (sequence rs).run some ⟨[], text, []⟩ else none) = _
  rw [if_pos rfl]

@[simp] theorem run_star_nil : (star (char test)).run k ⟨before, [], group⟩ = k ⟨before, [], group⟩ := rfl

theorem run_star_cons (a : Char) (rest : List Char) :
    (star (char test)).run k ⟨before, a :: rest, group⟩ =
      ((if test a then (star (char test)).run k ⟨a :: before, rest, group⟩ else none).or
        (k ⟨before, a :: rest, group⟩)) := rfl

@[simp] theorem run_few_nil : (few (char test)).run k ⟨before, [], group⟩ = k ⟨before, [], group⟩ := rfl

theorem run_few_cons (a : Char) (rest : List Char) :
    (few (char test)).run k ⟨before, a :: rest, group⟩ =
      (k ⟨before, a :: rest, group⟩).or
        (if test a then (few (char test)).run k ⟨a :: before, rest, group⟩ else none) := rfl

/-- A greedy loop whose continuation fails before the loop's end. -/
theorem run_star_longest {xs ys : List Char} (passed : ∀ a ∈ xs, test a = true)
    (stop : ∀ a ∈ ys.head?, test a = false)
    (short : ∀ as b bs, xs = as ++ b :: bs → k ⟨as.reverse ++ before, b :: bs ++ ys, group⟩ = none) :
    (star (char test)).run k ⟨before, xs ++ ys, group⟩ = k ⟨xs.reverse ++ before, ys, group⟩ := by
  induction xs generalizing before with
  | nil =>
    cases ys with
    | nil => rfl
    | cons a rest =>
      rw [List.nil_append, run_star_cons, stop a rfl]
      rfl
  | cons a xs ih =>
    obtain ⟨here, later⟩ := List.forall_mem_cons.mp passed
    have next := @ih (a :: before) later fun as b bs split => by
      simpa using short (a :: as) b bs (by rw [split, List.cons_append])
    have first : k ⟨before, a :: (xs ++ ys), group⟩ = none := short [] a xs rfl
    rw [List.cons_append, run_star_cons, if_pos here, next, first, Option.or_none]
    simp

/-- A greedy loop whose continuation succeeds at the loop's end. -/
theorem run_star_some {xs ys : List Char} {value : α} (passed : ∀ a ∈ xs, test a = true)
    (stop : ∀ a ∈ ys.head?, test a = false) (done : k ⟨xs.reverse ++ before, ys, group⟩ = some value) :
    (star (char test)).run k ⟨before, xs ++ ys, group⟩ = some value := by
  induction xs generalizing before with
  | nil =>
    cases ys with
    | nil => exact done
    | cons a rest =>
      rw [List.nil_append, run_star_cons, stop a rfl]
      exact done
  | cons a xs ih =>
    obtain ⟨here, later⟩ := List.forall_mem_cons.mp passed
    rw [List.cons_append, run_star_cons, if_pos here, ih later (by simpa using done)]
    rfl

/-- A reluctant loop stops where its continuation first succeeds. -/
theorem run_few_some {xs ys : List Char} {value : α} (passed : ∀ a ∈ xs, test a = true)
    (short : ∀ as b bs, xs = as ++ b :: bs → k ⟨as.reverse ++ before, b :: bs ++ ys, group⟩ = none)
    (done : k ⟨xs.reverse ++ before, ys, group⟩ = some value) :
    (few (char test)).run k ⟨before, xs ++ ys, group⟩ = some value := by
  induction xs generalizing before with
  | nil =>
    cases ys with
    | nil => exact done
    | cons a rest =>
      rw [List.nil_append, run_few_cons, show k ⟨before, a :: rest, group⟩ = some value from done]
      rfl
  | cons a xs ih =>
    obtain ⟨here, later⟩ := List.forall_mem_cons.mp passed
    have next := @ih (a :: before) later (fun as b bs split => by
      simpa using short (a :: as) b bs (by rw [split, List.cons_append])) (by simpa using done)
    have first : k ⟨before, a :: (xs ++ ys), group⟩ = none := short [] a xs rfl
    rw [List.cons_append, run_few_cons, first, if_pos here, next]
    rfl

theorem isSome_star {rest : List Char} : ((star (char test)).run k ⟨before, rest, group⟩).isSome ↔
    ∃ xs ys, rest = xs ++ ys ∧ (∀ a ∈ xs, test a = true) ∧
      (k ⟨xs.reverse ++ before, ys, group⟩).isSome := by
  induction rest generalizing before with
  | nil =>
    constructor
    · exact fun found => ⟨[], [], rfl, nofun, found⟩
    · rintro ⟨xs, ys, split, _, found⟩
      obtain ⟨rfl, rfl⟩ := List.append_eq_nil_iff.mp split.symm
      exact found
  | cons a rest ih =>
    rw [run_star_cons, Option.isSome_or, Bool.or_eq_true]
    constructor
    · rintro (later | here)
      · split at later
        · rename_i passed
          obtain ⟨xs, ys, rfl, all, found⟩ := ih.mp later
          exact ⟨a :: xs, ys, rfl, List.forall_mem_cons.mpr ⟨passed, all⟩, by simpa using found⟩
        · cases later
      · exact ⟨[], a :: rest, rfl, nofun, here⟩
    · rintro ⟨xs, ys, split, all, found⟩
      cases xs with
      | nil =>
        obtain rfl : a :: rest = ys := split
        exact .inr found
      | cons b xs =>
        obtain ⟨rfl, rfl⟩ := List.cons.inj split
        obtain ⟨here, later⟩ := List.forall_mem_cons.mp all
        rw [if_pos here]
        exact .inl (ih.mpr ⟨xs, ys, rfl, later, by simpa using found⟩)

theorem isSome_plus {rest : List Char} : ((plus (char test)).run k ⟨before, rest, group⟩).isSome ↔
    ∃ xs ys, rest = xs ++ ys ∧ xs ≠ [] ∧ (∀ a ∈ xs, test a = true) ∧
      (k ⟨xs.reverse ++ before, ys, group⟩).isSome := by
  show ((char test).run ((star (char test)).run k) ⟨before, rest, group⟩).isSome ↔ _
  cases rest with
  | nil =>
    constructor
    · nofun
    · rintro ⟨xs, ys, split, some, _⟩
      exact absurd (List.append_eq_nil_iff.mp split.symm).1 some
  | cons a rest =>
    show (if test a then (star (char test)).run k ⟨a :: before, rest, group⟩ else none).isSome ↔ _
    constructor
    · intro found
      split at found
      · rename_i passed
        obtain ⟨xs, ys, rfl, all, found⟩ := isSome_star.mp found
        exact ⟨a :: xs, ys, rfl, nofun, List.forall_mem_cons.mpr ⟨passed, all⟩, by simpa using found⟩
      · cases found
    · rintro ⟨xs, ys, split, some, all, found⟩
      cases xs with
      | nil => exact absurd rfl some
      | cons b xs =>
        obtain ⟨rfl, rfl⟩ := List.cons.inj split
        obtain ⟨here, later⟩ := List.forall_mem_cons.mp all
        rw [if_pos here]
        exact isSome_star.mpr ⟨xs, ys, rfl, later, by simpa using found⟩

theorem isSome_text {word rest : List Char} : ((text word).run k ⟨before, rest, group⟩).isSome ↔
    ∃ after, rest = word ++ after ∧ (k ⟨word.reverse ++ before, after, group⟩).isSome := by
  show ((Cursor.skip word ⟨before, rest, group⟩).bind k).isSome ↔ _
  rw [Option.isSome_bind, Option.any_eq_true]
  constructor
  · rintro ⟨d, skipped, found⟩
    obtain ⟨after, split, rfl⟩ := Cursor.skip_eq_some.mp skipped
    exact ⟨after, split, found⟩
  · rintro ⟨after, rfl, found⟩
    exact ⟨_, Cursor.skip_append .., found⟩

/-- A reluctant loop matches where a greedy one does. -/
theorem isSome_few {rest : List Char} : ((few (char test)).run k ⟨before, rest, group⟩).isSome =
    ((star (char test)).run k ⟨before, rest, group⟩).isSome := by
  induction rest generalizing before with
  | nil => rfl
  | cons a rest ih =>
    rw [run_few_cons, run_star_cons, Option.isSome_or, Option.isSome_or, Bool.or_comm]
    by_cases passed : test a
    · rw [if_pos passed, if_pos passed, ih]
    · rw [if_neg passed, if_neg passed]

theorem isSome_fewPlus {rest : List Char} : ((fewPlus (char test)).run k ⟨before, rest, group⟩).isSome =
    ((plus (char test)).run k ⟨before, rest, group⟩).isSome := by
  cases rest with
  | nil => rfl
  | cons a rest =>
    show (if test a then (few (char test)).run k ⟨a :: before, rest, group⟩ else none).isSome =
      (if test a then (star (char test)).run k ⟨a :: before, rest, group⟩ else none).isSome
    by_cases passed : test a
    · rw [if_pos passed, if_pos passed, isSome_few]
    · rw [if_neg passed, if_neg passed]

/-- A greedy loop whose body does not match. -/
theorem greedily_stop {body : (Cursor → Option α) → Cursor → Option α} {c : Cursor}
    (stuck : ∀ k, body k c = none) (n : Nat) : greedily body n k c = k c := by
  cases n with
  | zero => rfl
  | succ n => rw [greedily, stuck, Option.none_or]

theorem run_oneOf_cons (first : List Char) {words : List (List Char)} (more : words ≠ []) (c : Cursor) :
    (oneOf (first :: words)).run k c = ((text first).run k c).or ((oneOf words).run k c) := by
  cases words with
  | nil => exact absurd rfl more
  | cons => rfl

theorem run_oneOf_some {words : List (List Char)} {word rest : List Char} {value : α} (mem : word ∈ words)
    (only : ∀ other ∈ words, other <+: word ++ rest → other = word)
    (done : k ⟨word.reverse ++ before, rest, group⟩ = some value) :
    (oneOf words).run k ⟨before, word ++ rest, group⟩ = some value := by
  have taken : (text word).run k ⟨before, word ++ rest, group⟩ = some value := by rw [run_text, done]
  induction words using oneOf.induct with
  | case1 => cases mem
  | case2 single =>
    obtain rfl := List.mem_singleton.mp mem
    exact taken
  | case3 first words more ih =>
    rw [run_oneOf_cons first more]
    by_cases same : first = word
    · rw [same, taken, Option.some_or]
    · have later := (List.mem_cons.mp mem).resolve_left (Ne.symm same)
      have skipped : (text first).run k ⟨before, word ++ rest, group⟩ = none := by
        have absent : ¬first <+: word ++ rest := fun begins => same (only first List.mem_cons_self begins)
        show (Cursor.skip first ⟨before, word ++ rest, group⟩).bind k = none
        rw [Cursor.skip_eq_none absent, Option.bind_none]
      rw [skipped, Option.none_or, ih later fun other among => only other (List.mem_cons_of_mem _ among)]

theorem isSome_oneOf {words : List (List Char)} {rest : List Char}
    (found : ((oneOf words).run k ⟨before, rest, group⟩).isSome) :
    ∃ word ∈ words, ∃ after, rest = word ++ after ∧ (k ⟨word.reverse ++ before, after, group⟩).isSome := by
  induction words using oneOf.induct with
  | case1 => cases rest <;> cases found
  | case2 word => exact ⟨word, List.mem_singleton_self word, isSome_text.mp found⟩
  | case3 first words more ih =>
    rw [run_oneOf_cons first more, Option.isSome_or, Bool.or_eq_true] at found
    rcases found with here | later
    · obtain ⟨after, split, matched⟩ := isSome_text.mp here
      exact ⟨first, List.mem_cons_self, after, split, matched⟩
    · obtain ⟨word, mem, after⟩ := ih later
      exact ⟨word, List.mem_cons_of_mem _ mem, after⟩

variable {r : Regex} {d : Cursor}

/-- The leftmost match: none begins before it. -/
theorem searchFrom_eq_some {text : List Char} : r.searchFrom before text = some d ↔
    ∃ xs rest, text = xs ++ rest ∧ r.run some ⟨xs.reverse ++ before, rest, []⟩ = some d ∧
      ∀ as b bs, xs = as ++ b :: bs → r.run some ⟨as.reverse ++ before, b :: bs ++ rest, []⟩ = none := by
  induction text generalizing before with
  | nil =>
    constructor
    · exact fun found => ⟨[], [], rfl, found, fun as _ _ split => by cases as <;> cases split⟩
    · rintro ⟨xs, rest, split, found, _⟩
      obtain ⟨rfl, rfl⟩ := List.append_eq_nil_iff.mp split.symm
      exact found
  | cons a text ih =>
    rw [searchFrom, Option.or_eq_some_iff]
    constructor
    · rintro (here | ⟨none, later⟩)
      · exact ⟨[], a :: text, rfl, here, fun as _ _ split => by cases as <;> cases split⟩
      · obtain ⟨xs, rest, rfl, found, earlier⟩ := ih.mp later
        refine ⟨a :: xs, rest, rfl, by simpa using found, fun as b bs split => ?_⟩
        cases as with
        | nil =>
          obtain ⟨rfl, rfl⟩ := List.cons.inj split
          exact none
        | cons a' as =>
          obtain ⟨rfl, rfl⟩ := List.cons.inj split
          simpa using earlier as b bs rfl
    · rintro ⟨xs, rest, split, found, earlier⟩
      cases xs with
      | nil =>
        obtain rfl : a :: text = rest := split
        exact .inl found
      | cons a' xs =>
        obtain ⟨rfl, rfl⟩ := List.cons.inj split
        refine .inr ⟨earlier [] a xs rfl, ih.mpr ⟨xs, rest, rfl,
          by simpa using found, fun as b bs split => ?_⟩⟩
        simpa using earlier (a :: as) b bs (by rw [split, List.cons_append])

theorem search_eq_some {text : List Char} : r.search text = some d ↔
    ∃ xs rest, text = xs ++ rest ∧ r.run some ⟨xs.reverse, rest, []⟩ = some d ∧
      ∀ as b bs, xs = as ++ b :: bs → r.run some ⟨as.reverse, b :: bs ++ rest, []⟩ = none := by
  simpa [search] using (searchFrom_eq_some : r.searchFrom [] text = some d ↔ _)

theorem isSome_searchFrom {text : List Char} : (r.searchFrom before text).isSome ↔
    ∃ xs rest, text = xs ++ rest ∧ (r.run some ⟨xs.reverse ++ before, rest, []⟩).isSome := by
  induction text generalizing before with
  | nil =>
    constructor
    · exact fun found => ⟨[], [], rfl, found⟩
    · rintro ⟨xs, rest, split, found⟩
      obtain ⟨rfl, rfl⟩ := List.append_eq_nil_iff.mp split.symm
      exact found
  | cons a text ih =>
    rw [searchFrom, Option.isSome_or, Bool.or_eq_true, ih]
    constructor
    · rintro (here | ⟨xs, rest, rfl, found⟩)
      · exact ⟨[], a :: text, rfl, here⟩
      · exact ⟨a :: xs, rest, rfl, by simpa using found⟩
    · rintro ⟨xs, rest, split, found⟩
      cases xs with
      | nil =>
        obtain rfl : a :: text = rest := split
        exact .inl found
      | cons b xs =>
        obtain ⟨rfl, rfl⟩ := List.cons.inj split
        exact .inr ⟨xs, rest, rfl, by simpa using found⟩

theorem isSome_search {text : List Char} : (r.search text).isSome ↔
    ∃ xs rest, text = xs ++ rest ∧ (r.run some ⟨xs.reverse, rest, []⟩).isSome := by
  simpa [search] using (isSome_searchFrom : (r.searchFrom [] text).isSome ↔ _)

end Regex

/-- A match leads from one place to another: over some characters, with the
group as it was or with some of them. -/
def Cursor.Leads (c d : Cursor) : Prop :=
  ∃ xs, c.rest = xs ++ d.rest ∧ d.before = xs.reverse ++ c.before ∧ (d.group = c.group ∨ d.group <:+: xs)

namespace Cursor

theorem Leads.refl (c : Cursor) : c.Leads c := ⟨[], rfl, rfl, .inl rfl⟩

theorem Leads.trans {c d e : Cursor} (first : c.Leads d) (second : d.Leads e) : c.Leads e := by
  obtain ⟨xs, rest, before, held⟩ := first
  obtain ⟨ys, rest', before', held'⟩ := second
  refine ⟨xs ++ ys, by rw [rest, rest', List.append_assoc], by rw [before', before]; simp, ?_⟩
  rcases held' with same | later
  · rw [same]
    exact held.imp_right fun within => within.trans (List.prefix_append xs ys).isInfix
  · exact .inr (later.trans (List.suffix_append xs ys).isInfix)

end Cursor

namespace Regex

variable {α : Type}

/-- A match of the body leads on. -/
def Advances (body : (Cursor → Option α) → Cursor → Option α) : Prop :=
  ∀ k c value, body k c = some value → ∃ d, c.Leads d ∧ k d = some value

theorem Advances.greedily {body : (Cursor → Option α) → Cursor → Option α} (advances : Advances body)
    (n : Nat) : Advances (Regex.greedily body n) := by
  induction n with
  | zero => exact fun k c value found => ⟨c, .refl c, found⟩
  | succ n ih =>
    intro k c value found
    rcases Option.or_eq_some_iff.mp found with again | ⟨_, done⟩
    · obtain ⟨d, first, later⟩ := advances _ c value again
      obtain ⟨e, second, done⟩ := ih k d value later
      exact ⟨e, first.trans second, done⟩
    · exact ⟨c, .refl c, done⟩

theorem Advances.sparingly {body : (Cursor → Option α) → Cursor → Option α} (advances : Advances body)
    (n : Nat) : Advances (Regex.sparingly body n) := by
  induction n with
  | zero => exact fun k c value found => ⟨c, .refl c, found⟩
  | succ n ih =>
    intro k c value found
    rcases Option.or_eq_some_iff.mp found with done | ⟨_, again⟩
    · exact ⟨c, .refl c, done⟩
    · obtain ⟨d, first, later⟩ := advances _ c value again
      obtain ⟨e, second, done⟩ := ih k d value later
      exact ⟨e, first.trans second, done⟩

theorem run_advances (r : Regex) : Advances (r.run (α := α)) := by
  induction r with
  | empty => exact fun k c value found => ⟨c, .refl c, found⟩
  | char test =>
    rintro k ⟨before, rest, group⟩ value found
    cases rest with
    | nil => cases found
    | cons a rest =>
      obtain ⟨_, done⟩ := Option.ite_none_right_eq_some.mp found
      exact ⟨⟨a :: before, rest, group⟩, ⟨[a], rfl, rfl, .inl rfl⟩, done⟩
  | text word =>
    rintro k ⟨before, rest, group⟩ value found
    obtain ⟨d, skipped, done⟩ := Option.bind_eq_some_iff.mp found
    obtain ⟨after, rfl, rfl⟩ := Cursor.skip_eq_some.mp skipped
    exact ⟨⟨word.reverse ++ before, after, group⟩, ⟨word, rfl, rfl, .inl rfl⟩, done⟩
  | seq first second ih ih' =>
    intro k c value found
    obtain ⟨d, leads, later⟩ := ih _ c value found
    obtain ⟨e, on, done⟩ := ih' k d value later
    exact ⟨e, leads.trans on, done⟩
  | alt first second ih ih' =>
    intro k c value found
    rcases Option.or_eq_some_iff.mp found with here | ⟨_, there⟩
    · exact ih k c value here
    · exact ih' k c value there
  | star body ih => exact fun k c value found => ih.greedily _ k c value found
  | few body ih => exact fun k c value found => ih.sparingly _ k c value found
  | group body ih =>
    intro k c value found
    obtain ⟨d, ⟨xs, rest, before, _⟩, done⟩ := ih _ c value found
    have whole : (d.before.take (d.before.length - c.before.length)).reverse = xs := by simp [before]
    refine ⟨{ d with group := xs }, ⟨xs, rest, before, .inr List.infix_rfl⟩, ?_⟩
    rwa [whole] at done
  | boundary word =>
    intro k c value found
    exact ⟨c, .refl c, (Option.ite_none_right_eq_some.mp found).2⟩
  | atStart =>
    intro k c value found
    exact ⟨c, .refl c, (Option.ite_none_right_eq_some.mp found).2⟩
  | atEnd =>
    intro k c value found
    exact ⟨c, .refl c, (Option.ite_none_right_eq_some.mp found).2⟩

/-- The group of a match is a part of the text. -/
theorem run_group {r : Regex} {before rest : List Char} {d : Cursor}
    (found : r.run some ⟨before, rest, []⟩ = some d) : d.group <:+: rest := by
  obtain ⟨e, ⟨xs, split, _, held⟩, done⟩ := r.run_advances some _ d found
  obtain rfl := Option.some.inj done
  have within : xs <:+: rest := ⟨[], e.rest, by simpa using split.symm⟩
  rcases held with none_ | captured
  · rw [none_]
    exact List.nil_infix
  · exact captured.trans within

theorem matchStart_group {r : Regex} {text : List Char} {d : Cursor} (found : r.matchStart text = some d) :
    d.group <:+: text :=
  run_group found

end Regex

end Kit
