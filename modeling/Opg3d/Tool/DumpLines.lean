import Opg3d.Tool.Dump
import Opg3d.Tool.Patterns

namespace Opg3d.Symbolize

open Kit

theorem namespaceRe_some (blanks : Nat) {space : Text} (dotted : ∀ c ∈ space, isSpace c = false) :
    ∃ d, namespaceRe.matchStart ("// Namespace:".toList ++ (List.replicate blanks ' ' ++ space)) = some d ∧
      d.group = space := by
  let blank : Text := List.replicate blanks ' '
  have spaces : ∀ c ∈ blank, isSpace c = true := fun c mem => by rw [List.eq_of_mem_replicate mem]; rfl
  have ended (before : Text) : (Regex.sequence [.group (.star (.char (· ≠ '\n'))), .atEnd]).run some
      ⟨before, space, []⟩ = some ⟨space.reverse ++ before, [], space⟩ := by
    have oneLine : ∀ c ∈ space, decide (c ≠ '\n') = true := by
      intro c mem
      have dark := dotted c mem
      by_contra newline
      have same : c = '\n' := by simpa using newline
      rw [same] at dark
      cases dark
    have whole := @Regex.run_star_some _ (fun d : Cursor => (Regex.sequence [.atEnd]).run some
      { d with group := (d.before.take (d.before.length - before.length)).reverse }) before [] (· ≠ '\n') space []
      ⟨space.reverse ++ before, [], space⟩ oneLine nofun (by
        show some (Cursor.mk _ _ _) = _
        rw [captured])
    rw [List.append_nil] at whole
    exact whole
  have gap (before : Text) : (Regex.sequence [.star (.char isSpace),
      .group (.star (.char (· ≠ '\n'))), .atEnd]).run some
      ⟨before, blank ++ space, []⟩ = some ⟨space.reverse ++ (blank.reverse ++ before), [], space⟩ := by
    refine Regex.run_star_some spaces ?_ (ended _)
    intro c first
    exact dotted c (List.mem_of_mem_head? first)
  refine ⟨⟨space.reverse ++ (blank.reverse ++ "// Namespace:".toList.reverse), [], space⟩, ?_, rfl⟩
  rw [namespaceRe, Regex.matchStart_atStart]
  show (Regex.text "//".toList).run _ ⟨[], "//".toList ++ (" Namespace:".toList ++ (blank ++ space)), []⟩ = _
  rw [Regex.run_text]
  show (Regex.star (.char isSpace)).run _ ⟨_, [' '] ++ ("Namespace:".toList ++ (blank ++ space)), []⟩ = _
  refine Regex.run_star_some (by decide) (fun c first => ?_) ?_
  · obtain rfl : 'N' = c := Option.some.inj first
    rfl
  show (Regex.text "Namespace:".toList).run _ ⟨_, "Namespace:".toList ++ (blank ++ space), []⟩ = _
  rw [Regex.run_text]
  exact gap _

theorem namespaceRe_none {line : Text} (code : ¬"//".toList <+: line) :
    namespaceRe.matchStart line = none := by
  rw [namespaceRe, Regex.matchStart_atStart]
  show (Cursor.skip "//".toList ⟨[], line, []⟩).bind _ = none
  rw [Cursor.skip_eq_none code, Option.bind_none]

section Keyword

variable {α : Type} {k : Cursor → Option α} {before group : Text} {words : List Text}

/-- Words without white space, none the beginning of another one. -/
def Keywords (words : List Text) : Prop :=
  (∀ word ∈ words, ∀ c ∈ word, isSpace c = false) ∧ ∀ word ∈ words, ∀ other ∈ words,
    other <+: word → other = word

instance : DecidablePred Keywords := fun _ => inferInstanceAs (Decidable (_ ∧ _))

theorem keywords_access : Keywords accessWords := by decide

theorem keywords_modifier : Keywords modifierWords := by decide

theorem keywords_kind : Keywords kindWords := by decide

theorem keyword_some (set : Keywords words) {word rest : Text} {value : α} (mem : word ∈ words)
    (dark : ∀ c ∈ rest.head?, isSpace c = false)
    (done : k ⟨' ' :: (word.reverse ++ before), rest, group⟩ = some value) :
    (keyword words).run k ⟨before, word ++ ' ' :: rest, group⟩ = some value := by
  refine Regex.run_oneOf_some mem ?_ ?_
  · intro other among begins
    have spaceless : ' ' ∉ other := fun blank => absurd (set.1 other among ' ' blank) (by decide)
    exact set.2 word mem other among (prefix_before begins spaceless)
  · show (Regex.star (.char isSpace)).run k ⟨' ' :: (word.reverse ++ before),
      [] ++ rest, group⟩ = some value
    exact Regex.run_star_some nofun dark done

/-- A keyword is the first word of what it matches. -/
theorem keyword_isSome (set : Keywords words) {text : Text}
    (found : ((keyword words).run k ⟨before, text, group⟩).isSome) :
    ∃ word ∈ words, ∃ space after, text = word ++ (space ++ after) ∧ space ≠ [] ∧
      (∀ c ∈ space, isSpace c = true) ∧ text.takeWhile (fun c => !isSpace c) = word ∧
        (k ⟨space.reverse ++ (word.reverse ++ before), after, group⟩).isSome := by
  obtain ⟨word, mem, rest, rfl, later⟩ := Regex.isSome_oneOf found
  obtain ⟨space, after, rfl, some_, blank, matched⟩ := Regex.isSome_plus.mp later
  refine ⟨word, mem, space, after, rfl, some_, blank, ?_, matched⟩
  refine takeWhile_span (fun c member => by simp [set.1 word mem c member]) ?_
  obtain ⟨c, rest, rfl⟩ := List.exists_cons_of_ne_nil some_
  intro a first
  obtain rfl : c = a := Option.some.inj first
  simp [blank c List.mem_cons_self]

/-- Before a word and a blank, the keyword is that word. -/
theorem keyword_isSome_word (set : Keywords words) {word rest : Text}
    (plain : ∀ c ∈ word, isSpace c = false) (dark : ∀ c ∈ rest.head?, isSpace c = false)
    (found : ((keyword words).run k ⟨before, word ++ ' ' :: rest, group⟩).isSome) :
    word ∈ words ∧ (k ⟨' ' :: (word.reverse ++ before), rest, group⟩).isSome := by
  obtain ⟨first, mem, space, after, split, some_, blank, taken, found⟩ := keyword_isSome set found
  have whole : (word ++ ' ' :: rest).takeWhile (fun c => !isSpace c) = word :=
    takeWhile_span (fun c member => by simp [plain c member]) fun c first => by
      obtain rfl : ' ' = c := Option.some.inj first
      rfl
  obtain rfl : word = first := whole.symm.trans taken
  have same := List.append_cancel_left split
  obtain ⟨c, space, rfl⟩ := List.exists_cons_of_ne_nil some_
  obtain ⟨rfl, rest_eq⟩ := List.cons.inj same
  cases space with
  | nil =>
    obtain rfl : rest = after := rest_eq
    exact ⟨mem, found⟩
  | cons c space =>
    have visible := dark c (by rw [rest_eq]; rfl)
    rw [blank c (by simp)] at visible
    cases visible

end Keyword

/-- `\s*(?::|$)` -/
def nameEnd : Regex := .sequence [.star (.char isSpace), .alt (.text ":".toList) .atEnd]

/-- What may follow a type's name in its declaration. -/
def NameEnds (text : Text) : Prop := text = [] ∨ ∃ after, text = ':' :: after ∨ text = ' ' :: ':' :: after

theorem nameEnd_some {text : Text} (ends : NameEnds text) (before group : Text) :
    ∃ d, nameEnd.run some ⟨before, text, group⟩ = some d ∧ d.group = group := by
  have colon (before after : Text) :
      nameEnd.run some ⟨before, ':' :: after, group⟩ = some ⟨':' :: before, after, group⟩ := by
    show (Regex.star (.char isSpace)).run _ ⟨before, [] ++ ':' :: after, group⟩ = _
    refine Regex.run_star_some nofun (fun c first => ?_) rfl
    obtain rfl : ':' = c := Option.some.inj first
    rfl
  rcases ends with rfl | ⟨after, rfl | rfl⟩
  · exact ⟨_, rfl, rfl⟩
  · exact ⟨_, colon before after, rfl⟩
  · refine ⟨⟨':' :: ' ' :: before, after, group⟩, ?_, rfl⟩
    show (Regex.star (.char isSpace)).run _ ⟨before, [' '] ++ ':' :: after, group⟩ = _
    refine Regex.run_star_some (by decide) (fun c first => ?_) rfl
    obtain rfl : ':' = c := Option.some.inj first
    rfl

theorem nameEnd_isSome {before text group : Text}
    (found : (nameEnd.run some ⟨before, text, group⟩).isSome) :
    ∃ space after, text = space ++ after ∧ (∀ c ∈ space, isSpace c = true) ∧
      (after.head? = some ':' ∨ after = [] ∨ after = ['\n']) := by
  obtain ⟨space, after, split, blank, found⟩ := Regex.isSome_star.mp found
  refine ⟨space, after, split, blank, ?_⟩
  by_cases ended : after = [] ∨ after = ['\n']
  · exact Or.inr ended
  left
  have colon : (((Regex.text ":".toList).run some ⟨space.reverse ++ before, after, group⟩).or
      (if after = [] ∨ after = ['\n'] then some ⟨space.reverse ++ before, after, group⟩ else none)).isSome :=
    found
  rw [if_neg ended, Option.or_none] at colon
  obtain ⟨rest, rfl, _⟩ := Regex.isSome_text.mp colon
  rfl

theorem nameEnd_none {name rest : Text} (some_ : name ≠ []) (plain : ':' ∉ name)
    (dark : ∀ c ∈ name.getLast?, isSpace c = false) (before group : Text) :
    nameEnd.run some ⟨before, name ++ rest, group⟩ = none := by
  rw [← Option.not_isSome_iff_eq_none]
  intro found
  obtain ⟨space, after, split, blank, ended⟩ := nameEnd_isSome found
  obtain ⟨front, last, rfl⟩ := name.eq_nil_or_concat.resolve_left some_
  have visible : isSpace last = false := dark last (by simp)
  rcases List.append_eq_append_iff.mp split with ⟨more, longer, _⟩ | ⟨tail, whole, later⟩
  · have mem : last ∈ space := by simp [longer]
    rw [blank last mem] at visible
    cases visible
  · have within : tail ≠ [] := by
      intro nothing
      rw [nothing, List.append_nil] at whole
      rw [blank last (by simp [← whole])] at visible
      cases visible
    obtain ⟨c, tail, rfl⟩ := List.exists_cons_of_ne_nil within
    rw [later] at ended
    rcases ended with colon | nothing | newline
    · obtain rfl : c = ':' := Option.some.inj colon
      exact plain (by rw [whole]; simp)
    · cases nothing
    · obtain ⟨rfl, others⟩ := List.cons.inj newline
      obtain ⟨rfl, _⟩ := List.append_eq_nil_iff.mp others
      have same : last = '\n' := by simpa using congrArg List.getLast? whole
      rw [same] at visible
      cases visible

/-- The name that the pattern takes is the whole name. -/
theorem typeNameRe_some {name rest : Text} (some_ : name ≠ []) (plain : ∀ c ∈ name, c ≠ ':' ∧ c ≠ '{')
    (dark : ∀ c ∈ name.getLast?, isSpace c = false) (ends : NameEnds rest) (before group : Text) :
    ∃ d, typeNameRe.run some ⟨before, name ++ rest, group⟩ = some d ∧ d.group = name := by
  obtain ⟨a, tail, rfl⟩ := List.exists_cons_of_ne_nil some_
  obtain ⟨first, others⟩ := List.forall_mem_cons.mp plain
  obtain ⟨d, done, group_eq⟩ := nameEnd_some ends (tail.reverse ++ a :: before) (a :: tail)
  refine ⟨d, ?_, group_eq⟩
  let k : Cursor → Option Cursor := fun d =>
    nameEnd.run some { d with group := (d.before.take (d.before.length - before.length)).reverse }
  show (if decide (a ≠ ':' ∧ a ≠ '{') then (Regex.few _).run k
    ⟨a :: before, tail ++ rest, group⟩ else none) = some d
  rw [if_pos (by simpa using first)]
  refine Regex.run_few_some (fun c mem => by simpa using others c mem) ?_ ?_
  · intro as b bs split
    have colonless : ':' ∉ b :: bs := by
      intro colon
      have mem : ':' ∈ tail := by rw [split]; exact List.mem_append_right _ colon
      exact (others ':' mem).1 rfl
    have visible : ∀ c ∈ (b :: bs).getLast?, isSpace c = false := by
      intro c last
      refine dark c ?_
      rw [split, Option.mem_def]
      rw [Option.mem_def] at last
      simp [List.getLast?_cons, List.getLast?_append, last]
    exact nameEnd_none (List.cons_ne_nil b bs) colonless visible _ _
  · have whole := captured (a :: tail) before
    rw [List.reverse_cons, List.append_assoc, List.singleton_append] at whole
    show nameEnd.run some ⟨_, _, _⟩ = some d
    rw [whole, done]

/-- A name with a brace is none for the pattern. -/
theorem typeNameRe_brace {name rest : Text} (plain : ':' ∉ name) (brace : '{' ∈ name)
    (before group : Text) : typeNameRe.run some ⟨before, name ++ rest, group⟩ = none := by
  rw [← Option.not_isSome_iff_eq_none]
  intro found
  have loop := (@Regex.isSome_fewPlus _ _ _ _ (fun c => c ≠ ':' ∧ c ≠ '{') _).symm.trans found
  obtain ⟨front, later, split, _, passed, found⟩ := Regex.isSome_plus.mp loop
  obtain ⟨space, after, rfl, blank, ended⟩ := nameEnd_isSome found
  have absent : '{' ∉ front ++ space := by
    intro mem
    rcases List.mem_append.mp mem with inside | behind
    · exact absurd (passed '{' inside) (by decide)
    · exact absurd (blank '{' behind) (by decide)
  rw [← List.append_assoc] at split
  rcases List.append_eq_append_iff.mp split with ⟨more, longer, _⟩ | ⟨tail, whole, later⟩
  · exact absent (by rw [longer]; exact List.mem_append_left _ brace)
  · have mem : '{' ∈ tail := (List.mem_append.mp (whole ▸ brace)).resolve_left absent
    obtain ⟨c, tail, rfl⟩ := List.exists_cons_of_ne_nil (List.ne_nil_of_mem mem)
    rw [later] at ended
    rcases ended with colon | nothing | newline
    · obtain rfl : c = ':' := Option.some.inj colon
      exact plain (by rw [whole]; simp)
    · cases nothing
    · obtain ⟨rfl, others⟩ := List.cons.inj newline
      obtain ⟨rfl, _⟩ := List.append_eq_nil_iff.mp others
      exact absurd mem (by decide)

/-- What follows the accessibility. -/
def typeTail : Regex := .sequence [.star (keyword modifierWords), keyword kindWords, typeNameRe]

def firstWord (text : Text) : Text := text.takeWhile fun c => !isSpace c

/-- A word as it stands between blanks. -/
def Solid (word : Text) : Prop := word ≠ [] ∧ ∀ c ∈ word, isSpace c = false

theorem solid_of_mem {words : List Text} {word : Text} (set : Keywords words) (filled : [] ∉ words)
    (mem : word ∈ words) : Solid word :=
  ⟨fun nothing => filled (nothing ▸ mem), set.1 word mem⟩

theorem Solid.head {word : Text} (solid : Solid word) (rest : Text) :
    ∀ c ∈ (word ++ rest).head?, isSpace c = false := by
  obtain ⟨a, word, rfl⟩ := List.exists_cons_of_ne_nil solid.1
  intro c first
  obtain rfl : a = c := Option.some.inj first
  exact solid.2 a List.mem_cons_self

@[simp] theorem spaced_nil : spaced [] = [] := rfl

@[simp] theorem spaced_cons (word : Text) (words : List Text) :
    spaced (word :: words) = word ++ ' ' :: spaced words := by
  simp [spaced]

theorem spaced_append (words more : List Text) : spaced (words ++ more) = spaced words ++ spaced more :=
  List.flatMap_append

theorem head_spaced {words : List Text} {rest : Text} (solid : ∀ word ∈ words, Solid word)
    (dark : ∀ c ∈ rest.head?, isSpace c = false) :
    ∀ c ∈ (spaced words ++ rest).head?, isSpace c = false := by
  cases words with
  | nil => exact dark
  | cons word words =>
    rw [spaced_cons, List.append_assoc]
    exact (solid word List.mem_cons_self).head _

theorem typeTail_some {modifier : Option Text} {kind name rest : Text}
    (known : ∀ word ∈ modifier, word ∈ modifierWords) (mem : kind ∈ kindWords) (some_ : name ≠ [])
    (plain : ∀ c ∈ name, c ≠ ':' ∧ c ≠ '{') (start : ∀ c ∈ name.head?, isSpace c = false)
    (stop : ∀ c ∈ name.getLast?, isSpace c = false) (ends : NameEnds rest) (before : Text) :
    ∃ d, typeTail.run some ⟨before, spaced modifier.toList ++ (kind ++ ' ' :: (name ++ rest)), []⟩ = some d ∧
      d.group = name := by
  have visible : ∀ c ∈ (name ++ rest).head?, isSpace c = false := by
    obtain ⟨a, tail, rfl⟩ := List.exists_cons_of_ne_nil some_
    exact start
  have kindSolid : ∀ c ∈ kind, isSpace c = false := keywords_kind.1 kind mem
  have stuck (at_ : Text) (k : Cursor → Option Cursor) :
      (keyword modifierWords).run k ⟨at_, kind ++ ' ' :: (name ++ rest), []⟩ = none := by
    rw [← Option.not_isSome_iff_eq_none]
    intro found
    have both := (keyword_isSome_word keywords_modifier kindSolid visible found).1
    have apart : ∀ word ∈ kindWords, word ∉ modifierWords := by decide
    exact apart kind mem both
  have named (at_ : Text) : ∃ d, (keyword kindWords).run (typeNameRe.run some)
      ⟨at_, kind ++ ' ' :: (name ++ rest), []⟩ = some d ∧ d.group = name := by
    obtain ⟨d, matched, group⟩ := typeNameRe_some some_ plain stop ends (' ' :: (kind.reverse ++ at_)) []
    exact ⟨d, keyword_some keywords_kind mem visible matched, group⟩
  cases modifier with
  | none =>
    obtain ⟨d, matched, group⟩ := named before
    exact ⟨d, (Regex.greedily_stop (stuck before) _).trans matched, group⟩
  | some word =>
    obtain ⟨d, matched, group⟩ := named (' ' :: (word.reverse ++ before))
    refine ⟨d, ?_, group⟩
    have length : ∃ n, (word ++ ' ' :: (kind ++ ' ' :: (name ++ rest))).length = n + 1 :=
      ⟨_, by rw [List.length_append, List.length_cons]; rfl⟩
    obtain ⟨n, length⟩ := length
    have text : spaced (some word).toList ++ (kind ++ ' ' :: (name ++ rest)) =
        word ++ ' ' :: (kind ++ ' ' :: (name ++ rest)) := by simp
    have start := (solid_of_mem keywords_kind (by decide) mem).head (' ' :: (name ++ rest))
    have once := keyword_some keywords_modifier (known word rfl) start
      ((Regex.greedily_stop (stuck _) n).trans matched)
    rw [text]
    show Regex.greedily (keyword modifierWords).run _ ((keyword kindWords).run (typeNameRe.run some)) _ = some d
    rw [length, Regex.greedily, once, Option.some_or]

/-- What words in front of a text are where the pattern for the rest of a
declaration matches: modifiers and a kind, or they go on into the text. -/
def Declares (words : List Text) (rest : Text) : Prop :=
  (∃ modifiers kind others, words = modifiers ++ kind :: others ∧
    (∀ word ∈ modifiers, word ∈ modifierWords) ∧
    kind ∈ kindWords ∧ ∃ before group, (typeNameRe.run some ⟨before, spaced others ++ rest, group⟩).isSome) ∨
  (∀ word ∈ words, word ∈ modifierWords) ∧ (firstWord rest ∈ modifierWords ∨ firstWord rest ∈ kindWords)

theorem Declares.modifier {word : Text} {words : List Text} {rest : Text} (mem : word ∈ modifierWords)
    (declares : Declares words rest) : Declares (word :: words) rest := by
  rcases declares with ⟨modifiers, kind, others, rfl, known, kindMem, matched⟩ | ⟨known, next⟩
  · exact Or.inl ⟨word :: modifiers, kind, others, rfl, List.forall_mem_cons.mpr ⟨mem, known⟩,
      kindMem, matched⟩
  · exact Or.inr ⟨List.forall_mem_cons.mpr ⟨mem, known⟩, next⟩

section Words

variable {words : List Text} {rest before group : Text}

theorem kind_isSome (solid : ∀ word ∈ words, Solid word) (dark : ∀ c ∈ rest.head?, isSpace c = false)
    (found : ((keyword kindWords).run (typeNameRe.run some) ⟨before, spaced words ++ rest, group⟩).isSome) :
    Declares words rest := by
  cases words with
  | nil =>
    obtain ⟨word, mem, _, _, _, _, _, taken, _⟩ := keyword_isSome keywords_kind found
    have first : firstWord rest = word := taken
    exact Or.inr ⟨List.forall_mem_nil _, Or.inr (first ▸ mem)⟩
  | cons word words =>
    obtain ⟨here, later⟩ := List.forall_mem_cons.mp solid
    rw [spaced_cons, List.append_assoc, List.cons_append] at found
    obtain ⟨mem, matched⟩ := keyword_isSome_word keywords_kind here.2 (head_spaced later dark) found
    exact Or.inl ⟨[], word, words, rfl, List.forall_mem_nil _, mem, _, _, matched⟩

theorem modifiers_isSome (solid : ∀ word ∈ words, Solid word)
    (dark : ∀ c ∈ rest.head?, isSpace c = false) (n : Nat)
    (found : (Regex.greedily (keyword modifierWords).run n ((keyword kindWords).run (typeNameRe.run some))
      ⟨before, spaced words ++ rest, group⟩).isSome) :
    Declares words rest := by
  induction n generalizing before words with
  | zero => exact kind_isSome solid dark found
  | succ n ih =>
    rw [Regex.greedily, Option.isSome_or, Bool.or_eq_true] at found
    rcases found with again | kind
    · cases words with
      | nil =>
        obtain ⟨word, mem, _, _, _, _, _, taken, _⟩ := keyword_isSome keywords_modifier again
        have first : firstWord rest = word := taken
        exact Or.inr ⟨List.forall_mem_nil _, Or.inl (first ▸ mem)⟩
      | cons word words =>
        obtain ⟨here, later⟩ := List.forall_mem_cons.mp solid
        rw [spaced_cons, List.append_assoc, List.cons_append] at again
        obtain ⟨mem, matched⟩ := keyword_isSome_word keywords_modifier here.2 (head_spaced later dark) again
        exact (ih later matched).modifier mem
    · exact kind_isSome solid dark kind

theorem typeTail_isSome (solid : ∀ word ∈ words, Solid word) (dark : ∀ c ∈ rest.head?, isSpace c = false)
    (found : (typeTail.run some ⟨before, spaced words ++ rest, group⟩).isSome) : Declares words rest :=
  modifiers_isSome solid dark _ found

/-- An accessibility of one word may stand before the rest. -/
theorem typeRe_isSome {word : Text} (solid : ∀ other ∈ word :: words, Solid other)
    (dark : ∀ c ∈ rest.head?, isSpace c = false)
    (found : (typeRe.matchStart (spaced (word :: words) ++ rest)).isSome) :
    Declares (word :: words) rest ∨ word ∈ accessWords ∧ Declares words rest := by
  rw [typeRe, Regex.matchStart_atStart] at found
  have either : (((keyword accessWords).run (typeTail.run some) ⟨[], spaced (word :: words) ++ rest, []⟩).or
      (typeTail.run some ⟨[], spaced (word :: words) ++ rest, []⟩)).isSome := found
  rw [Option.isSome_or, Bool.or_eq_true] at either
  rcases either with access | none
  · obtain ⟨here, later⟩ := List.forall_mem_cons.mp solid
    rw [spaced_cons, List.append_assoc, List.cons_append] at access
    obtain ⟨mem, matched⟩ := keyword_isSome_word keywords_access here.2 (head_spaced later dark) access
    exact Or.inr ⟨mem, typeTail_isSome later dark matched⟩
  · exact Or.inl (typeTail_isSome solid dark none)

end Words

theorem typeRe_some {access kind name rest : Text} {modifier : Option Text}
    (accessMem : access ∈ accessWords) (known : ∀ word ∈ modifier, word ∈ modifierWords)
    (mem : kind ∈ kindWords) (some_ : name ≠ []) (plain : ∀ c ∈ name, c ≠ ':' ∧ c ≠ '{')
    (start : ∀ c ∈ name.head?, isSpace c = false) (stop : ∀ c ∈ name.getLast?, isSpace c = false)
    (ends : NameEnds rest) :
    ∃ d, typeRe.matchStart (spaced (access :: modifier.toList ++ [kind]) ++ (name ++ rest)) = some d ∧
      d.group = name := by
  obtain ⟨d, matched, group⟩ := typeTail_some known mem some_ plain start stop ends
    (' ' :: (access.reverse ++ []))
  refine ⟨d, ?_, group⟩
  have text : spaced (access :: modifier.toList ++ [kind]) ++ (name ++ rest) =
      access ++ ' ' :: (spaced modifier.toList ++ (kind ++ ' ' :: (name ++ rest))) := by
    simp [spaced_append]
  have visible : ∀ c ∈ (spaced modifier.toList ++ (kind ++ ' ' :: (name ++ rest))).head?,
    isSpace c = false := by
    have words : ∀ word ∈ modifier.toList, Solid word := fun word among =>
      solid_of_mem keywords_modifier (by decide) (known word (Option.mem_toList.mp among))
    exact head_spaced words ((solid_of_mem keywords_kind (by decide) mem).head _)
  rw [text, typeRe, Regex.matchStart_atStart]
  have first := keyword_some keywords_access accessMem visible matched
  show ((keyword accessWords).run (typeTail.run some) _).or _ = some d
  rw [first, Option.some_or]

end Opg3d.Symbolize
