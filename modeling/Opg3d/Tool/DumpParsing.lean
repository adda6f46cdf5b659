import Opg3d.Tool.DumpLines

namespace Opg3d.Symbolize

open Kit

variable (db : Unicode)

theorem slash_not_space {c : Char} (space : isSpace c = true) : c ≠ '/' := by
  rintro rfl
  cases space

theorem rvaRe_some {indent digits rest : Text} (blank : ∀ c ∈ indent, isSpace c = true)
    (some_ : digits ≠ []) (hex : ∀ c ∈ digits, isHexDigit c = true) :
    ∃ d, (rvaRe db).search (indent ++ ("// RVA: 0x".toList ++ (digits ++ ' ' :: rest))) = some d ∧
      d.group = digits := by
  refine ⟨⟨digits.reverse ++ ("// RVA: 0x".toList.reverse ++ indent.reverse), ' ' :: rest, digits⟩, ?_, rfl⟩
  refine Regex.search_eq_some.mpr ⟨indent, _, rfl, ?_, ?_⟩
  · have word : db.isWord ' ' = false := by simp [Unicode.isWord, db.ascii ' ' (by decide), Char.isAlphanum]
    show (Regex.text "//".toList).run _ ⟨_, "//".toList ++ (" RVA: 0x".toList ++ (digits ++ ' ' :: rest)), []⟩ = _
    rw [Regex.run_text]
    show (Regex.star (.char isSpace)).run _ ⟨_, [' '] ++ ("RVA: 0x".toList ++ (digits ++ ' ' :: rest)), []⟩ = _
    refine Regex.run_star_some (by decide) (fun c first => ?_) ?_
    · obtain rfl : 'R' = c := Option.some.inj first
      rfl
    show (Regex.text "RVA:".toList).run _ ⟨_, "RVA:".toList ++ (" 0x".toList ++ (digits ++ ' ' :: rest)), []⟩ = _
    rw [Regex.run_text]
    show (Regex.star (.char isSpace)).run _ ⟨_, [' '] ++ ("0x".toList ++ (digits ++ ' ' :: rest)), []⟩ = _
    refine Regex.run_star_some (by decide) (fun c first => ?_) ?_
    · obtain rfl : '0' = c := Option.some.inj first
      rfl
    show (Regex.text "0x".toList).run _ ⟨_, "0x".toList ++ (digits ++ ' ' :: rest), []⟩ = _
    rw [Regex.run_text, hexGroup_run db some_ hex (by
      intro c first
      obtain rfl : ' ' = c := Option.some.inj first
      rfl)]
    simp [word]
  · intro as b bs split
    have other : b ≠ '/' := slash_not_space (blank b (by simp [split]))
    have absent (more : Text) : ¬"//".toList <+: b :: more := by
      rintro ⟨tail, same⟩
      exact other (List.cons.inj same).1.symm
    show (Cursor.skip "//".toList ⟨_, b :: _, []⟩).bind _ = none
    rw [Cursor.skip_eq_none (absent _), Option.bind_none]

theorem textBefore_single {c : Char} {front : Text} (absent : c ∉ front) (rest : Text) :
    textBefore [c] (front ++ c :: rest) = front := by
  induction front with
  | nil => simp [textBefore]
  | cons a front ih =>
    have other : c ≠ a := fun same => absent (same ▸ List.mem_cons_self)
    have later : c ∉ front := fun mem => absent (List.mem_cons_of_mem a mem)
    rw [List.cons_append, textBefore, if_neg (by simp [other]), ih later]

theorem lastWord_append {word : Text} (plain : ∀ c ∈ word, isSpace c = false) (front : Text) :
    lastWord (front ++ ' ' :: word) = word := by
  have reversed : (front ++ ' ' :: word).reverse = word.reverse ++ ' ' :: front.reverse := by simp
  rw [lastWord, reversed, takeWhile_span, List.reverse_reverse]
  · intro c mem
    simp [plain c (List.mem_reverse.mp mem)]
  · intro c first
    obtain rfl : ' ' = c := Option.some.inj first
    rfl

theorem Indent.isSpace (indent : Indent) : ∀ c ∈ indent.text, isSpace c = true := by
  intro c mem
  rcases indent.blank c mem with rfl | rfl <;> rfl

namespace MethodDecl

variable (m : MethodDecl)

/-- The declaration up to its parameters. -/
def front : Text := spaced (m.modifiers ++ m.returnType) ++ m.fullName

def parameterPart : Text := m.parameters ++ [')'] ++ m.body ++ ['\n']

theorem dropNewlines_declaration : dropNewlines m.declaration =
    m.indent.text ++ (m.front ++ '(' :: dropNewlines m.parameterPart) := by
  have whole : m.declaration = (m.indent.text ++ m.front) ++ '(' :: m.parameterPart := by
    simp [declaration, front, parameterPart]
  rw [whole, dropNewlines_append (by decide), List.append_assoc]

theorem words_ne_nil : m.modifiers ++ m.returnType ≠ [] := fun nothing =>
  m.returns (List.append_eq_nil_iff.mp nothing).2

theorem words_solid : ∀ word ∈ m.modifiers ++ m.returnType, Solid word := fun word mem =>
  ⟨(m.words word mem).filled, fun c inside => ((m.words word mem).plain c inside).1⟩

theorem fullName_plain : '(' ∉ m.fullName := by
  intro mem
  rw [fullName, genericList] at mem
  rcases List.mem_append.mp mem with name | generic
  · exact (m.named.2 '(' name).2 rfl
  · split at generic
    · cases generic
    · have inside : '(' ∈ ", ".toList.intercalate m.generics := by simpa using generic
      rcases mem_intercalate inside with between | ⟨g, among, here⟩
      · exact absurd between (by decide)
      · exact (m.identifiers g among '(' here).2.1 rfl

theorem front_plain : '(' ∉ m.front := by
  intro mem
  rcases List.mem_append.mp mem with inside | name
  · obtain ⟨word, among, here⟩ := List.mem_flatMap.mp inside
    rcases List.mem_append.mp here with letter | blank
    · exact ((m.words word among).plain '(' letter).2 rfl
    · exact absurd blank (by decide)
  · exact m.fullName_plain name

/-- No generic parameters, one, or several with a last one. -/
theorem generics_cases : m.generics = [] ∨ (∃ g, m.generics = [g]) ∨
    ∃ others last, m.generics = others ++ [last] ∧ others ≠ [] := by
  rcases m.generics.eq_nil_or_concat' with none | ⟨others, last, split⟩
  · exact Or.inl none
  by_cases single : others = []
  · exact Or.inr (Or.inl ⟨last, by rw [split, single, List.nil_append]⟩)
  · exact Or.inr (Or.inr ⟨others, last, split, single⟩)

variable {m}

theorem heardName_none (none : m.generics = []) : m.heardName = m.name := by
  simp [heardName, fullName, genericList, none]

theorem heardName_one {g : Text} (one : m.generics = [g]) :
    m.heardName = m.name ++ ('<' :: (g ++ ['>'])) := by
  simp [heardName, fullName, genericList, one, List.intercalate]

theorem heardName_more {others : List Text} {last : Text} (split : m.generics = others ++ [last])
    (more : others ≠ []) : m.heardName = last ++ ['>'] := by
  have longer : ¬m.generics.length ≤ 1 := by
    have positive := List.length_pos_iff.mpr more
    rw [split, List.length_append, List.length_singleton]
    omega
  rw [heardName, if_neg longer, split, List.getLastD_concat]

theorem fullName_more {others : List Text} {last : Text} (split : m.generics = others ++ [last])
    (more : others ≠ []) :
    m.fullName = (m.name ++ '<' :: (", ".toList.intercalate others ++ [','])) ++ ' ' :: (last ++ ['>']) := by
  have some_ : m.generics ≠ [] := by rw [split]; exact List.append_ne_nil_of_right_ne_nil _ (List.cons_ne_nil _ _)
  rw [fullName, genericList, if_neg some_, split, intercalate_concat more]
  simp

variable (m)

theorem heardName_solid : Solid m.heardName := by
  rcases m.generics_cases with none | ⟨g, one⟩ | ⟨others, last, split, more⟩
  · rw [heardName_none none]
    exact ⟨m.named.1, fun c mem => (m.named.2 c mem).1⟩
  · rw [heardName_one one]
    refine ⟨List.append_ne_nil_of_right_ne_nil _ (List.cons_ne_nil _ _), ?_⟩
    intro c mem
    rcases List.mem_append.mp mem with name | bracket
    · exact (m.named.2 c name).1
    rcases List.mem_cons.mp bracket with rfl | generic
    · rfl
    rcases List.mem_append.mp generic with letter | closing
    · exact (m.identifiers g (by simp [one]) c letter).1
    · obtain rfl := List.mem_singleton.mp closing
      rfl
  · rw [heardName_more split more]
    refine ⟨List.append_ne_nil_of_right_ne_nil _ (List.cons_ne_nil _ _), ?_⟩
    intro c mem
    rcases List.mem_append.mp mem with letter | closing
    · exact (m.identifiers last (by simp [split]) c letter).1
    · obtain rfl := List.mem_singleton.mp closing
      rfl

theorem spaced_words : ∃ a, spaced (m.modifiers ++ m.returnType) = a ++ [' '] := by
  obtain ⟨others, last, split⟩ := (m.modifiers ++ m.returnType).eq_nil_or_concat'.resolve_left m.words_ne_nil
  exact ⟨spaced others ++ last, by rw [split, spaced_append]; simp⟩

/-- The name that is heard follows a blank. -/
theorem front_split : ∃ a, m.front = a ++ ' ' :: m.heardName := by
  obtain ⟨words, blank⟩ := m.spaced_words
  rcases m.generics_cases with none | ⟨g, one⟩ | ⟨others, last, split, more⟩
  · have whole : m.fullName = m.heardName := by simp [heardName, none]
    exact ⟨words, by rw [front, blank, whole]; simp⟩
  · have whole : m.fullName = m.heardName := by simp [heardName, one]
    exact ⟨words, by rw [front, blank, whole]; simp⟩
  · refine ⟨words ++ ' ' :: (m.name ++ '<' :: (", ".toList.intercalate others ++ [','])), ?_⟩
    rw [front, blank, fullName_more split more, heardName_more split more]
    simp

theorem front_start : ∃ c rest, m.front = c :: rest ∧ isSpace c = false ∧ c ≠ '/' ∧ c ≠ '[' := by
  obtain ⟨word, words, split⟩ := List.exists_cons_of_ne_nil m.words_ne_nil
  have isWord := m.words word (by rw [split]; exact List.mem_cons_self)
  obtain ⟨c, tail, rfl⟩ := List.exists_cons_of_ne_nil isWord.filled
  refine ⟨c, tail ++ ' ' :: spaced words ++ m.fullName, by rw [front, split]; simp, ?_, ?_, ?_⟩
  · exact (isWord.plain c List.mem_cons_self).1
  · exact fun slash => isWord.start.1 (congrArg some slash)
  · exact fun bracket => isWord.start.2 (congrArg some bracket)

theorem strip_declaration :
    strip (dropNewlines m.declaration) = m.front ++ '(' :: stripRight (dropNewlines m.parameterPart) := by
  obtain ⟨c, rest, split, dark, _⟩ := m.front_start
  have start : ∀ a ∈ (m.front ++ '(' :: dropNewlines m.parameterPart).head?, isSpace a = false := by
    intro a first
    rw [split] at first
    obtain rfl : c = a := Option.some.inj first
    exact dark
  rw [dropNewlines_declaration, strip, stripLeft_append m.indent.isSpace start,
    stripRight_append (by decide)]

theorem methodName_declaration : methodNameFromDeclaration (dropNewlines m.declaration) =
    if m.generics = [] ∧ m.name ∈ statementWords then none else some m.heardName := by
  obtain ⟨a, split⟩ := m.front_split
  obtain ⟨c, rest, start, dark, slash, bracket⟩ := m.front_start
  have solid := m.heardName_solid
  have trimmed : stripRight m.front = m.front := by
    refine stripRight_of_getLast fun d last => ?_
    obtain ⟨others, final, whole⟩ := m.heardName.eq_nil_or_concat'.resolve_left solid.1
    have same : final = d := by
      have front : m.front = (a ++ ' ' :: others) ++ [final] := by rw [split, whole]; simp
      rw [front, List.getLast?_concat] at last
      exact Option.some.inj last
    exact solid.2 d (by rw [whole, ← same]; exact List.mem_append_right _ (List.mem_singleton_self final))
  have parts : textBefore "(".toList (m.front ++ '(' :: stripRight (dropNewlines m.parameterPart)) = m.front :=
    textBefore_single m.front_plain _
  have code : ¬(m.front ++ '(' :: stripRight (dropNewlines m.parameterPart) = [] ∨
      "//".toList <+: m.front ++ '(' :: stripRight (dropNewlines m.parameterPart) ∨
      "[".toList <+: m.front ++ '(' :: stripRight (dropNewlines m.parameterPart) ∨
      '(' ∉ m.front ++ '(' :: stripRight (dropNewlines m.parameterPart)) := by
    rw [start]
    rintro (nothing | ⟨tail, comment⟩ | ⟨tail, attributes⟩ | closed)
    · cases nothing
    · exact slash (List.cons.inj comment).1.symm
    · exact bracket (List.cons.inj attributes).1.symm
    · exact closed (by simp)
  have filled : m.front ≠ [] := by rw [start]; exact List.cons_ne_nil _ _
  have heard : m.heardName ∈ statementWords ↔ m.generics = [] ∧ m.name ∈ statementWords := by
    have plain : ∀ word ∈ statementWords, word.getLast? ≠ some '>' := by decide
    rcases m.generics_cases with none | ⟨g, one⟩ | ⟨others, last, generic, more⟩
    · simp [heardName_none none, none]
    · have closing : m.heardName.getLast? = some '>' := by simp [heardName_one one, List.getLast?_cons]
      exact iff_of_false (fun mem => plain _ mem closing) (by simp [one])
    · have closing : m.heardName.getLast? = some '>' := by simp [heardName_more generic more]
      exact iff_of_false (fun mem => plain _ mem closing) (by simp [generic])
  simp only [methodNameFromDeclaration, strip_declaration, if_neg code, parts, trimmed, if_neg filled]
  rw [split, lastWord_append solid.2]
  exact if_congr heard rfl rfl

end MethodDecl

theorem Declares.head {word : Text} {words : List Text} {rest : Text}
    (declares : Declares (word :: words) rest) : word ∈ modifierWords ∨ word ∈ kindWords := by
  rcases declares with ⟨modifiers, kind, others, split, known, mem, _⟩ | ⟨known, _⟩
  · cases modifiers with
    | nil =>
      obtain ⟨rfl, _⟩ := List.cons.inj split
      exact Or.inr mem
    | cons first modifiers =>
      obtain ⟨rfl, _⟩ := List.cons.inj split
      exact Or.inl (known word List.mem_cons_self)
  · exact Or.inl (known word List.mem_cons_self)

/-- A line whose first word is none of the keywords declares no type. -/
theorem typeRe_none {word rest : Text} (solid : Solid word) (dark : ∀ c ∈ rest.head?, isSpace c = false)
    (other : word ∉ accessWords ∧ word ∉ modifierWords ∧ word ∉ kindWords) :
    typeRe.matchStart (word ++ ' ' :: rest) = none := by
  have text : word ++ ' ' :: rest = spaced [word] ++ rest := by simp
  rw [text, ← Option.not_isSome_iff_eq_none]
  intro found
  rcases typeRe_isSome (List.forall_mem_singleton.mpr solid) dark found with declares | ⟨mem, _⟩
  · exact declares.head.elim other.2.1 other.2.2
  · exact other.1 mem

theorem not_comment {c : Char} {rest : Text} (other : c ≠ '/') : ¬"//".toList <+: c :: rest := by
  rintro ⟨tail, same⟩
  exact other (List.cons.inj same).1.symm

theorem strip_blank {text : Text} (blank : ∀ c ∈ text, isSpace c = true) : strip text = [] := by
  rw [strip, stripLeft, List.dropWhile_eq_nil_iff.mpr blank]
  rfl

/-- What a line with at most a brace is to the parser. -/
theorem Filler.stripped (filler : Filler) :
    strip (dropNewlines filler.line) ∈ [[], ['{'], ['}']] ∧ '/' ∉ dropNewlines filler.line := by
  have noSlash : '/' ∉ filler.indent.text := fun mem => slash_not_space (filler.indent.isSpace '/' mem) rfl
  have braced (c : Char) (dark : isSpace c = false) (other : '/' ≠ c) :
      strip (dropNewlines (filler.indent.text ++ c :: ['\n'])) = [c] ∧
        '/' ∉ dropNewlines (filler.indent.text ++ c :: ['\n']) := by
    have line : dropNewlines (filler.indent.text ++ c :: ['\n']) = filler.indent.text ++ [c] :=
      dropNewlines_append (by rintro rfl; cases dark) _ _
    have start : ∀ a ∈ [c].head?, isSpace a = false := by simpa using dark
    have stop : ∀ a ∈ [c].getLast?, isSpace a = false := by simpa using dark
    refine ⟨by rw [line, strip, stripLeft_append filler.indent.isSpace start,
      stripRight_of_getLast stop], ?_⟩
    rw [line]
    simp [noSlash, other]
  rcases filler with ⟨indent, none | brace⟩
  · have inside : ∀ c ∈ dropNewlines (indent.text ++ ['\n']), c ∈ indent.text ++ ['\n'] := fun c mem =>
      (dropNewlines_begins _).subset mem
    have line : Filler.line ⟨indent, none⟩ = indent.text ++ ['\n'] := by simp [Filler.line]
    rw [line]
    constructor
    · have nothing : strip (dropNewlines (indent.text ++ ['\n'])) = [] := by
        refine strip_blank fun c mem => ?_
        rcases List.mem_append.mp (inside c mem) with space | newline
        · exact indent.isSpace c space
        · rw [List.mem_singleton.mp newline]
          rfl
      simp [nothing]
    · intro mem
      rcases List.mem_append.mp (inside '/' mem) with space | newline
      · exact noSlash space
      · exact absurd newline (by decide)
  · cases brace with
    | opening =>
      have line : Filler.line ⟨indent, some .opening⟩ = indent.text ++
        '{' :: ['\n'] := by simp [Filler.line, Brace.text]
      rw [line, (braced '{' rfl (by decide)).1]
      exact ⟨by simp, (braced '{' rfl (by decide)).2⟩
    | closing =>
      have line : Filler.line ⟨indent, some .closing⟩ = indent.text ++
        '}' :: ['\n'] := by simp [Filler.line, Brace.text]
      rw [line, (braced '}' rfl (by decide)).1]
      exact ⟨by simp, (braced '}' rfl (by decide)).2⟩

theorem Filler.parse (filler : Filler) (s : Parsing) :
    ∃ pending, parseLine db s filler.line = { s with pendingRva := pending } := by
  obtain ⟨core, noSlash⟩ := filler.stripped
  have noSpace : namespaceRe.matchStart (dropNewlines filler.line) = none :=
    namespaceRe_none fun begins => noSlash (begins.subset List.mem_cons_self)
  have idle : ∀ text ∈ [[], ['{'], ['}']], typeRe.matchStart text = none ∧
    ¬"//".toList <+: text := by decide
  obtain ⟨noType, noComment⟩ := idle _ core
  have noName : methodNameFromDeclaration (dropNewlines filler.line) = none := by
    have unnamed : ∀ text ∈ [[], ['{'], ['}']], text = [] ∨ "//".toList <+: text ∨ "[".toList <+: text ∨
      '(' ∉ text := by
      decide
    simp only [methodNameFromDeclaration, if_pos (unnamed _ core)]
  simp only [parseLine, noSpace, noType, noName, if_neg noComment]
  cases (rvaRe db).search (dropNewlines filler.line) with
  | some found => exact ⟨_, rfl⟩
  | none => cases pending : s.pendingRva <;> exact ⟨s.pendingRva, rfl⟩

namespace MethodDecl

variable (m : MethodDecl)

theorem indent_start (rest : Text) : ¬"//".toList <+: m.indent.text ++ rest := by
  obtain ⟨c, text, split⟩ := List.exists_cons_of_ne_nil m.indented
  rw [split, List.cons_append]
  exact not_comment (slash_not_space (m.indent.isSpace c (by rw [split]; exact List.mem_cons_self)))

theorem parse_rvaLine (s : Parsing) : parseLine db s m.rvaLine = { s with pendingRva := some m.rva } := by
  let later : Text := dropNewlines ("Offset: 0x".toList ++ (m.offset ++ (" VA: 0x".toList ++ (m.va ++ ['\n']))))
  have line : dropNewlines m.rvaLine = m.indent.text ++ ("// RVA: 0x".toList ++ (m.digits ++ ' ' :: later)) := by
    have whole : m.rvaLine = (m.indent.text ++ "// RVA: 0x".toList ++ m.digits) ++
        ' ' :: ("Offset: 0x".toList ++ (m.offset ++ (" VA: 0x".toList ++ (m.va ++ ['\n'])))) := by
      simp [rvaLine]
    rw [whole, dropNewlines_append (by decide), List.append_assoc, List.append_assoc]
  have stripped : strip (dropNewlines m.rvaLine) =
      "//".toList ++ ' ' :: ('R' :: stripRight ("VA: 0x".toList ++ (m.digits ++ ' ' :: later))) := by
    have start : ∀ c ∈ ("// RVA: 0x".toList ++ (m.digits ++ ' ' :: later)).head?, isSpace c = false := by
      intro c first
      obtain rfl : '/' = c := Option.some.inj first
      rfl
    rw [line, strip, stripLeft_append m.indent.isSpace start]
    exact stripRight_append (by decide) "// ".toList _
  have noType : typeRe.matchStart (strip (dropNewlines m.rvaLine)) = none := by
    rw [stripped]
    refine typeRe_none ⟨by decide, by decide⟩ (fun c first => ?_) (by decide)
    obtain rfl : 'R' = c := Option.some.inj first
    rfl
  have noSpace : namespaceRe.matchStart (dropNewlines m.rvaLine) = none := by
    rw [line]
    exact namespaceRe_none (m.indent_start _)
  obtain ⟨d, found, digits⟩ := @rvaRe_some db _ _ later m.indent.isSpace m.hex.1 m.hex.2
  rw [← line] at found
  simp only [parseLine, noSpace, noType, found, digits]
  rfl

theorem firstWord_name (rest : Text) : firstWord (m.fullName ++ '(' :: rest) ∉ modifierWords ∧
    firstWord (m.fullName ++ '(' :: rest) ∉ kindWords := by
  have inside (c : Char) (dark : isSpace c = false) (more : Text) :
      c ∈ firstWord (m.name ++ c :: more) := by
    rw [firstWord, List.takeWhile_append_of_pos fun a mem => by simp [(m.named.2 a mem).1],
      List.takeWhile_cons_of_pos (by simp [dark])]
    simp
  have plain : ∀ word ∈ modifierWords ++ kindWords, '(' ∉ word ∧ '<' ∉ word := by decide
  have odd : '(' ∈ firstWord (m.fullName ++ '(' :: rest) ∨ '<' ∈ firstWord (m.fullName ++ '(' :: rest) := by
    by_cases none_ : m.generics = []
    · left
      rw [fullName, genericList, if_pos none_, List.append_nil]
      exact inside '(' rfl rest
    · right
      rw [fullName, genericList, if_neg none_, List.append_assoc]
      exact inside '<' rfl _
  constructor
  · intro mem
    have without := plain _ (List.mem_append_left _ mem)
    exact odd.elim without.1 without.2
  · intro mem
    have without := plain _ (List.mem_append_right _ mem)
    exact odd.elim without.1 without.2

theorem declaration_no_type : typeRe.matchStart (strip (dropNewlines m.declaration)) = none := by
  let rest : Text := m.fullName ++ '(' :: stripRight (dropNewlines m.parameterPart)
  have outside := m.firstWord_name (stripRight (dropNewlines m.parameterPart))
  have text : strip (dropNewlines m.declaration) = spaced (m.modifiers ++ m.returnType) ++ rest := by
    rw [strip_declaration, front, List.append_assoc]
  have dark : ∀ c ∈ rest.head?, isSpace c = false := by
    have name : Solid m.name := ⟨m.named.1, fun c mem => (m.named.2 c mem).1⟩
    have first := name.head (m.genericList ++ '(' :: stripRight (dropNewlines m.parameterPart))
    rwa [← List.append_assoc] at first
  have code (words : List Text) (reserved : ∀ word ∈ words, word ∉ kindWords) : ¬Declares words rest := by
    rintro (⟨modifiers, kind, others, rfl, _, mem, _⟩ | ⟨_, next⟩)
    · exact reserved kind (by simp) mem
    · exact next.elim outside.1 outside.2
  have reserved : ∀ word ∈ m.modifiers ++ m.returnType, word ∉ kindWords :=
    fun word mem => (m.words word mem).reserved
  have solid := m.words_solid
  obtain ⟨word, words, split⟩ := List.exists_cons_of_ne_nil m.words_ne_nil
  rw [split] at text reserved solid
  rw [text, ← Option.not_isSome_iff_eq_none]
  intro found
  rcases typeRe_isSome solid dark found with declares | ⟨_, declares⟩
  · exact code _ reserved declares
  · exact code _ (List.forall_mem_cons.mp reserved).2 declares

/-- A declaration after its address gives the method, unless it is missed. -/
theorem parse_declaration (s : Parsing) (pending : s.pendingRva = some m.rva) :
    ∃ next, parseLine db s m.declaration = { s with
      methods := s.methods ++ (m.heard db s.currentType s.namespace_).toList, pendingRva := next } := by
  have noSpace : namespaceRe.matchStart (dropNewlines m.declaration) = none := by
    rw [dropNewlines_declaration]
    exact namespaceRe_none (m.indent_start _)
  have noComment : ¬"//".toList <+: strip (dropNewlines m.declaration) := by
    obtain ⟨c, rest, split, _, slash, _⟩ := m.front_start
    rw [strip_declaration, split]
    exact not_comment slash
  simp only [parseLine, noSpace, m.declaration_no_type, pending, if_neg noComment, methodName_declaration]
  cases comment : (rvaRe db).search (dropNewlines m.declaration) with
  | some found =>
    have missed : m.Missed db := Or.inr (by rw [comment]; rfl)
    exact ⟨some (parseHex found.group), by simp [heard, missed]⟩
  | none =>
    by_cases named : m.generics = [] ∧ m.name ∈ statementWords
    · have missed : m.Missed db := Or.inl named
      exact ⟨s.pendingRva, by simp [heard, missed, named]⟩
    · have kept : ¬m.Missed db := by
        rintro (word | found)
        · exact named word
        · rw [comment] at found
          cases found
      exact ⟨none, by simp [heard, kept, named]⟩

end MethodDecl

namespace TypeDecl

variable (t : TypeDecl)

def words : List Text := t.access.words ++ (t.modifier.map TypeModifier.text).toList ++ [t.kind.text]

theorem parse_namespaceLine (s : Parsing) :
    parseLine db s t.namespaceLine = { s with namespace_ := t.space, pendingRva := none } := by
  have line : dropNewlines t.namespaceLine = "// Namespace:".toList ++
    (List.replicate t.blanks ' ' ++ t.space) := by
    rw [← List.append_assoc]
    refine dropNewlines_line fun newline => ?_
    rcases List.mem_append.mp newline with front | space
    · rcases List.mem_append.mp front with label | blank
      · exact absurd label (by decide)
      · exact absurd (List.eq_of_mem_replicate blank) (by decide)
    · exact absurd (t.dotted '\n' space) (by decide)
  have trimmed : strip t.space = t.space := strip_of_ends (fun c first =>
    t.dotted c (List.mem_of_mem_head? first))
    fun c last => t.dotted c (List.mem_of_mem_getLast? last)
  obtain ⟨d, found, space⟩ := namespaceRe_some t.blanks t.dotted
  rw [← line] at found
  simp only [parseLine, found, space, trimmed]

theorem word_modifier (modifier : TypeModifier) :
    modifier.text ∈ modifierWords := by cases modifier <;> decide

theorem word_kind (kind : TypeKind) : kind.text ∈ kindWords := by cases kind <;> decide

theorem access_apart : ∀ word ∈ accessWords, word ∉ modifierWords ∧ word ∉ kindWords := by decide

/-- The words of an accessibility: one that the pattern knows, or two that are no other keywords. -/
theorem access_cases (access : Access) : (∃ a ∈ accessWords, access.words = [a]) ∨
    ∃ a b, access.words = [a, b] ∧ (Solid a ∧ a ∉ modifierWords ∧ a ∉ kindWords) ∧ Solid b ∧
      b ∉ modifierWords ∧ b ∉ kindWords := by
  have plain (a b : Text) (solid : a ∈ accessWords ∧ b ∈ accessWords) :
      (Solid a ∧ a ∉ modifierWords ∧ a ∉ kindWords) ∧ Solid b ∧ b ∉ modifierWords ∧ b ∉ kindWords := by
    exact ⟨⟨solid_of_mem keywords_access (by decide) solid.1, access_apart a solid.1⟩,
      solid_of_mem keywords_access (by decide) solid.2, access_apart b solid.2⟩
  cases access with
  | pub | priv | prot | internal => exact Or.inl ⟨_, by decide, rfl⟩
  | protInternal | privProt => exact Or.inr ⟨_, _, rfl, plain _ _ (by decide)⟩

theorem words_solid : ∀ word ∈ t.words, Solid word := by
  intro word mem
  rcases List.mem_append.mp mem with front | kind
  · rcases List.mem_append.mp front with access | modifier
    · rcases access_cases t.access with ⟨a, known, single⟩ | ⟨a, b, double, first, second⟩
      · rw [single, List.mem_singleton] at access
        exact access ▸ solid_of_mem keywords_access (by decide) known
      · rw [double] at access
        rcases List.mem_cons.mp access with rfl | last
        · exact first.1
        · exact List.mem_singleton.mp last ▸ second.1
    · obtain ⟨m, _, rfl⟩ := Option.map_eq_some_iff.mp (Option.mem_toList.mp modifier)
      exact solid_of_mem keywords_modifier (by decide) (word_modifier m)
  · rw [List.mem_singleton.mp kind]
    exact solid_of_mem keywords_kind (by decide) (word_kind t.kind)

theorem name_concat : ∃ front last, t.name = front ++ [last] ∧ isSpace last = false := by
  obtain ⟨front, last, split⟩ := t.name.eq_nil_or_concat'.resolve_left t.named.1
  exact ⟨front, last, split, t.trimmed.2 last (by rw [split, List.getLast?_concat]; rfl)⟩

theorem name_start (rest : Text) : ∀ c ∈ (t.name ++ rest).head?, isSpace c = false := by
  rw [List.head?_append_of_ne_nil _ t.named.1]
  exact t.trimmed.1

/-- The text that the pattern takes for the name: it may carry the beginning
of the comment. -/
def Taken (name : Text) : Prop := name = t.name ∨ name = t.name ++ " // TypeDefIndex".toList

namespace Taken

variable {t} {name : Text}

theorem mem_iff (taken : t.Taken name) {c : Char} (apart : c ∉ " // TypeDefIndex".toList) :
    c ∈ name ↔ c ∈ t.name := by
  rcases taken with rfl | rfl
  · rfl
  · rw [List.mem_append, or_iff_left apart]

theorem colonless (taken : t.Taken name) : ':' ∉ name := fun mem =>
  (t.named.2 ':' ((taken.mem_iff (by decide)).mp mem)).1 rfl

theorem filled (taken : t.Taken name) : name ≠ [] := by
  rcases taken with rfl | rfl
  · exact t.named.1
  · exact List.append_ne_nil_of_left_ne_nil t.named.1 _

theorem start (taken : t.Taken name) : ∀ c ∈ name.head?, isSpace c = false := by
  rcases taken with rfl | rfl
  · exact t.trimmed.1
  · exact t.name_start _

theorem stop (taken : t.Taken name) : ∀ c ∈ name.getLast?, isSpace c = false := by
  rcases taken with rfl | rfl
  · exact t.trimmed.2
  · intro c last
    rw [List.getLast?_append] at last
    obtain rfl : 'x' = c := Option.some.inj last
    rfl

end Taken

/-- The declaration as the pattern sees it. -/
theorem declaration_text :
    ∃ name rest, strip (dropNewlines t.declaration) = spaced t.words ++ (name ++ rest) ∧
      t.Taken name ∧ NameEnds rest := by
  obtain ⟨front, last, split, dark⟩ := t.name_concat
  have start (rest : Text) : ∀ c ∈ (spaced t.words ++ (t.name ++ rest)).head?, isSpace c = false :=
    head_spaced t.words_solid (t.name_start rest)
  have colon (middle rest : Text) : strip (dropNewlines (spaced t.words ++ (t.name ++ middle) ++ ':' :: rest)) =
      spaced t.words ++ (t.name ++ (middle ++ ':' :: stripRight (dropNewlines rest))) := by
    have whole : spaced t.words ++ (t.name ++ middle) ++ ':' :: dropNewlines rest =
        spaced t.words ++ (t.name ++ (middle ++ ':' :: dropNewlines rest)) := by simp
    rw [dropNewlines_append (by decide), strip, whole, stripLeft_of_head (start _), ← whole,
      stripRight_append (by decide)]
    simp
  cases bases : t.bases with
  | some b =>
    let rest : Text := ' ' :: b ++ t.typeDefIndex.elim [] (" // TypeDefIndex: ".toList ++ decimalText ·) ++ ['\n']
    have line : t.declaration = spaced t.words ++ (t.name ++ [' ']) ++ ':' :: rest := by
      simp [declaration, head, words, bases, rest]
    refine ⟨t.name, [' '] ++ ':' :: stripRight (dropNewlines rest), ?_, Or.inl rfl, Or.inr ⟨_, Or.inr rfl⟩⟩
    rw [line, colon]
  | none =>
    cases index : t.typeDefIndex with
    | some i =>
      let rest : Text := ' ' :: decimalText i ++ ['\n']
      have line : t.declaration = spaced t.words ++ (t.name ++ " // TypeDefIndex".toList) ++ ':' :: rest := by
        simp [declaration, head, words, bases, index, rest]
      refine ⟨t.name ++ " // TypeDefIndex".toList, ':' :: stripRight (dropNewlines rest), ?_, Or.inr rfl,
        Or.inr ⟨_, Or.inl rfl⟩⟩
      rw [line, colon, List.append_assoc]
    | none =>
      have line : t.declaration = (spaced t.words ++ front) ++ last :: ['\n'] := by
        simp [declaration, head, words, bases, index, split]
      have other : last ≠ '\n' := by
        rintro rfl
        cases dark
      have whole : (spaced t.words ++ front) ++ [last] = spaced t.words ++ (t.name ++ []) := by simp [split]
      refine ⟨t.name, [], ?_, Or.inl rfl, Or.inl rfl⟩
      have cut : dropNewlines ((spaced t.words ++ front) ++ last :: ['\n']) =
        (spaced t.words ++ front) ++ [last] :=
        dropNewlines_append other _ _
      rw [line, cut]
      refine (strip_of_ends ?_ ?_).trans whole
      · rw [whole]
        exact start []
      · rw [List.getLast?_concat]
        exact fun c same => Option.some.inj same ▸ dark

theorem textBefore_slashes {front : Text} (plain : '/' ∉ front) :
    textBefore "//".toList front = front ∧ ∀ rest,
      textBefore "//".toList (front ++ ("//".toList ++ rest)) = front := by
  induction front with
  | nil => exact ⟨rfl, fun rest => if_pos ⟨rest, rfl⟩⟩
  | cons a front ih =>
    have other : a ≠ '/' := fun same => plain (same ▸ List.mem_cons_self)
    have later := ih fun mem => plain (List.mem_cons_of_mem a mem)
    constructor
    · rw [textBefore, if_neg (not_comment other), later.1]
    · intro rest
      rw [List.cons_append, textBefore, if_neg (not_comment other), later.2]

theorem stripped_name {name : Text} (taken : t.Taken name) :
    strip (textBefore "//".toList name) = t.name := by
  have plain : '/' ∉ t.name := fun mem => (t.named.2 '/' mem).2 rfl
  rcases taken with rfl | rfl
  · rw [(textBefore_slashes plain).1]
    exact strip_of_ends t.trimmed.1 t.trimmed.2
  · obtain ⟨front, last, split, dark⟩ := t.name_concat
    have blank : '/' ∉ t.name ++ [' '] := by simp [plain]
    have text : t.name ++ " // TypeDefIndex".toList = (t.name ++ [' ']) ++
      ("//".toList ++ " TypeDefIndex".toList) := by
      simp
    have right : stripRight (front ++ last :: [' ']) = front ++ [last] := stripRight_append dark front [' ']
    rw [text, (textBefore_slashes blank).2, strip, stripLeft_of_head (t.name_start _), split,
      List.append_assoc]
    exact right

/-- No kind among these words stands before a name with a brace. -/
theorem not_declares {name rest : Text} (colonless : ':' ∉ name) (brace : '{' ∈ name) :
    ¬Declares ((t.modifier.map TypeModifier.text).toList ++ [t.kind.text]) (name ++ rest) := by
  have apart : (∀ word ∈ kindWords, word ∉ modifierWords) ∧
      ∀ word ∈ modifierWords, word ∉ kindWords := by decide
  have stuck (before group : Text) :
      ¬(typeNameRe.run some ⟨before, spaced [] ++ (name ++ rest), group⟩).isSome := by
    rw [spaced_nil, List.nil_append, typeNameRe_brace colonless brace]
    nofun
  rintro (⟨modifiers, kind, others, split, known, mem, before, group, matched⟩ | ⟨known, _⟩)
  · have last : others = [] := by
      cases modifier : t.modifier with
      | none =>
        rw [modifier] at split
        cases modifiers with
        | nil => exact (List.cons.inj split).2.symm
        | cons => cases (List.append_eq_nil_iff.mp (List.cons.inj split).2.symm).2
      | some m =>
        rw [modifier] at split
        cases modifiers with
        | nil =>
          have same : m.text = kind := (List.cons.inj split).1
          exact absurd mem (same ▸ apart.2 _ (word_modifier m))
        | cons first modifiers =>
          cases modifiers with
          | nil => exact (List.cons.inj (List.cons.inj split).2).2.symm
          | cons => cases (List.append_eq_nil_iff.mp (List.cons.inj (List.cons.inj split).2).2.symm).2
    rw [last] at matched
    exact stuck before group matched
  · exact apart.1 _ (word_kind t.kind) (known _ (by simp))

theorem declaration_recognised (known : t.Recognised) :
    ∃ d, typeRe.matchStart (strip (dropNewlines t.declaration)) = some d ∧
      strip (textBefore "//".toList d.group) = t.name := by
  obtain ⟨single, braceless⟩ := known
  obtain ⟨name, rest, text, taken, ends⟩ := t.declaration_text
  rcases access_cases t.access with ⟨a, mem, access⟩ | ⟨a, b, access, _⟩
  · have plain : ∀ c ∈ name, c ≠ ':' ∧ c ≠ '{' := by
      refine fun c inside => ⟨?_, ?_⟩
      · rintro rfl
        exact taken.colonless inside
      · rintro rfl
        exact braceless ((taken.mem_iff (by decide)).mp inside)
    have modifiers : ∀ word ∈ t.modifier.map TypeModifier.text, word ∈ modifierWords := by
      intro word modifier
      obtain ⟨m, _, rfl⟩ := Option.map_eq_some_iff.mp modifier
      exact word_modifier m
    obtain ⟨d, matched, group⟩ :=
      typeRe_some mem modifiers (word_kind t.kind) taken.filled plain taken.start taken.stop ends
    refine ⟨d, ?_, group ▸ t.stripped_name taken⟩
    rw [text, words, access]
    exact matched
  · rw [access] at single
    cases single

theorem declaration_unrecognised (unknown : ¬t.Recognised) :
    typeRe.matchStart (strip (dropNewlines t.declaration)) = none := by
  obtain ⟨name, rest, text, taken, _⟩ := t.declaration_text
  rw [text, ← Option.not_isSome_iff_eq_none]
  intro found
  have solid := t.words_solid
  have dark : ∀ c ∈ (name ++ rest).head?, isSpace c = false := by
    rw [List.head?_append_of_ne_nil _ taken.filled]
    exact taken.start
  rcases access_cases t.access with ⟨a, mem, access⟩ | ⟨a, b, access, first, second⟩
  · have brace : '{' ∈ name := by
      refine (taken.mem_iff (by decide)).mpr ?_
      by_contra braceless
      exact unknown ⟨by rw [access]; rfl, braceless⟩
    have split : t.words = a :: ((t.modifier.map TypeModifier.text).toList ++ [t.kind.text]) := by
      rw [words, access]
      rfl
    rw [split] at solid found
    rcases typeRe_isSome solid dark found with declares | ⟨_, declares⟩
    · exact declares.head.elim (access_apart a mem).1 (access_apart a mem).2
    · exact t.not_declares taken.colonless brace declares
  · have split : t.words = a :: b :: ((t.modifier.map TypeModifier.text).toList ++ [t.kind.text]) := by
      rw [words, access]
      rfl
    rw [split] at solid found
    rcases typeRe_isSome solid dark found with declares | ⟨_, declares⟩
    · exact declares.head.elim first.2.1 first.2.2
    · exact declares.head.elim second.2.1 second.2.2

/-- A declaration after its namespace. -/
theorem parse_declaration (s : Parsing) (idle : s.pendingRva = none) :
    ∃ next, parseLine db s t.declaration =
      { s with currentType := t.owner s.currentType, pendingRva := next } := by
  have noSpace : namespaceRe.matchStart (dropNewlines t.declaration) = none := by
    have letter : ∃ c rest, spaced t.access.words = c :: rest ∧ c ≠ '/' := by
      cases t.access <;> exact ⟨_, _, rfl, by decide⟩
    obtain ⟨c, rest, split, other⟩ := letter
    refine namespaceRe_none fun comment => ?_
    have begins := comment.trans (dropNewlines_begins t.declaration)
    rw [declaration, head, spaced_append, spaced_append, split] at begins
    exact not_comment other begins
  by_cases known : t.Recognised
  · obtain ⟨d, found, name⟩ := t.declaration_recognised known
    simp only [parseLine, noSpace, found, name, owner, if_pos known]
    exact ⟨none, rfl⟩
  · have noType := t.declaration_unrecognised known
    simp only [parseLine, noSpace, noType, idle, owner, if_neg known]
    cases (rvaRe db).search (dropNewlines t.declaration) with
    | some found => exact ⟨_, rfl⟩
    | none => exact ⟨none, by simp [← idle]⟩

end TypeDecl

end Opg3d.Symbolize
