import Opg3d.RepeatedSymbolizing
import Opg3d.RvaPairing
import Opg3d.Tool.Files

namespace Opg3d.Symbolize

open Kit

/-- The text consists of such characters. -/
abbrev MadeOf (p : Char → Prop) (text : Text) : Prop := ∀ c ∈ text, p c

section Names

variable {p : Char → Prop} {db : Unicode} {text : Text}

theorem MadeOf.append {front back : Text} (first : MadeOf p front) (second : MadeOf p back) :
    MadeOf p (front ++ back) :=
  fun c member => (List.mem_append.mp member).elim (first c) (second c)

theorem MadeOf.part {part : Text} (made : MadeOf p text) (within : part <:+: text) : MadeOf p part :=
  fun c member => made c (within.subset member)

theorem MadeOf.stripLeft (made : MadeOf p text) : MadeOf p (stripLeft text) :=
  fun c member => made c ((List.dropWhile_sublist _).subset member)

theorem MadeOf.stripRight (made : MadeOf p text) : MadeOf p (stripRight text) := by
  intro c member
  have kept := (List.dropWhile_sublist isSpace).subset (List.mem_reverse.mp member)
  exact made c (List.mem_reverse.mp kept)

theorem MadeOf.strip (made : MadeOf p text) : MadeOf p (strip text) := made.stripLeft.stripRight

theorem MadeOf.textBefore (made : MadeOf p text) (separator : Text) :
    MadeOf p (textBefore separator text) := by
  induction text with
  | nil => exact made
  | cons c text ih =>
    obtain ⟨here, later⟩ := List.forall_mem_cons.mp made
    rw [Symbolize.textBefore]
    split
    · exact fun _ none_ => absurd none_ List.not_mem_nil
    · exact List.forall_mem_cons.mpr ⟨here, ih later⟩

theorem MadeOf.lastWord (made : MadeOf p text) : MadeOf p (lastWord text) := by
  intro c member
  have kept := (List.takeWhile_sublist _).subset (List.mem_reverse.mp member)
  exact made c (List.mem_reverse.mp kept)

theorem MadeOf.methodName {name : Text} (made : MadeOf p text)
    (found : methodNameFromDeclaration text = some name) : MadeOf p name := by
  simp only [methodNameFromDeclaration] at found
  split_ifs at found
  obtain rfl := Option.some.inj found
  exact (made.strip.textBefore _).stripRight.lastWord

/-- The names that a line gives consist of such characters. -/
structure LineClass.Names (p : Char → Prop) (c : LineClass) : Prop where
  space : ∀ name ∈ c.space?, MadeOf p name
  type : ∀ name ∈ c.type?, MadeOf p name
  method : ∀ name comment, c = .other (some name) comment → MadeOf p name

theorem classify_names {rawLine : Text} (made : MadeOf p (dropNewlines rawLine)) :
    (classify db rawLine).Names p := by
  have unnamed : ∀ name ∈ (none : Option Text), MadeOf p name :=
    fun _ none_ => absurd none_ (Option.not_mem_none _)
  simp only [classify]
  split
  · rename_i found matched
    refine ⟨fun name same => ?_, unnamed, fun _ _ other => LineClass.noConfusion other⟩
    obtain rfl := Option.some.inj same
    exact (made.part (Regex.matchStart_group matched)).strip
  split
  · rename_i found matched
    refine ⟨unnamed, fun name same => ?_, fun _ _ other => LineClass.noConfusion other⟩
    obtain rfl := Option.some.inj same
    exact ((made.strip.part (Regex.matchStart_group matched)).textBefore _).strip
  split
  · exact ⟨unnamed, unnamed, fun _ _ other => LineClass.noConfusion other⟩
  · exact ⟨unnamed, unnamed, fun name comment same => made.methodName (LineClass.other.inj same).1⟩

/-- What the parser knows consists of such characters. -/
structure Parsing.Names (p : Char → Prop) (s : Parsing) : Prop where
  space : MadeOf p s.namespace_
  type : MadeOf p s.currentType
  methods : ∀ m ∈ s.methods, MadeOf p m.qualifiedName

theorem qualified_madeOf (dot : p '.') {space type method : Text} (first : MadeOf p space)
    (second : MadeOf p type) (third : MadeOf p method) : MadeOf p (qualified space type method) := by
  have point : MadeOf p ".".toList := fun c member => (List.mem_singleton.mp member) ▸ dot
  unfold qualified
  split
  · exact ((first.append point).append second).append point |>.append third
  · exact (second.append point).append third

theorem Parsing.Names.step (dot : p '.') {s : Parsing} (names : s.Names p) {c : LineClass}
    (given : c.Names p) : (c.step s).Names p := by
  cases c with
  | space name => exact ⟨given.space name rfl, names.type, names.methods⟩
  | type name => exact ⟨names.space, given.type name rfl, names.methods⟩
  | rva address => exact ⟨names.space, names.type, names.methods⟩
  | other method comment =>
    cases pending : s.pendingRva with
    | none => simpa [LineClass.step, pending] using names
    | some address =>
      cases method with
      | none =>
        simp only [LineClass.step, pending]
        split
        · exact ⟨names.space, names.type, names.methods⟩
        · exact names
      | some name =>
        simp only [LineClass.step, pending]
        refine ⟨names.space, names.type, fun m member => ?_⟩
        rcases List.mem_append.mp member with before | last
        · exact names.methods m before
        · rw [List.mem_singleton.mp last]
          exact qualified_madeOf dot names.space names.type (given.method name comment rfl)

/-- The names of a dump consist of characters of its lines. -/
theorem parseDump_names (db : Unicode) {dump : List Text} (dot : p '.')
    (unknown : MadeOf p "<unknown-type>".toList) (made : ∀ line ∈ dump, MadeOf p (dropNewlines line)) :
    ∀ m ∈ parseDump db dump, MadeOf p m.qualifiedName := by
  have run (s : Parsing) (names : s.Names p) : (dump.foldl (parseLine db) s).Names p := by
    induction dump generalizing s with
    | nil => exact names
    | cons line dump ih =>
      obtain ⟨here, later⟩ := List.forall_mem_cons.mp made
      refine ih later _ ?_
      rw [parseLine_eq]
      exact names.step dot (classify_names here)
  intro m member
  have start : Parsing.start.Names p :=
    ⟨fun _ none_ => absurd none_ List.not_mem_nil, unknown, fun _ none_ => absurd none_ List.not_mem_nil⟩
  exact (run .start start).methods m (mem_sortedSet.mp member)

end Names

/-- What belongs behind a line of a log, by the methods of a dump: nothing, or
the nearest method of its first call site, unless it is annotated already. -/
inductive Marked (db : Unicode) (methods : List Method) (maxOffset : Int) (line : Text) : Text → Prop
  | plain : (∀ digits, FirstSite db line digits → Annotated line ∨
        ∀ m ∈ methods, ¬((parseHex digits : Int) - maxOffset ≤ m.rva ∧ m.rva ≤ parseHex digits)) →
      Marked db methods maxOffset line []
  | told {digits start shown} : FirstSite db line digits → ¬Annotated line →
      IsGreatest (startsUpTo methods (parseHex digits)) start →
        (parseHex digits : Int) - start ≤ maxOffset →
      FirstOf 3 (namesAt methods start) shown →
      (Marked db methods maxOffset line <|
        annotation (rendering shown ((namesAt methods start).card - 3) (parseHex digits - start)))

section Marks

variable {db : Unicode} {methods : List Method} {maxOffset : Int} {line mark : Text}

theorem marked_appended (db : Unicode) (methods : List Method) (maxOffset : Int) (line : Text) :
    Marked db methods maxOffset line (appended db ⟨methods⟩ maxOffset line) := by
  rcases appended_cases db ⟨methods⟩ maxOffset line with nothing | ⟨digits, resolved, site, plain, found, added⟩
  · rw [nothing]
    refine .plain fun digits site => ?_
    exact (appended_eq_nil.mp nothing digits site).symm.imp_right RvaIndex.resolve_eq_none_iff.mp
  · obtain ⟨start, shown, greatest, reach, first, rfl⟩ := RvaIndex.resolve_eq_some_iff.mp found
    rw [added]
    exact .told site plain greatest reach first

theorem rendering_madeOf {p : Char → Prop} {shown : List Text} (made : ∀ name ∈ shown, MadeOf p name)
    (fixed : MadeOf p "|+ moreabcdefx0123456789".toList) (further offset : Nat) :
    MadeOf p (rendering shown further offset) := by
  have digits (base n : Nat) (large : 1 < base) (small : base ≤ 16) :
      MadeOf p ((numeral base n).map Nat.digitChar) := by
    intro c member
    obtain ⟨d, digit, rfl⟩ := List.mem_map.mp member
    have known : ∀ d < 16, Nat.digitChar d ∈ "|+ moreabcdefx0123456789".toList := by decide
    exact fixed _ (known d ((numeral_lt large digit).trans_le small))
  have literal_ {text : Text} (known : text ⊆ "|+ moreabcdefx0123456789".toList) : MadeOf p text :=
    fun c member => fixed c (known member)
  have names : MadeOf p (['|'].intercalate shown) := by
    intro c member
    rcases mem_intercalate member with bar | ⟨name, among, inside⟩
    · exact literal_ (by decide) c bar
    · exact made name among c inside
  have rest : MadeOf p (if 0 < further then "|+".toList ++ decimalText further ++ " more".toList else []) := by
    split
    · exact ((literal_ (by decide)).append (digits 10 further (by decide) (by decide))).append
        (literal_ (by decide))
    · exact fun _ none_ => absurd none_ List.not_mem_nil
  exact ((names.append rest).append (literal_ (by decide))).append (digits 16 offset (by decide) (by decide))

/-- What is put behind a line ends no line. -/
theorem Marked.inline (marked : Marked db methods maxOffset line mark)
    (names : ∀ m ∈ methods, MadeOf Inline m.qualifiedName) : MadeOf Inline mark := by
  cases marked with
  | plain => exact fun _ none_ => absurd none_ List.not_mem_nil
  | told _ _ _ _ first =>
    have label : MadeOf Inline " [managed=".toList := by decide
    have bracket : MadeOf Inline "]".toList := by decide
    refine (label.append (rendering_madeOf (fun name among => ?_) (by decide) _ _)).append bracket
    have known := first.among name among
    rw [namesAt, List.mem_toFinset] at known
    obtain ⟨m, member, rfl⟩ := List.mem_map.mp known
    exact names m (List.mem_filter.mp member).1

end Marks

theorem inline_dropNewlines {file : Text} {line : Text} (member : line ∈ lines (universalNewlines file)) :
    MadeOf Inline (dropNewlines line) := by
  obtain ⟨own, oneLine, shape, within⟩ := mem_lines member
  have inline : MadeOf Inline own := by
    intro c inside
    exact ⟨fun same => oneLine (same ▸ inside), fun same =>
      return_not_mem false file (same ▸ within c inside)⟩
  have bare : dropNewlines line = own := by
    rcases shape with rfl | rfl
    · exact dropNewlines_line oneLine
    · rw [← dropNewlines_newline, dropNewlines_line oneLine]
  rwa [bare]

/-- Whole lines are read as they are. -/
theorem lines_whole {whole : List Text}
    (ended : ∀ line ∈ whole, ∃ text, line = text ++ ['\n'] ∧ MadeOf Inline text) :
    lines (universalNewlines whole.flatten) = whole := by
  have plain : '\r' ∉ whole.flatten := by
    intro member
    obtain ⟨line, among, inside⟩ := List.mem_flatten.mp member
    obtain ⟨text, rfl, inline⟩ := ended line among
    rcases List.mem_append.mp inside with own | last
    · exact (inline '\r' own).2 rfl
    · exact absurd last (by decide)
  have apart : ∀ line ∈ whole, ∃ text, line = text ++ ['\n'] ∧ '\n' ∉ text := by
    intro line among
    obtain ⟨text, same, inline⟩ := ended line among
    exact ⟨text, same, fun feed => (inline '\n' feed).1 rfl⟩
  have read := lines_flatten apart []
  rw [List.append_nil, show lines [] = [] from rfl, List.append_nil] at read
  rw [universalNewlines_plain plain, read]

/-- The output is read as it was written. -/
theorem readLines_symbolized (db : Unicode) (dump log : Bytes) (maxOffset : Int) :
    readLines (utf8 (symbolizeLines db (readLines log) ⟨parseDump db (readDump dump)⟩ maxOffset).flatten) =
      symbolizeLines db (readLines log) ⟨parseDump db (readDump dump)⟩ maxOffset := by
  have names : ∀ m ∈ parseDump db (readDump dump), MadeOf Inline m.qualifiedName :=
    parseDump_names db (by decide) (by decide) fun _ member => inline_dropNewlines member
  rw [readLines.eq_def (utf8 _), decode_utf8, lines_whole]
  intro line member
  obtain ⟨raw, among, rfl⟩ := List.mem_map.mp member
  have marked := marked_appended db (parseDump db (readDump dump)) maxOffset (dropNewlines raw)
  exact ⟨_, symbolizeLine_eq .., (inline_dropNewlines among).append (marked.inline names)⟩

/-- The annotated log, read again, has the lines of the log one for one and in
their order, each with its own text and behind it what belongs there. -/
theorem whole_log {db : Unicode} {dump log out : Bytes} {maxOffset : Int}
    (done : main db dump log maxOffset = some out) :
    List.Forall₂ (fun line line' => ∃ mark, Marked db (parseDump db (readDump dump)) maxOffset
        (dropNewlines line) mark ∧
        line' = dropNewlines line ++ mark ++ ['\n']) (readLines log) (readLines out) ∧
      ∀ front back, log = front ++ 10 :: back → ∃ first second,
        main db dump (front ++ [10]) maxOffset = some first ∧
        main db dump back maxOffset = some second ∧ out = first ++ second := by
  obtain ⟨nonneg, same⟩ := Option.ite_none_left_eq_some.mp done
  have marked (line : Text) := marked_appended db (parseDump db (readDump dump)) maxOffset (dropNewlines line)
  constructor
  · have read : readLines out = symbolizeLines db (readLines log) ⟨parseDump db (readDump dump)⟩ maxOffset :=
      (Option.some.inj same) ▸ readLines_symbolized db dump log maxOffset
    rw [read, symbolizeLines, List.forall₂_map_right_iff, List.forall₂_same]
    exact fun line _ => ⟨_, marked line, symbolizeLine_eq ..⟩
  · rintro front back rfl
    refine ⟨_, _, if_neg nonneg, if_neg nonneg, ?_⟩
    rw [← Option.some.inj same, readLines_append]
    simp [symbolizeLines]

def Sample.dumpFile : Bytes :=
  literal ("\uFEFF// Namespace: \r\npublic class GameConnect : MonoBehaviour\r\n\x7b\r\n" ++
  "    // RVA: 0x118F728 Offset: 0x118F728 VA: 0x118F728\r\n    public static void Disconnect() \x7b \x7d\r\n\x7d\r\n")

def Sample.logFile : Bytes := literal "pc=libil2cpp.so+0x118f750] disconnect\r\nhelper" ++ [0xFF]

/-- A log with the line ends of Windows, an incomplete last line and a byte that is no UTF-8. -/
theorem whole_log_sample : ∃ out, main asciiOnly Sample.dumpFile Sample.logFile 0x1000 = some out ∧
    List.Forall₂ (fun line line' => ∃ mark,
      Marked asciiOnly (parseDump asciiOnly (readDump Sample.dumpFile)) 0x1000 (dropNewlines line) mark ∧
        line' = dropNewlines line ++ mark ++ ['\n']) (readLines Sample.logFile) (readLines out) :=
  ⟨_, rfl, (whole_log rfl).1⟩

example : main asciiOnly Sample.dumpFile Sample.logFile 0x1000 = some (literal
    "pc=libil2cpp.so+0x118f750] disconnect [managed=GameConnect.Disconnect+0x28]\nhelper\uFFFD\n") := by decide +kernel

end Opg3d.Symbolize
