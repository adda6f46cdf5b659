import Opg3d.DumpRoundTrip
import Opg3d.LoggerAgreement
import Opg3d.WholeLog

namespace Opg3d.Symbolize

open Kit Logger

/-- No byte of the text ends a line. -/
abbrev Unbroken (bytes : Bytes) : Prop := ∀ b ∈ bytes, b ≠ 10 ∧ b ≠ 13

theorem Unbroken.append {front back : Bytes} (first : Unbroken front) (second : Unbroken back) :
    Unbroken (front ++ back) :=
  fun b member => (List.mem_append.mp member).elim (first b) (second b)

theorem unbroken_utf8 {text : Text} (plain : ∀ c ∈ text, c.toNat < 128 ∧ Inline c) :
    Unbroken (utf8 text) := by
  intro b member
  obtain ⟨c, inside, among⟩ := List.mem_flatMap.mp member
  obtain ⟨ascii, noFeed, noReturn⟩ := plain c inside
  rw [utf8EncodeChar_ascii ascii] at among
  obtain rfl := List.mem_singleton.mp among
  have same := (ofNat_ascii ascii).2
  constructor
  · intro feed
    rw [feed] at same
    exact noFeed same.symm
  · intro return_
    rw [return_] at same
    exact noReturn same.symm

theorem numeral_unbroken {base : Nat} (large : 1 < base) (small : base ≤ 16) (n : Nat) :
    Unbroken (utf8 ((numeral base n).map Nat.digitChar)) := by
  refine unbroken_utf8 fun c member => ?_
  obtain ⟨d, digit, rfl⟩ := List.mem_map.mp member
  have known : ∀ d < 16, (Nat.digitChar d).toNat < 128 ∧ Inline (Nat.digitChar d) := by decide
  exact known d ((numeral_lt large digit).trans_le small)

/-- An argument that is printed on one line. -/
def ArgUnbroken : Arg → Prop
  | .str bytes => Unbroken bytes
  | _ => True

theorem convert_unbroken {arg : Arg} (held : ArgUnbroken arg) (width : Nat) (conversion : Char) :
    Unbroken (convert width conversion arg) := by
  have padded {digits : Bytes} (plain : Unbroken digits) : Unbroken (zeroPad width digits) := by
    refine Unbroken.append (fun b member => ?_) plain
    rw [List.eq_of_mem_replicate member]
    decide
  have dec (n : Nat) : Unbroken (decimal n) := numeral_unbroken (by decide) (by decide) n
  have hex (n : Nat) : Unbroken (hexadecimal n) := numeral_unbroken (by decide) (by decide) n
  cases arg with
  | str bytes => exact held
  | int i =>
    show Unbroken (signedDecimal i)
    unfold signedDecimal
    split_ifs
    · exact Unbroken.append (by decide) (dec _)
    · exact dec _
  | nat n =>
    unfold convert
    split_ifs
    · exact padded (hex n)
    · exact Unbroken.append (by decide) (hex n)
    · exact padded (dec n)

theorem formatFrom_unbroken {format : Text} (plain : ∀ c ∈ format, c.toNat < 128 ∧ Inline c)
    {args : List Arg} (held : ∀ arg ∈ args, ArgUnbroken arg) (state : Option Nat) :
    Unbroken (formatFrom state format args) := by
  induction format generalizing state args with
  | nil => cases state <;> exact fun _ none_ => absurd none_ List.not_mem_nil
  | cons c rest ih =>
    obtain ⟨here, later⟩ := List.forall_mem_cons.mp plain
    cases state with
    | none =>
      rw [formatFrom]
      split_ifs
      · exact ih later held _
      · have own : Unbroken (String.utf8EncodeChar c) := by
          simpa [utf8] using @unbroken_utf8 [c] (List.forall_mem_singleton.mpr here)
        exact own.append (ih later held _)
    | some width =>
      rw [formatFrom.eq_def]
      by_cases digit : c.isDigit = true
      · simp only [if_pos digit]
        exact ih later held _
      by_cases modifier : c = 'l' ∨ c = 'z'
      · simp only [if_neg digit, if_pos modifier]
        exact ih later held _
      simp only [if_neg digit, if_neg modifier]
      cases args with
      | nil => exact ih later held _
      | cons arg others =>
        obtain ⟨first, more⟩ := List.forall_mem_cons.mp held
        exact (convert_unbroken first _ _).append (ih later more _)

/-- A line of the log: logcat's heading, and a message and a module without line ends. -/
structure LogEntry where
  heading : Text
  sequence : UInt32
  site : CallSite
  message : Bytes
  quiet : ¬"pc=".toList <:+: heading
  inline : MadeOf Inline heading
  unbroken : Unbroken message
  named : ∀ info ∈ site.module, Unbroken (baseName info.fname)

namespace LogEntry

def text (e : LogEntry) : Text := logLine e.heading e.sequence e.site e.message

def bytes (e : LogEntry) : Bytes := utf8 e.heading ++ print e.sequence e.site e.message ++ [10]

theorem print_unbroken (e : LogEntry) : Unbroken (print e.sequence e.site e.message) := by
  have cut {size : Nat} {bytes : Bytes} (whole : Unbroken bytes) : Unbroken (truncate size bytes) :=
    fun b member => whole b (List.mem_of_mem_take member)
  have message : Unbroken (truncate 3072 e.message) := cut e.unbroken
  unfold print
  refine cut ?_
  split
  · rename_i info module
    refine formatFrom_unbroken (by decide) ?_ none
    simp only [List.forall_mem_cons]
    exact ⟨trivial, trivial, trivial, e.named info module, trivial, message, fun _ none_ =>
      absurd none_ List.not_mem_nil⟩
  · refine formatFrom_unbroken (by decide) ?_ none
    simp only [List.forall_mem_cons]
    exact ⟨trivial, trivial, trivial, trivial, message, fun _ none_ => absurd none_ List.not_mem_nil⟩

theorem text_inline (e : LogEntry) : MadeOf Inline e.text := by
  refine e.inline.append fun c member => ?_
  have absent (d : Char) (ascii : d.toNat < 128) (some_ : d.toNat ≠ 0)
    (broken : ¬(UInt8.ofNat d.toNat ≠ 10 ∧ UInt8.ofNat d.toNat ≠ 13)) :
      c ≠ d := by
    rintro rfl
    exact broken (e.print_unbroken _ (mem_decode member ascii some_))
  exact ⟨absent '\n' (by decide) (by decide) (by decide), absent '\r' (by decide) (by decide) (by decide)⟩

end LogEntry

def logFile (entries : List LogEntry) : Bytes := entries.flatMap LogEntry.bytes

theorem readLines_logFile (entries : List LogEntry) :
    readLines (logFile entries) = entries.map fun e => e.text ++ ['\n'] := by
  have decoded : decode (logFile entries) = (entries.map fun e => e.text ++ ['\n']).flatten := by
    induction entries with
    | nil => rfl
    | cons e entries ih =>
      have feed : decode (utf8 e.heading ++ print e.sequence e.site e.message ++ 10 :: logFile entries) = _ :=
        decodeFrom_append (by decide) _ _ none
      rw [logFile, List.flatMap_cons, ← logFile, LogEntry.bytes, List.append_assoc _ [10],
        List.singleton_append, feed, ih]
      show decode _ ++ _ = _
      rw [decode_text_append, List.map_cons, List.flatten_cons, LogEntry.text, logLine]
      simp
  rw [readLines, decoded, lines_whole]
  intro line member
  obtain ⟨e, _, rfl⟩ := List.mem_map.mp member
  exact ⟨_, rfl, e.text_inline⟩

/-- Il2CppDumper's file, with or without a byte order mark. -/
def dumpFile (mark : Bool) (types : List TypeDecl) : Bytes :=
  utf8 ((if mark then ['\uFEFF'] else []) ++ (dumpLines types).flatten)

theorem Filler.head_line (filler : Filler) (rest : Text) : (filler.line ++ rest).head? ≠ some '\uFEFF' := by
  obtain ⟨⟨indent, blank⟩, brace⟩ := filler
  cases indent with
  | nil =>
    cases brace with
    | none => exact fun same => absurd (Option.some.inj same) (by decide)
    | some brace => cases brace <;> exact fun same => absurd (Option.some.inj same) (by decide)
  | cons c indent =>
    intro same
    obtain rfl : c = '\uFEFF' := Option.some.inj same
    exact absurd (blank _ List.mem_cons_self) (by decide)

/-- A dump does not begin with a byte order mark of its own. -/
theorem dropMark_dumpLines (types : List TypeDecl) :
    dropMark (dumpLines types).flatten = (dumpLines types).flatten := by
  have start : (dumpLines types).flatten.head? ≠ some '\uFEFF' := by
    cases types with
    | nil => exact Option.some_ne_none _ ∘ Eq.symm
    | cons t types =>
      rw [dumpLines, List.flatMap_cons, List.flatten_append, TypeDecl.lines]
      cases before : t.before with
      | nil => exact fun same => absurd (Option.some.inj same) (by decide)
      | cons filler fillers =>
        simp only [List.map_cons, List.cons_append, List.flatten_cons, List.append_assoc]
        exact filler.head_line _
  cases text : (dumpLines types).flatten with
  | nil => rfl
  | cons c rest =>
    rw [text] at start
    rw [dropMark, if_neg (fun same => start (congrArg some same))]

/-- No text in the dump ends a line early. -/
def Tidy (types : List TypeDecl) : Prop :=
  ∀ line ∈ dumpLines types, ∃ text, line = text ++ ['\n'] ∧ MadeOf Inline text

theorem readDump_dumpFile (mark : Bool) {types : List TypeDecl} (tidy : Tidy types) :
    readDump (dumpFile mark types) = dumpLines types := by
  have unmarked : dropMark (decode (dumpFile mark types)) = (dumpLines types).flatten := by
    rw [dumpFile, decode_utf8]
    cases mark
    · exact dropMark_dumpLines types
    · rfl
  rw [readDump, unmarked, lines_whole tidy]

/-- Every method is heard under its own type and its own name; without two
methods at one address no other dump is read in full. -/
def Heard (db : Unicode) (types : List TypeDecl) : Prop :=
  ∀ place ∈ attributed "<unknown-type>".toList types, ∀ m ∈ place.2.methods,
    m.generics.length ≤ 1 ∧ place.1 = place.2.name ∧ ¬m.Missed db

theorem Heard.methods {db : Unicode} {types : List TypeDecl} (heard : Heard db types) :
    heardMethods db types = writtenMethods types := by
  have places : writtenMethods types =
      (attributed "<unknown-type>".toList types).flatMap fun place =>
        place.2.methods.map place.2.written := by
    rw [writtenMethods]
    conv_lhs => rw [← attributed_types "<unknown-type>".toList types]
    exact List.flatMap_map ..
  rw [places, heardMethods]
  refine List.flatMap_congr fun place among => ?_
  rw [← List.filterMap_eq_map']
  refine List.filterMap_congr fun m member => ?_
  obtain ⟨few, own, kept⟩ := heard place among m member
  rw [MethodDecl.heard_few few kept, own]
  rfl

/-- What is told of the call site of a log line, by the methods of a dump: the
nearest method, if the call came from libil2cpp.so and one is in reach. -/
inductive Told (methods : List Method) (maxOffset : Int) (site : CallSite) : Text → Prop
  | elsewhere : il2cppRva site = none → Told methods maxOffset site []
  | unknown {rva} : il2cppRva site = some rva →
      (∀ m ∈ methods, ¬((rva : Int) - maxOffset ≤ m.rva ∧ m.rva ≤ rva)) → Told methods maxOffset site []
  | nearest {rva start shown} : il2cppRva site = some rva → IsGreatest (startsUpTo methods rva) start →
      (rva : Int) - start ≤ maxOffset → FirstOf 3 (namesAt methods start) shown →
      (Told methods maxOffset site <|
        annotation (rendering shown ((namesAt methods start).card - 3) (rva - start)))

theorem LogEntry.firstSite (db : Unicode) (e : LogEntry) {rva : Nat} (named : il2cppRva e.site = some rva) :
    FirstSite db e.text (hexText rva) := by
  obtain ⟨rest, shape⟩ := logLine_il2cpp named e.heading e.sequence e.message
  rw [text, shape]
  exact firstSite_il2cpp db e.quiet e.sequence e.site rva rest

/-- What the tool puts behind a line that does not get in the way of its header. -/
theorem LogEntry.told (db : Unicode) {methods : List Method} {maxOffset : Int} (e : LogEntry)
    (undisturbed : Undisturbed db ⟨methods⟩ maxOffset e.text e.site) :
    Told methods maxOffset e.site (appended db ⟨methods⟩ maxOffset e.text) := by
  have marked := marked_appended db methods maxOffset e.text
  unfold Undisturbed at undisturbed
  cases named : il2cppRva e.site with
  | none =>
    rw [named] at undisturbed
    rw [appended_eq_nil.mpr undisturbed]
    exact .elsewhere named
  | some rva =>
    have here := e.firstSite db named
    rw [named] at undisturbed
    generalize appended db ⟨methods⟩ maxOffset e.text = told at marked ⊢
    cases marked with
    | plain nothing =>
      refine .unknown named ?_
      rcases undisturbed with missed | free
      · exact RvaIndex.resolve_eq_none_iff.mp missed
      · exact parseHex_hexText rva ▸ (nothing _ here).resolve_left free
    | told site free greatest reach first =>
      obtain rfl := here.unique site
      rw [parseHex_hexText] at greatest reach ⊢
      exact .nearest named greatest reach first

theorem appended_of_same {methods others : List Method} (same : ∀ m, m ∈ others ↔ m ∈ methods)
    (db : Unicode) (maxOffset : Int) (line : Text) :
    appended db ⟨others⟩ maxOffset line = appended db ⟨methods⟩ maxOffset line := by
  simp only [appended, RvaIndex.resolve_of_same same]

/-- A log that `print` has written, annotated by the dump of the game that it
was written in. No text of the dump ends a line early, its methods are all
heard under their own types and names, and no message gets in the way of the
header of its line. Then each line is kept, and where it was printed from
libil2cpp.so, the method is told that is nearest to the caller in the game. -/
theorem printed_log {db : Unicode} {types : List TypeDecl} {mark : Bool} {entries : List LogEntry}
    {maxOffset : Int} (nonneg : 0 ≤ maxOffset) (tidy : Tidy types) (heard : Heard db types)
    (undisturbed : ∀ e ∈ entries, Undisturbed db ⟨writtenMethods types⟩ maxOffset e.text e.site) :
    ∃ out, main db (dumpFile mark types) (logFile entries) maxOffset = some out ∧
      List.Forall₂ (fun e line => ∃ told, Told (writtenMethods types) maxOffset e.site told ∧
        line = e.text ++ told ++ ['\n'])
        entries (readLines out) := by
  refine ⟨_, if_neg (Int.not_lt.mpr nonneg), ?_⟩
  have methods : parseDump db (readDump (dumpFile mark types)) = sortedSet (writtenMethods types) := by
    rw [readDump_dumpFile mark tidy, parseDump_dumpLines, heard.methods]
  have written : ∀ m, m ∈ parseDump db (readDump (dumpFile mark types)) ↔ m ∈ writtenMethods types := by
    rw [methods]
    exact fun m => mem_sortedSet
  rw [readLines_symbolized, symbolizeLines, readLines_logFile, List.map_map, List.forall₂_map_right_iff,
    List.forall₂_same]
  intro e among
  have own : dropNewlines (e.text ++ ['\n']) = e.text :=
    dropNewlines_line fun feed => (e.text_inline '\n' feed).1 rfl
  refine ⟨_, e.told db (undisturbed e among), ?_⟩
  rw [Function.comp_apply, symbolizeLine_eq, own, appended_of_same written]

/-- A call from `PhotonHandler.Connect`, 17 bytes behind its start. -/
def Sample.connectEntry : LogEntry where
  heading := logcatHeading
  sequence := 1
  site := ⟨15237, 0, 7, 0x10001A3D, some ⟨some (literal "/data/app/lib/arm/libil2cpp.so"), 0x10000000⟩⟩
  message := literal "net: ConnectToMaster begin"
  quiet := by decide
  inline := by decide
  unbroken := by decide
  named := by decide

theorem printed_log_sample : ∃ out,
    main asciiOnly (dumpFile true [photonHandler .internal [connectMethod]])
      (logFile [Sample.connectEntry]) 0x1000 = some out ∧
      List.Forall₂ (fun e line => ∃ told,
        Told (writtenMethods [photonHandler .internal [connectMethod]]) 0x1000 e.site told ∧
        line = e.text ++ told ++ ['\n']) [Sample.connectEntry] (readLines out) := by
  have undisturbed : Undisturbed asciiOnly ⟨writtenMethods [photonHandler .internal [connectMethod]]⟩ 0x1000
      Sample.connectEntry.text Sample.connectEntry.site := by
    have named : il2cppRva Sample.connectEntry.site = some 0x1A3C := by decide
    rw [Undisturbed, named]
    exact .inr (mt annotated_iff.mpr (by decide +kernel))
  have tidy : Tidy [photonHandler .internal [connectMethod]] := by
    intro line member
    have known : ∀ line ∈ dumpLines [photonHandler .internal [connectMethod]],
        line = line.dropLast ++ ['\n'] ∧ MadeOf Inline line.dropLast := by decide +kernel
    exact ⟨_, known line member⟩
  refine printed_log (by decide) tidy ?_ (List.forall_mem_singleton.mpr undisturbed)
  unfold Heard
  decide +kernel

end Opg3d.Symbolize
