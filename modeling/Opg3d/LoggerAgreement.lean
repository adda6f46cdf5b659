import Opg3d.Native.Logger
import Opg3d.Tool.Patterns

namespace Opg3d.Symbolize

open Kit Logger

/-- A log line as the tool reads it: logcat's heading and what `print` wrote. -/
def logLine (heading : Text) (sequence : UInt32) (site : CallSite) (message : Bytes) : Text :=
  heading ++ decode (print sequence site message)

/-- The RVA of the header, if the header's module is libil2cpp.so. -/
def il2cppRva (site : CallSite) : Option Nat :=
  match site.module with
  | some info => if baseName info.fname = literal "libil2cpp.so" then some (site.rva info).toNat else none
  | none => none

/-- What the header alone says is to be appended. -/
def headerMark (index : RvaIndex) (maxOffset : Int) (site : CallSite) : Text :=
  match il2cppRva site with
  | none => []
  | some rva =>
    match index.resolve rva maxOffset with
    | none => []
    | some resolved => annotation resolved

/-- The tool appends to a log line what its header says. -/
def Agrees (db : Unicode) (index : RvaIndex) (maxOffset : Int) (line : Text) (site : CallSite) : Prop :=
  symbolizeLines db [line ++ ['\n']] index maxOffset =
    [dropNewlines line ++ headerMark index maxOffset site ++ ['\n']]

def zeroPadText (width : Nat) (digits : Text) : Text := List.replicate (width - digits.length) '0' ++ digits

def signedText (i : Int) : Text :=
  if i < 0 then "-".toList ++ decimalText i.natAbs else decimalText i.natAbs

/-- The header up to the call site. -/
def headerText (sequence : UInt32) (site : CallSite) : Text :=
  "[#".toList ++ zeroPadText 6 (decimalText sequence.toNat) ++ " +".toList ++
    zeroPadText 6 (decimalText site.elapsed.toNat) ++ "ms tid=".toList ++
      signedText site.threadId.toInt ++ " ".toList

def IsPlain (text : Text) : Prop := ∀ c ∈ text, c.toNat < 128 ∧ c ≠ 'p'

instance (text : Text) : Decidable (IsPlain text) := inferInstanceAs (Decidable (∀ c ∈ text, _))

theorem IsPlain.append {xs ys : Text} (first : IsPlain xs) (second : IsPlain ys) : IsPlain (xs ++ ys) :=
  fun c member => (List.mem_append.mp member).elim (first c) (second c)

theorem digitChar_plain : ∀ d < 16, (Nat.digitChar d).toNat < 128 ∧ Nat.digitChar d ≠ 'p' ∧
    hexDigitValue (Nat.digitChar d) = d := by decide

theorem numeral_plain {base : Nat} (large : 1 < base) (small : base ≤ 16) (n : Nat) :
    IsPlain ((numeral base n).map Nat.digitChar) := by
  intro c member
  obtain ⟨d, digit, rfl⟩ := List.mem_map.mp member
  have known := digitChar_plain d (Nat.lt_of_lt_of_le (numeral_lt large digit) small)
  exact ⟨known.1, known.2.1⟩

theorem decimalText_plain (n : Nat) : IsPlain (decimalText n) := numeral_plain (by decide) (by decide) n

theorem zeroPadText_plain (width n : Nat) : IsPlain (zeroPadText width (decimalText n)) := by
  refine IsPlain.append (fun c member => ?_) (decimalText_plain n)
  obtain rfl := List.eq_of_mem_replicate member
  decide

theorem signedText_plain (i : Int) : IsPlain (signedText i) := by
  unfold signedText
  split
  · exact IsPlain.append (by decide) (decimalText_plain _)
  · exact decimalText_plain _

theorem headerText_plain (sequence : UInt32) (site : CallSite) : IsPlain (headerText sequence site) := by
  refine .append (.append (.append (.append (.append (.append ?_ ?_) ?_) ?_) ?_) ?_) ?_
  · decide
  · exact zeroPadText_plain 6 _
  · decide
  · exact zeroPadText_plain 6 _
  · decide
  · exact signedText_plain _
  · decide

theorem zeroPad_decimal (width n : Nat) :
    zeroPad width (decimal n) = utf8 (zeroPadText width (decimalText n)) := by
  rw [zeroPad, zeroPadText, utf8_append, ← zeros_eq, ← length_utf8_ascii fun c member =>
    (decimalText_plain n c member).1]
  rfl

theorem signedDecimal_text (i : Int) : signedDecimal i = utf8 (signedText i) := by
  unfold signedDecimal signedText
  split
  · rw [utf8_append]
    rfl
  · rfl

theorem printf_header (sequence : UInt32) (site : CallSite) (rva : Nat) (message : Bytes) :
    printf "[#%06u +%06llums tid=%ld pc=%s+0x%x] %s"
        [.nat sequence.toNat, .nat site.elapsed.toNat, .int site.threadId.toInt,
          .str (literal "libil2cpp.so"), .nat rva, .str message] =
      utf8 (headerText sequence site ++ siteText ++ hexText rva ++ "] ".toList) ++ message := by
  have format : printf "[#%06u +%06llums tid=%ld pc=%s+0x%x] %s"
      [.nat sequence.toNat, .nat site.elapsed.toNat, .int site.threadId.toInt,
        .str (literal "libil2cpp.so"), .nat rva, .str message] =
      literal "[#" ++ zeroPad 6 (decimal sequence.toNat) ++ literal " +" ++
        zeroPad 6 (decimal site.elapsed.toNat) ++
        literal "ms tid=" ++ signedDecimal site.threadId.toInt ++ literal " " ++ literal "pc=libil2cpp.so+0x" ++
        hexadecimal rva ++ literal "] " ++ message := by
    simp [printf, formatFrom, convert, literal, zeroPad]
  simp only [format, headerText, utf8_append, zeroPad_decimal, signedDecimal_text]
  rfl

theorem length_numeralText_le {base n k : Nat} (large : 1 < base) (positive : 0 < k)
    (bound : n < base ^ k) : ((numeral base n).map Nat.digitChar).length ≤ k := by
  rw [List.length_map]
  exact numeral_length_le large positive bound

theorem length_zeroPadText_le {width k : Nat} {digits : Text} (wide : width ≤ k)
    (bound : digits.length ≤ k) : (zeroPadText width digits).length ≤ k :=
  List.length_leftpad.trans_le (max_le wide bound)

theorem length_signedText_le (i : Int32) : (signedText i.toInt).length ≤ 11 := by
  have low := i.le_toInt
  have high := i.toInt_lt
  have digits : (decimalText i.toInt.natAbs).length ≤ 10 :=
    length_numeralText_le (by decide) (by decide) (by omega)
  unfold signedText
  split
  · rw [List.length_append]
    exact Nat.add_le_add (by decide : "-".toList.length ≤ 1) digits
  · omega

theorem length_headerText_le (sequence : UInt32) (site : CallSite) :
    (headerText sequence site).length ≤ 53 := by
  have number : (zeroPadText 6 (decimalText sequence.toNat)).length ≤ 10 :=
    length_zeroPadText_le (by decide)
      (length_numeralText_le (by decide) (by decide) (Nat.lt_trans sequence.toNat_lt (by decide)))
  have elapsed : (zeroPadText 6 (decimalText site.elapsed.toNat)).length ≤ 20 :=
    length_zeroPadText_le (by decide)
      (length_numeralText_le (by decide) (by decide) (Nat.lt_trans site.elapsed.toNat_lt (by decide)))
  have thread := length_signedText_le site.threadId
  simp only [headerText, List.length_append, String.length_toList]
  have fixed : "[#".length + " +".length + "ms tid=".length + " ".length = 12 := by decide
  omega

theorem hexText_plain (n : Nat) : IsPlain (hexText n) := numeral_plain (by decide) (by decide) n

/-- The header of such a line is never cut off, whatever the message. -/
theorem logLine_il2cpp {site : CallSite} {rva : Nat} (named : il2cppRva site = some rva) (heading : Text)
    (sequence : UInt32) (message : Bytes) : ∃ rest, logLine heading sequence site message =
      heading ++ headerText sequence site ++ (siteText ++ hexText rva ++ "] ".toList ++ rest) := by
  cases module : site.module with
  | none => simp [il2cppRva, module] at named
  | some info =>
    simp only [il2cppRva, module] at named
    split at named
    · rename_i base
      obtain rfl : (site.rva info).toNat = rva := Option.some.inj named
      let header := headerText sequence site ++ siteText ++ hexText (site.rva info).toNat ++ "] ".toList
      have plain : ∀ c ∈ header, c.toNat < 128 := by
        intro c member
        simp only [header, List.mem_append] at member
        rcases member with ((first | second) | third) | last
        · exact (headerText_plain sequence site c first).1
        · exact (by decide : ∀ c ∈ siteText, c.toNat < 128) c second
        · exact (hexText_plain _ c third).1
        · exact (by decide : ∀ c ∈ "] ".toList, c.toNat < 128) c last
      have size : (utf8 header).length ≤ 4095 := by
        have front := length_headerText_le sequence site
        have digits : (hexText (site.rva info).toNat).length ≤ 8 :=
          length_numeralText_le (by decide) (by decide) (Nat.lt_of_lt_of_le (site.rva info).toNat_lt (by decide))
        have fixed : siteText.length + "] ".length = 20 := by decide
        rw [length_utf8_ascii plain]
        simp only [header, List.length_append, String.length_toList]
        omega
      have printed : print sequence site message =
          utf8 header ++ (truncate 3072 message).take (4095 - (utf8 header).length) := by
        simp only [print, module, base, printf_header, truncate]
        rw [List.take_append, List.take_of_length_le size]
      refine ⟨decode ((truncate 3072 message).take (4095 - (utf8 header).length)), ?_⟩
      rw [logLine, printed, decode_utf8_append plain]
      simp only [header, List.append_assoc]
    · cases named

/-- No `pc=` begins between the heading and the header's own. -/
theorem pc_before (sequence : UInt32) (site : CallSite) {heading as bs : Text} {b : Char} (rest : Text)
    (cut : heading ++ headerText sequence site = as ++ b :: bs)
    (begins : "pc=".toList <+: b :: bs ++ rest) : "pc=".toList <:+: heading := by
  obtain ⟨after, same⟩ := begins
  obtain rfl : 'p' = b := (List.cons.inj same).1
  rcases List.append_eq_append_iff.mp cut with ⟨front, rfl, inside⟩ | ⟨tail, rfl, split⟩
  · have plain := headerText_plain sequence site 'p' (by simp [inside])
    exact absurd rfl plain.2
  · cases tail with
    | nil =>
      have plain := headerText_plain sequence site 'p' (by rw [← List.nil_append (headerText _ _), ← split]; simp)
      exact absurd rfl plain.2
    | cons b tail =>
      obtain ⟨rfl, rfl⟩ := List.cons.inj split
      obtain ⟨header, next⟩ : ∃ header, headerText sequence site = '[' :: header := ⟨_, rfl⟩
      have word : "pc=".toList <+: 'p' :: tail ++ '[' :: (header ++ rest) :=
        ⟨after, by rw [same, next]; simp⟩
      exact (prefix_before word (by decide)).isInfix.trans ⟨as, [], by simp⟩

theorem parseHex_hexText (n : Nat) : parseHex (hexText n) = n := by
  have values : (hexText n).map hexDigitValue = numeral 16 n := by
    rw [hexText, List.map_map]
    exact (List.map_congr_left fun d digit => (digitChar_plain d (numeral_lt (by decide) digit)).2.2).trans
      (List.map_id _)
  rw [parseHex, values, numeralValue_numeral]

/-- The first call site of such a line is the one in the header. -/
theorem firstSite_il2cpp (db : Unicode) {heading : Text} (quiet : ¬"pc=".toList <:+: heading)
    (sequence : UInt32) (site : CallSite) (rva : Nat) (rest : Text) :
    FirstSite db
      (heading ++ headerText sequence site ++ (siteText ++ hexText rva ++ "] ".toList ++ rest))
      (hexText rva) := by
  refine ⟨heading ++ headerText sequence site, _, rfl, ⟨"] ".toList ++ rest, by simp, ?_, ?_, ?_⟩, ?_⟩
  · exact fun empty => numeral_ne_nil 16 rva (List.map_eq_nil_iff.mp empty)
  · exact isHexDigit_numeral (by decide) (by decide) rva
  · intro c first
    obtain rfl : ']' = c := Option.some.inj first
    simp [Unicode.isWord, db.ascii]
  · rintro as b bs cut other ⟨after, begins, _⟩
    refine quiet (pc_before sequence site (siteText ++ hexText rva ++ "] ".toList ++ rest) cut ?_)
    have parts : siteText = "pc=".toList ++ "libil2cpp.so+0x".toList := by decide
    rw [begins, parts, List.append_assoc, List.append_assoc]
    exact List.prefix_append ..

/-- When the text of a line does not get in the way of its header. -/
def Undisturbed (db : Unicode) (index : RvaIndex) (maxOffset : Int) (line : Text) (site : CallSite) :
    Prop :=
  match il2cppRva site with
  | some rva => index.resolve rva maxOffset = none ∨ ¬Annotated line
  | none => ∀ digits, FirstSite db line digits → index.resolve (parseHex digits) maxOffset = none ∨
    Annotated line

/-- The tool appends what the header says exactly if, in a line from
libil2cpp.so whose RVA resolves, the text does not end in an annotation
already, and in any other line, unless it does, the first text of the form of
a call site in libil2cpp.so does not resolve. -/
theorem agrees_iff (db : Unicode) (index : RvaIndex) (maxOffset : Int) (heading : Text)
    (quiet : ¬"pc=".toList <:+: heading) (sequence : UInt32) (site : CallSite) (message : Bytes) :
    Agrees db index maxOffset (logLine heading sequence site message) site ↔
      Undisturbed db index maxOffset (dropNewlines (logLine heading sequence site message)) site := by
  let line := logLine heading sequence site message
  have nothing_more : Agrees db index maxOffset line site ↔
      appended db index maxOffset (dropNewlines line) = headerMark index maxOffset site := by
    rw [Agrees, symbolizeLines, List.map_singleton, symbolizeLine_eq, dropNewlines_newline,
      List.singleton_inj, List.append_left_inj, List.append_right_inj]
  rw [nothing_more, Undisturbed]
  cases named : il2cppRva site with
  | none =>
    rw [headerMark, named]
    exact appended_eq_nil
  | some rva =>
    obtain ⟨rest, shape⟩ := logLine_il2cpp named heading sequence message
    have first : FirstSite db (dropNewlines line) (hexText rva) := by
      have cut : dropNewlines line = heading ++ headerText sequence site ++
          (siteText ++ hexText rva ++ "] ".toList ++ dropNewlines rest) := by
        have space := dropNewlines_append (by decide : ' ' ≠ '\n')
          (heading ++ headerText sequence site ++ siteText ++ hexText rva ++ "]".toList) rest
        simpa [line, shape] using space
      rw [cut]
      exact firstSite_il2cpp db quiet sequence site rva _
    simp only [appended_of_site first, headerMark, named, parseHex_hexText]
    cases resolved : index.resolve rva maxOffset with
    | none => exact iff_of_true (ite_self _) (.inl rfl)
    | some text =>
      by_cases annotated : (annotationRe.search (dropNewlines line)).isSome
      · have ended : Annotated (dropNewlines line) := annotated_iff.mp annotated
        have longer : [] ≠ annotation text := (List.cons_ne_nil ' ' _).symm
        rw [if_pos annotated]
        refine iff_of_false longer fun free => ?_
        exact free.elim (Option.some_ne_none text) fun plain => plain ended
      · rw [if_neg annotated]
        exact iff_of_true rfl (.inr fun ended => annotated (annotated_iff.mpr ended))

/-- The module of the header, at address 0x10000000, and a return address in it. -/
def siteIn (module : String) : CallSite :=
  ⟨15237, 0, 7, 0x1118f751, some ⟨some (literal "/data/app/lib/arm/" ++ literal module), 0x10000000⟩⟩

def logcatHeading : Text := "10-01 12:00:00.000  7001  7001 I OPG3D: ".toList

def gameIndex : RvaIndex := ⟨[⟨0x118f728, "GameConnect.Disconnect".toList⟩]⟩

theorem il2cpp_line_agrees : Agrees asciiOnly gameIndex 0x1000
      (logLine logcatHeading 1 (siteIn "libil2cpp.so") (literal "disconnect")) (siteIn "libil2cpp.so") ∧
    headerMark gameIndex 0x1000 (siteIn "libil2cpp.so") = " [managed=GameConnect.Disconnect+0x28]".toList := by
  refine ⟨(agrees_iff asciiOnly gameIndex 0x1000 logcatHeading (by decide) 1 _ _).mpr ?_, by decide +kernel⟩
  have named : il2cppRva (siteIn "libil2cpp.so") = some 0x118f750 := by decide
  rw [Undisturbed, named]
  exact .inr (mt annotated_iff.mpr (by decide +kernel))

/-- A message that quotes a call site in libil2cpp.so, in a line of another module. -/
theorem quoted_callsite_annotated :
    ¬"pc=".toList <:+: logcatHeading ∧ il2cppRva (siteIn "libopg3d.so") = none ∧
      ¬Agrees asciiOnly gameIndex 0x1000
        (logLine logcatHeading 1 (siteIn "libopg3d.so") (literal "last caller pc=libil2cpp.so+0x118f750"))
        (siteIn "libopg3d.so") := by
  refine ⟨by decide, by decide, ?_⟩
  unfold Agrees
  decide +kernel

end Opg3d.Symbolize
