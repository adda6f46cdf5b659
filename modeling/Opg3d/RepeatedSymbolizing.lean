import Opg3d.NearestMethod
import Opg3d.Tool.Patterns

namespace Opg3d.Symbolize

open Kit

variable {db : Unicode} {text line digits resolved names tail : Text}

theorem site_no_blank (hex : ∀ c ∈ digits, isHexDigit c = true) : ' ' ∉ siteText ++ digits := by
  intro blank
  rcases List.mem_append.mp blank with fixed | digit
  · exact absurd fixed (by decide)
  · exact absurd (hex ' ' digit) (by decide)

theorem siteAt_append (more : Text) : SiteAt db (text ++ ' ' :: more) digits ↔ SiteAt db text digits := by
  constructor
  · rintro ⟨after, split, some_, hex, free⟩
    have begins : siteText ++ digits <+: text ++ ' ' :: more := ⟨after, split.symm⟩
    obtain ⟨rest, rfl⟩ := prefix_before begins (site_no_blank hex)
    rw [List.append_assoc, List.append_cancel_left_eq] at split
    refine ⟨rest, rfl, some_, hex, fun c first => free c ?_⟩
    rw [← split, List.head?_append, Option.mem_def.mp first]
    rfl
  · rintro ⟨after, rfl, some_, hex, free⟩
    refine ⟨after ++ ' ' :: more, by simp, some_, hex, ?_⟩
    cases after with
    | nil =>
      intro c first
      obtain rfl : ' ' = c := Option.some.inj first
      simp [Unicode.isWord, db.ascii ' ' (by decide), Char.isAlphanum]
    | cons a after => exact free

theorem firstSite_append (site : FirstSite db line digits) (more : Text) :
    FirstSite db (line ++ ' ' :: more) digits := by
  obtain ⟨before, rest, rfl, here, earlier⟩ := site
  refine ⟨before, rest ++ ' ' :: more, List.append_assoc .., (siteAt_append more).mpr here, ?_⟩
  intro as b bs cut other later
  rw [← List.append_assoc] at later
  exact earlier as b bs cut other ((siteAt_append more).mp later)

/-- A text without a closing bracket that ends another one lies behind its last bracket. -/
theorem suffix_behind {word xs ys : Text} {c : Char} (ends : word <:+ xs ++ c :: ys) (absent : c ∉ word) :
    word <:+ ys := by
  rw [← List.reverse_prefix] at ends ⊢
  rw [List.reverse_append, List.reverse_cons, List.append_assoc] at ends
  exact prefix_before ends (by simpa using absent)

/-- White space and the beginning of an annotation, with no closing bracket after it. -/
def Opens (text : Text) : Prop :=
  ∃ before space body, text = before ++ space ++ "[managed=".toList ++ body ∧ space ≠ [] ∧
    (∀ c ∈ space, isSpace c = true) ∧ ']' ∉ body

theorem annotated_bracket (last : ∀ c ∈ text.getLast?, c ≠ '=') :
    Annotated (text ++ [']']) ↔ Opens text := by
  constructor
  · rintro ⟨before, space, body, after, split, some_, blank, _, plain, rest⟩
    rcases after.eq_nil_or_concat' with rfl | ⟨front, c, rfl⟩
    · rw [List.append_nil] at split
      exact ⟨before, space, body, List.append_cancel_right split, some_, blank, plain⟩
    · rw [← List.append_assoc] at split
      obtain ⟨_, same⟩ := List.append_inj' split rfl
      have bracket : ']' ∈ front ++ [c] := List.mem_append_right front (same ▸ List.mem_singleton_self ']')
      exact absurd (rest ']' bracket) (by decide)
  · rintro ⟨before, space, body, rfl, some_, blank, plain⟩
    refine ⟨before, space, body, [], by rw [List.append_nil]; rfl, some_, blank, ?_, plain, List.forall_mem_nil _⟩
    rintro rfl
    refine last '=' ?_ rfl
    rw [List.append_nil, List.getLast?_append]
    rfl

theorem Opens.prepend (opens : Opens text) (front : Text) : Opens (front ++ text) := by
  obtain ⟨before, space, body, rfl, rest⟩ := opens
  exact ⟨front ++ before, space, body, by simp only [List.append_assoc], rest⟩

/-- What opens in a text with a closing bracket opens behind the bracket. -/
theorem opens_behind {front : Text} : Opens (front ++ ']' :: text) ↔ Opens text := by
  constructor
  · rintro ⟨before, space, body, split, some_, blank, plain⟩
    have ends : space ++ "[managed=".toList ++ body <:+ front ++ ']' :: text :=
      ⟨before, by rw [split]; simp only [List.append_assoc]⟩
    have absent : ']' ∉ space ++ "[managed=".toList ++ body := by
      intro bracket
      rcases List.mem_append.mp bracket with opening | inside
      · rcases List.mem_append.mp opening with white | fixed
        · exact absurd (blank ']' white) (by decide)
        · exact absurd fixed (by decide)
      · exact plain inside
    obtain ⟨earlier, rfl⟩ := suffix_behind ends absent
    exact ⟨earlier, space, body, by simp only [List.append_assoc], some_, blank, plain⟩
  · intro opens
    have longer := opens.prepend (front ++ [']'])
    rwa [List.append_assoc] at longer

/-- What opens in a text does not depend on an end without the characters in question. -/
theorem opens_append (bracketless : ']' ∉ tail) (signless : '=' ∉ tail) :
    Opens (names ++ tail) ↔ Opens names := by
  constructor
  · rintro ⟨before, space, body, split, some_, blank, plain⟩
    rcases List.append_eq_append_iff.mp split with ⟨w, whole, rfl⟩ | ⟨w, rfl, rfl⟩
    · rcases w.eq_nil_or_concat' with rfl | ⟨w, c, rfl⟩
      · rw [List.append_nil] at whole
        exact ⟨before, space, [], by rw [List.append_nil, whole], some_, blank, List.not_mem_nil⟩
      · have last := congrArg List.getLast? whole
        rw [← List.append_assoc, List.getLast?_concat, List.getLast?_append] at last
        obtain rfl : '=' = c := Option.some.inj last
        exact absurd (by simp) signless
    · exact ⟨before, space, w, rfl, some_, blank, fun bracket => plain (List.mem_append_left tail bracket)⟩
  · rintro ⟨before, space, body, rfl, some_, blank, plain⟩
    refine ⟨before, space, body ++ tail, List.append_assoc .., some_, blank, ?_⟩
    intro bracket
    exact (List.mem_append.mp bracket).elim plain bracketless

/-- Names in an annotation that the tool knows as one again: they hold no
closing bracket, or another annotation begins after the last. -/
def Recognisable (names : Text) : Prop := ']' ∉ names ∨ Opens names

theorem annotated_annotation (bracketless : ']' ∉ tail) (signless : '=' ∉ tail) (filled : tail ≠ []) :
    Annotated (line ++ annotation (names ++ tail)) ↔ Recognisable names := by
  have last : ∀ c ∈ (line ++ " [managed=".toList ++ names ++ tail).getLast?, c ≠ '=' := by
    rintro c final rfl
    rw [List.getLast?_append_of_ne_nil _ filled] at final
    exact signless (List.mem_of_mem_getLast? final)
  have shape : annotation (names ++ tail) = " [managed=".toList ++ (names ++ tail) ++ [']'] := rfl
  have parts : line ++ annotation (names ++ tail) = line ++ " [managed=".toList ++ names ++ tail ++ [']'] := by
    rw [shape]
    simp only [List.append_assoc]
  rw [parts, annotated_bracket last, opens_append bracketless signless, Recognisable]
  by_cases bracket : ']' ∈ names
  · obtain ⟨front, behind, rfl⟩ := List.append_of_mem bracket
    rw [← List.append_assoc, opens_behind, opens_behind, or_iff_right (not_not.mpr bracket)]
  · have label : " [managed=".toList = [' '] ++ "[managed=".toList := by decide
    have blank : ∀ c ∈ [' '], isSpace c = true := by decide
    rw [label, ← List.append_assoc]
    exact iff_of_true ⟨line, [' '], names, rfl, List.cons_ne_nil ' ' [], blank, bracket⟩ (Or.inl bracket)

variable {index : RvaIndex} {maxOffset : Int}

theorem FirstSite.unique {other : Text} (one : FirstSite db line digits) (two : FirstSite db line other) :
    digits = other :=
  Option.some.inj (((firstSite_iff db).mpr one).symm.trans ((firstSite_iff db).mpr two))

theorem appended_cases (db : Unicode) (index : RvaIndex) (maxOffset : Int) (line : Text) :
    appended db index maxOffset line = [] ∨ ∃ digits resolved, FirstSite db line digits ∧ ¬Annotated line ∧
      index.resolve (parseHex digits) maxOffset = some resolved ∧
        appended db index maxOffset line = annotation resolved := by
  by_cases nothing : appended db index maxOffset line = []
  · exact Or.inl nothing
  · have more := mt appended_eq_nil.mpr nothing
    push Not at more
    obtain ⟨digits, site, found, plain⟩ := more
    obtain ⟨resolved, result⟩ := Option.ne_none_iff_exists'.mp found
    refine Or.inr ⟨digits, resolved, site, plain, result, ?_⟩
    rw [appended_of_site site, if_neg (mt annotated_iff.mp plain), result]

/-- The line end is all that the second pass takes off. -/
theorem dropNewlines_symbolized (db : Unicode) (index : RvaIndex) (maxOffset : Int) (rawLine : Text) :
    dropNewlines (symbolizeLine db index maxOffset rawLine) =
      dropNewlines rawLine ++ appended db index maxOffset (dropNewlines rawLine) := by
  rw [symbolizeLine_eq, dropNewlines_newline]
  rcases appended_cases db index maxOffset (dropNewlines rawLine) with nothing | ⟨_, resolved, _, _, _, added⟩
  · rw [nothing, List.append_nil, dropNewlines_twice]
  · have shape : annotation resolved = " [managed=".toList ++ resolved ++ [']'] := rfl
    have bracket : ']' ≠ '\n' := by decide
    rw [added, shape, ← List.append_assoc]
    exact dropNewlines_append bracket _ []

/-- A second pass leaves a line alone exactly if it is not annotated, or the
annotation is known as one. -/
theorem symbolizeLine_twice (db : Unicode) (index : RvaIndex) (maxOffset : Int) (rawLine : Text) :
    symbolizeLine db index maxOffset (symbolizeLine db index maxOffset rawLine) =
      symbolizeLine db index maxOffset rawLine ↔
      ∀ digits resolved, FirstSite db (dropNewlines rawLine) digits → ¬Annotated (dropNewlines rawLine) →
        index.resolve (parseHex digits) maxOffset = some resolved →
          Annotated (dropNewlines rawLine ++ annotation resolved) := by
  have once := symbolizeLine_eq db index maxOffset rawLine
  have twice := symbolizeLine_eq db index maxOffset (symbolizeLine db index maxOffset rawLine)
  rw [dropNewlines_symbolized] at twice
  rw [twice, once, List.append_left_inj, List.append_right_eq_self]
  rcases appended_cases db index maxOffset (dropNewlines rawLine) with nothing |
    ⟨digits, resolved, site, plain, found, added⟩
  · rw [nothing, List.append_nil]
    refine iff_of_true nothing ?_
    intro digits resolved site plain found
    rcases appended_eq_nil.mp nothing digits site with missed | annotated
    · rw [missed] at found
      cases found
    · exact absurd annotated plain
  · have later : FirstSite db (dropNewlines rawLine ++ annotation resolved) digits :=
      firstSite_append site _
    rw [added, appended_eq_nil]
    constructor
    · intro silent digits' resolved' site' _ found'
      obtain rfl := site.unique site'
      obtain rfl := Option.some.inj (found.symm.trans found')
      refine (silent digits later).resolve_left ?_
      rw [found]
      exact Option.some_ne_none resolved
    · intro annotated _ _
      exact Or.inr (annotated digits resolved site plain found)

/-- Names without closing brackets are recognisable. -/
theorem recognisable_of_plain {methods : List Method} (plain : ∀ m ∈ methods, ']' ∉ m.qualifiedName)
    {start : Nat} {shown : List Text} (first : FirstOf 3 (namesAt methods start) shown) :
    Recognisable (['|'].intercalate shown) := by
  left
  intro bracket
  rcases mem_intercalate bracket with bar | ⟨name, among, inside⟩
  · exact absurd bar (by decide)
  · have known := first.among name among
    rw [namesAt, List.mem_toFinset] at known
    obtain ⟨m, member, rfl⟩ := List.mem_map.mp known
    exact plain m (List.mem_filter.mp member).1 inside

/-- What follows the names in a rendering says nothing to the search for an annotation. -/
theorem rendering_split (shown : List Text) (further offset : Nat) :
    ∃ tail, rendering shown further offset =
      ['|'].intercalate shown ++ tail ∧ ']' ∉ tail ∧ '=' ∉ tail ∧ tail ≠ [] := by
  have digits (base n : Nat) (large : 1 < base) (small : base ≤ 16) {c : Char} (other : isHexDigit c = false) :
      c ∉ (numeral base n).map Nat.digitChar := by
    intro member
    rw [isHexDigit_numeral large small n c member] at other
    cases other
  have plain {c : Char} (other : isHexDigit c = false)
      (apart : c ∉ "|+".toList ++ " more".toList ++ "+0x".toList) :
      c ∉ (if 0 < further then "|+".toList ++ decimalText further ++ " more".toList else []) ++ "+0x".toList ++
        hexText offset := by
    have decimal : c ∉ decimalText further := digits 10 further (by decide) (by decide) other
    have hexadecimal : c ∉ hexText offset := digits 16 offset (by decide) (by decide) other
    simp only [List.mem_append, not_or] at apart ⊢
    refine ⟨⟨?_, apart.2⟩, hexadecimal⟩
    split
    · simp only [List.mem_append, not_or]
      exact ⟨⟨apart.1.1, decimal⟩, apart.1.2⟩
    · exact List.not_mem_nil
  refine ⟨_, ?_, plain (by decide) (by decide), plain (by decide) (by decide), ?_⟩
  · simp only [rendering, List.append_assoc]
  · simp

theorem annotated_rendering {shown : List Text} {further offset : Nat} :
    Annotated (line ++ annotation (rendering shown further offset)) ↔
      Recognisable (['|'].intercalate shown) := by
  obtain ⟨tail, shape, bracketless, signless, filled⟩ := rendering_split shown further offset
  rw [shape, annotated_annotation bracketless signless filled]

/-- A second pass with the same index changes nothing exactly if the names are
recognisable that each line in need of an annotation gets. -/
theorem symbolize_twice_iff (db : Unicode) (dump log : List Text) (maxOffset : Int) :
    symbolizeLines db (symbolizeLines db log ⟨parseDump db dump⟩ maxOffset) ⟨parseDump db dump⟩ maxOffset =
        symbolizeLines db log ⟨parseDump db dump⟩ maxOffset ↔
      ∀ line ∈ log, ∀ digits, FirstSite db (dropNewlines line) digits → ¬Annotated (dropNewlines line) →
        ∀ start shown, IsGreatest (startsUpTo (parseDump db dump) (parseHex digits)) start →
          (parseHex digits : Int) - start ≤ maxOffset →
            FirstOf 3 (namesAt (parseDump db dump) start) shown →
            Recognisable (['|'].intercalate shown) := by
  rw [symbolizeLines, symbolizeLines, List.map_map, List.map_inj_left]
  refine forall₂_congr fun line _ => ?_
  rw [Function.comp_apply, symbolizeLine_twice]
  refine forall_congr' fun digits => ?_
  constructor
  · intro annotated site plain start shown greatest reach first
    have found := RvaIndex.resolve_eq_some_iff.mpr ⟨start, shown, greatest, reach, first, rfl⟩
    exact annotated_rendering.mp (annotated _ site plain found)
  · intro recognised resolved site plain found
    obtain ⟨start, shown, greatest, reach, first, rfl⟩ := RvaIndex.resolve_eq_some_iff.mp found
    exact annotated_rendering.mpr (recognised site plain start shown greatest reach first)

/-- The index of a dump with an explicit implementation of an interface over arrays. -/
def loaderIndex : RvaIndex :=
  ⟨parseDump asciiOnly ["// Namespace: \n".toList,
    "private sealed class Loader // TypeDefIndex: 7\n".toList,
    "    // RVA: 0x1000 Offset: 0x1000 VA: 0x1000\n".toList,
    "    private Object IEnumerator<Object[]>.get_Current() \x7b \x7d\n".toList]⟩

def loaderLog : List Text := ["[#000001 +000001ms tid=7 pc=libil2cpp.so+0x1010] hi\n".toList]

theorem array_name_annotated_twice :
    symbolizeLines asciiOnly loaderLog loaderIndex 0x1000 =
        ["[#000001 +000001ms tid=7 pc=libil2cpp.so+0x1010] hi".toList ++
          " [managed=Loader.IEnumerator<Object[]>.get_Current+0x10]\n".toList] ∧
      symbolizeLines asciiOnly (symbolizeLines asciiOnly loaderLog loaderIndex 0x1000) loaderIndex 0x1000 =
        ["[#000001 +000001ms tid=7 pc=libil2cpp.so+0x1010] hi".toList ++
          " [managed=Loader.IEnumerator<Object[]>.get_Current+0x10]".toList ++
          " [managed=Loader.IEnumerator<Object[]>.get_Current+0x10]\n".toList] ∧
      symbolizeLines asciiOnly (symbolizeLines asciiOnly loaderLog loaderIndex 0x1000) loaderIndex 0x1000 ≠
        symbolizeLines asciiOnly loaderLog loaderIndex 0x1000 := by
  decide +kernel

end Opg3d.Symbolize
