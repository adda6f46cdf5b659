import Mathlib.Data.List.TakeWhile
import Opg3d.Tool.Symbolize

namespace Opg3d.Symbolize

open Kit

theorem isHexDigit_ascii {c : Char} (digit : isHexDigit c = true) :
    c.toNat < 128 ∧ c.isAlphanum = true := by
  simp only [isHexDigit, Bool.or_eq_true, Bool.and_eq_true, decide_eq_true_eq, Char.le_def,
    UInt32.le_iff_toNat_le] at digit
  have alphanumeric : c.isAlphanum = (decide (c.val ≥ 'A'.val ∧ c.val ≤ 'Z'.val) ||
      (decide (c.val ≥ 'a'.val) && decide (c.val ≤ 'z'.val)) ||
        (decide (c.val ≥ '0'.val) && decide (c.val ≤ '9'.val))) := rfl
  simp only [alphanumeric, Bool.or_eq_true, Bool.and_eq_true, decide_eq_true_eq,
    UInt32.le_iff_toNat_le, ge_iff_le, Char.toNat]
  simp at digit ⊢
  omega

theorem isWord_of_hexDigit (db : Unicode) {c : Char} (digit : isHexDigit c = true) :
    db.isWord c = true := by
  obtain ⟨ascii, alphanumeric⟩ := isHexDigit_ascii digit
  simp [Unicode.isWord, db.ascii c ascii, alphanumeric]

/-- What a group holds after the characters it has consumed. -/
theorem captured (xs before : Text) :
    ((xs.reverse ++ before).take ((xs.reverse ++ before).length - before.length)).reverse = xs := by
  simp

/-- A group of hexadecimal digits that ends at a word boundary takes all the digits there are. -/
theorem hexGroup_run (db : Unicode) {before group xs ys : Text} (some_ : xs ≠ [])
    (digits : ∀ c ∈ xs, isHexDigit c = true) (stop : ∀ c ∈ ys.head?, isHexDigit c = false) :
    (Regex.sequence [.group (.plus (.char isHexDigit)),
      .boundary db.isWord]).run some ⟨before, xs ++ ys, group⟩ =
      if ys.head?.any db.isWord then none else some ⟨xs.reverse ++ before, ys, xs⟩ := by
  obtain ⟨x, xs, rfl⟩ := List.exists_cons_of_ne_nil some_
  obtain ⟨first, others⟩ := List.forall_mem_cons.mp digits
  let k : Cursor → Option Cursor := fun d =>
    (Regex.boundary db.isWord).run some
      { d with group := (d.before.take (d.before.length - before.length)).reverse }
  have ending (as : Text) (passed : ∀ c ∈ as, isHexDigit c = true) :
      ∃ a tail, as.reverse ++ x :: before = a :: tail ∧ isHexDigit a = true := by
    rcases as.eq_nil_or_concat with rfl | ⟨front, a, rfl⟩
    · exact ⟨x, before, rfl, first⟩
    · exact ⟨a, front.reverse ++ x :: before, by simp, passed a (by simp)⟩
  -- a digit is a word character, so the boundary depends on what follows it
  have after_digit (as : Text) (a : Char) (tail : Text) (digit : isHexDigit a = true) :
      k ⟨a :: as, tail, group⟩ =
      if tail.head?.any db.isWord then none
      else some ⟨a :: as, tail, ((a :: as).take ((a :: as).length - before.length)).reverse⟩ := by
    have word := isWord_of_hexDigit db digit
    show (if (some a).any db.isWord ≠ tail.head?.any db.isWord then _ else none) = _
    cases next : tail.head?.any db.isWord <;> simp [word]
  have begun : (Regex.sequence [.group (.plus (.char isHexDigit)), .boundary db.isWord]).run some
      ⟨before, x :: xs ++ ys, group⟩ = (Regex.star (.char isHexDigit)).run k ⟨x :: before, xs ++ ys, group⟩ := by
    show (if isHexDigit x then _ else none) = _
    rw [if_pos first]
    rfl
  rw [begun, Regex.run_star_longest others stop]
  · obtain ⟨a, as, same, digit⟩ := ending xs others
    have whole := captured (x :: xs) before
    rw [List.reverse_cons, List.append_assoc, List.singleton_append, same] at whole ⊢
    rw [after_digit as a ys digit, whole]
  · intro as b bs split
    have word : db.isWord b = true := isWord_of_hexDigit db (others b (by simp [split]))
    obtain ⟨a, tail, same, digit⟩ := ending as fun c member => others c (by simp [split, member])
    rw [same, after_digit tail a _ digit]
    simp [word]

def siteText : Text := "pc=libil2cpp.so+0x".toList

/-- A call site in libil2cpp.so at the beginning of a text. -/
def SiteAt (db : Unicode) (text digits : Text) : Prop :=
  ∃ after, text = siteText ++ digits ++ after ∧ digits ≠ [] ∧ (∀ c ∈ digits, isHexDigit c = true) ∧
    ∀ c ∈ after.head?, db.isWord c = false

/-- The first call site in libil2cpp.so that a text contains. -/
def FirstSite (db : Unicode) (text digits : Text) : Prop :=
  ∃ before rest, text = before ++ rest ∧ SiteAt db rest digits ∧
    ∀ as b bs, before = as ++ b :: bs → ∀ other, ¬SiteAt db (b :: bs ++ rest) other

/-- A text ends in an annotation, apart from white space. -/
def Annotated (text : Text) : Prop :=
  ∃ before space body after, text = before ++ space ++ "[managed=".toList ++ body ++ "]".toList ++ after ∧
    space ≠ [] ∧ (∀ c ∈ space, isSpace c = true) ∧ body ≠ [] ∧ ']' ∉ body ∧ ∀ c ∈ after, isSpace c = true

/-- A run of passing characters up to one that fails is what `takeWhile` takes. -/
theorem takeWhile_span {test : Char → Bool} {xs ys : Text} (passed : ∀ a ∈ xs, test a = true)
    (stop : ∀ a ∈ ys.head?, test a = false) : (xs ++ ys).takeWhile test = xs := by
  rw [List.takeWhile_append_of_pos passed]
  cases ys with
  | nil => simp
  | cons a ys => simp [stop a rfl]

theorem head_dropWhile_fails (test : Char → Bool) (text : Text) :
    ∀ a ∈ (text.dropWhile test).head?, test a = false := by
  intro a first
  have failed := List.head?_dropWhile_not test text
  rwa [Option.mem_def.mp first] at failed

/-- A call site with all its digits, at the beginning of a text. -/
theorem callsiteRe_site (db : Unicode) {before digits after : Text} (some_ : digits ≠ [])
    (hex : ∀ c ∈ digits, isHexDigit c = true) (stop : ∀ c ∈ after.head?, isHexDigit c = false) :
    (callsiteRe db).run some ⟨before, siteText ++ (digits ++ after), []⟩ =
      if after.head?.any db.isWord then none
      else some ⟨digits.reverse ++ (siteText.reverse ++ before), after, digits⟩ := by
  have cut : (callsiteRe db).run some ⟨before, siteText ++ (digits ++ after), []⟩ = _ :=
    Regex.run_text siteText _
  rw [cut, hexGroup_run db some_ hex stop]

theorem callsiteRe_run (db : Unicode) (before : Text) {text digits : Text} :
    ((callsiteRe db).run some ⟨before, text, []⟩).map (·.group) = some digits ↔ SiteAt db text digits := by
  constructor
  · intro found
    obtain ⟨d, matched, rfl⟩ := Option.map_eq_some_iff.mp found
    obtain ⟨middle, skipped, later⟩ := Option.bind_eq_some_iff.mp matched
    obtain ⟨tail, rfl, rfl⟩ := Cursor.skip_eq_some.mp skipped
    have parts := tail.takeWhile_append_dropWhile (p := isHexDigit)
    have stop := head_dropWhile_fails isHexDigit tail
    have digits : ∀ c ∈ tail.takeWhile isHexDigit, isHexDigit c = true := fun _ => List.mem_takeWhile_imp
    generalize tail.takeWhile isHexDigit = xs, tail.dropWhile isHexDigit = ys at parts stop digits
    subst parts
    by_cases none_ : xs = []
    · subst none_
      cases ys with
      | nil => cases later
      | cons a ys =>
        have failed : (if isHexDigit a then _ else none) = some d := later
        rw [stop a rfl] at failed
        cases failed
    · have run : (callsiteRe db).run some ⟨before, siteText ++ (xs ++ ys), []⟩ = some d := matched
      rw [callsiteRe_site db none_ digits stop] at run
      split at run
      · cases run
      · rename_i free
        obtain rfl := Option.some.inj run
        refine ⟨ys, (List.append_assoc siteText xs ys).symm, none_, digits, fun c first => ?_⟩
        rw [Option.mem_def.mp first] at free
        simpa using free
  · rintro ⟨after, rfl, some_, hex, free⟩
    have stop : ∀ c ∈ after.head?, isHexDigit c = false := by
      intro c first
      by_contra digit
      exact absurd (free c first) (by simp [isWord_of_hexDigit db (by simpa using digit)])
    have blank : after.head?.any db.isWord = false := by
      cases after with
      | nil => rfl
      | cons c after => exact free c rfl
    have run : (callsiteRe db).run some ⟨before, siteText ++ (digits ++ after), []⟩ =
        some ⟨digits.reverse ++ (siteText.reverse ++ before), after, digits⟩ := by
      rw [callsiteRe_site db some_ hex stop, blank]
      rfl
    rw [List.append_assoc, run]
    rfl

theorem firstSite_iff (db : Unicode) {text digits : Text} :
    ((callsiteRe db).search text).map (·.group) = some digits ↔ FirstSite db text digits := by
  have absent {before rest : Text} : (callsiteRe db).run some ⟨before, rest, []⟩ = none ↔
    ∀ other, ¬SiteAt db rest other := by
    constructor
    · intro none other site
      have found := (callsiteRe_run db before).mpr site
      rw [none] at found
      cases found
    · intro none
      rw [Option.eq_none_iff_forall_not_mem]
      exact fun d found => none d.group ((callsiteRe_run db _).mp (congrArg (Option.map (·.group)) found))
  constructor
  · intro found
    obtain ⟨d, matched, rfl⟩ := Option.map_eq_some_iff.mp found
    obtain ⟨before, rest, split, here, earlier⟩ := Regex.search_eq_some.mp matched
    refine ⟨before, rest, split, (callsiteRe_run db _).mp (congrArg (Option.map (·.group)) here),
      fun as b bs cut => ?_⟩
    exact absent.mp (earlier as b bs cut)
  · rintro ⟨before, rest, split, site, earlier⟩
    obtain ⟨d, here, rfl⟩ := Option.map_eq_some_iff.mp ((callsiteRe_run db before.reverse).mpr site)
    refine Option.map_eq_some_iff.mpr ⟨d, Regex.search_eq_some.mpr ⟨before, rest, split, here,
      fun as b bs cut => ?_⟩, rfl⟩
    exact absent.mpr (earlier as b bs cut)

theorem annotated_iff {text : Text} : (annotationRe.search text).isSome ↔ Annotated text := by
  rw [Regex.isSome_search]
  constructor
  · rintro ⟨before, rest, rfl, found⟩
    obtain ⟨space, rest, rfl, some_, blank, found⟩ := Regex.isSome_plus.mp found
    obtain ⟨rest, rfl, found⟩ := Regex.isSome_text.mp found
    obtain ⟨body, rest, rfl, body_some, plain, found⟩ := Regex.isSome_plus.mp found
    obtain ⟨rest, rfl, found⟩ := Regex.isSome_text.mp found
    obtain ⟨after, rest, rfl, after_blank, found⟩ := Regex.isSome_star.mp found
    refine ⟨before, space, body, after ++ rest, by simp, some_, blank, body_some, ?_, ?_⟩
    · exact fun bracket => by simpa using plain _ bracket
    · have ended : rest = [] ∨ rest = ['\n'] := by
        by_contra other
        have none : (if rest = [] ∨ rest = ['\n'] then some _ else none).isSome = true := found
        rw [if_neg other] at none
        cases none
      intro c member
      rcases List.mem_append.mp member with inside | last
      · exact after_blank c inside
      · rcases ended with rfl | rfl
        · cases last
        · obtain rfl := List.mem_singleton.mp last
          rfl
  · rintro ⟨before, space, body, after, rfl, some_, blank, body_some, plain, after_blank⟩
    refine ⟨before, space ++ ("[managed=".toList ++ (body ++ ("]".toList ++ after))), by simp, ?_⟩
    refine Regex.isSome_plus.mpr ⟨space, _, rfl, some_, blank, ?_⟩
    refine Regex.isSome_text.mpr ⟨_, rfl, Regex.isSome_plus.mpr ⟨body, _, rfl, body_some, ?_, ?_⟩⟩
    · exact fun c member => decide_eq_true fun bracket => plain (bracket ▸ member)
    · exact Regex.isSome_text.mpr ⟨_, rfl, Regex.isSome_star.mpr ⟨after, [], by simp, after_blank, rfl⟩⟩

/-- What the tool appends to a line. -/
def appended (db : Unicode) (index : RvaIndex) (maxOffset : Int) (line : Text) : Text :=
  match (callsiteRe db).search line with
  | none => []
  | some found =>
    if (annotationRe.search line).isSome then []
    else
      match index.resolve (parseHex found.group) maxOffset with
      | none => []
      | some resolved => annotation resolved

theorem symbolizeLine_eq (db : Unicode) (index : RvaIndex) (maxOffset : Int) (rawLine : Text) :
    symbolizeLine db index maxOffset rawLine =
      dropNewlines rawLine ++ appended db index maxOffset (dropNewlines rawLine) ++ ['\n'] := by
  simp only [symbolizeLine, appended]
  cases searched : (callsiteRe db).search (dropNewlines rawLine) with
  | none => simp only [List.append_nil]
  | some found =>
    by_cases annotated : (annotationRe.search (dropNewlines rawLine)).isSome
    · simp only [if_pos annotated, List.append_nil]
    · simp only [if_neg annotated]
      cases resolved : index.resolve (parseHex found.group) maxOffset with
      | none => simp only [List.append_nil]
      | some text => simp only [if_neg (RvaIndex.resolve_ne_nil resolved)]

theorem appended_of_site {db : Unicode} {index : RvaIndex} {maxOffset : Int} {line digits : Text}
    (site : FirstSite db line digits) : appended db index maxOffset line =
      if (annotationRe.search line).isSome then []
      else
        match index.resolve (parseHex digits) maxOffset with
        | none => []
        | some resolved => annotation resolved := by
  obtain ⟨found, searched, rfl⟩ := Option.map_eq_some_iff.mp ((firstSite_iff db).mpr site)
  rw [appended, searched]

/-- When the tool appends nothing. -/
theorem appended_eq_nil {db : Unicode} {index : RvaIndex} {maxOffset : Int} {line : Text} :
    appended db index maxOffset line = [] ↔
      ∀ digits, FirstSite db line digits → index.resolve (parseHex digits) maxOffset = none ∨
        Annotated line := by
  constructor
  · intro nothing digits site
    rw [appended_of_site site] at nothing
    split at nothing
    · rename_i annotated
      exact .inr (annotated_iff.mp annotated)
    · split at nothing
      · rename_i none
        exact .inl none
      · cases nothing
  · intro harmless
    cases searched : (callsiteRe db).search line with
    | none => rw [appended, searched]
    | some found =>
      have site : FirstSite db line found.group :=
        (firstSite_iff db).mp (congrArg (Option.map (·.group)) searched)
      rw [appended_of_site site]
      rcases harmless _ site with none | annotated
      · rw [none]
        exact ite_self _
      · rw [if_pos (annotated_iff.mpr annotated)]

end Opg3d.Symbolize
