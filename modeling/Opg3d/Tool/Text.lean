import Mathlib.Data.List.Sort
import Mathlib.Data.List.Dedup
import Mathlib.Data.List.DropRight
import Mathlib.Data.List.Lex
import Mathlib.Data.Prod.Lex
import Mathlib.Data.Char
import Opg3d.Kit.Numeral

namespace Opg3d.Symbolize

open Kit

/-- The texts of the tool: `str`, as its code points. -/
abbrev Text := List Char

/-- `str.isspace` and `\s`. -/
def isSpace (c : Char) : Bool :=
  (9 ≤ c.toNat && c.toNat ≤ 13) || (28 ≤ c.toNat && c.toNat ≤ 32) || c.toNat == 0x85 || c.toNat == 0xA0 ||
    c.toNat == 0x1680 || (0x2000 ≤ c.toNat && c.toNat ≤ 0x200A) || c.toNat == 0x2028 || c.toNat == 0x2029 ||
    c.toNat == 0x202F || c.toNat == 0x205F || c.toNat == 0x3000

def stripLeft (text : Text) : Text := text.dropWhile isSpace

def stripRight (text : Text) : Text := (text.reverse.dropWhile isSpace).reverse

def strip (text : Text) : Text := stripRight (stripLeft text)

/-- `rstrip("\n")`. -/
def dropNewlines (text : Text) : Text := (text.reverse.dropWhile (· = '\n')).reverse

/-- What is dropped at the end stays behind a character that is kept. -/
theorem reverse_dropWhile_append {test : Char → Bool} {c : Char} (kept : test c = false) (xs ys : Text) :
    ((xs ++ c :: ys).reverse.dropWhile test).reverse = xs ++ c :: (ys.reverse.dropWhile test).reverse := by
  rw [List.reverse_append, List.reverse_cons, List.append_assoc, List.dropWhile_append]
  split
  · rename_i blank
    simp [List.isEmpty_iff.mp blank, kept]
  · simp

theorem dropNewlines_begins (text : Text) : dropNewlines text <+: text := by
  have tail := List.dropWhile_suffix (fun c : Char => decide (c = '\n')) (l := text.reverse)
  rw [dropNewlines, ← List.reverse_suffix, List.reverse_reverse]
  exact tail

theorem dropNewlines_append {c : Char} (other : c ≠ '\n') (xs ys : Text) :
    dropNewlines (xs ++ c :: ys) = xs ++ c :: dropNewlines ys :=
  reverse_dropWhile_append (by simpa using other) xs ys

theorem dropNewlines_line {text : Text} (oneLine : '\n' ∉ text) : dropNewlines (text ++ ['\n']) = text := by
  rcases text.eq_nil_or_concat' with rfl | ⟨front, c, rfl⟩
  · rfl
  · have other : c ≠ '\n' := fun same => oneLine (by simp [same])
    rw [List.append_assoc]
    exact dropNewlines_append other front ['\n']

theorem dropNewlines_newline (text : Text) :
    dropNewlines (text ++ ['\n']) = dropNewlines text := by simp [dropNewlines]

theorem dropNewlines_twice (text : Text) : dropNewlines (dropNewlines text) = dropNewlines text := by
  rw [dropNewlines, dropNewlines, List.reverse_reverse, List.dropWhile_idempotent]

theorem stripRight_append {c : Char} (dark : isSpace c = false) (xs ys : Text) :
    stripRight (xs ++ c :: ys) = xs ++ c :: stripRight ys :=
  reverse_dropWhile_append dark xs ys

theorem stripRight_of_getLast {text : Text} (dark : ∀ c ∈ text.getLast?, isSpace c = false) :
    stripRight text = text := by
  rcases text.eq_nil_or_concat with rfl | ⟨front, c, rfl⟩
  · rfl
  · have last : isSpace c = false := dark c (by simp)
    have kept := stripRight_append last front []
    simpa [stripRight] using kept

theorem stripLeft_of_head {text : Text} (dark : ∀ c ∈ text.head?, isSpace c = false) :
    stripLeft text = text := by
  cases text with
  | nil => rfl
  | cons c rest => exact List.dropWhile_cons_of_neg (by simp [dark c rfl])

theorem stripLeft_append {blank text : Text} (spaces : ∀ c ∈ blank, isSpace c = true)
    (dark : ∀ c ∈ text.head?, isSpace c = false) : stripLeft (blank ++ text) = text := by
  rw [stripLeft, List.dropWhile_append_of_pos spaces]
  exact stripLeft_of_head dark

theorem strip_of_ends {text : Text} (start : ∀ c ∈ text.head?, isSpace c = false)
    (stop : ∀ c ∈ text.getLast?, isSpace c = false) : strip text = text := by
  rw [strip, stripLeft_of_head start, stripRight_of_getLast stop]

/-- A text that begins inside another one and does not meet a character of its own's end lies inside it. -/
theorem prefix_before {word xs ys : Text} {c : Char} (begins : word <+: xs ++ c :: ys)
    (absent : c ∉ word) : word <+: xs := by
  rcases Nat.lt_or_ge xs.length word.length with longer | within
  · have more : xs ++ [c] <+: word := by
      refine List.prefix_of_prefix_length_le ⟨ys, by simp⟩ begins ?_
      simpa using longer
    exact absurd (more.subset (by simp)) absent
  · exact List.prefix_of_prefix_length_le begins (List.prefix_append xs _) within

theorem intercalate_cons_cons (separator a b : Text) (rest : List Text) :
    separator.intercalate (a :: b :: rest) = a ++ separator ++ separator.intercalate (b :: rest) := by
  simp [List.intercalate]

theorem intercalate_concat {separator last : Text} {front : List Text} (some_ : front ≠ []) :
    separator.intercalate (front ++ [last]) = separator.intercalate front ++ separator ++ last := by
  induction front with
  | nil => exact absurd rfl some_
  | cons a front ih =>
    cases front with
    | nil => simp [List.intercalate]
    | cons b front =>
      have next := ih (List.cons_ne_nil b front)
      rw [List.cons_append, List.cons_append, intercalate_cons_cons, intercalate_cons_cons,
        ← List.cons_append, next]
      simp only [List.append_assoc]

theorem mem_intercalate {separator : Text} {items : List Text} {c : Char}
    (mem : c ∈ separator.intercalate items) : c ∈ separator ∨ ∃ item ∈ items, c ∈ item := by
  induction items with
  | nil => cases mem
  | cons a items ih =>
    cases items with
    | nil => exact Or.inr ⟨a, List.mem_cons_self, by simpa [List.intercalate] using mem⟩
    | cons b items =>
      rw [intercalate_cons_cons] at mem
      rcases List.mem_append.mp mem with front | later
      · rcases List.mem_append.mp front with here | between
        · exact Or.inr ⟨a, List.mem_cons_self, here⟩
        · exact Or.inl between
      · exact (ih later).imp_right fun ⟨item, among, inside⟩ => ⟨item, List.mem_cons_of_mem a among, inside⟩

/-- `split(separator, 1)[0]`. -/
def textBefore (separator : Text) : Text → Text
  | [] => []
  | c :: rest => if separator <+: c :: rest then [] else c :: textBefore separator rest

/-- `rsplit(None, 1)[-1]` of a text with no white space at its end. -/
def lastWord (text : Text) : Text := (text.reverse.takeWhile fun c => !isSpace c).reverse

def isHexDigit (c : Char) : Bool :=
  ('0' ≤ c && c ≤ '9') || ('A' ≤ c && c ≤ 'F') || ('a' ≤ c && c ≤ 'f')

def hexDigitValue (c : Char) : Nat :=
  if c ≤ '9' then c.toNat - 48 else if c ≤ 'F' then c.toNat - 55 else c.toNat - 87

/-- `int(text, 16)`. -/
def parseHex (text : Text) : Nat := numeralValue 16 (text.map hexDigitValue)

def decimalText (n : Nat) : Text := (numeral 10 n).map Nat.digitChar

def hexText (n : Nat) : Text := (numeral 16 n).map Nat.digitChar

theorem isHexDigit_numeral {base : Nat} (large : 1 < base) (small : base ≤ 16) (n : Nat) :
    ∀ c ∈ (numeral base n).map Nat.digitChar, isHexDigit c = true := by
  intro c member
  obtain ⟨d, digit, rfl⟩ := List.mem_map.mp member
  have known : ∀ d < 16, isHexDigit (Nat.digitChar d) = true := by decide
  exact known d ((numeral_lt large digit).trans_le small)

/-- `sorted(set(items))`. -/
def sortedSet {α : Type} [LinearOrder α] (items : List α) : List α := items.dedup.insertionSort (· ≤ ·)

theorem mem_sortedSet {α : Type} [LinearOrder α] {items : List α} {a : α} :
    a ∈ sortedSet items ↔ a ∈ items := by
  rw [sortedSet, List.mem_insertionSort, List.mem_dedup]

theorem sortedSet_increasing {α : Type} [LinearOrder α] (items : List α) :
    (sortedSet items).Pairwise (· < ·) := by
  have sorted : (sortedSet items).Pairwise (· ≤ ·) := List.pairwise_insertionSort ..
  have distinct : (sortedSet items).Nodup := (List.perm_insertionSort ..).nodup_iff.mpr (List.nodup_dedup items)
  exact (sorted.and distinct).imp fun both => lt_of_le_of_ne both.1 both.2

end Opg3d.Symbolize
