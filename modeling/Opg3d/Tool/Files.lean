import Opg3d.Kit.Decoding
import Opg3d.Native.Format
import Opg3d.Tool.Symbolize

namespace Opg3d.Symbolize

open Kit

/-- Text mode reads `\r`, `\n` and `\r\n` as `\n`. -/
def newlinesFrom (returned : Bool) : Text → Text
  | [] => []
  | c :: rest =>
    if c = '\r' then '\n' :: newlinesFrom true rest
    else if returned ∧ c = '\n' then newlinesFrom false rest
    else c :: newlinesFrom false rest

def universalNewlines (text : Text) : Text := newlinesFrom false text

/-- The lines that a file gives, each with its line end. -/
def lines : Text → List Text
  | [] => []
  | c :: rest =>
    if c = '\n' then ['\n'] :: lines rest
    else
      match lines rest with
      | [] => [[c]]
      | line :: later => (c :: line) :: later

/-- A file opened with `encoding="utf-8", errors="replace"`. -/
def readLines (file : Bytes) : List Text := lines (universalNewlines (decode file))

/-- `utf-8-sig` passes over a byte order mark. -/
def dropMark : Text → Text
  | [] => []
  | c :: rest => if c = '\uFEFF' then rest else c :: rest

/-- A file opened with `encoding="utf-8-sig", errors="replace"`. -/
def readDump (file : Bytes) : List Text := lines (universalNewlines (dropMark (decode file)))

/-- `main` with `--dump`, `--log` and `--output`: what is written to the
output, where the line end is `\n`, or nothing if `--max-offset` is refused. -/
def main (db : Unicode) (dump log : Bytes) (maxOffset : Int) : Option Bytes :=
  if maxOffset < 0 then none
  else
    let index : RvaIndex := ⟨parseDump db (readDump dump)⟩
    some (utf8 (symbolizeLines db (readLines log) index maxOffset).flatten)

/-- A character that ends no line. -/
def Inline (c : Char) : Prop := c ≠ '\n' ∧ c ≠ '\r'

instance : DecidablePred Inline := fun _ => inferInstanceAs (Decidable (_ ∧ _))

theorem universalNewlines_plain {text : Text} (plain : '\r' ∉ text) : universalNewlines text = text := by
  induction text with
  | nil => rfl
  | cons c text ih =>
    have other : c ≠ '\r' := (List.ne_of_not_mem_cons plain).symm
    have rest : newlinesFrom false text = text := ih (List.not_mem_of_not_mem_cons plain)
    rw [universalNewlines, newlinesFrom, if_neg other, if_neg (fun both => Bool.false_ne_true both.1), rest]

/-- A line feed separates what is read before and after it. -/
theorem newlinesFrom_feed (returned : Bool) (front rest : Text) :
    newlinesFrom returned (front ++ '\n' :: rest) =
      newlinesFrom returned (front ++ ['\n']) ++ universalNewlines rest := by
  induction front generalizing returned with
  | nil =>
    simp only [List.nil_append, newlinesFrom, universalNewlines]
    split_ifs <;> simp_all
  | cons c front ih =>
    simp only [List.cons_append, newlinesFrom, ih]
    split_ifs <;> rfl

theorem return_not_mem (returned : Bool) (text : Text) : '\r' ∉ newlinesFrom returned text := by
  induction text generalizing returned with
  | nil => exact List.not_mem_nil
  | cons c text ih =>
    rw [newlinesFrom]
    split_ifs with feed skipped
    · exact List.not_mem_cons_of_ne_of_not_mem (by decide) (ih true)
    · exact ih false
    · exact List.not_mem_cons_of_ne_of_not_mem (Ne.symm feed) (ih false)

theorem lines_line {text : Text} (oneLine : '\n' ∉ text) (rest : Text) :
    lines (text ++ '\n' :: rest) = (text ++ ['\n']) :: lines rest := by
  induction text with
  | nil => simp [lines]
  | cons c text ih =>
    have other : c ≠ '\n' := (List.ne_of_not_mem_cons oneLine).symm
    rw [List.cons_append, lines, if_neg other, ih (List.not_mem_of_not_mem_cons oneLine)]
    rfl

/-- Lines behind each other are read one by one. -/
theorem lines_flatten {whole : List Text}
    (ended : ∀ line ∈ whole, ∃ text, line = text ++ ['\n'] ∧ '\n' ∉ text) (rest : Text) :
    lines (whole.flatten ++ rest) = whole ++ lines rest := by
  induction whole with
  | nil => rfl
  | cons line whole ih =>
    obtain ⟨⟨text, rfl, oneLine⟩, later⟩ := List.forall_mem_cons.mp ended
    have split : (text ++ ['\n']) :: whole ++ lines rest = (text ++ ['\n']) :: lines (whole.flatten ++ rest) := by
      rw [ih later, List.cons_append]
    rw [split, ← lines_line oneLine]
    simp

/-- Every line is closed by a line feed, except possibly the last. -/
theorem mem_lines {text line : Text} (mem : line ∈ lines text) :
    ∃ own, '\n' ∉ own ∧ (line = own ++ ['\n'] ∨ line = own) ∧ ∀ c ∈ own, c ∈ text := by
  induction text generalizing line with
  | nil => cases mem
  | cons c text ih =>
    rw [lines] at mem
    split_ifs at mem with feed
    · rcases List.mem_cons.mp mem with rfl | later
      · exact ⟨[], List.not_mem_nil, .inl rfl, fun _ none_ => absurd none_ List.not_mem_nil⟩
      · obtain ⟨own, oneLine, shape, within⟩ := ih later
        exact ⟨own, oneLine, shape, fun a member => List.mem_cons_of_mem c (within a member)⟩
    · have longer {own : Text} (oneLine : '\n' ∉ own) (within : ∀ a ∈ own, a ∈ text) :
          '\n' ∉ c :: own ∧ ∀ a ∈ c :: own, a ∈ c :: text := by
        refine ⟨List.not_mem_cons_of_ne_of_not_mem (Ne.symm feed) oneLine, fun a member => ?_⟩
        exact List.mem_cons.mpr ((List.mem_cons.mp member).imp_right (within a))
      cases split : lines text with
      | nil =>
        rw [split] at mem
        obtain rfl := List.mem_singleton.mp mem
        obtain ⟨oneLine, within⟩ := longer List.not_mem_nil fun _ none_ => absurd none_ List.not_mem_nil
        exact ⟨[c], oneLine, .inr rfl, within⟩
      | cons first rest =>
        rw [split] at mem ih
        rcases List.mem_cons.mp mem with rfl | later
        · obtain ⟨own, oneLine, shape, within⟩ := ih List.mem_cons_self
          obtain ⟨oneLine, within⟩ := longer oneLine within
          refine ⟨c :: own, oneLine, ?_, within⟩
          rcases shape with rfl | rfl
          · exact .inl rfl
          · exact .inr rfl
        · obtain ⟨own, oneLine, shape, within⟩ := ih (List.mem_cons_of_mem first later)
          exact ⟨own, oneLine, shape, fun a member => List.mem_cons_of_mem c (within a member)⟩

theorem lines_ne_nil (c : Char) (rest : Text) : lines (c :: rest) ≠ [] := by
  rw [lines]
  split_ifs
  · exact List.cons_ne_nil _ _
  · split
    · exact List.cons_ne_nil _ _
    · exact List.cons_ne_nil _ _

theorem lines_append (front rest : Text) :
    lines (front ++ '\n' :: rest) = lines (front ++ ['\n']) ++ lines rest := by
  induction front with
  | nil => simp [lines]
  | cons c front ih =>
    have some_ : lines (front ++ ['\n']) ≠ [] := by
      cases front with
      | nil => exact lines_ne_nil _ _
      | cons a front => exact lines_ne_nil _ _
    obtain ⟨line, later, split⟩ := List.exists_cons_of_ne_nil some_
    rw [List.cons_append, List.cons_append, lines, lines, ih, split]
    split_ifs <;> rfl

theorem newlinesFrom_ended (returned : Bool) (front : Text) :
    newlinesFrom returned (front ++ ['\n']) = [] ∧ returned = true ∨
    ∃ kept, newlinesFrom returned (front ++ ['\n']) = kept ++ ['\n'] := by
  induction front generalizing returned with
  | nil =>
    cases returned
    · exact .inr ⟨[], rfl⟩
    · exact .inl ⟨rfl, rfl⟩
  | cons c front ih =>
    have on : ∃ kept, newlinesFrom false (front ++ ['\n']) = kept ++ ['\n'] :=
      (ih false).resolve_left fun both => Bool.false_ne_true both.2
    obtain ⟨kept, same⟩ := on
    rw [List.cons_append, newlinesFrom]
    split_ifs
    · rcases ih true with ⟨nothing, _⟩ | ⟨kept, same⟩
      · exact .inr ⟨[], by rw [nothing, List.nil_append]⟩
      · exact .inr ⟨'\n' :: kept, by rw [same, List.cons_append]⟩
    · exact .inr ⟨kept, same⟩
    · exact .inr ⟨c :: kept, by rw [same, List.cons_append]⟩

/-- What follows a line feed is read as if it stood alone. -/
theorem readLines_append (front rest : Bytes) :
    readLines (front ++ 10 :: rest) = readLines (front ++ [10]) ++ readLines rest := by
  have feed (bytes : Bytes) : decode (front ++ 10 :: bytes) = decode front ++ '\n' :: decode bytes :=
    decodeFrom_append (by decide) front bytes none
  obtain ⟨kept, ended⟩ := (newlinesFrom_ended false (decode front)).resolve_left fun both =>
    Bool.false_ne_true both.2
  have alone : universalNewlines (decode front ++ ['\n']) = kept ++ ['\n'] := ended
  have both : universalNewlines (decode front ++ '\n' :: decode rest) =
      kept ++ '\n' :: universalNewlines (decode rest) := by
    rw [universalNewlines, newlinesFrom_feed, ended, List.append_assoc]
    rfl
  have last : decode ([] : Bytes) = [] := rfl
  rw [readLines, readLines, readLines, feed, feed, last, alone, both, lines_append]

end Opg3d.Symbolize
