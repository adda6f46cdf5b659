import Opg3d.Native.Logger
import Opg3d.Utf8WellFormed

namespace Opg3d

open Kit

namespace Il2cpp

/-- The bytes that a unit takes which is not one half of a pair. -/
def unitWidth (unit : UInt16) : Nat := if unit ≤ 0x7F then 1 else if unit ≤ 0x7FF then 2 else 3

/-- The bytes that the units of a string take in UTF-8. -/
def byteWidth : List UInt16 → Nat
  | [] => 0
  | [unit] => unitWidth unit
  | unit :: next :: rest =>
    if isHigh unit && isLow next then 4 + byteWidth rest else unitWidth unit + byteWidth (next :: rest)

theorem length_appendUtf8 (cp : UInt32) : (appendUtf8 cp).length =
    if cp ≤ 0x7F then 1 else if cp ≤ 0x7FF then 2 else if cp ≤ 0xFFFF then 3 else 4 := by
  unfold appendUtf8
  split_ifs <;> rfl

theorem unitWidth_high {unit : UInt16} (high : isHigh unit = true) : unitWidth unit = 3 := by
  have bounds := (isHigh_iff unit).mp high
  have one : ¬unit ≤ 0x7F := by simp only [UInt16.le_iff_toNat_le, UInt16.reduceToNat]; omega
  have two : ¬unit ≤ 0x7FF := by simp only [UInt16.le_iff_toNat_le, UInt16.reduceToNat]; omega
  rw [unitWidth, if_neg one, if_neg two]

theorem length_single (unit : UInt16) : (appendUtf8 (single unit)).length = unitWidth unit := by
  have limit := unit.toNat_lt
  have value : unit.toUInt32.toNat = unit.toNat := UInt16.toNat_toUInt32 unit
  rw [length_appendUtf8]
  unfold single unitWidth
  by_cases low : isLow unit = true
  · have bounds := (isLow_iff unit).mp low
    have one : ¬unit ≤ 0x7F := by simp only [UInt16.le_iff_toNat_le, UInt16.reduceToNat]; omega
    have two : ¬unit ≤ 0x7FF := by simp only [UInt16.le_iff_toNat_le, UInt16.reduceToNat]; omega
    rw [if_pos low, if_neg one, if_neg two]
    decide
  · have three : unit.toUInt32 ≤ 0xFFFF := by
      simp only [UInt32.le_iff_toNat_le, value, UInt32.reduceToNat]
      omega
    rw [if_neg low, if_pos three]
    simp only [UInt32.le_iff_toNat_le, UInt16.le_iff_toNat_le, value, UInt32.reduceToNat,
      UInt16.reduceToNat]

theorem length_combine {high low : UInt16} (isHigh' : isHigh high = true) (isLow' : isLow low = true) :
    (appendUtf8 (combine high low)).length = 4 := by
  have value := toNat_combine isHigh' isLow'
  have large (n : UInt32) (small : n.toNat ≤ 0xFFFF) : ¬combine high low ≤ n := by
    rw [UInt32.le_iff_toNat_le]
    omega
  rw [length_appendUtf8, if_neg (large _ (by decide)), if_neg (large _ (by decide)),
    if_neg (large _ (by decide))]

theorem length_convertUnits (units : List UInt16) : (convertUnits units).length = byteWidth units := by
  induction units using convertUnits.induct with
  | case1 => rfl
  | case2 unit => exact length_single unit
  | case3 unit next rest high low ih =>
    rw [convertUnits, if_pos high, if_pos low, List.length_append, length_combine high low, ih, byteWidth,
      if_pos (by simp [high, low])]
  | case4 unit next rest high low ih =>
    rw [convertUnits, if_pos high, if_neg low, List.length_append, ih, byteWidth, if_neg (by simp [low]),
      unitWidth_high high]
    rfl
  | case5 unit next rest high ih =>
    rw [convertUnits, if_neg high, List.length_append, ih, byteWidth,
      if_neg (by simp [high]), length_single]

theorem nulFree_appendUtf8 {cp : UInt32} (present : cp ≠ 0) : 0 ∉ appendUtf8 cp := by
  have byte (lead rest : UInt32) (marked : lead.toUInt8 ≠ 0) : (0 : UInt8) ≠ (lead ||| rest).toUInt8 := by
    rw [UInt32.toUInt8_or]
    exact fun none => marked (UInt8.or_eq_zero_iff.mp none.symm).1
  unfold appendUtf8
  split_ifs with small
  · have value : cp.toNat ≠ 0 := fun none => present (UInt32.toNat_inj.mp none)
    have bound : cp.toNat ≤ 127 := UInt32.le_iff_toNat_le.mp small
    rw [List.mem_singleton]
    intro none
    have low := congrArg UInt8.toNat none
    rw [UInt32.toNat_toUInt8, UInt8.toNat_zero] at low
    omega
  all_goals
    simp only [List.mem_cons, List.not_mem_nil, or_false, not_or]
  · exact ⟨byte _ _ (by decide), byte _ _ (by decide)⟩
  · exact ⟨byte _ _ (by decide), byte _ _ (by decide), byte _ _ (by decide)⟩
  · exact ⟨byte _ _ (by decide), byte _ _ (by decide), byte _ _ (by decide), byte _ _ (by decide)⟩

theorem nulFree_single {unit : UInt16} (present : unit ≠ 0) : 0 ∉ appendUtf8 (single unit) := by
  refine nulFree_appendUtf8 ?_
  unfold single
  split_ifs
  · decide
  · intro none
    have value := congrArg UInt32.toNat none
    rw [UInt16.toNat_toUInt32] at value
    exact present (UInt16.toNat_inj.mp value)

theorem nulFree_combine {high low : UInt16} (isHigh' : isHigh high = true) (isLow' : isLow low = true) :
    0 ∉ appendUtf8 (combine high low) := by
  refine nulFree_appendUtf8 fun none => ?_
  have value := toNat_combine isHigh' isLow'
  rw [none, UInt32.toNat_zero] at value
  omega

/-- A string without NULs is converted to bytes without NULs. -/
theorem nulFree_convertUnits {units : List UInt16} (present : 0 ∉ units) : 0 ∉ convertUnits units := by
  induction units using convertUnits.induct with
  | case1 => exact List.not_mem_nil
  | case2 unit => exact nulFree_single (List.ne_of_not_mem_cons present).symm
  | case3 unit next rest high low ih =>
    rw [convertUnits, if_pos high, if_pos low, List.mem_append, not_or]
    exact ⟨nulFree_combine high low, ih fun member => present (.tail _ (.tail _ member))⟩
  | case4 unit next rest high low ih =>
    rw [convertUnits, if_pos high, if_neg low, List.mem_append, not_or]
    exact ⟨nulFree_appendUtf8 (by decide), ih (List.not_mem_of_not_mem_cons present)⟩
  | case5 unit next rest high ih =>
    rw [convertUnits, if_neg high, List.mem_append, not_or]
    exact ⟨nulFree_single (List.ne_of_not_mem_cons present).symm, ih (List.not_mem_of_not_mem_cons present)⟩

theorem nulFree_convertCapped {chars : List UInt16} (present : 0 ∉ chars) (length cap : Nat) :
    0 ∉ convertCapped chars length cap := by
  rw [convertCapped, List.mem_append, not_or]
  refine ⟨nulFree_convertUnits fun member => present (List.mem_of_mem_take member), ?_⟩
  split_ifs
  · decide
  · exact List.not_mem_nil

theorem unitWidth_le (unit : UInt16) : unitWidth unit ≤ 3 := by
  unfold unitWidth
  split_ifs <;> decide

theorem byteWidth_le (units : List UInt16) : byteWidth units ≤ 3 * units.length := by
  induction units using byteWidth.induct with
  | case1 => exact le_refl _
  | case2 unit => exact unitWidth_le unit
  | case3 unit next rest pair ih =>
    rw [byteWidth, if_pos pair, List.length_cons, List.length_cons]
    omega
  | case4 unit next rest alone ih =>
    have first := unitWidth_le unit
    rw [byteWidth, if_neg alone, List.length_cons]
    omega

/-- The bytes of a conversion, the dots of a longer string included. -/
def cappedWidth (units : List UInt16) (cap : Nat) : Nat :=
  byteWidth (units.take cap) + if units.length > cap then 3 else 0

theorem length_convertCapped (units : List UInt16) (cap : Nat) :
    (convertCapped units units.length cap).length = cappedWidth units cap := by
  have taken : units.take (min units.length cap) = units.take cap := by
    rw [Nat.min_comm, ← List.take_take, List.take_length]
  rw [convertCapped, List.length_append, length_convertUnits, taken, cappedWidth]
  by_cases longer : units.length > cap
  · have cut : units.length > min units.length cap := by omega
    rw [if_pos longer, if_pos cut]
    rfl
  · have whole : ¬units.length > min units.length cap := by omega
    rw [if_neg longer, if_neg whole]
    rfl

/-- A conversion takes three bytes for each unit of its cap, and the dots. -/
theorem length_convertCapped_le (chars : List UInt16) (length cap : Nat) :
    (convertCapped chars length cap).length ≤ 3 * cap + 3 := by
  have units := byteWidth_le (chars.take (min length cap))
  have taken : (chars.take (min length cap)).length ≤ cap :=
    (List.length_take_le _ _).trans (Nat.min_le_right _ _)
  have dots : (if length > min length cap then literal "..." else []).length ≤ 3 := by split_ifs <;> decide
  rw [convertCapped, List.length_append, length_convertUnits]
  omega

end Il2cpp

/-- The argument takes up at most so many bytes in a conversion without a width. -/
def Arg.Within (size : Nat) : Arg → Prop
  | .str bytes => bytes.length ≤ size
  | .int i => (signedDecimal i).length ≤ size
  | .nat n => (decimal n).length ≤ size ∧ (hexadecimal n).length + 2 ≤ size

instance (size : Nat) : (arg : Arg) → Decidable (arg.Within size)
  | .str bytes => inferInstanceAs (Decidable (bytes.length ≤ size))
  | .int i => inferInstanceAs (Decidable ((signedDecimal i).length ≤ size))
  | .nat _ => inferInstanceAs (Decidable (_ ∧ _))

theorem Arg.Within.read {arg : Arg} {size : Nat} (within : arg.Within size) : arg.read.Within size := by
  cases arg with
  | str bytes => exact (List.takeWhile_prefix _).length_le.trans within
  | int i => exact within
  | nat n => exact within

theorem within_read {sizes : List Nat} {args : List Arg} (within : List.Forall₂ Arg.Within sizes args) :
    List.Forall₂ Arg.Within sizes (args.map Arg.read) :=
  List.forall₂_map_right_iff.mpr (within.imp fun _ _ => Arg.Within.read)

/-- A bound for the length of a formatted text, from bounds for its arguments. -/
def formatBound : Option Nat → List Char → List Nat → Nat
  | _, [], _ => 0
  | none, c :: rest, sizes =>
    if c = '%' then formatBound (some 0) rest sizes else
      (String.utf8EncodeChar c).length + formatBound none rest sizes
  | some width, c :: rest, sizes =>
    if c.isDigit then formatBound (some (10 * width + (c.toNat - 48))) rest sizes
    else if c = 'l' ∨ c = 'z' then formatBound (some width) rest sizes
    else match sizes with
      | [] => formatBound none rest []
      | size :: others => max width size + formatBound none rest others

theorem length_convert_le {arg : Arg} {size : Nat} (within : arg.Within size) (width : Nat)
    (conversion : Char) : (convert width conversion arg).length ≤ max width size := by
  cases arg with
  | str bytes => exact le_max_of_le_right within
  | int i => exact le_max_of_le_right within
  | nat n =>
    obtain ⟨dec, hex⟩ := within
    have zeroX : (literal "0x").length = 2 := by decide
    unfold convert
    split_ifs
    · rw [length_zeroPad]
      omega
    · rw [List.length_append, zeroX]
      omega
    · rw [length_zeroPad]
      omega

theorem length_formatFrom_le {args : List Arg} {sizes : List Nat}
    (within : List.Forall₂ Arg.Within sizes args) (state : Option Nat) (format : List Char) :
    (formatFrom state format args).length ≤ formatBound state format sizes := by
  induction format generalizing state args sizes with
  | nil => cases state <;> exact le_refl _
  | cons c rest ih =>
    cases state with
    | none =>
      rw [formatFrom, formatBound]
      split_ifs
      · exact ih within _
      · rw [List.length_append]
        exact Nat.add_le_add_left (ih within _) _
    | some width =>
      rw [formatFrom.eq_def, formatBound.eq_def]
      by_cases digit : c.isDigit = true
      · simp only [if_pos digit]
        exact ih within _
      by_cases modifier : c = 'l' ∨ c = 'z'
      · simp only [if_neg digit, if_pos modifier]
        exact ih within _
      simp only [if_neg digit, if_neg modifier]
      cases within with
      | nil => exact ih .nil _
      | cons first others =>
        rw [List.length_append]
        exact Nat.add_le_add (length_convert_le first _ _) (ih others _)

theorem length_printf_le {format : String} {args : List Arg} {sizes : List Nat} {limit : Nat}
    (within : List.Forall₂ Arg.Within sizes args) (bound : formatBound none format.toList sizes ≤ limit) :
    (printf format args).length ≤ limit :=
  (length_formatFrom_le within none format.toList).trans bound

/-- A number that a 32-bit register holds, read with or without sign. -/
def Word32 (i : Int) : Prop := -2 ^ 31 ≤ i ∧ i < 2 ^ 32

instance (i : Int) : Decidable (Word32 i) := inferInstanceAs (Decidable (_ ∧ _))

theorem Word32.within {i : Int} (word : Word32 i) : (Arg.int i).Within 11 := by
  obtain ⟨low, high⟩ := word
  have digits : (decimal i.natAbs).length ≤ 10 := length_decimal_le (by decide) (by omega)
  have sign : (literal "-").length = 1 := by decide
  show (signedDecimal i).length ≤ 11
  unfold signedDecimal
  split_ifs
  · rw [List.length_append, sign]
    omega
  · omega

theorem within_nat {n : Nat} (word : n < 2 ^ 32) : (Arg.nat n).Within 10 :=
  ⟨length_decimal_le (by decide) (by omega), Nat.add_le_add_right
    (length_hexadecimal_le (k := 8) (by decide) (by omega)) 2⟩

theorem within_str {bytes : Bytes} {size : Nat} (bound : bytes.length ≤ size) :
    (Arg.str bytes).Within size :=
  bound

namespace Logger

/-- The line that `print` would write with buffers of any size. -/
def fullLine (sequence : UInt32) (site : CallSite) (text : Bytes) : Bytes :=
  match site.module with
  | some info =>
    printf "[#%06u +%06llums tid=%ld pc=%s+0x%x] %s"
      [.nat sequence.toNat, .nat site.elapsed.toNat, .int site.threadId.toInt, .str (baseName info.fname),
        .nat (site.rva info).toNat, .str text]
  | none =>
    printf "[#%06u +%06llums tid=%ld pc=0x%x] %s"
      [.nat sequence.toNat, .nat site.elapsed.toNat, .int site.threadId.toInt,
        .nat site.pc.toNat, .str text]

/-- In every line whose module has a name of at most 255 bytes the text is complete. -/
def Uncut (text : Bytes) : Prop :=
  ∀ sequence site, (∀ info ∈ site.module, (baseName info.fname).length ≤ 255) →
    print sequence site text = fullLine sequence site text

theorem print_eq (sequence : UInt32) (site : CallSite) (text : Bytes) :
    print sequence site text = truncate 4096 (fullLine sequence site (truncate 3072 text)) := by
  unfold print fullLine
  cases site.module <;> rfl

theorem length_fullLine_le {site : CallSite}
    (named : ∀ info ∈ site.module, (baseName info.fname).length ≤ 255) (sequence : UInt32)
    {text : Bytes} (short : text.length ≤ 3071) : (fullLine sequence site text).length ≤ 4095 := by
  have number : (Arg.nat sequence.toNat).Within 10 := within_nat sequence.toNat_lt
  have thread : (Arg.int site.threadId.toInt).Within 11 := Word32.within ⟨site.threadId.le_toInt, by
    have := site.threadId.toInt_lt
    omega⟩
  have elapsed : (Arg.nat site.elapsed.toNat).Within 20 := by
    have bound := site.elapsed.toNat_lt
    exact ⟨length_decimal_le (by decide) (by omega),
      (Nat.add_le_add_right (length_hexadecimal_le (k := 16) (by decide) (by omega)) 2).trans (by decide)⟩
  unfold fullLine
  cases module : site.module with
  | some info =>
    have name := within_str (named info (by rw [module]; rfl))
    have rva : (Arg.nat (site.rva info).toNat).Within 10 := within_nat (site.rva info).toNat_lt
    exact length_printf_le (.cons number (.cons elapsed (.cons thread (.cons name (.cons rva
      (.cons (within_str short) .nil)))))) (by decide)
  | none =>
    have pc : (Arg.nat site.pc.toNat).Within 10 := within_nat site.pc.toNat_lt
    exact length_printf_le (.cons number (.cons elapsed
      (.cons thread (.cons pc (.cons (within_str short) .nil))))) (by decide)

/-- A line without a module ends in the text. -/
theorem fullLine_anonymous {site : CallSite} (anonymous : site.module = none) (sequence : UInt32) :
    ∃ header, ∀ text, fullLine sequence site text = header ++ text := by
  refine ⟨literal "[#" ++ zeroPad 6 (decimal sequence.toNat) ++ literal " +" ++
    zeroPad 6 (decimal site.elapsed.toNat) ++ literal "ms tid=" ++ signedDecimal site.threadId.toInt ++
    literal " pc=0x" ++ zeroPad 0 (hexadecimal site.pc.toNat) ++ literal "] ", fun text => ?_⟩
  simp [fullLine, anonymous, printf, formatFrom, convert, literal]

/-- Exactly the texts that fit the message buffer are never cut. -/
theorem uncut_iff (text : Bytes) : Uncut text ↔ text.length ≤ 3071 := by
  constructor
  · intro uncut
    by_contra long
    let site : CallSite := ⟨0, 0, 0, 0, none⟩
    obtain ⟨header, line⟩ := @fullLine_anonymous site rfl 0
    have cut : (truncate 3072 text).length = 3071 := by
      rw [truncate, List.length_take]
      omega
    have same := uncut 0 site nofun
    have bound := @length_fullLine_le site nofun 0 _ cut.le
    rw [print_eq, truncate, List.take_of_length_le bound, line, line] at same
    have whole := congrArg List.length (List.append_cancel_left same)
    omega
  · intro short sequence site named
    have whole : truncate 3072 text = text := List.take_of_length_le short
    rw [print_eq, whole]
    exact List.take_of_length_le (length_fullLine_le named sequence short)

end Logger

end Opg3d
