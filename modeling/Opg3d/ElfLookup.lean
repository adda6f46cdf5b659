import Mathlib.Data.List.Basic
import Opg3d.Native.ElfSym

namespace Opg3d.Elf

/-- A library as its file lays it out: what it holds is addressed by the
virtual addresses that its headers and its tables use. -/
structure Image (w : Nat) where
  phdr : List (Phdr w)
  content : Space w

/-- The dynamic entries that hold the address of a table. -/
def Dyn.Locates {w : Nat} (entry : Dyn w) : Prop :=
  entry.tag = dtStrtab ∨ entry.tag = dtSymtab ∨ entry.tag = dtHash

instance {w : Nat} : DecidablePred (Dyn.Locates (w := w)) := fun _ => inferInstanceAs (Decidable (_ ∨ _))

/-- A linker may leave the address in an entry as it is, or write the
absolute address over it. -/
def Dyn.rewritten {w : Nat} (bias : BitVec w) (absolute : Bool) (entry : Dyn w) : Dyn w :=
  if absolute ∧ entry.Locates then { entry with value := bias + entry.value } else entry

namespace Image

variable {w : Nat}

/-- The memory with the image at the bias, where those entries of its dynamic
sections are absolute that `absolute` picks. -/
def loaded (image : Image w) (bias : BitVec w) (absolute : Nat → Bool) : Space w where
  dyn a := (image.content.dyn (a - bias)).mapIdx fun k => Dyn.rewritten bias (absolute k)
  sym a := image.content.sym (a - bias)
  word a := image.content.word (a - bias)
  string a := image.content.string (a - bias)

def found (image : Image w) (bias : BitVec w) : Found w := ⟨bias, image.phdr⟩

/-- The entries of the dynamic section, which `DT_NULL` ends. -/
def dynamic (image : Image w) : Option (List (Dyn w)) :=
  (image.phdr.find? (·.type = ptDynamic)).map fun header =>
    (image.content.dyn header.vaddr).takeWhile (·.tag ≠ dtNull)

end Image

/-- The table that the last entry of the tag locates. -/
def located {w : Nat} (tag : Int) (entries : List (Dyn w)) : Option (BitVec w) :=
  (entries.reverse.find? (·.tag = tag)).map (·.value)

namespace Image

variable {w : Nat}

/-- The three tables; there are none where one of them is missing. -/
def tables (image : Image w) : Option (Tables w) := do
  let entries ← image.dynamic
  return ⟨← located dtStrtab entries, ← located dtSymtab entries, ← located dtHash entries⟩

/-- The virtual addresses of an image: of its segments, its tables and its symbols. -/
inductive Vaddr (image : Image w) : BitVec w → Prop
  | segment {header : Phdr w} (mem : header ∈ image.phdr) : Vaddr image header.vaddr
  | table {entries : List (Dyn w)} {entry : Dyn w} (dynamic : image.dynamic = some entries)
      (mem : entry ∈ entries) (locates : entry.Locates) : Vaddr image entry.value
  | symbol {tables : Tables w} {i : Nat} (known : image.tables = some tables)
      (below : i < image.content.nchain tables) : Vaddr image (image.content.sym tables.symtab i).value

/-- What the loader sees to: all of these are below the bias, and adding the
bias does not wrap. -/
def Fits (image : Image w) (bias : BitVec w) : Prop :=
  ∀ v, image.Vaddr v → v < bias ∧ bias.toNat + v.toNat < 2 ^ w

end Image

section Address

variable {w : Nat} {bias v : BitVec w}

theorem add_sub_bias (bias v : BitVec w) :
    bias + v - bias = v := by rw [BitVec.add_comm, BitVec.add_sub_cancel]

theorem toNat_biased (fits : v < bias ∧ bias.toNat + v.toNat < 2 ^ w) :
    (bias + v).toNat = bias.toNat + v.toNat := by
  rw [BitVec.toNat_add, Nat.mod_eq_of_lt fits.2]

theorem biased_ne_zero (fits : v < bias ∧ bias.toNat + v.toNat < 2 ^ w) : bias + v ≠ 0 := by
  intro null
  have sum := toNat_biased fits
  have below : v.toNat < bias.toNat := fits.1
  rw [null] at sum
  have zero : (0 : BitVec w).toNat = 0 := BitVec.toNat_zero
  omega

theorem fixAddr_raw (fits : v < bias ∧ bias.toNat + v.toNat < 2 ^ w) : fixAddr v bias = bias + v :=
  if_pos fits.1

theorem fixAddr_absolute (fits : v < bias ∧ bias.toNat + v.toNat < 2 ^ w) :
    fixAddr (bias + v) bias = bias + v := by
  have above : ¬bias + v < bias := by
    rw [BitVec.lt_def, toNat_biased fits]
    omega
  exact if_neg above

end Address

namespace Dyn

variable {w : Nat} {bias : BitVec w} {entry : Dyn w}

@[simp] theorem rewritten_tag (absolute : Bool) : (entry.rewritten bias absolute).tag = entry.tag := by
  unfold rewritten
  split <;> rfl

/-- The guess of `fix_addr` is right for an entry of either kind. -/
theorem fixAddr_rewritten (absolute : Bool)
    (fits : entry.value < bias ∧ bias.toNat + entry.value.toNat < 2 ^ w) :
    fixAddr (entry.rewritten bias absolute).value bias = bias + entry.value := by
  unfold rewritten
  split
  · exact fixAddr_absolute fits
  · exact fixAddr_raw fits

end Dyn

/-- The addresses of the tables once the image is at the bias. -/
def Tables.biased {w : Nat} (bias : BitVec w) (tables : Tables w) : Tables w :=
  ⟨bias + tables.strtab, bias + tables.symtab, bias + tables.hash⟩

/-- Either no entry of the table is one to stop at, or there is a lowest one. -/
theorem Space.lowest_cases {w : Nat} (space : Space w) (tables : Tables w) (symbol : Bytes) :
    let first := (List.range (space.nchain tables)).find? fun i => space.Usable tables symbol i
    first = none ∧ (∀ i < space.nchain tables, ¬space.Usable tables symbol i) ∨
      ∃ i, first = some i ∧ i < space.nchain tables ∧ space.Usable tables symbol i ∧
        ∀ j < i, ¬space.Usable tables symbol j := by
  intro first
  cases found : first with
  | none =>
    have unusable := List.find?_range_eq_none.mp found
    exact Or.inl ⟨rfl, by simpa using unusable⟩
  | some i =>
    obtain ⟨usable, inside, lowest⟩ := List.find?_range_eq_some.mp found
    exact Or.inr ⟨i, rfl, List.mem_range.mp inside,
      by simpa using usable, fun j before => by simpa using lowest j before⟩

section Scan

variable {w : Nat} {bias : BitVec w}

theorem located_cons (tag : Int) (entry : Dyn w) (entries : List (Dyn w)) : located tag (entry :: entries) =
    (located tag entries).or (if entry.tag = tag then some entry.value else none) := by
  unfold located
  rw [List.reverse_cons, List.find?_append, List.find?_singleton]
  cases entries.reverse.find? (·.tag = tag) with
  | some later => simp
  | none => by_cases same : entry.tag = tag <;> simp [same]

/-- What the scan of the dynamic section finds: of each tag the last entry,
at its place in memory. -/
theorem scanDynamic_eq (absolute : Nat → Bool) (entries : List (Dyn w)) (tables : Tables w)
    (fits : ∀ entry ∈ entries.takeWhile (·.tag ≠ dtNull), entry.Locates →
      entry.value < bias ∧ bias.toNat + entry.value.toNat < 2 ^ w) :
    scanDynamic bias (entries.mapIdx fun k => Dyn.rewritten bias (absolute k)) tables =
      ⟨((located dtStrtab (entries.takeWhile (·.tag ≠ dtNull))).map (bias + ·)).getD tables.strtab,
        ((located dtSymtab (entries.takeWhile (·.tag ≠ dtNull))).map (bias + ·)).getD tables.symtab,
        ((located dtHash (entries.takeWhile (·.tag ≠ dtNull))).map (bias + ·)).getD tables.hash⟩ := by
  induction entries generalizing absolute tables with
  | nil => rfl
  | cons entry rest ih =>
    rw [List.mapIdx_cons, scanDynamic, Dyn.rewritten_tag]
    by_cases ends : entry.tag = dtNull
    · rw [if_pos ends, List.takeWhile_cons_of_neg (by simp [ends])]
      rfl
    have continues : (entry :: rest).takeWhile (·.tag ≠ dtNull) = entry :: rest.takeWhile (·.tag ≠ dtNull) :=
      List.takeWhile_cons_of_pos (by simp [ends])
    rw [continues] at fits ⊢
    have later := ih (fun k => absolute (k + 1)) (readDynamic tables bias (entry.rewritten bias (absolute 0)))
      (fun other mem => fits other (List.mem_cons_of_mem _ mem))
    rw [if_neg ends, later, located_cons, located_cons, located_cons, readDynamic, Dyn.rewritten_tag]
    have here : entry.Locates → fixAddr (entry.rewritten bias (absolute 0)).value bias = bias + entry.value :=
      fun locates => Dyn.fixAddr_rewritten _ (fits entry List.mem_cons_self locates)
    -- Only the field of the entry's own tag changes, to what a later entry of the tag overwrites.
    by_cases strtab : entry.tag = dtStrtab
    · rw [here (Or.inl strtab), if_pos strtab, strtab]
      cases located dtStrtab (rest.takeWhile (·.tag ≠ dtNull)) <;> simp [dtStrtab, dtSymtab, dtHash]
    by_cases symtab : entry.tag = dtSymtab
    · rw [here (Or.inr (Or.inl symtab)), if_neg strtab, if_pos symtab, symtab]
      cases located dtSymtab (rest.takeWhile (·.tag ≠ dtNull)) <;> simp [dtStrtab, dtSymtab, dtHash]
    by_cases hash : entry.tag = dtHash
    · rw [here (Or.inr (Or.inr hash)), if_neg strtab, if_neg symtab, if_pos hash, hash]
      cases located dtHash (rest.takeWhile (·.tag ≠ dtNull)) <;> simp [dtStrtab, dtSymtab, dtHash]
    · simp only [strtab, symtab, hash, if_false, Option.or_none]

end Scan

namespace Image

variable {w : Nat} {image : Image w} {bias : BitVec w}

theorem Fits.table (fits : image.Fits bias) {entries : List (Dyn w)}
    (dynamic : image.dynamic = some entries) {entry : Dyn w} (mem : entry ∈ entries)
    (locates : entry.Locates) : entry.value < bias ∧ bias.toNat + entry.value.toNat < 2 ^ w :=
  fits _ (.table dynamic mem locates)

theorem located_fits (fits : image.Fits bias) {entries : List (Dyn w)}
    (dynamic : image.dynamic = some entries) {tag : Int} {v : BitVec w}
    (known : tag = dtStrtab ∨ tag = dtSymtab ∨ tag = dtHash) (found : located tag entries = some v) :
    v < bias ∧ bias.toNat + v.toNat < 2 ^ w := by
  obtain ⟨entry, last, rfl⟩ := Option.map_eq_some_iff.mp found
  have mem : entry ∈ entries := List.mem_reverse.mp (List.mem_of_find?_eq_some last)
  have same : entry.tag = tag := by simpa using List.find?_some last
  have locates : entry.Locates := by rwa [Dyn.Locates, same]
  exact fits.table dynamic mem locates

/-- The address of the dynamic section, where the headers have one. -/
theorem findDynamic_found (image : Image w) (bias : BitVec w) : findDynamic (image.found bias) =
    match image.phdr.find? (·.type = ptDynamic) with
    | some header => bias + header.vaddr
    | none => 0 := rfl

theorem usable_loaded (image : Image w) (bias : BitVec w) (absolute : Nat → Bool) (tables : Tables w)
    (symbol : Bytes) (i : Nat) :
    (image.loaded bias absolute).Usable (tables.biased bias) symbol i ↔
      image.content.Usable tables symbol i := by
  have place (offset : BitVec w) : bias + tables.strtab + offset - bias = tables.strtab + offset := by
    rw [BitVec.add_assoc, add_sub_bias]
  simp only [Space.Usable, Space.name, loaded, Tables.biased, add_sub_bias, place]

theorem scan_loaded (image : Image w) (bias : BitVec w) (absolute : Nat → Bool) (tables : Tables w)
    (symbol : Bytes) :
    scanSymbols (image.loaded bias absolute) bias (tables.biased bias) symbol 0
        ((image.loaded bias absolute).nchain (tables.biased bias)) =
      match (List.range (image.content.nchain tables)).find? (fun i =>
        image.content.Usable tables symbol i) with
      | some i => bias + (image.content.sym tables.symtab i).value
      | none => 0 := by
  have count : (image.loaded bias absolute).nchain (tables.biased bias) = image.content.nchain tables := by
    simp only [Space.nchain, loaded, Tables.biased, add_sub_bias]
  have entry (i : Nat) : (image.loaded bias absolute).sym (tables.biased bias).symtab i =
      image.content.sym tables.symtab i := by
    simp only [loaded, Tables.biased, add_sub_bias]
  have same : (fun i => decide ((image.loaded bias absolute).Usable (tables.biased bias) symbol i)) =
      fun i => decide (image.content.Usable tables symbol i) :=
    funext fun i => decide_eq_decide.mpr (usable_loaded image bias absolute tables symbol i)
  rw [scanSymbols_eq, count, ← List.range_eq_range', same]
  cases (List.range (image.content.nchain tables)).find? (fun i =>
    image.content.Usable tables symbol i) with
  | none => rfl
  | some i => exact congrArg (bias + ·.value) (entry i)

/-- In memory, `lookup` scans the symbols that the image has. -/
theorem lookup_loaded (fits : image.Fits bias) (absolute : Nat → Bool) (symbol : Bytes) :
    lookup (image.loaded bias absolute) (image.found bias) symbol =
      match image.tables with
      | none => 0
      | some tables =>
        match (List.range (image.content.nchain tables)).find? (fun i =>
          image.content.Usable tables symbol i) with
        | some i => bias + (image.content.sym tables.symtab i).value
        | none => 0 := by
  unfold lookup
  rw [findDynamic_found]
  cases header : image.phdr.find? (·.type = ptDynamic) with
  | none =>
    have missing : image.tables = none := by simp [tables, dynamic, header]
    rw [missing]
    rfl
  | some first =>
    have placed := fits _ (.segment (List.mem_of_find?_eq_some header))
    have entries : image.dynamic = some ((image.content.dyn first.vaddr).takeWhile (·.tag ≠ dtNull)) := by
      simp [dynamic, header]
    have section_ : (image.loaded bias absolute).dyn (bias + first.vaddr) =
        (image.content.dyn first.vaddr).mapIdx fun k => Dyn.rewritten bias (absolute k) := by
      simp only [loaded, add_sub_bias]
    have scanned := scanDynamic_eq absolute (image.content.dyn first.vaddr) ⟨0, 0, 0⟩
      (fun entry mem locates => fits.table entries mem locates)
    simp only [biased_ne_zero placed, if_false, section_, found, scanned]
    generalize (image.content.dyn first.vaddr).takeWhile (·.tag ≠ dtNull) = dynamic at entries ⊢
    cases strtab : located dtStrtab dynamic with
    | none => simp [tables, entries, strtab]
    | some s =>
      cases symtab : located dtSymtab dynamic with
      | none => simp [tables, entries, strtab, symtab]
      | some y =>
        cases hash : located dtHash dynamic with
        | none => simp [tables, entries, strtab, symtab, hash]
        | some h =>
          have known : image.tables = some ⟨s, y, h⟩ := by simp [tables, entries, strtab, symtab, hash]
          have strtabPlaced := located_fits fits entries (Or.inl rfl) strtab
          have symtabPlaced := located_fits fits entries (Or.inr (Or.inl rfl)) symtab
          have hashPlaced := located_fits fits entries (Or.inr (Or.inr rfl)) hash
          simp only [known, Option.map_some, Option.getD_some, biased_ne_zero strtabPlaced,
            biased_ne_zero symtabPlaced, biased_ne_zero hashPlaced, or_self, if_false]
          exact scan_loaded image bias absolute ⟨s, y, h⟩ symbol

theorem located_eq_none_iff (tag : Int) (entries : List (Dyn w)) :
    located tag entries = none ↔ ∀ entry ∈ entries, entry.tag ≠ tag := by
  simp [located, List.find?_eq_none]

/-- A table is missing, or there is no dynamic section that could have it. -/
theorem tables_eq_none_iff (image : Image w) : image.tables = none ↔
    (∀ header ∈ image.phdr, header.type ≠ ptDynamic) ∨
      ∃ entries, image.dynamic = some entries ∧
        ∃ tag ∈ [dtStrtab, dtSymtab, dtHash], ∀ entry ∈ entries, entry.tag ≠ tag := by
  cases header : image.phdr.find? (·.type = ptDynamic) with
  | none =>
    have absent : ∀ header ∈ image.phdr, header.type ≠ ptDynamic := by simpa using List.find?_eq_none.mp header
    exact iff_of_true (by simp [tables, dynamic, header]) (Or.inl absent)
  | some first =>
    have present : ¬∀ header ∈ image.phdr, header.type ≠ ptDynamic := fun absent =>
      absent first (List.mem_of_find?_eq_some header) (by simpa using List.find?_some header)
    obtain ⟨entries, known⟩ : ∃ entries, image.dynamic = some entries := ⟨_, by rw [dynamic, header]; rfl⟩
    simp only [present, false_or, known, Option.some.injEq, exists_eq_left', List.mem_cons,
      List.not_mem_nil, or_false, exists_eq_or_imp, exists_eq_left, ← located_eq_none_iff, tables]
    cases strtab : located dtStrtab entries <;> cases symtab : located dtSymtab entries <;>
      cases hash : located dtHash entries <;> simp [strtab, symtab, hash]

/-- Wherever the image is loaded and whichever addresses the linker has made
absolute, `lookup` gives the symbol of the lowest entry that it may stop at,
and null just where there is none to stop at or no table to look it up in. -/
theorem lookup_relocated (fits : image.Fits bias) (absolute : Nat → Bool) (symbol : Bytes) :
    (∀ other, lookup (image.loaded bias other) (image.found bias) symbol =
      lookup (image.loaded bias absolute) (image.found bias) symbol) ∧
    (∀ tables i, image.tables = some tables → i < image.content.nchain tables →
      image.content.Usable tables symbol i → (∀ j < i, ¬image.content.Usable tables symbol j) →
      lookup (image.loaded bias absolute) (image.found bias) symbol =
        bias + (image.content.sym tables.symtab i).value) ∧
    (lookup (image.loaded bias absolute) (image.found bias) symbol = 0 ↔
      (∀ header ∈ image.phdr, header.type ≠ ptDynamic) ∨
      (∃ entries, image.dynamic = some entries ∧
        ∃ tag ∈ [dtStrtab, dtSymtab, dtHash], ∀ entry ∈ entries, entry.tag ≠ tag) ∨
      ∃ tables, image.tables = some tables ∧
        ∀ i < image.content.nchain tables, ¬image.content.Usable tables symbol i) := by
  refine ⟨?_, ?_, ?_⟩
  · intro other
    rw [lookup_loaded fits, lookup_loaded fits]
  · intro tables i known below usable lowest
    have first : (List.range (image.content.nchain tables)).find? (fun j =>
        image.content.Usable tables symbol j) = some i := by
      rw [List.find?_range_eq_some]
      exact ⟨by simpa using usable, by simpa using below, by simpa using lowest⟩
    simp only [lookup_loaded fits, known, first]
  · rw [← or_assoc, ← tables_eq_none_iff, lookup_loaded fits]
    cases known : image.tables with
    | none => simp
    | some tables =>
      rcases image.content.lowest_cases tables symbol with ⟨first, unusable⟩ | ⟨i, first, below, usable, _⟩
      · simp only [first]
        exact iff_of_true trivial (Or.inr ⟨tables, rfl, unusable⟩)
      · have placed := biased_ne_zero (fits _ (.symbol known below))
        simp only [first]
        refine iff_of_false placed ?_
        rintro (none | ⟨same, equal, unusable⟩)
        · exact absurd none (by simp)
        · cases equal
          exact unusable i below usable

/-- An image with the symbols and the hash section given. -/
def sampleOf (sym : Nat → Sym 32) (hash : Nat → UInt32) : Image 32 where
  phdr := [⟨1, 0⟩, ⟨2, 0x100⟩]
  content :=
    { dyn := fun a => if a = 0x100 then [⟨1, 1⟩, ⟨6, 0x200⟩, ⟨4, 0x300⟩, ⟨5, 0x400⟩, ⟨0, 0⟩] else []
      sym := fun a i => if a = 0x200 then sym i else ⟨0, 0, 0, 0⟩
      word := fun a i => if a = 0x300 then hash i else 0
      string := fun a => if a = 0x401 then [102] else [] }

theorem sampleOf_tables (sym : Nat → Sym 32) (hash : Nat → UInt32) :
    (sampleOf sym hash).tables = some ⟨0x400, 0x200, 0x300⟩ := rfl

theorem sampleOf_fits {sym : Nat → Sym 32} {hash : Nat → UInt32}
    (low : ∀ i < (hash 1).toNat, (sym i).value < 0x1000) : (sampleOf sym hash).Fits 0x10000 := by
  have placed (v : BitVec 32) (small : v < 0x1000) :
      v < 0x10000 ∧ (0x10000 : BitVec 32).toNat + v.toNat < 2 ^ 32 := by
    constructor <;> bv_omega
  intro v vaddr
  apply placed
  cases vaddr with
  | segment mem =>
    simp only [sampleOf, List.mem_cons, List.not_mem_nil, or_false] at mem
    rcases mem with rfl | rfl <;> decide
  | table known mem locates =>
    have entries : (sampleOf sym hash).dynamic = some [⟨1, 1⟩, ⟨6, 0x200⟩, ⟨4, 0x300⟩, ⟨5, 0x400⟩] := rfl
    cases entries.symm.trans known
    simp only [List.mem_cons, List.not_mem_nil, or_false] at mem
    rcases mem with rfl | rfl | rfl | rfl <;> decide
  | @symbol tables i known below =>
    cases (sampleOf_tables sym hash).symm.trans known
    exact low i below

/-- Without a section, the first of two symbols `f` is not defined. -/
def sample : Image 32 :=
  sampleOf
    (fun | 1 => ⟨1, 0x600, 18, 0⟩ | 2 => ⟨1, 0x500, 18, 7⟩ | _ => ⟨0, 0, 0, 0⟩)
    (fun | 0 => 1 | 1 => 3 | 2 => 2 | 5 => 1 | _ => 0)

theorem sample_fits : sample.Fits 0x10000 := sampleOf_fits (by decide)

/-- With the hash table's address absolute and the others as they were. -/
theorem lookup_relocated_sample :
    lookup (sample.loaded 0x10000 (· = 2)) (sample.found 0x10000) [102] = 0x10500 :=
  (lookup_relocated sample_fits (· = 2) [102]).2.1 ⟨0x400, 0x200, 0x300⟩ 2 rfl (by decide) (by decide) (by decide)

end Image

end Opg3d.Elf
