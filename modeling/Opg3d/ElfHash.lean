import Mathlib.Data.List.Perm.Subperm
import Opg3d.ElfLookup
import Opg3d.Kit.Chain

namespace Opg3d.Elf

def stbGlobal : UInt8 := 1

def stbWeak : UInt8 := 2

/-- The hash of a name that the System V ABI lays down. -/
def sysvHash (name : Bytes) : UInt32 :=
  name.foldl (fun h byte =>
    let next := (h <<< 4) + byte.toUInt32
    let top := next &&& 0xf0000000
    (next ^^^ (top >>> 24)) &&& ~~~top) 0

namespace Space

variable {w : Nat}

/-- The section `DT_HASH`: two counts, then the first entry of every bucket,
then for every symbol the one that follows it. -/
def nbucket (space : Space w) (tables : Tables w) : Nat := (space.word tables.hash 0).toNat

def bucket (space : Space w) (tables : Tables w) (name : Bytes) : Nat :=
  (space.word tables.hash (2 + (sysvHash name).toNat % space.nbucket tables)).toNat

def following (space : Space w) (tables : Tables w) (i : Nat) : Nat :=
  (space.word tables.hash (2 + space.nbucket tables + i)).toNat

def chain (space : Space w) (tables : Tables w) (name : Bytes) : List Nat :=
  Kit.walk (space.following tables) 0 (space.nchain tables) (space.bucket tables name)

/-- Each bucket's chain stays in the table and ends, and every entry that has
a name is once on the chain of its name. -/
structure HashWellFormed (space : Space w) (tables : Tables w) : Prop where
  ends : ∀ name, ∃ chain, Kit.Chain (space.following tables) 0 (space.bucket tables name) chain ∧
    ∀ i ∈ chain, i < space.nchain tables
  once : ∀ i < space.nchain tables, (space.sym tables.symtab i).name ≠ 0 →
    (space.chain tables (space.name tables (space.sym tables.symtab i))).count i = 1

/-- An entry that defines the symbol. -/
def Defines (space : Space w) (tables : Tables w) (symbol : Bytes) (i : Nat) : Prop :=
  (space.sym tables.symtab i).name ≠ 0 ∧ space.name tables (space.sym tables.symtab i) = symbol ∧
    (space.sym tables.symtab i).shndx ≠ shnUndef

instance (space : Space w) (tables : Tables w) (symbol : Bytes) :
    DecidablePred (space.Defines tables symbol) :=
  fun _ => inferInstanceAs (Decidable (_ ∧ _))

def Exports (space : Space w) (tables : Tables w) (symbol : Bytes) (i : Nat) : Prop :=
  space.Defines tables symbol i ∧
    ((space.sym tables.symtab i).info >>> 4 = stbGlobal ∨ (space.sym tables.symtab i).info >>> 4 = stbWeak)

instance (space : Space w) (tables : Tables w) (symbol : Bytes) :
    DecidablePred (space.Exports tables symbol) :=
  fun _ => inferInstanceAs (Decidable (_ ∧ _))

/-- The entry that the dynamic linker takes for the symbol. -/
def exported (space : Space w) (tables : Tables w) (symbol : Bytes) : Option Nat :=
  (space.chain tables symbol).find? fun i => space.Exports tables symbol i

/-- The dynamic linker's answer for a symbol of an object at the base. -/
def linkerLookup (space : Space w) (base : BitVec w) (tables : Tables w) (symbol : Bytes) : BitVec w :=
  match space.exported tables symbol with
  | some i => base + (space.sym tables.symtab i).value
  | none => 0

/-- Where no entry exports the symbol, those that define it have no value.
Otherwise the entry the linker takes has one, and among the entries that
define the symbol those of another value come after one of that value or have none. -/
def Plain (space : Space w) (tables : Tables w) (symbol : Bytes) : Prop :=
  ((∀ i < space.nchain tables, ¬space.Exports tables symbol i) →
    ∀ i < space.nchain tables, space.Defines tables symbol i → (space.sym tables.symtab i).value = 0) ∧
  ∀ e, space.exported tables symbol = some e → (space.sym tables.symtab e).value ≠ 0 ∧
    ∀ i < space.nchain tables, space.Defines tables symbol i → (space.sym tables.symtab i).value ≠ 0 →
      (space.sym tables.symtab i).value ≠ (space.sym tables.symtab e).value →
      ∃ j < i, space.Defines tables symbol j ∧ (space.sym tables.symtab j).value =
        (space.sym tables.symtab e).value

variable {space : Space w} {tables : Tables w} {symbol : Bytes}

theorem usable_iff (i : Nat) : space.Usable tables symbol i ↔
    space.Defines tables symbol i ∧ (space.sym tables.symtab i).value ≠ 0 := by
  unfold Usable Defines
  tauto

/-- The walk over a bucket meets the whole chain. -/
theorem HashWellFormed.chain_links (formed : space.HashWellFormed tables) (name : Bytes) :
    Kit.Chain (space.following tables) 0 (space.bucket tables name) (space.chain tables name) ∧
      ∀ i ∈ space.chain tables name, i < space.nchain tables := by
  obtain ⟨chain, links, below⟩ := formed.ends name
  have among : chain ⊆ List.range (space.nchain tables) := fun i mem => List.mem_range.mpr (below i mem)
  have enough := (links.nodup.subperm among).length_le
  rw [List.length_range] at enough
  have same : space.chain tables name = chain := links.walk_eq enough
  rw [same]
  exact ⟨links, below⟩

theorem HashWellFormed.exported_spec (formed : space.HashWellFormed tables) {e : Nat}
    (taken : space.exported tables symbol = some e) :
    e < space.nchain tables ∧ space.Exports tables symbol e := by
  have exports : space.Exports tables symbol e := by simpa using List.find?_some taken
  exact ⟨(formed.chain_links symbol).2 e (List.mem_of_find?_eq_some taken), exports⟩

/-- The linker finds an entry wherever the table has one to export. -/
theorem HashWellFormed.not_exports (formed : space.HashWellFormed tables)
    (nothing : space.exported tables symbol = none) :
    ∀ i < space.nchain tables, ¬space.Exports tables symbol i := by
  intro i below exports
  have once := formed.once i below exports.1.1
  rw [exports.1.2.1] at once
  have mem : i ∈ space.chain tables symbol := List.count_pos_iff.mp (by omega)
  have refused := List.find?_eq_none.mp nothing i mem
  exact refused (decide_eq_true exports)

/-- Where the scan finds nothing to stop at, so must the linker. -/
theorem HashWellFormed.plain_of_unusable (formed : space.HashWellFormed tables)
    (unusable : ∀ i < space.nchain tables, ¬space.Usable tables symbol i) :
    space.Plain tables symbol ↔ space.exported tables symbol = none := by
  constructor
  · intro plain
    by_contra other
    obtain ⟨e, taken⟩ := Option.ne_none_iff_exists'.mp other
    obtain ⟨below, exports⟩ := formed.exported_spec taken
    exact unusable e below ((usable_iff e).mpr ⟨exports.1, (plain.2 e taken).1⟩)
  · intro nothing
    refine ⟨fun _ i below defines => ?_, fun e taken => absurd (nothing.symm.trans taken) (by simp)⟩
    by_contra valued
    exact unusable i below ((usable_iff i).mpr ⟨defines, valued⟩)

/-- Where the scan stops at an entry, the linker must take one of its value. -/
theorem HashWellFormed.plain_of_lowest (formed : space.HashWellFormed tables) {u : Nat}
    (below : u < space.nchain tables) (usable : space.Usable tables symbol u)
    (lowest : ∀ i < u, ¬space.Usable tables symbol i) :
    space.Plain tables symbol ↔ ∃ e, space.exported tables symbol = some e ∧
      (space.sym tables.symtab u).value = (space.sym tables.symtab e).value := by
  obtain ⟨defines, valued⟩ := (usable_iff u).mp usable
  constructor
  · intro plain
    cases taken : space.exported tables symbol with
    | none => exact absurd (plain.1 (formed.not_exports taken) u below defines) valued
    | some e =>
      refine ⟨e, rfl, ?_⟩
      by_contra other
      obtain ⟨present, before⟩ := plain.2 e taken
      obtain ⟨j, earlier, defines', same⟩ := before u below defines valued other
      exact lowest j earlier ((usable_iff j).mpr ⟨defines', same ▸ present⟩)
  · rintro ⟨e, taken, same⟩
    obtain ⟨inTable, exports⟩ := formed.exported_spec taken
    refine ⟨fun nothing => absurd exports (nothing e inTable), ?_⟩
    intro e' again
    cases taken.symm.trans again
    refine ⟨same ▸ valued, ?_⟩
    intro i inRange defines' valued' other
    have later : ¬i < u := fun before => lowest i before ((usable_iff i).mpr ⟨defines', valued'⟩)
    have apart : i ≠ u := fun equal => other (equal ▸ same)
    exact ⟨u, by omega, defines, same⟩

end Space

namespace Image

variable {w : Nat} {image : Image w} {bias : BitVec w}

theorem exports_loaded (image : Image w) (bias : BitVec w) (absolute : Nat → Bool) (tables : Tables w)
    (symbol : Bytes) (i : Nat) :
    (image.loaded bias absolute).Exports (tables.biased bias) symbol i ↔
      image.content.Exports tables symbol i := by
  have place (offset : BitVec w) : bias + tables.strtab + offset - bias = tables.strtab + offset := by
    rw [BitVec.add_assoc, add_sub_bias]
  simp only [Space.Exports, Space.Defines, Space.name, loaded, Tables.biased, add_sub_bias, place]

/-- The linker's answer does not depend on where the image is either. -/
theorem linkerLookup_loaded (image : Image w) (bias : BitVec w) (absolute : Nat → Bool) (tables : Tables w)
    (symbol : Bytes) : (image.loaded bias absolute).linkerLookup bias (tables.biased bias) symbol =
      image.content.linkerLookup bias tables symbol := by
  have word : (image.loaded bias absolute).word (tables.biased bias).hash = image.content.word tables.hash := by
    simp only [loaded, Tables.biased, add_sub_bias]
  have following : (image.loaded bias absolute).following (tables.biased bias) =
      image.content.following tables := by
    funext i
    simp only [Space.following, Space.nbucket, word]
  have chain : (image.loaded bias absolute).chain (tables.biased bias) symbol =
    image.content.chain tables symbol := by
    simp only [Space.chain, following, Space.nchain, Space.bucket, Space.nbucket, word]
  have same : (fun i => decide ((image.loaded bias absolute).Exports (tables.biased bias) symbol i)) =
      fun i => decide (image.content.Exports tables symbol i) :=
    funext fun i => decide_eq_decide.mpr (exports_loaded image bias absolute tables symbol i)
  have taken : (image.loaded bias absolute).exported (tables.biased bias) symbol =
      image.content.exported tables symbol := by
    rw [Space.exported, Space.exported, chain, same]
  have entry (i : Nat) : (image.loaded bias absolute).sym (tables.biased bias).symtab i =
      image.content.sym tables.symtab i := by
    simp only [loaded, Tables.biased, add_sub_bias]
  simp only [Space.linkerLookup, taken, entry]

/-- `find_symbol`'s scan agrees with the dynamic linker in just these cases. -/
theorem lookup_eq_linkerLookup_iff (fits : image.Fits bias) (absolute : Nat → Bool) {tables : Tables w}
    (known : image.tables = some tables) (formed : image.content.HashWellFormed tables) (symbol : Bytes) :
    lookup (image.loaded bias absolute) (image.found bias) symbol =
        (image.loaded bias absolute).linkerLookup bias (tables.biased bias) symbol ↔
      image.content.Plain tables symbol := by
  rw [linkerLookup_loaded, lookup_loaded fits, known]
  have nonzero : ∀ i < image.content.nchain tables, bias + (image.content.sym tables.symtab i).value ≠ 0 :=
    fun i below => biased_ne_zero (fits _ (.symbol known below))
  rcases image.content.lowest_cases tables symbol with ⟨first, unusable⟩ | ⟨u, first, below, usable, lowest⟩
  · rw [formed.plain_of_unusable unusable]
    cases taken : image.content.exported tables symbol with
    | none => simp only [first, Space.linkerLookup, taken]
    | some e =>
      simp only [first, Space.linkerLookup, taken]
      exact iff_of_false (nonzero e (formed.exported_spec taken).1).symm (by simp)
  · rw [formed.plain_of_lowest below usable lowest]
    cases taken : image.content.exported tables symbol with
    | none =>
      simp only [first, Space.linkerLookup, taken]
      exact iff_of_false (nonzero u below) (by simp)
    | some e =>
      simp only [first, Space.linkerLookup, taken, BitVec.add_right_inj, Option.some.injEq,
        exists_eq_left']

/-- The one bucket of such a hash section leads to the second symbol, and from it to the first. -/
theorem sampleOf_formed {sym : Nat → Sym 32} {hash : Nat → UInt32} (counts : hash 0 = 1 ∧ hash 1 = 3)
    (links : hash 2 = 2 ∧ hash 5 = 1 ∧ hash 4 = 0) (unnamed : (sym 0).name = 0) :
    (sampleOf sym hash).content.HashWellFormed ⟨0x400, 0x200, 0x300⟩ := by
  have one : (sampleOf sym hash).content.nbucket ⟨0x400, 0x200, 0x300⟩ = 1 := congrArg UInt32.toNat counts.1
  have three : (sampleOf sym hash).content.nchain ⟨0x400, 0x200, 0x300⟩ = 3 :=
    congrArg UInt32.toNat counts.2
  have bucket (name : Bytes) : (sampleOf sym hash).content.bucket ⟨0x400, 0x200, 0x300⟩ name = 2 := by
    rw [Space.bucket, one, Nat.mod_one]
    exact congrArg UInt32.toNat links.1
  have second : (sampleOf sym hash).content.following ⟨0x400, 0x200, 0x300⟩ 2 = 1 := by
    rw [Space.following, one]
    exact congrArg UInt32.toNat links.2.1
  have first : (sampleOf sym hash).content.following ⟨0x400, 0x200, 0x300⟩ 1 = 0 := by
    rw [Space.following, one]
    exact congrArg UInt32.toNat links.2.2
  have chain (name : Bytes) : (sampleOf sym hash).content.chain ⟨0x400, 0x200, 0x300⟩ name = [2, 1] := by
    rw [Space.chain, three, bucket]
    simp only [Kit.walk, second, first]
    rfl
  refine ⟨fun name => ⟨[2, 1], ?_, ?_⟩, ?_⟩
  · rw [bucket]
    refine .step (by decide) ?_
    rw [second]
    refine .step (by decide) ?_
    rw [first]
    exact .ends
  · rw [three]
    decide
  · intro i below named
    rw [three] at below
    rw [chain]
    interval_cases i
    · exact absurd unnamed named
    · rfl
    · rfl

/-- The undefined symbol of lower index is passed over by both. -/
theorem lookup_eq_linkerLookup_sample :
    lookup (sample.loaded 0x10000 (· = 2)) (sample.found 0x10000) [102] =
      (sample.loaded 0x10000 (· = 2)).linkerLookup 0x10000 ⟨0x10400, 0x10200, 0x10300⟩ [102] := by
  have plain : sample.content.Plain ⟨0x400, 0x200, 0x300⟩ [102] := by
    refine ⟨fun nothing => absurd (nothing 2 (by decide)) (by decide), ?_⟩
    intro e taken
    have second : sample.content.exported ⟨0x400, 0x200, 0x300⟩ [102] = some 2 := by decide
    cases second.symm.trans taken
    refine ⟨by decide, ?_⟩
    intro i below defines _ other
    have three : sample.content.nchain ⟨0x400, 0x200, 0x300⟩ = 3 := rfl
    rw [three] at below
    interval_cases i
    · exact absurd defines (by decide)
    · exact absurd defines (by decide)
    · exact absurd rfl other
  have formed : sample.content.HashWellFormed ⟨0x400, 0x200, 0x300⟩ :=
    sampleOf_formed ⟨rfl, rfl⟩ ⟨rfl, rfl, rfl⟩ rfl
  exact (lookup_eq_linkerLookup_iff sample_fits (· = 2) rfl formed [102]).mpr plain

/-- A symbol `f` of local binding before the global one that the library exports. -/
def shadowed : Image 32 :=
  sampleOf
    (fun | 1 => ⟨1, 0x600, 2, 7⟩ | 2 => ⟨1, 0x500, 18, 7⟩ | _ => ⟨0, 0, 0, 0⟩)
    (fun | 0 => 1 | 1 => 3 | 2 => 2 | 5 => 1 | _ => 0)

/-- `find_symbol` gives the address of a symbol that is not exported. -/
theorem local_symbol_found :
    ¬∀ (image : Image 32) (bias : BitVec 32) (absolute : Nat → Bool) (tables : Tables 32)
      (symbol : Bytes), image.Fits bias → image.tables = some tables → image.content.HashWellFormed tables →
      lookup (image.loaded bias absolute) (image.found bias) symbol =
        (image.loaded bias absolute).linkerLookup bias (tables.biased bias) symbol := by
  intro agree
  have same := agree shadowed 0x10000 (fun _ => false) ⟨0x400, 0x200, 0x300⟩ [102] (sampleOf_fits (by decide)) rfl
    (sampleOf_formed ⟨rfl, rfl⟩ ⟨rfl, rfl, rfl⟩ rfl)
  have scanned : lookup (shadowed.loaded 0x10000 fun _ => false)
    (shadowed.found 0x10000) [102] = 0x10600 := by decide
  have answered : (shadowed.loaded 0x10000 fun _ => false).linkerLookup 0x10000
      ⟨0x10400, 0x10200, 0x10300⟩ [102] = 0x10500 := by decide
  exact absurd (scanned.symm.trans (same.trans answered)) (by decide)

end Image

end Opg3d.Elf
