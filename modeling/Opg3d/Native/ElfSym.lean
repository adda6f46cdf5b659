import Opg3d.Native.Signature

namespace Opg3d.Elf

def ptDynamic : UInt32 := 2

def dtNull : Int := 0

def dtHash : Int := 4

def dtStrtab : Int := 5

def dtSymtab : Int := 6

def shnUndef : UInt16 := 0

/-- A program header; `uintptr_t` has `w` bits, 32 or 64 on the devices. -/
structure Phdr (w : Nat) where
  type : UInt32
  vaddr : BitVec w
  deriving DecidableEq, Repr

structure Dyn (w : Nat) where
  tag : Int
  value : BitVec w
  deriving DecidableEq, Repr

/-- `info` keeps the binding of a symbol in its upper four bits. -/
structure Sym (w : Nat) where
  name : UInt32
  value : BitVec w
  info : UInt8
  shndx : UInt16
  deriving DecidableEq, Repr

/-- What reading the mapped memory gives at an address, by what is read there:
an array of dynamic entries, of symbols, of words, or a C string. -/
structure Space (w : Nat) where
  dyn : BitVec w → List (Dyn w)
  sym : BitVec w → Nat → Sym w
  word : BitVec w → Nat → UInt32
  string : BitVec w → Bytes

/-- What `dl_iterate_phdr` tells about a loaded object. -/
structure Object (w : Nat) where
  name : Option Bytes
  addr : BitVec w
  phdr : Option (List (Phdr w))

structure Found (w : Nat) where
  base : BitVec w
  phdr : List (Phdr w)

structure Tables (w : Nat) where
  strtab : BitVec w
  symtab : BitVec w
  hash : BitVec w
  deriving DecidableEq, Repr

variable {w : Nat}

def nameMatches (path : Option Bytes) (soname : Bytes) : Bool :=
  match path with
  | none => false
  | some path => path ≠ [] && (path.reverse.takeWhile (· ≠ 47)).reverse = soname

def fixAddr (value base : BitVec w) : BitVec w := if value < base then base + value else value

def findDynamic (lib : Found w) : BitVec w :=
  match lib.phdr.find? (·.type = ptDynamic) with
  | some header => lib.base + header.vaddr
  | none => 0

def readDynamic (tables : Tables w) (base : BitVec w) (entry : Dyn w) : Tables w :=
  if entry.tag = dtStrtab then { tables with strtab := fixAddr entry.value base }
  else if entry.tag = dtSymtab then { tables with symtab := fixAddr entry.value base }
  else if entry.tag = dtHash then { tables with hash := fixAddr entry.value base }
  else tables

def scanDynamic (base : BitVec w) : List (Dyn w) → Tables w → Tables w
  | [], tables => tables
  | entry :: rest, tables =>
    if entry.tag = dtNull then tables else scanDynamic base rest (readDynamic tables base entry)

/-- A symbol's name: the string at its offset in the string table. -/
def Space.name (space : Space w) (tables : Tables w) (sym : Sym w) : Bytes :=
  space.string (tables.strtab + BitVec.ofNat w sym.name.toNat)

/-- The scan from entry `i` on, with so many entries left. -/
def scanSymbols (space : Space w) (base : BitVec w) (tables : Tables w) (symbol : Bytes) (i : Nat) :
    Nat → BitVec w
  | 0 => 0
  | left + 1 =>
    let sym := space.sym tables.symtab i
    if sym.name = 0 ∨ sym.value = 0 then scanSymbols space base tables symbol (i + 1) left
    else if sym.shndx = shnUndef then scanSymbols space base tables symbol (i + 1) left
    else if space.name tables sym = symbol then base + sym.value
    else scanSymbols space base tables symbol (i + 1) left

def Space.nchain (space : Space w) (tables : Tables w) : Nat := (space.word tables.hash 1).toNat

def lookup (space : Space w) (lib : Found w) (symbol : Bytes) : BitVec w :=
  let dyn := findDynamic lib
  if dyn = 0 then 0
  else
    let tables := scanDynamic lib.base (space.dyn dyn) ⟨0, 0, 0⟩
    if tables.strtab = 0 ∨ tables.symtab = 0 ∨ tables.hash = 0 then 0
    else scanSymbols space lib.base tables symbol 0 (space.nchain tables)

/-- The first object of the file name decides, also where it has no headers. -/
def find (objects : List (Object w)) (soname : Bytes) : Option (Found w) := do
  let object ← objects.find? (nameMatches ·.name soname)
  let phdr ← object.phdr
  return ⟨object.addr, phdr⟩

def findLibrary (objects : List (Object w)) (soname : Bytes) : Option (BitVec w) :=
  (find objects soname).map (·.base)

def findSymbol (space : Space w) (objects : List (Object w)) (soname symbol : Bytes) : BitVec w :=
  match find objects soname with
  | some lib => lookup space lib symbol
  | none => 0

/-- An entry that the scan stops at: named and defined, of non-zero value and
of the given name. -/
def Space.Usable (space : Space w) (tables : Tables w) (symbol : Bytes) (i : Nat) : Prop :=
  (space.sym tables.symtab i).name ≠ 0 ∧ (space.sym tables.symtab i).value ≠ 0 ∧
    (space.sym tables.symtab i).shndx ≠ shnUndef ∧ space.name tables (space.sym tables.symtab i) = symbol

instance (space : Space w) (tables : Tables w) (symbol : Bytes) :
    DecidablePred (space.Usable tables symbol) :=
  fun _ => inferInstanceAs (Decidable (_ ∧ _))

theorem scanSymbols_succ (space : Space w) (base : BitVec w) (tables : Tables w) (symbol : Bytes)
    (i left : Nat) :
    scanSymbols space base tables symbol i (left + 1) =
      if space.Usable tables symbol i then base + (space.sym tables.symtab i).value
      else scanSymbols space base tables symbol (i + 1) left := by
  rw [scanSymbols]
  by_cases usable : space.Usable tables symbol i
  · obtain ⟨named, valued, defined, same⟩ := usable
    have entry : space.Usable tables symbol i := ⟨named, valued, defined, same⟩
    simp only [if_pos entry, named, valued, or_self, defined, same, if_true, if_false]
  · rw [if_neg usable]
    unfold Space.Usable at usable
    split_ifs with unnamed undefined same
    · rfl
    · rfl
    · exact absurd ⟨fun h => unnamed (Or.inl h), fun h => unnamed (Or.inr h), undefined, same⟩ usable
    · rfl

/-- The scan gives the lowest of the entries it may stop at. -/
theorem scanSymbols_eq (space : Space w) (base : BitVec w) (tables : Tables w) (symbol : Bytes)
    (i left : Nat) :
    scanSymbols space base tables symbol i left =
      match (List.range' i left).find? (fun j => space.Usable tables symbol j) with
      | some j => base + (space.sym tables.symtab j).value
      | none => 0 := by
  induction left generalizing i with
  | zero => rfl
  | succ left ih =>
    rw [scanSymbols_succ, List.range'_succ, List.find?_cons]
    by_cases usable : space.Usable tables symbol i
    · simp only [usable, if_true, decide_true]
    · simp only [usable, if_false, decide_false, ih (i + 1)]

end Opg3d.Elf
