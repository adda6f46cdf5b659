import Opg3d.Native.HookInstall

namespace Opg3d

open Native

/-- A value as bytes; ARM is little-endian. -/
def leBytes : Nat → Nat → Bytes
  | 0, _ => []
  | width + 1, n => UInt8.ofNat n :: leBytes width (n / 256)

def leNat : Bytes → Nat
  | [] => 0
  | byte :: rest => byte.toNat + 256 * leNat rest

def ptrBytes (p : Ptr) : Bytes := leBytes 4 p.toNat

def ptrOfBytes (bytes : Bytes) : Ptr := UInt32.ofNat (leNat bytes)

def int32Bytes (i : Int) : Bytes := leBytes 4 (i % 2 ^ 32).toNat

def signedOf (width n : Nat) : Int := if 2 * n < 2 ^ width then n else (n : Int) - 2 ^ width

def int32OfBytes (bytes : Bytes) : Int := signedOf 32 (leNat bytes)

def int16OfBytes (bytes : Bytes) : Int := signedOf 16 (leNat bytes)

/-- The zeroed 16-byte buffer of `read_field` after the runtime has copied a
field into it. -/
def scratch (copied : Bytes) : Bytes := (copied ++ List.replicate 16 0).take 16

theorem length_leBytes (width n : Nat) : (leBytes width n).length = width := by
  induction width generalizing n with
  | zero => rfl
  | succ width ih => simp [leBytes, ih]

theorem leNat_leBytes {width n : Nat} (fits : n < 256 ^ width) : leNat (leBytes width n) = n := by
  induction width generalizing n with
  | zero => simp only [pow_zero, Nat.lt_one_iff] at fits; simp [leBytes, leNat, fits]
  | succ width ih =>
    have high : n / 256 < 256 ^ width := by
      rw [pow_succ] at fits
      exact (Nat.div_lt_iff_lt_mul (by decide)).mpr fits
    rw [leBytes, leNat, ih high, UInt8.toNat_ofNat']
    omega

theorem leNat_append_zeros (bytes : Bytes) (n : Nat) :
    leNat (bytes ++ List.replicate n 0) = leNat bytes := by
  induction bytes with
  | nil =>
    induction n with
    | zero => rfl
    | succ n ih => simpa [leNat, List.replicate_succ] using ih
  | cons byte rest ih => simp only [List.cons_append, leNat, ih]

theorem leNat_lt (bytes : Bytes) : leNat bytes < 256 ^ bytes.length := by
  induction bytes with
  | nil => decide
  | cons byte rest ih =>
    have := byte.toNat_lt
    rw [leNat, List.length_cons, pow_succ]
    omega

theorem ptrOfBytes_ptrBytes (p : Ptr) : ptrOfBytes (ptrBytes p) = p := by
  rw [ptrOfBytes, ptrBytes, leNat_leBytes p.toNat_lt, UInt32.ofNat_toNat]

theorem scratch_take {copied : Bytes} {size : Nat} (fits : copied.length ≤ size) (small : size ≤ 16) :
    (scratch copied).take size = copied ++ List.replicate (size - copied.length) 0 := by
  rw [scratch, List.take_take, Nat.min_eq_left small, List.take_append, List.take_of_length_le fits,
    List.take_replicate, Nat.min_eq_left (by omega)]

/-- `read_field<T>`, of which both modules have the same copy, with the size
of `T`; `none` is `false`, and the caller's variable is left alone. -/
def readField (object : Ptr) (name : String) (size : Nat) : Native (Option Bytes) := do
  if object = 0 then return none
  if ← anyNull [.objectGetClass, .classGetFieldFromName, .fieldGetValue] then return none
  let klass ← api (.objectGetClass object)
  if klass = 0 then return none
  let field ← api (.classGetFieldFromName klass name)
  if field = 0 then return none
  let copied : Bytes ← api (.fieldGetValue object field)
  return some ((scratch copied).take size)

def readInt32 (object : Ptr) (name : String) : Native (Option Int) := do
  let bytes ← readField object name 4
  return bytes.map int32OfBytes

def readRef (object : Ptr) (name : String) : Native (Option Ptr) := do
  let bytes ← readField object name 4
  return bytes.map ptrOfBytes

def readBool (object : Ptr) (name : String) : Native (Option Bool) := do
  let bytes ← readField object name 1
  return bytes.map fun b => leNat b ≠ 0

/-- `write_field<T>`: the runtime is handed the address of the parameter. -/
def writeField (object : Ptr) (name : String) (value : Bytes) : Native Bool := do
  if object = 0 then return false
  if ← anyNull [.objectGetClass, .classGetFieldFromName, .fieldSetValue] then return false
  let klass ← api (.objectGetClass object)
  if klass = 0 then return false
  let field ← api (.classGetFieldFromName klass name)
  if field = 0 then return false
  let here ← addressOfValue
  let _ : Unit ← api (.fieldSetValue object field ⟨here, value⟩)
  return true

/-- `if (field == nullptr) field = il2cpp::find_field("", klass, name)`. -/
def cacheField (cell : Static) (klass field : String) : Native Unit := do
  if (← static cell) = 0 then
    setStatic cell (← Il2cpp.findField "" klass field)

/-- The object in a static field whose handle is cached, if there is a handle. -/
def staticObject (cell : Static) : Native Ptr := do
  let field ← static cell
  if field = 0 then return 0
  api (.fieldStaticGetValue field)

/-- The lookup that fills a pair of function-local statics on first use:
the method's info and the code it points to. -/
def lookupCached (fnCell methodCell : Static) (target : HookEngine.ManagedMethod) : Native Ptr := do
  if (← static fnCell) = 0 then
    let method ← Il2cpp.findMethodInfo target.namespaze target.klass target.method target.argsCount
    setStatic methodCell method
    setStatic fnCell (← Il2cpp.methodPointer method)
  static fnCell

/-- `connection_state` of both modules, each with statics of its own. -/
def connectionStateVia (fnCell methodCell : Static) : Native Int := do
  let fn ← lookupCached fnCell methodCell ⟨"", "PhotonNetwork", "get_connectionStateDetailed", 0⟩
  if fn = 0 then return -1
  let method ← static methodCell
  managed .connectionState fn [Ptr.word method]

end Opg3d
