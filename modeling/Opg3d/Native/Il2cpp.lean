import Opg3d.Native.Signature

namespace Opg3d

open Native

/-- The name under which `libil2cpp.so` exports each function. -/
def Api.symbol : Api → String
  | .stringNew => "il2cpp_string_new"
  | .stringLength => "il2cpp_string_length"
  | .stringChars => "il2cpp_string_chars"
  | .domainGet => "il2cpp_domain_get"
  | .domainGetAssemblies => "il2cpp_domain_get_assemblies"
  | .assemblyGetImage => "il2cpp_assembly_get_image"
  | .imageGetName => "il2cpp_image_get_name"
  | .classFromName => "il2cpp_class_from_name"
  | .classGetMethodFromName => "il2cpp_class_get_method_from_name"
  | .classGetFieldFromName => "il2cpp_class_get_field_from_name"
  | .objectGetClass => "il2cpp_object_get_class"
  | .fieldGetValue => "il2cpp_field_get_value"
  | .fieldSetValue => "il2cpp_field_set_value"
  | .fieldStaticGetValue => "il2cpp_field_static_get_value"
  | .fieldStaticSetValue => "il2cpp_field_static_set_value"
  | .threadAttach => "il2cpp_thread_attach"
  | .threadDetach => "il2cpp_thread_detach"

namespace Il2cpp

/-- The exports `resolve` insists on, in its order; `thread_detach` is optional. -/
def required : List Api :=
  [.stringNew, .stringLength, .stringChars, .domainGet, .domainGetAssemblies,
    .assemblyGetImage, .imageGetName,
    .classFromName, .classGetMethodFromName, .classGetFieldFromName, .objectGetClass, .fieldGetValue,
    .fieldSetValue, .fieldStaticGetValue, .fieldStaticSetValue, .threadAttach]

theorem required_of_ne (f : Api) (needed : f ≠ .threadDetach) : f ∈ required := by
  cases f <;> first | exact absurd rfl needed | decide

def kMaxAssemblies : Nat := 8192

def bind (f : Api) : Native Bool := do
  let fn ← apiPtr f
  if fn ≠ 0 then return true
  let found ← findSymbol f.symbol
  bindApi f found
  return decide (found ≠ 0)

/-- `ok &= bind(..)` for each export: no failure stops the ones after it. -/
def bindAll : List Api → Native Bool
  | [] => return true
  | f :: rest => do
    let bound ← bind f
    let ok ← bindAll rest
    return bound && ok

def resolve : Native Bool := do
  let ok ← bindAll required
  let _ ← bind .threadDetach
  return ok

/-- The assemblies of the domain, none unless a usable array is reported. -/
def loadedAssemblies : Native (List Ptr) := do
  let domain ← api .domainGet
  if domain = 0 then return []
  let assemblies : Assemblies ← api (.domainGetAssemblies domain)
  match assemblies.array with
  | none => return []
  | some entries => if assemblies.count > kMaxAssemblies then return [] else return entries

def findImageIn (name : String) : List Ptr → Native Ptr
  | [] => return 0
  | assembly :: rest => do
    if assembly = 0 then findImageIn name rest
    else do
      let image ← api (.assemblyGetImage assembly)
      if image = 0 then findImageIn name rest
      else do
        let imageName ← api (.imageGetName image)
        if imageName = some name then return image else findImageIn name rest

def findImage (name : String) : Native Ptr := do
  if ← anyNull [.domainGet, .domainGetAssemblies, .assemblyGetImage, .imageGetName] then return 0
  findImageIn name (← loadedAssemblies)

/-- The loop of `find_class`: the first image that knows the name decides. -/
def findClassIn (namespaze name : String) : List Ptr → Native Ptr
  | [] => return 0
  | assembly :: rest => do
    if assembly = 0 then findClassIn namespaze name rest
    else do
      let image ← api (.assemblyGetImage assembly)
      if image = 0 then findClassIn namespaze name rest
      else do
        let klass ← api (.classFromName image namespaze name)
        if klass ≠ 0 then return klass else findClassIn namespaze name rest

def findClass (namespaze name : String) : Native Ptr := do
  if ← anyNull [.domainGet, .domainGetAssemblies, .assemblyGetImage, .classFromName] then return 0
  findClassIn namespaze name (← loadedAssemblies)

def findMethodInfo (namespaze klass method : String) (argsCount : Int) : Native Ptr := do
  if ← anyNull [.classGetMethodFromName] then return 0
  let type ← findClass namespaze klass
  if type = 0 then return 0
  api (.classGetMethodFromName type method argsCount)

def methodPointer (methodInfo : Ptr) : Native Ptr := do
  if methodInfo = 0 then return 0
  firstMember methodInfo

def findField (namespaze klass field : String) : Native Ptr := do
  if ← anyNull [.classGetFieldFromName] then return 0
  let type ← findClass namespaze klass
  if type = 0 then return 0
  api (.classGetFieldFromName type field)

def appendUtf8 (cp : UInt32) : Bytes :=
  if cp ≤ 0x7F then [cp.toUInt8]
  else if cp ≤ 0x7FF then [((0xC0 : UInt32) ||| (cp >>> 6)).toUInt8,
    ((0x80 : UInt32) ||| (cp &&& 0x3F)).toUInt8]
  else if cp ≤ 0xFFFF then
    [((0xE0 : UInt32) ||| (cp >>> 12)).toUInt8, ((0x80 : UInt32) ||| ((cp >>> 6) &&& 0x3F)).toUInt8,
      ((0x80 : UInt32) ||| (cp &&& 0x3F)).toUInt8]
  else
    [((0xF0 : UInt32) ||| (cp >>> 18)).toUInt8, ((0x80 : UInt32) ||| ((cp >>> 12) &&& 0x3F)).toUInt8,
      ((0x80 : UInt32) ||| ((cp >>> 6) &&& 0x3F)).toUInt8, ((0x80 : UInt32) ||| (cp &&& 0x3F)).toUInt8]

def isHigh (unit : UInt16) : Bool := 0xD800 ≤ unit && unit ≤ 0xDBFF

def isLow (unit : UInt16) : Bool := 0xDC00 ≤ unit && unit ≤ 0xDFFF

/-- The code point of a surrogate pair. -/
def combine (high low : UInt16) : UInt32 :=
  (0x10000 : UInt32) + ((high.toUInt32 - 0xD800) <<< 10) + (low.toUInt32 - 0xDC00)

/-- The code point of a unit that is not joined to the next one: a lone low
surrogate is replaced, every other unit stands for itself. -/
def single (unit : UInt16) : UInt32 := if isLow unit then 0xFFFD else unit.toUInt32

/-- The conversion loop over the units below the limit. The list ends where
`i + 1u < limit` fails, so the last unit never looks at a successor. -/
def convertUnits : List UInt16 → Bytes
  | [] => []
  | [unit] => appendUtf8 (single unit)
  | unit :: next :: rest =>
    if isHigh unit then
      if isLow next then appendUtf8 (combine unit next) ++ convertUnits rest
      else appendUtf8 0xFFFD ++ convertUnits (next :: rest)
    else appendUtf8 (single unit) ++ convertUnits (next :: rest)

/-- What `to_utf8` makes of the units at `chars`, given the string's length. -/
def convertCapped (chars : List UInt16) (length maxCodeUnits : Nat) : Bytes :=
  let limit := min length maxCodeUnits
  convertUnits (chars.take limit) ++ if length > limit then literal "..." else []

def toUtf8 (managedString : Ptr) (maxCodeUnits : Nat) : Native Bytes := do
  if managedString = 0 then return literal "<null>"
  if ← anyNull [.stringLength, .stringChars] then return literal "<string-api-unavailable>"
  let signedLength : Int ← api (.stringLength managedString)
  if signedLength ≤ 0 then return []
  let chars : Option (List UInt16) ← api (.stringChars managedString)
  match chars with
  | none => return literal "<null-chars>"
  | some units => return convertCapped units signedLength.toNat maxCodeUnits

end Il2cpp

end Opg3d
