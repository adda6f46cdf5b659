import Opg3d.Kit.Regex
import Opg3d.Tool.Text

namespace Opg3d.Symbolize

open Kit

/-- What the regular expressions ask of the Unicode database: the characters
of `\w` beside the underscore. -/
structure Unicode where
  isAlnum : Char → Bool
  ascii : ∀ c, c.toNat < 128 → isAlnum c = c.isAlphanum

def Unicode.isWord (db : Unicode) (c : Char) : Bool := db.isAlnum c || c = '_'

/-- `//\s*RVA:\s*0x([0-9A-Fa-f]+)\b` -/
def rvaRe (db : Unicode) : Regex :=
  .sequence [.text "//".toList, .star (.char isSpace), .text "RVA:".toList, .star (.char isSpace),
    .text "0x".toList, .group (.plus (.char isHexDigit)), .boundary db.isWord]

/-- `^//\s*Namespace:\s*(.*)$` -/
def namespaceRe : Regex :=
  .sequence [.atStart, .text "//".toList, .star (.char isSpace), .text "Namespace:".toList,
    .star (.char isSpace), .group (.star (.char (· ≠ '\n'))), .atEnd]

def accessWords : List Text := ["public".toList, "private".toList, "protected".toList, "internal".toList]

def modifierWords : List Text := ["static".toList, "sealed".toList, "abstract".toList, "partial".toList]

def kindWords : List Text := ["class".toList, "struct".toList, "interface".toList, "enum".toList]

/-- `(?:public|private|protected|internal)\s+` and the like. -/
def keyword (words : List Text) : Regex := .seq (.oneOf words) (.plus (.char isSpace))

/-- `([^:{]+?)\s*(?::|$)` -/
def typeNameRe : Regex :=
  .sequence [.group (.fewPlus (.char fun c => c ≠ ':' ∧ c ≠ '{')), .star (.char isSpace),
    .alt (.text ":".toList) .atEnd]

/-- The declaration of a type: an accessibility, modifiers, the kind and the name. -/
def typeRe : Regex :=
  .sequence [.atStart, .opt (keyword accessWords), .star (keyword modifierWords),
    keyword kindWords, typeNameRe]

/-- `pc=libil2cpp\.so\+0x([0-9A-Fa-f]+)\b` -/
def callsiteRe (db : Unicode) : Regex :=
  .sequence [.text "pc=libil2cpp.so+0x".toList, .group (.plus (.char isHexDigit)), .boundary db.isWord]

/-- `\s+\[managed=[^\]]+\]\s*$` -/
def annotationRe : Regex :=
  .sequence [.plus (.char isSpace), .text "[managed=".toList, .plus (.char (· ≠ ']')), .text "]".toList,
    .star (.char isSpace), .atEnd]

structure Method where
  rva : Nat
  qualifiedName : Text
  deriving DecidableEq, Repr

instance : LinearOrder Method := LinearOrder.lift' (fun m => toLex (m.rva, m.qualifiedName)) (by
  rintro ⟨_, _⟩ ⟨_, _⟩ same
  cases same
  rfl)

def methodNameFromDeclaration (line : Text) : Option Text :=
  let stripped := strip line
  if stripped = [] ∨ "//".toList <+: stripped ∨ "[".toList <+: stripped ∨ '(' ∉ stripped then none
  else
    let front := stripRight (textBefore "(".toList stripped)
    if front = [] then none
    else
      let candidate := lastWord front
      if candidate ∈ ["if".toList, "for".toList, "while".toList, "switch".toList, "catch".toList] then none
      else some candidate

/-- What `parse_dump` knows between two lines. -/
structure Parsing where
  namespace_ : Text
  currentType : Text
  pendingRva : Option Nat
  methods : List Method

def Parsing.start : Parsing := ⟨[], "<unknown-type>".toList, none, []⟩

/-- The name of a type's method, under the namespace unless that is empty. -/
def qualified (space type method : Text) : Text :=
  (if space ≠ [] then space ++ ".".toList ++ type else type) ++ ".".toList ++ method

def parseLine (db : Unicode) (s : Parsing) (rawLine : Text) : Parsing :=
  let line := dropNewlines rawLine
  match namespaceRe.matchStart line with
  | some found => { s with namespace_ := strip found.group, pendingRva := none }
  | none =>
    match typeRe.matchStart (strip line) with
    | some found => { s with currentType := strip (textBefore "//".toList found.group), pendingRva := none }
    | none =>
      match (rvaRe db).search line with
      | some found => { s with pendingRva := some (parseHex found.group) }
      | none =>
        match s.pendingRva with
        | none => s
        | some rva =>
          match methodNameFromDeclaration line with
          | none => if "//".toList <+: strip line then { s with pendingRva := none } else s
          | some name =>
            { s with
              methods := s.methods ++ [⟨rva, qualified s.namespace_ s.currentType name⟩]
              pendingRva := none }

def parseDump (db : Unicode) (lines : List Text) : List Method :=
  sortedSet (lines.foldl (parseLine db) .start).methods

/-- The index is built from the methods of a dump. -/
structure RvaIndex where
  methods : List Method

namespace RvaIndex

def rvas (index : RvaIndex) : List Nat := sortedSet (index.methods.map (·.rva))

def names (index : RvaIndex) (rva : Nat) : List Text :=
  sortedSet ((index.methods.filter (·.rva = rva)).map (·.qualifiedName))

/-- `bisect.bisect_right` on a sorted list. -/
def bisectRight (sorted : List Nat) (x : Nat) : Nat := (sorted.takeWhile (· ≤ x)).length

def resolve (index : RvaIndex) (rva : Nat) (maxOffset : Int) : Option Text :=
  let position := bisectRight index.rvas rva
  if position = 0 then none
  else
    let start := index.rvas.getD (position - 1) 0
    let offset := rva - start
    if (offset : Int) > maxOffset then none
    else
      let names := index.names start
      let rendered := ['|'].intercalate (names.take 3)
      let rest := if names.length > 3 then "|+".toList ++ decimalText (names.length - 3) ++ " more".toList else []
      some (rendered ++ rest ++ "+0x".toList ++ hexText offset)

theorem resolve_ne_nil {index : RvaIndex} {rva : Nat} {maxOffset : Int} {resolved : Text}
    (found : index.resolve rva maxOffset = some resolved) : resolved ≠ [] := by
  simp only [resolve] at found
  split at found
  · cases found
  split at found
  · cases found
  cases found
  simp

end RvaIndex

def annotation (resolved : Text) : Text := " [managed=".toList ++ resolved ++ "]".toList

def symbolizeLine (db : Unicode) (index : RvaIndex) (maxOffset : Int) (rawLine : Text) : Text :=
  let line := dropNewlines rawLine
  let annotated :=
    match (callsiteRe db).search line with
    | none => line
    | some found =>
      if (annotationRe.search line).isSome then line
      else
        match index.resolve (parseHex found.group) maxOffset with
        | none => line
        | some resolved => if resolved = [] then line else line ++ annotation resolved
  annotated ++ ['\n']

def symbolizeLines (db : Unicode) (lines : List Text) (index : RvaIndex) (maxOffset : Int) : List Text :=
  lines.map (symbolizeLine db index maxOffset)

/-- A database that knows ASCII only. -/
def asciiOnly : Unicode := ⟨fun c => c.toNat < 128 && c.isAlphanum, fun c low => by simp [low]⟩

/-- The dump and the log line of the tool's own tests. -/
example : symbolizeLines asciiOnly
    ["[#000001 +000001ms tid=7 pc=libil2cpp.so+0x118f750] disconnect\n".toList,
      "[#000002 +000002ms tid=7 pc=libopg3d.so+0x1234] helper\n".toList]
    ⟨parseDump asciiOnly ["\n".toList, "// Namespace:\n".toList,
      "public static class PhotonNetwork // TypeDefIndex: 4860\n".toList, "\x7b\n".toList,
      "    // RVA: 0x118F728 Offset: 0x118F728 VA: 0x118F728\n".toList,
      "    public static void Disconnect() \x7b \x7d\n".toList, "\x7d\n".toList]⟩ 0x1000 =
    ["[#000001 +000001ms tid=7 pc=libil2cpp.so+0x118f750] disconnect [managed=PhotonNetwork.Disconnect+0x28]\n".toList,
      "[#000002 +000002ms tid=7 pc=libopg3d.so+0x1234] helper\n".toList] := by decide +kernel

end Opg3d.Symbolize
