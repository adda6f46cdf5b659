import Opg3d.Tool.Symbolize

namespace Opg3d.Symbolize

/-- White space in front of a line. -/
structure Indent where
  text : Text
  blank : ∀ c ∈ text, c = ' ' ∨ c = '\t'

inductive Brace where
  | opening | closing
  deriving DecidableEq, Repr

def Brace.text : Brace → Text
  | .opening => ['{']
  | .closing => ['}']

/-- A line with at most a brace. -/
structure Filler where
  indent : Indent
  brace : Option Brace

def Filler.line (filler : Filler) : Text := filler.indent.text ++ filler.brace.elim [] Brace.text ++ ['\n']

/-- Words with a blank after each. -/
def spaced (words : List Text) : Text := words.flatMap (· ++ [' '])

/-- A modifier of a method or a piece of its return type. -/
structure IsWord (word : Text) : Prop where
  filled : word ≠ []
  plain : ∀ c ∈ word, isSpace c = false ∧ c ≠ '('
  reserved : word ∉ kindWords
  start : word.head? ≠ some '/' ∧ word.head? ≠ some '['

structure MethodDecl where
  indent : Indent
  digits : Text
  offset : Text
  va : Text
  modifiers : List Text
  returnType : List Text
  name : Text
  generics : List Text
  parameters : Text
  body : Text
  after : List Filler
  indented : indent.text ≠ []
  hex : digits ≠ [] ∧ ∀ c ∈ digits, isHexDigit c = true
  returns : returnType ≠ []
  words : ∀ word ∈ modifiers ++ returnType, IsWord word
  named : name ≠ [] ∧ ∀ c ∈ name, isSpace c = false ∧ c ≠ '('
  identifiers : ∀ g ∈ generics, ∀ c ∈ g, isSpace c = false ∧ c ≠ '(' ∧ c ≠ '.'

namespace MethodDecl

def rva (m : MethodDecl) : Nat := parseHex m.digits

def genericList (m : MethodDecl) : Text :=
  if m.generics = [] then [] else ['<'] ++ ", ".toList.intercalate m.generics ++ ['>']

def fullName (m : MethodDecl) : Text := m.name ++ m.genericList

def rvaLine (m : MethodDecl) : Text :=
  m.indent.text ++ "// RVA: 0x".toList ++ m.digits ++ " Offset: 0x".toList ++ m.offset ++
    " VA: 0x".toList ++ m.va ++ ['\n']

def declaration (m : MethodDecl) : Text :=
  m.indent.text ++ spaced (m.modifiers ++ m.returnType) ++ m.fullName ++ ['('] ++ m.parameters ++ [')'] ++
    m.body ++ ['\n']

def lines (m : MethodDecl) : List Text := m.rvaLine :: m.declaration :: m.after.map Filler.line

end MethodDecl

/-- The accessibilities of C#. -/
inductive Access where
  | pub | priv | prot | internal | protInternal | privProt
  deriving DecidableEq, Repr

def Access.words : Access → List Text
  | .pub => ["public".toList]
  | .priv => ["private".toList]
  | .prot => ["protected".toList]
  | .internal => ["internal".toList]
  | .protInternal => ["protected".toList, "internal".toList]
  | .privProt => ["private".toList, "protected".toList]

inductive TypeModifier where
  | static | sealed | abstract
  deriving DecidableEq, Repr

def TypeModifier.text : TypeModifier → Text
  | .static => "static".toList
  | .sealed => "sealed".toList
  | .abstract => "abstract".toList

inductive TypeKind where
  | klass | struct | interface | enum
  deriving DecidableEq, Repr

def TypeKind.text : TypeKind → Text
  | .klass => "class".toList
  | .struct => "struct".toList
  | .interface => "interface".toList
  | .enum => "enum".toList

structure TypeDecl where
  before : List Filler
  blanks : Nat
  space : Text
  access : Access
  modifier : Option TypeModifier
  kind : TypeKind
  name : Text
  bases : Option Text
  typeDefIndex : Option Nat
  opening : List Filler
  methods : List MethodDecl
  dotted : ∀ c ∈ space, isSpace c = false
  named : name ≠ [] ∧ ∀ c ∈ name, c ≠ ':' ∧ c ≠ '/'
  trimmed : (∀ c ∈ name.head?, isSpace c = false) ∧ ∀ c ∈ name.getLast?, isSpace c = false

namespace TypeDecl

def namespaceLine (t : TypeDecl) : Text :=
  "// Namespace:".toList ++ List.replicate t.blanks ' ' ++ t.space ++ ['\n']

def head (t : TypeDecl) : Text :=
  spaced (t.access.words ++ (t.modifier.map TypeModifier.text).toList ++ [t.kind.text])

def declaration (t : TypeDecl) : Text :=
  t.head ++ t.name ++ t.bases.elim [] (" : ".toList ++ ·) ++
    t.typeDefIndex.elim [] (" // TypeDefIndex: ".toList ++ decimalText ·) ++ ['\n']

def lines (t : TypeDecl) : List Text :=
  t.before.map Filler.line ++ t.namespaceLine :: t.declaration :: t.opening.map Filler.line ++
    t.methods.flatMap MethodDecl.lines

end TypeDecl

/-- A dump is the types in their order. -/
def dumpLines (types : List TypeDecl) : List Text := types.flatMap TypeDecl.lines

/-- A method as it is written, of the type it is written in. -/
def TypeDecl.written (t : TypeDecl) (m : MethodDecl) : Method :=
  ⟨m.rva, qualified t.space t.name m.fullName⟩

def writtenMethods (types : List TypeDecl) : List Method := types.flatMap fun t => t.methods.map t.written

/-- The type declarations that the pattern for them knows. -/
def TypeDecl.Recognised (t : TypeDecl) : Prop := t.access.words.length = 1 ∧ '{' ∉ t.name

instance : DecidablePred TypeDecl.Recognised := fun _ => inferInstanceAs (Decidable (_ ∧ _))

def TypeDecl.owner (t : TypeDecl) (current : Text) : Text := if t.Recognised then t.name else current

/-- Each type with the name that its methods get. -/
def attributed : Text → List TypeDecl → List (Text × TypeDecl)
  | _, [] => []
  | current, t :: types => (t.owner current, t) :: attributed (t.owner current) types

namespace MethodDecl

def statementWords : List Text :=
  ["if".toList, "for".toList, "while".toList, "switch".toList, "catch".toList]

/-- The name as far back as there is no white space. -/
def heardName (m : MethodDecl) : Text :=
  if m.generics.length ≤ 1 then m.fullName else m.generics.getLastD [] ++ ['>']

/-- A declaration that is not taken for one: by its name, or for a comment in it. -/
def Missed (db : Unicode) (m : MethodDecl) : Prop :=
  m.generics = [] ∧ m.name ∈ statementWords ∨ ((rvaRe db).search (dropNewlines m.declaration)).isSome

instance (db : Unicode) : DecidablePred (Missed db) := fun _ => inferInstanceAs (Decidable (_ ∨ _))

def heard (db : Unicode) (owner space : Text) (m : MethodDecl) : Option Method :=
  if m.Missed db then none else some ⟨m.rva, qualified space owner m.heardName⟩

end MethodDecl

def heardMethods (db : Unicode) (types : List TypeDecl) : List Method :=
  (attributed "<unknown-type>".toList types).flatMap fun (owner, t) =>
    t.methods.filterMap (MethodDecl.heard db owner t.space)

/-- No method has two generic parameters. A method that is missed or goes to
another type is no loss, as one that is heard at its address goes to a type and
has a name that make up its own, and none is invented, as one is written at
its address under the name it goes by. -/
def Clear (db : Unicode) (types : List TypeDecl) : Prop :=
  ∀ place ∈ attributed "<unknown-type>".toList types, ∀ m ∈ place.2.methods, m.generics.length ≤ 1 ∧
    (place.1 ≠ place.2.name ∨ m.Missed db →
      (∃ other ∈ attributed "<unknown-type>".toList types, ∃ n ∈ other.2.methods,
        ¬n.Missed db ∧ n.rva = m.rva ∧
        qualified other.2.space other.1 n.fullName = qualified place.2.space place.2.name m.fullName) ∧
      (¬m.Missed db → ∃ t ∈ types, ∃ n ∈ t.methods, n.rva = m.rva ∧
        qualified t.space t.name n.fullName = qualified place.2.space place.1 m.fullName))

end Opg3d.Symbolize
