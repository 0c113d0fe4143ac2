import WrenGlue.Header.Arguments
import WrenGlue.Header.DeclarationError

/-! The lines of a header, each read on its own. A line begins a class, declares a method, or is C++
that no binding needs. -/

namespace WrenGlue.Header

open WrenGlue.Text
open WrenGlue.Cpp (DeclaredType bindablePrefix)

/-- The name of the class that a line begins: `class ObjList :` or `class ObjList {`. -/
def headingName? (text : List Char) : Option (List Char) := do
  let rest ← ("class".toList).isPrefixOf? text
  guard (rest.head?.any isWhite)
  let rest ← bindablePrefix.toList.isPrefixOf? (trimStart rest)
  let name := rest.takeWhile isWord
  let next ← (trimStart (rest.dropWhile isWord)).head?
  guard (next = ':' ∨ next = '\x7b')
  return bindablePrefix.toList ++ name

/-- A character of the name of a type. -/
def isTypeChar (c : Char) : Bool := isWord c || c == ':' || c == '<' || c == '>'

/-- The words of a return type, sigil aside: a name, perhaps behind `const`. -/
def returnWords? : List (List Char) → Option (List Char)
  | [name] => if name.all isTypeChar then some name else none
  | [modifier, name] =>
    if modifier = "const".toList ∧ name.all isTypeChar then some (modifier ++ ' ' :: name) else none
  | _ => none

/-- The words in front of a method name: `static` or `virtual`, where a type follows, and the
type. -/
def specifiers? : List (List Char) → Option (Qualifiers × List Char)
  | [] => none
  | [name] => (returnWords? [name]).map fun type => ({}, type)
  | word :: rest =>
    if word = "static".toList then
      (returnWords? rest).map fun type => ({ isStatic := true }, type)
    else if word = "virtual".toList then
      (returnWords? rest).map fun type => ({ isVirtual := true }, type)
    else (returnWords? (word :: rest)).map fun type => ({}, type)

/-- Takes the sigil off the end of a return type. Without a sigil, white space has to separate the
type from the name behind it. -/
def splitSigil? (text : List Char) : Option (List Char × List Char) :=
  match (trimEnd text).getLast? with
  | none => none
  | some c =>
    if c = '*' ∨ c = '&' then some ((trimEnd text).dropLast, [c])
    else if text.getLast?.any isWhite then some (text, [])
    else none

/-- What stands in front of an argument list: specifiers, return type and method name. -/
def methodHead? (text : List Char) : Option (Qualifiers × List Char × List Char) := do
  let (before, name) := splitTail isWord (trimEnd text)
  guard (name ≠ [])
  let (spelling, sigil) ← splitSigil? before
  let (qualifiers, type) ← specifiers? (words spelling)
  return (qualifiers, type ++ sigil, name)

/-- The number of characters that a label at the front of `text` takes. -/
def labelLength (text : List Char) : Nat :=
  match label? text with
  | some (_, rest) => text.length - rest.length
  | none => 0

/-- An argument list up to the parenthesis that closes it, and what follows that. Other parentheses,
and quotes, stand only in labels; the first `inside` characters belong to one. -/
def argumentText? : (inside : Nat) → List Char → Option (List Char × List Char)
  | _, [] => none
  | inside + 1, c :: rest => (argumentText? inside rest).map fun (args, rest) => (c :: args, rest)
  | 0, c :: rest =>
    match labelLength (c :: rest) with
    | inside + 1 => (argumentText? inside rest).map fun (args, rest) => (c :: args, rest)
    | 0 =>
      if c = ')' then some ([], rest)
      else if c = '(' ∨ c = '"' then none
      else (argumentText? 0 rest).map fun (args, rest) => (c :: args, rest)

/-- Takes `word` off the front of a text, if it stands there, with the white space around it. -/
def skipWord (word : String) (text : List Char) : Bool × List Char :=
  match word.toList.isPrefixOf? (trimStart text) with
  | some rest => (true, trimStart rest)
  | none => (false, trimStart text)

/-- The parts of a method declaration, as the line gives them. -/
structure MethodText where
  kind : List Char
  qualifiers : Qualifiers
  returnType : List Char
  name : List Char
  args : List Char
deriving DecidableEq, Repr

/-- Cuts a line `WREN_METHOD(kind) specifiers type name(arguments) const override;` into its
parts. -/
def MethodText.ofLine? (text : List Char) : Option MethodText := do
  let rest ← ("WREN_METHOD(".toList).isPrefixOf? text
  let (kind, rest) ← cut? ')' rest
  let (head, rest) ← cut? '(' rest
  let (qualifiers, returnType, name) ← methodHead? head
  let (args, rest) ← argumentText? 0 rest
  let (isConst, rest) := skipWord "const" rest
  let (isOverride, rest) := skipWord "override" rest
  guard (rest = [';'])
  return {
    kind := trim kind
    qualifiers := { qualifiers with isConst, isOverride }
    returnType, name, args }

/-- The method with the parts `parts`, declared on line `line`. The last argument of a variadic
method stands for its values and is no argument of its own. -/
def MethodText.method (parts : MethodText) (line : Nat) : Except LineFault MethodDecl := do
  let kind ← match MethodKind.ofText? (String.ofList parts.kind) with
    | some kind => .ok kind
    | none => .error (.unknownKind (String.ofList parts.kind))
  let declared ← (Argument.readList parts.args).mapError fun entry =>
    .malformedArgument (String.ofList entry)
  if kind = .variadic ∧ declared = [] then
    throw .missingVariadicTail
  return {
    name := String.ofList parts.name
    returnType := String.ofList parts.returnType
    kind
    qualifiers := parts.qualifiers
    args := if kind = .variadic then declared.dropLast else declared
    line }

/-- A line of a header, numbered from 1. -/
structure Line where
  number : Nat
  text : List Char
deriving DecidableEq, Repr

/-- What a line says, whatever stands before it. -/
inductive LineReading where
  /-- Nothing about bindings. -/
  | other
  /-- A class begins. -/
  | heading (name : String)
  | method (m : MethodDecl)
  | fault (what : LineFault)
deriving DecidableEq, Repr

namespace Line

/-- The line without comment and surrounding white space. -/
def content (l : Line) : List Char := trim (beforeComment l.text)

def read (l : Line) : LineReading :=
  match headingName? l.content with
  | some name => .heading (String.ofList name)
  | none =>
    match MethodText.ofLine? l.content with
    | none => .other
    | some parts =>
      match parts.method l.number with
      | .ok m => .method m
      | .error what => .fault what

/-- The error that the line has the fault `what`. -/
def error (l : Line) (what : LineFault) : DeclarationError :=
  ⟨l.number, String.ofList l.content, what⟩

/-- The numbered lines of a text. -/
def ofText (text : String) : List Line :=
  (lines text.toList).zipIdx 1 |>.map fun (text, number) => ⟨number, text⟩

end Line

end WrenGlue.Header
