import WrenGlue.Text.White

/-! Types as declarations spell them. A spelling is first normalized, then sorted into the types
that can cross between the runtime and native code and the rest. -/

namespace WrenGlue.Cpp

/-- What the name of every class with bindings begins with. -/
def bindablePrefix : String := "Obj"

/-- A name that generated code may use as a class: `Obj` and then letters, digits and underscores
of ASCII. -/
def isBindableName (name : String) : Bool :=
  match bindablePrefix.toList.isPrefixOf? name.toList with
  | some rest => rest.all fun c => c.isAlphanum || c == '_'
  | none => false

inductive DeclaredType where
  | void
  | value
  | bool
  | int
  | double
  | string
  /-- A pointer to a class with bindings. -/
  | object (className : String)
  /-- Any other spelling. -/
  | unsupported (text : String)
deriving DecidableEq, Repr, Inhabited

namespace DeclaredType

/-- A word that begins with a sigil is written right behind the word before it. -/
def attaches : List Char → Bool
  | '*' :: _ | '&' :: _ => true
  | _ => false

/-- The words of a spelling, with one space in front of each word but the first and those that
attach. -/
def joinWords : List (List Char) → List Char
  | [] => []
  | word :: rest => word ++ rest.flatMap fun w => if attaches w then w else ' ' :: w

def normalizeChars (text : List Char) : List Char := joinWords (Text.words text)

/-- The canonical spelling of a type: the same words, with white space where two of them would
run together and nowhere else. -/
def normalize (text : String) : String := String.ofList (normalizeChars text.toList)

/-- The class of a normalized spelling that is a bindable name and a star. -/
def pointee? (text : String) : Option String :=
  match ['*'].isSuffixOf? text.toList with
  | some name =>
    if isBindableName (String.ofList name) then some (String.ofList name) else none
  | none => none

/-- The type with the normalized spelling `text`. -/
def ofText (text : String) : DeclaredType :=
  if text = "void" then .void
  else if text = "Value" then .value
  else if text = "bool" then .bool
  else if text = "int" then .int
  else if text = "double" then .double
  else if text = "std::string" ∨ text = "const std::string&" then .string
  else match pointee? text with
    | some name => .object name
    | none => .unsupported text

def text : DeclaredType → String
  | void => "void"
  | value => "Value"
  | bool => "bool"
  | int => "int"
  | double => "double"
  | string => "std::string"
  | object name => name ++ " *"
  | unsupported text => text

/-- The runtime can pass a value of this type. -/
def isArgument : DeclaredType → Bool
  | value | int | double | string | object _ => true
  | void | bool | unsupported _ => false

/-- The runtime can take a value of this type back, or needs none. -/
def isReturn : DeclaredType → Bool
  | unsupported _ => false
  | _ => true

/-- The declaration of a variable of this type, without a value. -/
def declare (type : DeclaredType) (name : String) : String :=
  match type with
  | object _ => type.text ++ name
  | _ => type.text ++ " " ++ name

end DeclaredType

end WrenGlue.Cpp
