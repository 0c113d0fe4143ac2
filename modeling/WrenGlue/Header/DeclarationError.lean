/-! What can be wrong with a line that declares a method. -/

namespace WrenGlue.Header

inductive LineFault where
  | unknownKind (kind : String)
  /-- An entry of the argument list is no type and name. -/
  | malformedArgument (entry : String)
  /-- A variadic method has no argument for its values. -/
  | missingVariadicTail
  /-- No class has begun yet. -/
  | methodOutsideClass
deriving DecidableEq, Repr, Inhabited

structure DeclarationError where
  /-- The number of the line, from 1. -/
  line : Nat
  /-- The line without comment and surrounding white space. -/
  fragment : String
  fault : LineFault
deriving DecidableEq, Repr, Inhabited

def LineFault.message : LineFault → String
  | unknownKind kind => "unknown method kind '" ++ kind ++ "'"
  | malformedArgument entry => "cannot split argument '" ++ entry ++ "' into type and name"
  | missingVariadicTail => "variadic method has no trailing values argument"
  | methodOutsideClass => "method declared outside of a bindable class"

def DeclarationError.message (e : DeclarationError) : String :=
  "line " ++ toString e.line ++ ": " ++ e.fault.message ++ " in '" ++ e.fragment ++ "'"

end WrenGlue.Header
