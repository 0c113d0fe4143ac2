/-! Why a set of classes cannot be bound. -/

namespace WrenGlue

/-- Why a method cannot be bound. -/
inductive MethodFault where
  /-- A method of numbers has no argument for its receiver. -/
  | arityUnderflow
  | unknownOperator (suffix : String)
  /-- A subscript setter has no argument for the assigned value. -/
  | subscriptSetterArity
  /-- No value of the type of argument `index`, counted from 1, can be passed. -/
  | unknownArgumentType (index : Nat) (label type : String)
  | unknownReturnType (type : String)
  /-- An earlier method has the same trampoline. -/
  | duplicateSymbol (symbol : String)
deriving DecidableEq, Repr, Inhabited

inductive BindError where
  | method (className name : String) (fault : MethodFault)
  | duplicateClass (className : String)
deriving DecidableEq, Repr, Inhabited

def MethodFault.message : MethodFault → String
  | arityUnderflow => "number methods must declare the receiver as their first argument"
  | unknownOperator suffix => "unknown operator '" ++ suffix ++ "'"
  | subscriptSetterArity => "subscript setters must take the assigned value as their last argument"
  | unknownArgumentType index label type =>
    "argument " ++ toString index ++ " ('" ++ label ++ "') has unsupported type '" ++ type ++ "'"
  | unknownReturnType type => "unsupported return type '" ++ type ++ "'"
  | duplicateSymbol symbol => "generated symbol '" ++ symbol ++ "' is already defined"

def BindError.message : BindError → String
  | method className name fault => className ++ "::" ++ name ++ ": " ++ fault.message
  | duplicateClass className => "class '" ++ className ++ "' is declared more than once"

end WrenGlue
