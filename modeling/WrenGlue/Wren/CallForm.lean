import WrenGlue.Header.ClassDecl
import WrenGlue.Text.Lowercase
import WrenGlue.Wren.Operator

/-! Signatures: how a method is called from Wren code, with a placeholder for each argument. The
runtime finds a method by its signature. -/

namespace WrenGlue.Wren

open WrenGlue.Header (MethodKind)

/-- What the native name of an operator method begins with. -/
def operatorPrefix : String := "Operator"

/-- The native name of the method behind `object[…]`. -/
def subscriptGetName : String := "OperatorSubscript"

/-- The native name of the method behind `object[…] = value`. -/
def subscriptSetName : String := "OperatorSubscriptSet"

/-- The name under which Wren code calls the native method `native`. -/
def methodName (native : String) : String := String.ofList (Text.lowerFirst native.toList)

/-- One placeholder for each of `n` arguments. -/
def placeholders (n : Nat) : String := String.intercalate "," (List.replicate n "_")

/-- A signature without its placeholders. -/
inductive CallForm where
  | subscriptGet
  | subscriptSet
  | operator (op : Operator)
  | named (name : String)
deriving DecidableEq, Repr, Inhabited

namespace CallForm

/-- The form of the native method `native`, or the operator it names that does not exist. -/
def ofNative (native : String) : Except String CallForm :=
  if native = subscriptGetName then .ok .subscriptGet
  else if native = subscriptSetName then .ok .subscriptSet
  else match operatorPrefix.toList.isPrefixOf? native.toList with
    | some suffix =>
      match Operator.ofSuffix? (String.ofList suffix) with
      | some op => .ok (.operator op)
      | none => .error (String.ofList suffix)
    | none => .ok (.named (methodName native))

/-- A getter is its name alone, any other method takes its arguments in parentheses. -/
def call (name : String) (kind : MethodKind) (n : Nat) : String :=
  match kind with
  | .getter => name
  | .plain | .variadic => name ++ "(" ++ placeholders n ++ ")"

/-- The signature of a call with `n` arguments. The value that a subscript setter assigns is the
last of them. -/
def render (form : CallForm) (kind : MethodKind) (n : Nat) : String :=
  match form with
  | subscriptGet => "[" ++ placeholders n ++ "]"
  | subscriptSet => "[" ++ placeholders (n - 1) ++ "]=(_)"
  | operator op => call op.symbol kind n
  | named name => call name kind n

end CallForm

end WrenGlue.Wren
