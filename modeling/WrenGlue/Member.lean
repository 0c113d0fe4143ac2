import WrenGlue.BindError
import WrenGlue.Wren.CallForm

/-! Methods seen with the class they belong to, and what follows from both: how many arguments Wren
code passes, under which signature, and what the generated functions are called. -/

namespace WrenGlue

open WrenGlue.Header (Argument ClassDecl MethodDecl)
open WrenGlue.Wren (CallForm)

/-- The most arguments that the runtime passes to a function it knows by address only. -/
def maxDispatchArity : Nat := 16

structure Member where
  owner : ClassDecl
  method : MethodDecl
deriving DecidableEq, Repr

/-- The methods of a class. -/
def Header.ClassDecl.members (c : ClassDecl) : List Member := c.methods.map fun m => ⟨c, m⟩

namespace Member

def fail (m : Member) (fault : MethodFault) : Except BindError α :=
  .error (.method m.owner.name m.method.name fault)

/-- The first declared argument is the receiver. -/
def foldsReceiver (m : Member) : Bool := m.owner.role == .number && !m.method.isStatic

/-- The receiver comes in a parameter of its own. -/
def takesReceiver (m : Member) : Bool := m.owner.role == .ordinary && !m.method.isStatic

/-- The number of arguments that Wren code passes, those of a variadic tail aside. -/
def arity (m : Member) : Except BindError Nat :=
  if m.foldsReceiver then
    match m.method.args.length with
    | 0 => m.fail .arityUnderflow
    | n + 1 => .ok n
  else .ok m.method.args.length

/-- The number of an argument in run-time errors: from 1, and 0 for a receiver among the declared
arguments. -/
def errorIndex (m : Member) (a : Argument) : Nat :=
  if m.foldsReceiver then a.position else a.position + 1

def callForm (m : Member) : Except BindError CallForm :=
  match CallForm.ofNative m.method.name with
  | .ok form => .ok form
  | .error suffix => m.fail (.unknownOperator suffix)

/-- The form and arity of a call. A subscript setter has at least the assigned value. -/
def callShape (m : Member) : Except BindError (CallForm × Nat) := do
  let form ← m.callForm
  let arity ← m.arity
  if form = .subscriptSet ∧ arity = 0 then
    m.fail .subscriptSetterArity
  else
    return (form, arity)

/-- The signature of a call with `extra` values behind the arguments. -/
def signatureWith (m : Member) (extra : Nat) : Except BindError String := do
  let (form, arity) ← m.callShape
  return form.render m.method.kind (arity + extra)

/-- The signature of a call with the arguments alone. -/
def signature (m : Member) : Except BindError String := m.signatureWith 0

/-- The signatures of the calls with 0 to `maxDispatchArity` values behind the arguments. -/
def variadicSignatures (m : Member) : Except BindError (List String) := do
  let (form, arity) ← m.callShape
  return (List.range (maxDispatchArity + 1)).map fun extra =>
    form.render m.method.kind (arity + extra)

/-- The signature as run-time errors show it. -/
def shownSignature (m : Member) : Except BindError String := do
  return m.owner.name ++ "." ++ (← m.signature)

/-- The name of the trampoline. -/
def symbol (m : Member) : Except BindError String := do
  return "binding_" ++ m.owner.name ++ "_" ++ m.method.name ++ "_" ++ toString (← m.arity)

/-- The name of the function that takes `count` values and passes them to the variadic trampoline
`symbol`. -/
def forwarderName (symbol : String) (count : Nat) : String := symbol ++ "_va" ++ toString count

def forwarderSymbol (m : Member) (count : Nat) : Except BindError String := do
  return forwarderName (← m.symbol) count

end Member

end WrenGlue
