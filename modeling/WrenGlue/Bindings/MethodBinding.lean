import WrenGlue.Bindings.Function
import WrenGlue.Bindings.Options
import WrenGlue.Bindings.Registration

/-! All that is generated for one method: its trampoline, the forwarders of a variadic method, and
what is registered. -/

namespace WrenGlue

open WrenGlue.Bindings

namespace Bindings

open WrenGlue.Cpp

structure MethodBinding where
  trampoline : Function
  /-- For a variadic method, one for each number of values that the runtime can pass. -/
  forwarders : List Function := []
  registrations : List Registration
deriving DecidableEq, Repr

namespace MethodBinding

def functions (b : MethodBinding) : List Function := b.trampoline :: b.forwarders

def code (b : MethodBinding) : Code := b.functions.flatMap Function.code

end MethodBinding

/-- The parameter for the values behind the arguments. -/
def valuesParam : String := "varargs"

/-- The garbage collection at the start of a function, if wanted. -/
def collectFirst (options : Options) (roots : List String) : List Statement :=
  if options.debugGc then [.collect roots] else []

/-- The function that takes `fixed` and `count` more values and calls the variadic trampoline
`target`. -/
def forwarder (options : Options) (target : String) (fixed : List String) (count : Nat) :
    Function :=
  let trailing := numbered "va" count
  { name := Member.forwarderName target count
    params := (fixed ++ trailing).map .value
    body := collectFirst options (fixed ++ trailing) ++ [.forward target fixed trailing] }

end Bindings

namespace Member

/-- The names of the receiver and arguments as the runtime passes them. -/
def fixedParams (m : Member) : List String :=
  (if m.takesReceiver then ["receiver"] else []) ++ m.method.args.map (·.rawName)

def params (m : Member) : List Param :=
  m.fixedParams.map .value ++ if m.method.isVariadic then [.list valuesParam] else []

def callee (m : Member) : Callee :=
  if m.method.isStatic then .static m.owner.name
  else match m.owner.role with
    | .ordinary => .receiver
    | .number => .singleton m.owner.name
    | .null => .nullPointer m.owner.name

def nativeCall (m : Member) : NativeCall where
  callee := m.callee
  method := m.method.name
  args := m.method.args.map (·.typedName) ++ if m.method.isVariadic then [valuesParam] else []

/-- The trampoline `symbol` with the converted parts. -/
def trampoline (m : Member) (options : Options) (symbol shown : String)
    (unboxings : List Unboxing) (boxing : Boxing) : Function where
  name := symbol
  params := m.params
  body := collectFirst options m.fixedParams
    ++ (if m.takesReceiver then [.receive m.owner.name shown] else [])
    ++ unboxings.map .unbox
    ++ boxing.statements m.nativeCall

/-- What the method needs in generated code, or why it cannot be bound. -/
def binding (m : Member) (options : Options) : Except BindError MethodBinding := do
  let symbol ← m.symbol
  let shown ← m.shownSignature
  let unboxings ← m.method.args.mapM (m.unboxing shown)
  let boxing ← m.boxing
  let trampoline := m.trampoline options symbol shown unboxings boxing
  if m.method.isVariadic then
    let forwarders :=
      (List.range (maxDispatchArity + 1)).map (forwarder options symbol m.fixedParams)
    let registrations := (← m.variadicSignatures).zipWith
      (fun signature (f : Function) => ⟨signature, f.name, m.method.isStatic⟩) forwarders
    return { trampoline, forwarders, registrations }
  else
    return { trampoline, registrations := [⟨← m.signature, symbol, m.method.isStatic⟩] }

end Member

end WrenGlue
