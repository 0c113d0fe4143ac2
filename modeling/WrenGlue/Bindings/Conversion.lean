import WrenGlue.Cpp.Spelling
import WrenGlue.Member

/-! Conversions between the values of the runtime and those of native code. -/

namespace WrenGlue.Bindings

open WrenGlue.Cpp
open WrenGlue.Header (Argument)

/-- How a value of the runtime is made one of a declared type. -/
inductive Check where
  /-- It is taken as it is. -/
  | none
  | object (className : String)
  | string
  | double
  | int
deriving DecidableEq, Repr, Inhabited

/-- There is a check for each type of an argument and for no other. -/
def Check.ofType? : DeclaredType → Option Check
  | .value => some .none
  | .int => some .int
  | .double => some .double
  | .string => some .string
  | .object name => some (.object name)
  | .void | .bool | .unsupported _ => Option.none

theorem Check.ofType?_isSome (type : DeclaredType) :
    (Check.ofType? type).isSome = type.isArgument := by cases type <;> rfl

/-- The conversion of one argument. -/
structure Unboxing where
  type : DeclaredType
  check : Check
  /-- The variable for the converted value. -/
  target : String
  /-- The parameter with the value as it was passed. -/
  source : String
  /-- What a run-time error says of the method and of the argument. -/
  signature : String
  label : String
  index : Nat
deriving DecidableEq, Repr

namespace Unboxing

/-- What every check but none is given. -/
def details (u : Unboxing) : List String :=
  [quoted u.signature, quoted (escape u.label), toString u.index, u.source]

def expression (u : Unboxing) : String :=
  match u.check with
  | .none => u.source
  | .object name => "checkArg<" ++ name ++ ">(" ++ commaList (u.details ++ ["false"]) ++ ")"
  | .string => "checkString(" ++ commaList u.details ++ ")"
  | .double => "checkDouble(" ++ commaList u.details ++ ")"
  | .int => "checkInt(" ++ commaList u.details ++ ")"

def text (u : Unboxing) : String := u.type.declare u.target ++ " = " ++ u.expression ++ ";"

end Unboxing

/-- What is returned to the runtime for the result `ret` of a native call. -/
inductive BoxRule where
  | itself
  | newString
  | boolObject
  | number
  /-- The object, and `null` for a null pointer. -/
  | nullable
deriving DecidableEq, Repr, Inhabited

def BoxRule.expression : BoxRule → String
  | itself => "ret"
  | newString => "encode_object(ObjString::New(ret))"
  | boolObject => "encode_object(ObjBool::Get(ret))"
  | number => "encode_number(ret)"
  | nullable => "ret ? encode_object(ret) : NULL_VAL"

/-- How the outcome of a native call goes back to the runtime. -/
inductive Boxing where
  /-- The call has no result, and `null` is returned. -/
  | discard
  | boxed (type : DeclaredType) (rule : BoxRule)
deriving DecidableEq, Repr, Inhabited

namespace Boxing

def ofType? (type : DeclaredType) : Option Boxing :=
  match type with
  | .void => some .discard
  | .value => some (.boxed type .itself)
  | .string => some (.boxed type .newString)
  | .bool => some (.boxed type .boolObject)
  | .int | .double => some (.boxed type .number)
  | .object _ => some (.boxed type .nullable)
  | .unsupported _ => none

theorem ofType?_isSome (type : DeclaredType) : (ofType? type).isSome = type.isReturn := by
  cases type <;> rfl

/-- The statements around the native call `call`. -/
def lines (b : Boxing) (call : String) : List String :=
  match b with
  | discard => [call ++ ";", "return NULL_VAL;"]
  | boxed type rule =>
    [type.declare "ret" ++ " = " ++ call ++ ";", "return " ++ rule.expression ++ ";"]

end Boxing

end WrenGlue.Bindings

namespace WrenGlue.Member

open WrenGlue.Bindings
open WrenGlue.Cpp (DeclaredType)
open WrenGlue.Header (Argument)

/-- The conversion of the argument `a`, where run-time errors show the method as `signature`. -/
def unboxing (m : Member) (signature : String) (a : Argument) : Except BindError Unboxing :=
  match Check.ofType? a.declaredType with
  | some check => .ok {
      type := a.declaredType
      check
      target := a.typedName
      source := a.rawName
      signature
      label := a.shownName
      index := m.errorIndex a }
  | none => m.fail (.unknownArgumentType (a.position + 1) a.shownName a.type)

def boxing (m : Member) : Except BindError Boxing :=
  match Boxing.ofType? (DeclaredType.ofText m.method.returnType) with
  | some boxing => .ok boxing
  | none => m.fail (.unknownReturnType m.method.returnType)

end WrenGlue.Member
