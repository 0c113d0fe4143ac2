import WrenGlue.Bindings.Conversion
import WrenGlue.Cpp.Code

/-! The functions that the runtime calls for native methods. A trampoline converts its receiver and
arguments, calls the native method and converts the result. A forwarder packs the values behind the
arguments into a list and calls the trampoline of a variadic method. -/

namespace WrenGlue.Bindings

open WrenGlue.Cpp

inductive Param where
  | value (name : String)
  /-- The values behind the arguments of a variadic method. -/
  | list (name : String)
deriving DecidableEq, Repr

namespace Param

def name : Param → String
  | value name | list name => name

def text : Param → String
  | value name => "Value " ++ name
  | list name => "const std::initializer_list<Value> &" ++ name

end Param

/-- What a native method is called on. -/
inductive Callee where
  | static (className : String)
  /-- The one instance of the class. -/
  | singleton (className : String)
  /-- A null pointer to the class. -/
  | nullPointer (className : String)
  /-- The checked receiver. -/
  | receiver
deriving DecidableEq, Repr

def Callee.text : Callee → String
  | static name => name ++ "::"
  | singleton name => name ++ "::Instance()->"
  | nullPointer name => "static_cast<" ++ name ++ " *>(nullptr)->"
  | receiver => "obj->"

structure NativeCall where
  callee : Callee
  method : String
  args : List String
deriving DecidableEq, Repr

def NativeCall.text (c : NativeCall) : String :=
  c.callee.text ++ c.method ++ "(" ++ commaList c.args ++ ")"

inductive Statement where
  /-- Runs a garbage collection that spares the values in `roots`. -/
  | collect (roots : List String)
  /-- Checks that `receiver` is an object of the class and keeps it in `obj`. -/
  | receive (className signature : String)
  | unbox (u : Unboxing)
  /-- Makes the native call and drops its result. -/
  | perform (call : NativeCall)
  /-- Makes the native call and keeps its result in `ret`. -/
  | store (type : DeclaredType) (call : NativeCall)
  | returnNull
  | returnBoxed (rule : BoxRule)
  /-- Calls the trampoline `target` with `args` and the list of `packed`. -/
  | forward (target : String) (args packed : List String)
deriving DecidableEq, Repr

def Statement.text : Statement → String
  | collect roots => "WrenRuntime::Instance().RunGC(" ++ braced roots ++ ");"
  | receive name signature =>
    name ++ " *obj = checkReceiver<" ++ name ++ ">(" ++ quoted signature ++ ", receiver);"
  | unbox u => u.text
  | perform call => call.text ++ ";"
  | store type call => type.declare "ret" ++ " = " ++ call.text ++ ";"
  | returnNull => "return NULL_VAL;"
  | returnBoxed rule => "return " ++ rule.expression ++ ";"
  | forward target args packed =>
    "return " ++ target ++ "(" ++ commaList (args ++ [braced packed]) ++ ");"

def Boxing.statements (b : Boxing) (call : NativeCall) : List Statement :=
  match b with
  | discard => [.perform call, .returnNull]
  | boxed type rule => [.store type call, .returnBoxed rule]

theorem Boxing.map_text_statements (b : Boxing) (call : NativeCall) :
    (b.statements call).map Statement.text = b.lines call.text := by cases b <;> rfl

/-- A function from values to a value. -/
structure Function where
  name : String
  params : List Param
  body : List Statement
deriving DecidableEq, Repr

namespace Function

def header (f : Function) : String :=
  "static Value " ++ f.name ++ "(" ++ commaList (f.params.map Param.text) ++ ")"

def code (f : Function) : Code := Code.block f.header (Code.ofLines (f.body.map Statement.text))

end Function

end WrenGlue.Bindings
