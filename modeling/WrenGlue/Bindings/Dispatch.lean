import WrenGlue.Cpp.Code
import WrenGlue.Cpp.Spelling
import WrenGlue.Member

/-! Calls of functions known by address alone. The number of arguments tells the type of the
function, and a function with captured variables takes a pointer to them in front of its
arguments. -/

namespace WrenGlue.Bindings

open WrenGlue.Cpp

def dispatchName (arity : Nat) : String := "functionDispatch" ++ toString arity

/-- The parameters of the function that calls a function of `arity` arguments. -/
def dispatchParams (arity : Nat) : List String :=
  ["void *func", "void *upvalues"] ++ (numbered "arg" arity).map ("Value " ++ ·)

/-- The function that calls a function of `arity` arguments. -/
def dispatchCode (arity : Nat) : Code :=
  let names := numbered "arg" arity
  let types := List.replicate arity "Value"
  Code.block
    ("static Value " ++ dispatchName arity ++ "(" ++ commaList (dispatchParams arity) ++ ")")
    (Code.block "if (upvalues)"
        [.line ("typedef Value (*WithUpvalues)(" ++ commaList ("void *" :: types) ++ ");"),
          .line ("return ((WithUpvalues)func)(" ++ commaList ("upvalues" :: names) ++ ");")]
      ++ [.line ("typedef Value (*Plain)(" ++ commaList types ++ ");"),
        .line ("return ((Plain)func)(" ++ commaList names ++ ");")])

/-- What `FunctionDispatch` passes on for `arity` arguments. -/
def dispatchArgs (arity : Nat) : List String :=
  ["func", "upvalues"] ++ (List.range arity).map fun i => "args[" ++ toString i ++ "]"

/-- The case of `FunctionDispatch` for `arity` arguments. -/
def dispatchCase (arity : Nat) : Code :=
  .line ("case " ++ toString arity ++ ":")
    :: Code.indented
      [.line ("return " ++ dispatchName arity ++ "(" ++ commaList (dispatchArgs arity) ++ ");")]

/-- The function `FunctionDispatch`, which chooses by the number of arguments and aborts on more
than `maxDispatchArity`. -/
def dispatchEntry : Code :=
  Code.block
    "Value FunctionDispatch(void *func, void *upvalues, const std::initializer_list<Value> &values)"
    ([.line "const Value *args = values.begin();", .line "switch (values.size()) \x7b"]
      ++ (List.range (maxDispatchArity + 1)).flatMap dispatchCase
      ++ .line "default:"
      :: Code.indented
        [.line ("fprintf(stderr, \"Cannot dispatch a function with %d arguments, at most "
            ++ toString maxDispatchArity ++ " are supported\\n\", (int)values.size());"),
          .line "abort();"]
      ++ [.line "\x7d"])

def functionDispatch : Code :=
  (List.range (maxDispatchArity + 1)).flatMap (fun arity => dispatchCode arity ++ Code.blank)
    ++ dispatchEntry

end WrenGlue.Bindings
