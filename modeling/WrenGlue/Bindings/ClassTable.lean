import WrenGlue.BindError
import WrenGlue.Bindings.Registration

/-! The classes and trampolines bound so far. No two classes may share a name and no two methods a
trampoline. The classes in the table are those that `ObjClass::Bind` knows. -/

namespace WrenGlue.Bindings

open WrenGlue.Cpp

structure ClassTable where
  classes : List String := []
  symbols : List String := []
deriving DecidableEq, Repr, Inhabited

namespace ClassTable

def addClass (t : ClassTable) (name : String) : Except BindError ClassTable :=
  if name ∈ t.classes then .error (.duplicateClass name)
  else .ok { t with classes := t.classes ++ [name] }

/-- Adds the trampoline `symbol` of the method `method`. -/
def addSymbol (t : ClassTable) (className method symbol : String) :
    Except BindError ClassTable :=
  if symbol ∈ t.symbols then .error (.method className method (.duplicateSymbol symbol))
  else .ok { t with symbols := symbol :: t.symbols }

def size (t : ClassTable) : Nat := t.classes.length

def isEmpty (t : ClassTable) : Bool := t.classes.isEmpty

end ClassTable

/-- The branch of `ObjClass::Bind` for one class. -/
def bindBranch (className : String) : Code :=
  Code.block ("if (type == " ++ quoted className ++ ")")
    [.line (registerName className ++ "(cls, isMeta);"), .line "return;"]

/-- The function `ObjClass::Bind`, which registers the methods of a class given its name. It aborts
on a name that is none of `classes`. -/
def bindCode (classes : List String) : Code :=
  Code.block "void ObjClass::Bind(ObjClass *cls, const std::string &type, bool isMeta)"
    (classes.flatMap bindBranch
      ++ [.line "fprintf(stderr, \"Unknown bindings class '%s'\\n\", type.c_str());",
        .line "abort();"])

end WrenGlue.Bindings
