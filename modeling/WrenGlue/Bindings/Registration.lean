import WrenGlue.Cpp.Code
import WrenGlue.Cpp.Spelling

/-! Registration of functions under their signatures. Each class has a function that registers its
methods, on the class or on its metaclass. -/

namespace WrenGlue.Bindings

open WrenGlue.Cpp

structure Registration where
  signature : String
  /-- The function that is called. -/
  symbol : String
  /-- It belongs to the metaclass. -/
  isStatic : Bool := false
deriving DecidableEq, Repr, Inhabited

def Registration.text (r : Registration) : String :=
  "cls->AddFunction(" ++ quoted (escape r.signature) ++ ", (void *)" ++ r.symbol ++ ");"

/-- The maximal runs of neighbours of one level. -/
def levelRuns (rs : List Registration) : List (List Registration) :=
  rs.splitBy fun a b => a.isStatic == b.isStatic

/-- The condition for registering on the level of `r`. -/
def Registration.guard (r : Registration) : String :=
  if r.isStatic then "if (isMeta)" else "if (!isMeta)"

/-- The code of one run, without braces if it registers one function. -/
def runCode : List Registration → Code
  | [] => []
  | [r] => .line r.guard :: Code.indented [.line r.text]
  | r :: rest => Code.block r.guard (Code.ofLines ((r :: rest).map Registration.text))

/-- The name of the function that registers the methods of a class. -/
def registerName (className : String) : String := "register_" ++ className

def registerCode (className : String) (rs : List Registration) : Code :=
  Code.block ("static void " ++ registerName className ++ "(ObjClass *cls, bool isMeta)")
    ((levelRuns rs).flatMap runCode)

end WrenGlue.Bindings
