import WrenGlue.Cpp.DeclaredType

/-! The classes that headers declare for binding, with their methods and the arguments of those. -/

namespace WrenGlue.Header

open WrenGlue.Cpp (DeclaredType)

/-- Where the calls of a class get their receiver. -/
inductive ClassRole where
  /-- The receiver is an object of the class. -/
  | ordinary
  /-- Numbers are no objects: the receiver is the first declared argument, and calls are made on the
  one instance of the class. -/
  | number
  /-- There is no receiver to look at. -/
  | null
deriving DecidableEq, Repr, Inhabited

/-- The class with the methods of numbers. -/
def numberClass : String := "ObjNumClass"

/-- The class with the methods of `null`. -/
def nullClass : String := "ObjNull"

def ClassRole.ofName (name : String) : ClassRole :=
  if name = numberClass then .number else if name = nullClass then .null else .ordinary

/-- How Wren code calls a method. -/
inductive MethodKind where
  | plain
  /-- Called without parentheses. -/
  | getter
  /-- Takes any number of values after its arguments. -/
  | variadic
deriving DecidableEq, Repr, Inhabited

/-- The kind that stands between the parentheses of `WREN_METHOD()`. -/
def MethodKind.ofText? (text : String) : Option MethodKind :=
  if text = "" then some .plain
  else if text = "getter" then some .getter
  else if text = "variadic" then some .variadic
  else none

/-- The words around a method declaration that are no part of its type. -/
structure Qualifiers where
  isStatic : Bool := false
  isVirtual : Bool := false
  isConst : Bool := false
  isOverride : Bool := false
deriving DecidableEq, Repr, Inhabited

structure Argument where
  type : String
  name : String
  /-- The index in the declaration, from 0. -/
  position : Nat
  /-- The text of a label, if one was given. -/
  label : Option String := none
deriving DecidableEq, Repr, Inhabited

namespace Argument

/-- How run-time errors name the argument: by its label or else by its name. -/
def shownName (a : Argument) : String := a.label.getD a.name

def declaredType (a : Argument) : DeclaredType := .ofText a.type

/-- The parameter that carries the argument as the runtime passes it. -/
def rawName (a : Argument) : String := "arg" ++ toString a.position

/-- The variable that holds the argument in its declared type. -/
def typedName (a : Argument) : String := "typedArg" ++ toString a.position

end Argument

structure MethodDecl where
  name : String
  returnType : String
  kind : MethodKind := .plain
  qualifiers : Qualifiers := {}
  /-- The declared arguments, for a variadic method without the last one. -/
  args : List Argument := []
  line : Nat := 0
deriving DecidableEq, Repr, Inhabited

namespace MethodDecl

def isStatic (m : MethodDecl) : Bool := m.qualifiers.isStatic

def isVariadic (m : MethodDecl) : Bool := m.kind == .variadic

end MethodDecl

structure ClassDecl where
  name : String
  role : ClassRole := .ofName name
  methods : List MethodDecl := []
  line : Nat := 0
deriving DecidableEq, Repr, Inhabited

/-- The class with `m` as its last method. -/
def ClassDecl.add (c : ClassDecl) (m : MethodDecl) : ClassDecl :=
  { c with methods := c.methods ++ [m] }

end WrenGlue.Header
