import WrenGlue.Bindings.BindingFile
import WrenGlue.Header.ClassStream
import WrenGlue.Host.Basic

/-! From headers to the generated file. -/

namespace WrenGlue

open WrenGlue.Bindings (Options BindingFile)
open WrenGlue.Header (ClassDecl DeclarationError readClasses)

structure Source where
  path : String
  text : String
deriving DecidableEq, Repr, Inhabited

/-- Why no bindings were generated. -/
inductive GenerateError where
  | file (path : String) (cause : FileError)
  | declaration (path : String) (cause : DeclarationError)
  /-- The sources at `first` and `second` declare one class. -/
  | duplicateClass (className first second : String)
  | binding (cause : BindError)
deriving DecidableEq, Repr, Inhabited

namespace GenerateError

/-- The message of the error behind this one, if it is an error of its own. -/
def inner? : GenerateError → Option String
  | file _ cause => some cause.message
  | declaration _ cause => some cause.message
  | duplicateClass .. | binding _ => none

def message : GenerateError → String
  | file path cause => path ++ ": " ++ cause.message
  | declaration path cause => path ++ ": " ++ cause.message
  | duplicateClass name first second =>
    "class '" ++ name ++ "' is declared in both " ++ first ++ " and " ++ second
  | binding cause => cause.message

end GenerateError

/-- A class and the path of the source that declares it. -/
abbrev Declared := ClassDecl × String

/-- The path of the source that declares the class `name`. -/
def declaredIn? (seen : List Declared) (name : String) : Option String :=
  (seen.find? (·.1.name == name)).map (·.2)

/-- Adds the classes of the source at `path` to those seen before. -/
def addDeclared (path : String) (seen : List Declared) :
    List ClassDecl → Except GenerateError (List Declared)
  | [] => .ok seen
  | c :: rest =>
    match declaredIn? seen c.name with
    | some first => .error (.duplicateClass c.name first path)
    | none => addDeclared path (seen ++ [(c, path)]) rest

/-- Adds the classes of sources to those seen before. -/
def addSources (seen : List Declared) : List Source → Except GenerateError (List Declared)
  | [] => .ok seen
  | source :: rest =>
    match readClasses source.text with
    | .error cause => .error (.declaration source.path cause)
    | .ok classes => do addSources (← addDeclared source.path seen classes) rest

/-- The classes that sources declare, each name once. -/
def collectClasses (sources : List Source) : Except GenerateError (List ClassDecl) := do
  return (← addSources [] sources).map (·.1)

/-- What a run read and wrote. -/
structure Summary where
  files : Nat
  classes : Nat
  methods : Nat
  bytes : Nat
deriving DecidableEq, Repr, Inhabited

/-- The generated file for sources, and what went into it. -/
def generateWithSummary (options : Options) (sources : List Source) :
    Except GenerateError (String × Summary) := do
  let classes ← collectClasses sources
  let file ← (BindingFile.ofClasses options (sources.map (·.path)) classes).mapError .binding
  let text := file.text
  return (text, {
    files := sources.length
    classes := classes.length
    methods := (classes.flatMap (·.methods)).length
    bytes := text.utf8ByteSize })

/-- The generated file for sources. -/
def generate (options : Options) (sources : List Source) : Except GenerateError String := do
  return (← generateWithSummary options sources).1

end WrenGlue
