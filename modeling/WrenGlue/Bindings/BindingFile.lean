import WrenGlue.Bindings.ClassTable
import WrenGlue.Bindings.Dispatch
import WrenGlue.Bindings.MethodBinding

/-! The generated file: a prelude, the bindings of each class, `ObjClass::Bind` and
`FunctionDispatch`. -/

namespace WrenGlue.Bindings

open WrenGlue.Cpp
open WrenGlue.Header (ClassDecl)

structure ClassBinding where
  name : String
  methods : List MethodBinding
deriving DecidableEq, Repr

namespace ClassBinding

def registrations (b : ClassBinding) : List Registration := b.methods.flatMap (·.registrations)

def code (b : ClassBinding) : Code :=
  .line ("// Methods of " ++ b.name)
    :: b.methods.flatMap MethodBinding.code
    ++ registerCode b.name b.registrations
    ++ Code.blank

end ClassBinding

namespace ClassTable

/-- Binds methods in order, each with a trampoline that is new to the table. -/
def bindMembers (options : Options) (t : ClassTable) :
    List Member → Except BindError (List MethodBinding × ClassTable)
  | [] => .ok ([], t)
  | m :: rest => do
    let symbol ← m.symbol
    let t ← t.addSymbol m.owner.name m.method.name symbol
    let binding ← m.binding options
    let (bindings, t) ← t.bindMembers options rest
    return (binding :: bindings, t)

/-- Binds classes in order, each with a name that is new to the table. -/
def bindClasses (options : Options) (t : ClassTable) :
    List ClassDecl → Except BindError (List ClassBinding × ClassTable)
  | [] => .ok ([], t)
  | c :: rest => do
    let t ← t.addClass c.name
    let (methods, t) ← t.bindMembers options c.members
    let (bindings, t) ← t.bindClasses options rest
    return (⟨c.name, methods⟩ :: bindings, t)

end ClassTable

/-- The first line of every generated file. -/
def banner : String := "// Auto-generated file (from wrenbind), DO NOT EDIT MANUALLY"

/-- The header to include for a source: the one beside a `.cpp` file, any other file itself. -/
def includePath (source : String) : String :=
  match (".cpp".toList).isSuffixOf? source.toList with
  | some stem => String.ofList stem ++ ".h"
  | none => source

def includeLine (path : String) : String := "#include " ++ quoted path

/-- The includes of the sources. -/
def sourceIncludes (options : Options) (sources : List String) : Code :=
  if options.includeSources ∧ sources ≠ [] then
    .line "// Includes for the declaration sources"
      :: Code.ofLines (sources.map fun source => includeLine (includePath source))
      ++ Code.blank
  else []

/-- What stands in front of the bindings. -/
def preludeCode (options : Options) (sources : List String) : Code :=
  [.line banner, .line "", .line "#define BINDINGS_GEN", .line (includeLine "binding_utils.h")]
    ++ (if options.debugGc then [.line (includeLine "WrenRuntime.h")] else [])
    ++ [.line "", .line "#include <initializer_list>", .line "#include <stdio.h>",
      .line "#include <stdlib.h>", .line ""]
    ++ sourceIncludes options sources

/-- What a generated file is made of. -/
structure BindingFile where
  options : Options
  sources : List String
  classes : List ClassBinding
deriving DecidableEq, Repr

namespace BindingFile

/-- The bindings of `classes`, which `sources` declare. -/
def ofClasses (options : Options) (sources : List String) (classes : List ClassDecl) :
    Except BindError BindingFile := do
  let (bindings, _) ← ({} : ClassTable).bindClasses options classes
  return ⟨options, sources, bindings⟩

def code (u : BindingFile) : Code :=
  preludeCode u.options u.sources
    ++ u.classes.flatMap ClassBinding.code
    ++ [.line "// Binding setup method, called by hand-written C++ classes"]
    ++ bindCode (u.classes.map (·.name))
    ++ Code.blank
    ++ [.line "// Generic closure dispatch"]
    ++ functionDispatch

def text (u : BindingFile) : String := u.code.text

end BindingFile

end WrenGlue.Bindings
