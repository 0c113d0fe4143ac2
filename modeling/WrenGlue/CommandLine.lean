import WrenGlue.Run

/-! The words of the command line. Options and files mix, and the first word that cannot be read
decides the error, except that a value is looked at only when the next option or the end is
reached. -/

namespace WrenGlue.CommandLine

/-- An option without a value. -/
inductive Switch where
  | debugGc
  | noIncludes
  | verbose
  | quiet
  | help
  | version
deriving DecidableEq, Repr

inductive OptionName where
  | switch (s : Switch)
  | output
deriving DecidableEq, Repr

def OptionName.ofLong? (name : String) : Option OptionName :=
  if name = "output" then some .output
  else if name = "debug-gc" ∨ name = "debug" then some (.switch .debugGc)
  else if name = "no-includes" then some (.switch .noIncludes)
  else if name = "verbose" then some (.switch .verbose)
  else if name = "quiet" then some (.switch .quiet)
  else if name = "help" then some (.switch .help)
  else if name = "version" then some (.switch .version)
  else none

def OptionName.ofLetter? (letter : Char) : Option OptionName :=
  if letter = 'o' then some .output
  else if letter = 'v' then some (.switch .verbose)
  else if letter = 'q' then some (.switch .quiet)
  else if letter = 'h' then some (.switch .help)
  else if letter = 'V' then some (.switch .version)
  else none

/-- Why a command line cannot be used. -/
inductive UsageError where
  | unknownOption (text : String)
  /-- A switch was given a value. -/
  | unexpectedValue (name value : String)
  /-- The output option has no value. -/
  | missingValue
  /-- A file name or the output is empty. -/
  | emptyValue
  /-- An option that may be given once was given again. -/
  | repeated
  /-- It asks for fewer messages and for more. -/
  | quietAndVerbose
  | noFiles
deriving DecidableEq, Repr, Inhabited

def UsageError.message : UsageError → String
  | unknownOption text => "unexpected argument '" ++ text ++ "' found"
  | unexpectedValue name value => "unexpected value '" ++ value ++ "' for '" ++ name ++ "' found"
  | missingValue => "a value is required for '--output <OUTPUT>' but none was supplied"
  | emptyValue => "a value is required but an empty one was supplied"
  | repeated => "an argument cannot be used multiple times"
  | quietAndVerbose => "the argument '--quiet' cannot be used with '--verbose...'"
  | noFiles => "the following required arguments were not provided: <FILES>..."

/-- Why the words ask for no run. -/
inductive Stop where
  | help
  | version
  | usage (e : UsageError)
deriving DecidableEq, Repr, Inhabited

/-- Values that have been read and not looked at. -/
inductive Pending where
  | none
  | files (names : List String)
  /-- The output option, whose value may still follow. -/
  | output (value : Option String)
deriving DecidableEq, Repr

/-- What the words so far have given. -/
structure Given where
  files : List String := []
  output : Option String := none
  debugGc : Bool := false
  noIncludes : Bool := false
  verbose : Nat := 0
  quiet : Bool := false
  pending : Pending := .none
deriving DecidableEq, Repr

namespace Given

def fail (e : UsageError) : Except Stop α := .error (.usage e)

def setOutput (g : Given) (value : String) : Except Stop Given :=
  if g.output.isSome then fail .repeated
  else if value = "" then fail .emptyValue
  else .ok { g with output := some value }

/-- Looks at the pending values. -/
def settle (g : Given) : Except Stop Given :=
  match g.pending with
  | .none => .ok g
  | .files names =>
    if "" ∈ names then fail .emptyValue
    else .ok { g with files := g.files ++ names, pending := .none }
  | .output none => fail .missingValue
  | .output (some value) => { g with pending := .none }.setOutput value

/-- The most that the count of `-v` comes to. -/
def maxVerbose : Nat := 255

def switch (g : Given) (s : Switch) : Except Stop Given := do
  let g ← g.settle
  match s with
  | .help => throw .help
  | .version => throw .version
  | .verbose => return { g with verbose := min (g.verbose + 1) maxVerbose }
  | .debugGc => if g.debugGc then fail .repeated else return { g with debugGc := true }
  | .noIncludes => if g.noIncludes then fail .repeated else return { g with noIncludes := true }
  | .quiet => if g.quiet then fail .repeated else return { g with quiet := true }

/-- The output option, with the value that is attached to it if one is. -/
def takeOutput (g : Given) (attached : Option String) : Except Stop Given := do
  let g ← g.settle
  match attached with
  | some value => g.setOutput value
  | none => return { g with pending := .output none }

def addFile (g : Given) (name : String) : Except Stop Given :=
  match g.pending with
  | .files names => .ok { g with pending := .files (names ++ [name]) }
  | _ => do return { ← g.settle with pending := .files [name] }

/-- A word that is no option: the value of an output option in front of it, or a file. -/
def addPlain (g : Given) (word : String) : Except Stop Given :=
  match g.pending with
  | .output none => .ok { g with pending := .output (some word) }
  | _ => g.addFile word

/-- A long option, by its name and the value behind an equals sign. -/
def addLong (g : Given) (name : String) (value : Option String) : Except Stop Given :=
  match OptionName.ofLong? name, value with
  | none, _ => fail (.unknownOption ("--" ++ name))
  | some .output, value => g.takeOutput value
  | some (.switch s), none => g.switch s
  | some (.switch _), some value => fail (.unexpectedValue ("--" ++ name) value)

/-- The value attached to a letter, behind an equals sign or not. -/
def attached? : List Char → Option String
  | [] => none
  | '=' :: value => some (String.ofList value)
  | value => some (String.ofList value)

/-- The letters of a short option or of several in one word. -/
def addLetters (g : Given) : List Char → Except Stop Given
  | [] => .ok g
  | letter :: rest =>
    match OptionName.ofLetter? letter with
    | none => fail (.unknownOption ("-" ++ letter.toString))
    | some .output => g.takeOutput (attached? rest)
    | some (.switch s) => do (← g.switch s).addLetters rest

/-- A word in front of the terminator `--`. -/
def addWord (g : Given) (word : String) : Except Stop Given :=
  match word.toList with
  | '-' :: '-' :: rest =>
    let value := match rest.dropWhile (· ≠ '=') with
      | [] => none
      | _ :: value => some (String.ofList value)
    g.addLong (String.ofList (rest.takeWhile (· ≠ '='))) value
  | '-' :: letter :: rest => g.addLetters (letter :: rest)
  | _ => g.addPlain word

/-- Reads words in order. All words behind `--` are files. -/
def addWords (g : Given) : List String → Except Stop Given
  | [] => .ok g
  | word :: rest =>
    if word = "--" then rest.foldlM addFile g
    else do (← g.addWord word).addWords rest

end Given

/-- How much is logged. -/
inductive LogLevel where
  | error | warn | info | debug | trace
deriving DecidableEq, Repr, Inhabited

namespace LogLevel

def name : LogLevel → String
  | error => "error"
  | warn => "warn"
  | info => "info"
  | debug => "debug"
  | trace => "trace"

/-- The level for a count of `-v` and for `-q`. -/
def ofFlags (verbose : Nat) (quiet : Bool) : LogLevel :=
  if quiet then .error
  else match verbose with
    | 0 => .warn
    | 1 => .info
    | 2 => .debug
    | _ => .trace

end LogLevel

/-- What a usable command line asks for. -/
structure Settings where
  job : Job
  verbose : Nat
  quiet : Bool
deriving DecidableEq, Repr, Inhabited

def Settings.level (s : Settings) : LogLevel := .ofFlags s.verbose s.quiet

/-- The settings that all words together give. -/
def Given.settings (g : Given) : Except Stop Settings := do
  let g ← g.settle
  if g.quiet ∧ g.verbose ≠ 0 then
    fail .quietAndVerbose
  else if g.files = [] then
    fail .noFiles
  else
    return {
      job := {
        inputs := g.files
        output := match g.output with
          | some path => .file path
          | none => .stdout
        options := { debugGc := g.debugGc, includeSources := !g.noIncludes } }
      verbose := g.verbose
      quiet := g.quiet }

/-- Reads the words behind the name of the program. -/
def read (words : List String) : Except Stop Settings := do
  (← ({} : Given).addWords words).settings

end WrenGlue.CommandLine
