import WrenGlue.CommandLine

/-! The command: reads its words, does the job and reports a failure. -/

namespace WrenGlue.Command

open WrenGlue.CommandLine (Stop)

def programName : String := "wrenbind"

def versionText : String := programName ++ " 0.1.0\n"

def helpText : String := String.join [
  "Generate Wren binding trampolines from WREN_METHOD declarations\n",
  "\n",
  "Usage: ", programName, " [OPTIONS] <FILES>...\n",
  "\n",
  "Arguments:\n",
  "  <FILES>...  Declaration sources, scanned in order\n",
  "\n",
  "Options:\n",
  "  -o, --output <OUTPUT>  Write the generated source here instead of stdout\n",
  "      --debug-gc         Run a garbage collection at the start of every trampoline\n",
  "      --no-includes      Do not emit includes for the declaration sources\n",
  "  -v, --verbose...       Increase log verbosity (-v info, -vv debug, -vvv trace)\n",
  "  -q, --quiet            Only log errors\n",
  "  -h, --help             Print help\n",
  "  -V, --version          Print version\n"]

/-- A text whose lines after the first are indented by `margin`. -/
def hanging (margin text : String) : String :=
  String.intercalate ("\n" ++ margin) ((text.toList.splitOn '\n').map String.ofList)

/-- The causes of a failure, one below the other, numbered if there is more than one. -/
def causes (e : GenerateError) : String :=
  match e.inner? with
  | none => "    " ++ hanging "    " e.message ++ "\n"
  | some inner =>
    "    0: " ++ hanging "       " e.message ++ "\n    1: " ++ hanging "       " inner ++ "\n"

/-- What is said of a job that failed. -/
def report (job : Job) (e : GenerateError) : String :=
  "Error: failed to generate bindings into " ++ job.output.shown ++ "\n\nCaused by:\n" ++ causes e

/-- How a command ended. -/
structure Exit where
  code : Nat
  /-- What goes to standard error. -/
  complaint : String := ""
deriving DecidableEq, Repr, Inhabited

variable {m : Type → Type} [Monad m]

/-- Runs the command with the words behind its name. -/
def run (host : Host m) (words : List String) : m Exit := do
  match CommandLine.read words with
  | .error .help => let _ ← host.print helpText; return { code := 0 }
  | .error .version => let _ ← host.print versionText; return { code := 0 }
  | .error (.usage e) => return { code := 2, complaint := "error: " ++ e.message ++ "\n" }
  | .ok settings =>
    match ← settings.job.run host with
    | .ok _ => return { code := 0 }
    | .error e => return { code := 1, complaint := report settings.job e }

end WrenGlue.Command
