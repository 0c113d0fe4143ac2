import WrenGlue.Generate

/-! A run: every input is read, the bindings are generated, and the output is written last. -/

namespace WrenGlue

inductive Destination where
  | stdout
  | file (path : String)
deriving DecidableEq, Repr, Inhabited

/-- How messages name the output. -/
def Destination.shown : Destination → String
  | stdout => "<stdout>"
  | file path => path

structure Job where
  /-- The paths of the headers, in the order of their bindings. -/
  inputs : List String
  output : Destination := .stdout
  options : Bindings.Options := {}
deriving DecidableEq, Repr, Inhabited

variable {m : Type → Type} [Monad m]

/-- Reads files in order. -/
def Host.readAll (host : Host m) : List String → m (Except GenerateError (List Source))
  | [] => return .ok []
  | path :: rest => do
    match ← host.read path with
    | .error cause => return .error (.file path cause)
    | .ok text => return (⟨path, text⟩ :: ·) <$> (← host.readAll rest)

def Host.deliver (host : Host m) (output : Destination) (text : String) :
    m (Except GenerateError Unit) :=
  match output with
  | .stdout => return (← host.print text).mapError (.file output.shown)
  | .file path => return (← host.write path text).mapError (.file path)

/-- Does a job. Nothing is written unless the bindings could be generated. -/
def Job.run (job : Job) (host : Host m) : m (Except GenerateError Summary) := do
  match ← host.readAll job.inputs with
  | .error e => return .error e
  | .ok sources =>
    match generateWithSummary job.options sources with
    | .error e => return .error e
    | .ok (text, summary) => return (fun _ => summary) <$> (← host.deliver job.output text)

end WrenGlue
