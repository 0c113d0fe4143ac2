import WrenGlue.Command

/-! The command line program. -/

namespace WrenGlue

/-- The error with the system's number `number`, which may come negated. -/
def FileError.ofNumber (number : UInt32) (text : String) : FileError :=
  let number := (if number < 0x80000000 then number else -number).toNat
  match [notFound, notDirectory, isDirectory].find? (·.number? = some number) with
  | some e => e
  | none => .system text number

/-- What a failed call of the system says. -/
def FileError.ofIO (e : IO.Error) : FileError :=
  match e with
  | .noFileOrDirectory _ number text
  | .inappropriateType _ number text
  | .permissionDenied _ number text
  | .alreadyExists _ number text
  | .invalidArgument _ number text
  | .resourceExhausted _ number text
  | .otherError number text
  | .unsupportedOperation number text
  | .hardwareFault number text
  | .resourceBusy number text
  | .timeExpired number text
  | .noSuchThing _ number text => .ofNumber number text
  | other => .system other.toString 0

/-- The files and the standard output of the process. -/
def processHost : Host IO where
  read path := do
    match ← (IO.FS.readBinFile path).toBaseIO with
    | .error e => return .error (.ofIO e)
    | .ok bytes =>
      match String.fromUTF8? bytes with
      | some text => return .ok text
      | none => return .error .notText
  write path text := do
    match ← (IO.FS.writeFile path text).toBaseIO with
    | .error e => return .error (.ofIO e)
    | .ok _ => return .ok ()
  print text := do
    let out ← IO.getStdout
    match ← (do out.putStr text; out.flush : IO Unit).toBaseIO with
    | .error e => return .error (.ofIO e)
    | .ok _ => return .ok ()

end WrenGlue

def main (words : List String) : IO UInt32 := do
  let exit ← WrenGlue.Command.run WrenGlue.processHost words
  (← IO.getStderr).putStr exit.complaint
  return exit.code.toUInt32
