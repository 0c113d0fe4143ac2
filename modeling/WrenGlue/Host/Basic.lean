/-! What the program needs of its surroundings: files to read and write, and an output to print
to. -/

namespace WrenGlue

/-- Why a file could not be read or written. -/
inductive FileError where
  /-- The system refused, with its own text and number for the reason. -/
  | system (text : String) (number : Nat)
  /-- The content is no UTF-8. -/
  | notText
deriving DecidableEq, Repr, Inhabited

namespace FileError

def notFound : FileError := .system "No such file or directory" 2

def notDirectory : FileError := .system "Not a directory" 20

def isDirectory : FileError := .system "Is a directory" 21

def number? : FileError → Option Nat
  | system _ number => some number
  | notText => none

def message : FileError → String
  | system text number => text ++ " (os error " ++ toString number ++ ")"
  | notText => "stream did not contain valid UTF-8"

end FileError

structure Host (m : Type → Type) where
  /-- The text of the file at a path. -/
  read : (path : String) → m (Except FileError String)
  /-- Makes a text the whole content of the file at a path. -/
  write : (path text : String) → m (Except FileError Unit)
  print : (text : String) → m (Except FileError Unit)

end WrenGlue
