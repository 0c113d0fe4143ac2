/-! Lines of code with their indentation, and the text they make. -/

namespace WrenGlue.Cpp

inductive CodeStep where
  /-- A line at the current depth, or an empty line. -/
  | line (text : String)
  | indent
  | dedent
deriving DecidableEq, Repr

/-- Code that can be written at any depth. -/
abbrev Code := List CodeStep

namespace Code

def blank : Code := [.line ""]

/-- A line that what follows is indented under. -/
def opening (text : String) : Code := [.line text, .indent]

/-- The line that closes an opened block. -/
def closing (text : String) : Code := [.dedent, .line text]

def indented (body : Code) : Code := .indent :: body ++ [.dedent]

/-- `head` and a body in braces. -/
def block (head : String) (body : Code) : Code :=
  opening (head ++ " \x7b") ++ body ++ closing "\x7d"

def ofLines (lines : List String) : Code := lines.map .line

end Code

/-- A text under construction, and the depth its next line goes to. -/
structure Page where
  text : String := ""
  depth : Nat := 0
deriving DecidableEq, Repr, Inhabited

namespace Page

/-- A line at depth `depth`, with a tab for each level and none on an empty line. -/
def lineAt (depth : Nat) (text : String) : String :=
  if text = "" then "\n" else String.ofList (List.replicate depth '\t') ++ text ++ "\n"

/-- Writes one step. There is no depth below 0. -/
def put (p : Page) : CodeStep → Page
  | .line text => { p with text := p.text ++ lineAt p.depth text }
  | .indent => { p with depth := p.depth + 1 }
  | .dedent => { p with depth := p.depth - 1 }

def write (p : Page) (code : Code) : Page := code.foldl put p

theorem write_append (p : Page) (a b : Code) : p.write (a ++ b) = (p.write a).write b :=
  List.foldl_append

end Page

/-- The text of code from the left margin. -/
def Code.text (code : Code) : String := (({} : Page).write code).text

end WrenGlue.Cpp
