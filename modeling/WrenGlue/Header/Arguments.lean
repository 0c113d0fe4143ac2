import WrenGlue.Header.ClassDecl
import WrenGlue.Text.Cut
import WrenGlue.Text.WordChar

/-! Argument lists. Entries are separated by commas, and each is a type and a name, perhaps behind a
label `ARG("…")` whose text may hold commas of its own. -/

namespace WrenGlue.Header

open WrenGlue.Text
open WrenGlue.Cpp (DeclaredType)

/-- The text of a label at the front of `text`, and what follows the label. -/
def label? (text : List Char) : Option (List Char × List Char) := do
  let inner ← ("ARG(".toList).isPrefixOf? text
  let opened ← ['"'].isPrefixOf? (trimStart inner)
  let (label, closed) ← cut? '"' opened
  let rest ← [')'].isPrefixOf? (trimStart closed)
  return (label, rest)

/-- Cuts an argument list at the commas outside quotes. -/
def splitEntries : (quoted : Bool) → List Char → List (List Char)
  | _, [] => [[]]
  | quoted, c :: rest =>
    if c = ',' ∧ quoted = false then [] :: splitEntries false rest
    else (splitEntries (quoted != (c == '"')) rest).modifyHead (c :: ·)

/-- A character that may stand between a type and a name. -/
def isTypeEnd (c : Char) : Bool := isWhite c || c == '*' || c == '&'

/-- Cuts a text into a type, with the character that ends it, and the name behind it. The type is
written on one line. -/
def typedName? (text : List Char) : Option (List Char × List Char) :=
  let (type, name) := splitTail isWord text
  if type.getLast?.any isTypeEnd ∧ '\n' ∉ type.dropLast ∧ name.head?.any isNameStart then
    some (type, name)
  else none

/-- Takes a label off an entry. A label counts only if its entry ends on the line of what follows
it. -/
def splitLabel (entry : List Char) : Option (List Char) × List Char :=
  match label? entry with
  | some (label, rest) =>
    if '\n' ∈ trimStart rest then (none, entry) else (some label, trimStart rest)
  | none => (none, entry)

namespace Argument

/-- The argument with the declaration `entry`. -/
def ofEntry? (position : Nat) (entry : List Char) : Option Argument := do
  let (label, rest) := splitLabel entry
  let (type, name) ← typedName? (trim rest)
  return {
    type := String.ofList (DeclaredType.normalizeChars type)
    name := String.ofList name
    position
    label := label.map String.ofList }

/-- The arguments of a list, or the first entry that declares none. A blank list has no entries. -/
def readList (text : List Char) : Except (List Char) (List Argument) :=
  if isBlank text then .ok []
  else (splitEntries false text).zipIdx.mapM fun (entry, position) =>
    match ofEntry? position (trim entry) with
    | some argument => .ok argument
    | none => .error (trim entry)

end Argument

end WrenGlue.Header
