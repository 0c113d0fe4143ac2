import WrenGlue.Header.Line

/-! The classes of a header, one at a time. A class ends where the next one begins or the text ends:
nothing marks its end. The first error ends the stream, and the class it stands in is lost. -/

namespace WrenGlue.Header

/-- What is left to read, and the class that has begun. -/
structure ClassStream where
  lines : List Line
  current : Option ClassDecl := none
deriving DecidableEq, Repr

namespace ClassStream

/-- An item of the stream. -/
abbrev Item := Except DeclarationError ClassDecl

def ofText (text : String) : ClassStream := { lines := Line.ofText text }

/-- A stream without items. -/
def ended : ClassStream := { lines := [] }

/-- Reads lines up to the next item. -/
def advance : (current : Option ClassDecl) → List Line → Option Item × ClassStream
  | current, [] => (current.map .ok, ended)
  | current, line :: rest =>
    match line.read, current with
    | .other, current => advance current rest
    | .heading name, none => advance (some { name, line := line.number }) rest
    | .heading name, some done =>
      (some (.ok done), { lines := rest, current := some { name, line := line.number } })
    | .method m, some c => advance (some (c.add m)) rest
    | .method _, none => (some (.error (line.error .methodOutsideClass)), ended)
    | .fault what, _ => (some (.error (line.error what)), ended)

/-- The next item, if there is one, and the stream after it. -/
def next (s : ClassStream) : Option Item × ClassStream := advance s.current s.lines

@[simp] theorem next_ended : ended.next = (none, ended) := rfl

/-- The items of the lines from a state where `current` has begun. -/
def itemsFrom : (current : Option ClassDecl) → List Line → List Item
  | current, [] => current.toList.map .ok
  | current, line :: rest =>
    match line.read, current with
    | .other, current => itemsFrom current rest
    | .heading name, none => itemsFrom (some { name, line := line.number }) rest
    | .heading name, some done => .ok done :: itemsFrom (some { name, line := line.number }) rest
    | .method m, some c => itemsFrom (some (c.add m)) rest
    | .method _, none => [.error (line.error .methodOutsideClass)]
    | .fault what, _ => [.error (line.error what)]

/-- Every item, in order. -/
def toList (s : ClassStream) : List Item := itemsFrom s.current s.lines

@[simp] theorem toList_ended : ended.toList = [] := rfl

theorem itemsFrom_eq (current : Option ClassDecl) (lines : List Line) :
    itemsFrom current lines =
      (advance current lines).1.toList ++ (advance current lines).2.toList := by
  induction lines generalizing current with
  | nil => cases current <;> rfl
  | cons line rest ih =>
    cases current <;> simp only [itemsFrom, advance] <;> split <;>
      simp_all [toList, ended, itemsFrom]

/-- The items are the first one and those after it. -/
theorem toList_eq_next (s : ClassStream) : s.toList = s.next.1.toList ++ s.next.2.toList :=
  itemsFrom_eq s.current s.lines

end ClassStream

/-- The classes that a header declares, or its first error. -/
def readClasses (text : String) : Except DeclarationError (List ClassDecl) :=
  (ClassStream.ofText text).toList.mapM id

end WrenGlue.Header
