import WrenGlue.Cpp.Code

/-! The lines of code without their indentation. -/

namespace WrenGlue.Cpp

namespace Code

/-- The lines of code, at any depth. -/
def lines (code : Code) : List String :=
  code.filterMap fun
    | .line text => some text
    | .indent | .dedent => none

@[simp] theorem lines_nil : lines [] = [] := rfl

@[simp] theorem lines_append (a b : Code) : lines (a ++ b) = lines a ++ lines b :=
  List.filterMap_append

@[simp] theorem lines_line (text : String) (code : Code) :
    lines (.line text :: code) = text :: lines code := rfl

@[simp] theorem lines_blank : lines blank = [""] := rfl

@[simp] theorem lines_indented (body : Code) : lines (indented body) = lines body := by
  rw [indented, lines_append]
  simp [lines]

@[simp] theorem lines_block (head : String) (body : Code) :
    lines (block head body) = (head ++ " \x7b") :: (lines body ++ ["\x7d"]) := by
  rw [block, lines_append, lines_append]
  rfl

@[simp] theorem lines_ofLines (ls : List String) : lines (ofLines ls) = ls := by
  induction ls with
  | nil => rfl
  | cons l ls ih => exact congrArg (l :: ·) ih

theorem lines_flatMap {α : Type} (f : α → Code) (l : List α) :
    lines (l.flatMap f) = l.flatMap fun a => lines (f a) := by
  induction l with
  | nil => rfl
  | cons a l ih => rw [List.flatMap_cons, lines_append, ih, List.flatMap_cons]

end Code

end WrenGlue.Cpp
