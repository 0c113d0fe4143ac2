/-! Where a text is cut: at its first separator, at the end of each line, and where a comment
begins. -/

namespace WrenGlue.Text

/-- The text in front of the first `sep` and the text behind it. -/
def cut? (sep : Char) : List Char → Option (List Char × List Char)
  | [] => none
  | c :: rest =>
    if c = sep then some ([], rest)
    else (cut? sep rest).map fun (before, after) => (c :: before, after)

theorem cut?_eq_some_iff {sep : Char} {text before after : List Char} :
    cut? sep text = some (before, after) ↔ text = before ++ sep :: after ∧ sep ∉ before := by
  induction text generalizing before with
  | nil => simp [cut?]
  | cons c rest ih =>
    by_cases hc : c = sep
    · cases before with
      | nil => simp [cut?, hc]
      | cons d before => simp [cut?, hc]; grind
    · cases before with
      | nil => simp [cut?, hc]
      | cons d before => simp [cut?, hc]; grind

/-- The lines of a text. A line feed ends a line, and the last line may do without. -/
def lines (text : List Char) : List (List Char) :=
  let pieces := text.splitOn '\n'
  if pieces.getLast? = some [] then pieces.dropLast else pieces

/-- The part of a line in front of a `//` comment. -/
def beforeComment : List Char → List Char
  | [] => []
  | [c] => [c]
  | c :: d :: rest => if c = '/' ∧ d = '/' then [] else c :: beforeComment (d :: rest)

end WrenGlue.Text
