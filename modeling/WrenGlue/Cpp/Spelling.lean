/-! How pieces of C++ code are spelled: string literals, lists and numbered names. -/

namespace WrenGlue.Cpp

/-- The body of the literal for a text. A backslash and a quote are written behind a backslash, all
else as it is. -/
def escapeChars : List Char → List Char
  | [] => []
  | c :: rest =>
    if c = '\\' ∨ c = '"' then '\\' :: c :: escapeChars rest else c :: escapeChars rest

theorem escapeChars_eq_self {text : List Char} (hslash : '\\' ∉ text) (hquote : '"' ∉ text) :
    escapeChars text = text := by
  induction text with
  | nil => rfl
  | cons c text ih =>
    rw [List.mem_cons, not_or] at hslash hquote
    have hc : ¬(c = '\\' ∨ c = '"') := not_or.2 ⟨Ne.symm hslash.1, Ne.symm hquote.1⟩
    rw [escapeChars, if_neg hc, ih hslash.2 hquote.2]

def escape (text : String) : String := String.ofList (escapeChars text.toList)

/-- The literal with the body `body`. -/
def quoted (body : String) : String := "\"" ++ body ++ "\""

/-- The items with a comma and a space between them. -/
def commaList (items : List String) : String := String.intercalate ", " items

/-- The items as a braced list. -/
def braced (items : List String) : String := "\x7b" ++ commaList items ++ "\x7d"

/-- `name` with each number below `n` behind it. -/
def numbered (name : String) (n : Nat) : List String :=
  (List.range n).map fun i => name ++ toString i

end WrenGlue.Cpp
