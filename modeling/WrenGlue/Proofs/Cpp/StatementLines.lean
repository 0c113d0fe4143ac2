import WrenGlue.Proofs.Cpp.Layout
import WrenGlue.Proofs.Cpp.SingleLine
import WrenGlue.Proofs.Text.Lines

/-! The statements of a text, as whoever reads the text alone finds them: its lines, without the tabs
in front. They are the lines of the code behind the text, at whatever depth it was written, if no
line of the code is broken by a line feed or begins with a tab of its own. -/

namespace WrenGlue.Cpp

open WrenGlue.Text

/-- A line without the tabs in front of it. -/
def untabbed (line : List Char) : String := String.ofList (line.dropWhile (· == '\t'))

/-- The statements of a text, one on each line. -/
def statementLines (text : String) : List String := (lines text.toList).map untabbed

/-- The text begins with no tab, so that all tabs in front of it are its indentation. -/
def IsUnindented (text : String) : Prop := text.toList.head? ≠ some '\t'

instance (text : String) : Decidable (IsUnindented text) :=
  inferInstanceAs (Decidable (text.toList.head? ≠ some '\t'))

theorem untabbed_append (n : Nat) {line : String} (h : IsUnindented line) :
    untabbed (List.replicate n '\t' ++ line.toList) = line := by
  have hline : line.toList.dropWhile (· == '\t') = line.toList := by
    unfold IsUnindented at h
    cases hl : line.toList with
    | nil => rfl
    | cons c rest =>
      rw [hl] at h
      exact List.dropWhile_cons_of_neg (by simpa using h)
  rw [untabbed, List.dropWhile_append_of_pos (by simp), hline, String.ofList_toList]

theorem statementLines_append {front : String} (h : AtLineStart front.toList) (rest : String) :
    statementLines (front ++ rest) = statementLines front ++ statementLines rest := by
  rw [statementLines, String.toList_append, lines_append h, List.map_append]
  rfl

/-- Each line is written with its line feed. -/
theorem atLineStart_lineAt (depth : Nat) (text : String) :
    AtLineStart (Page.lineAt depth text).toList := by
  unfold Page.lineAt
  split <;> simp [AtLineStart]

/-- Line by line, a text is read as it was written. -/
theorem statementLines_join (depth : Nat) (code : Code) :
    statementLines (String.join (code.linesFrom depth)) =
      (code.linesFrom depth).flatMap statementLines := by
  induction code generalizing depth with
  | nil => rfl
  | cons step code ih =>
    cases step with
    | line text =>
      rw [Code.linesFrom, String.join_cons, statementLines_append (atLineStart_lineAt depth text),
        ih, List.flatMap_cons]
    | indent | dedent => exact ih _

/-- A single line is read back from any depth. -/
theorem statementLines_lineAt {text : String} (hs : IsSingleLine text) (ht : IsUnindented text)
    (depth : Nat) : statementLines (Page.lineAt depth text) = [text] := by
  obtain ⟨n, hn⟩ : ∃ n, (Page.lineAt depth text).toList =
      unlines [List.replicate n '\t' ++ text.toList] := by
    unfold Page.lineAt
    split
    · next hempty => exact ⟨0, by simp [hempty, unlines_cons]⟩
    · exact ⟨depth, by simp [unlines_cons]⟩
  have hline : ∀ line ∈ [List.replicate n '\t' ++ text.toList], '\n' ∉ line := by
    rw [List.forall_mem_singleton, List.mem_append, not_or]
    exact ⟨by simp, hs⟩
  rw [statementLines, hn, lines_unlines hline, List.map_singleton, untabbed_append n ht]

/-- The lines of code are read back from its text. -/
theorem statementLines_linesFrom {code : Code} (h : code.HasSingleLines)
    (htab : ∀ line ∈ code.lines, IsUnindented line) (depth : Nat) :
    statementLines (String.join (code.linesFrom depth)) = code.lines := by
  rw [statementLines_join]
  induction code generalizing depth with
  | nil => rfl
  | cons step code ih =>
    cases step with
    | line text =>
      obtain ⟨hs, h⟩ := List.forall_mem_cons.1 h
      obtain ⟨ht, htab⟩ := List.forall_mem_cons.1 htab
      rw [Code.linesFrom, List.flatMap_cons, statementLines_lineAt hs ht, ih h htab]
      rfl
    | indent | dedent => exact ih h htab _

end WrenGlue.Cpp
