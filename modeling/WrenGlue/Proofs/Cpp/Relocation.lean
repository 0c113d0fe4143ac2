import WrenGlue.Proofs.Cpp.Layout
import WrenGlue.Proofs.Cpp.SingleLine
import WrenGlue.Proofs.Text.Lines

/-! Code that can be written anywhere. Code that closes just what it opened is written at depth `n`
as it is written at the left margin, with `n` tabs in front of each line that is not empty. -/

namespace WrenGlue.Cpp

open WrenGlue.Text

/-! ### Indented text -/

/-- The line with `n` tabs in front of it, if it is not empty. -/
def indentLine (n : Nat) (line : List Char) : List Char :=
  if line = [] then [] else List.replicate n '\t' ++ line

/-- The text with `n` tabs in front of each line that is not empty. -/
def indentText (n : Nat) (text : String) : String :=
  String.ofList (['\n'].intercalate ((text.toList.splitOn '\n').map (indentLine n)))

theorem indentLine_indentLine (n depth : Nat) (line : List Char) :
    indentLine n (indentLine depth line) = indentLine (depth + n) line := by
  unfold indentLine
  by_cases hline : line = []
  · rw [if_pos hline, if_pos hline, if_pos rfl]
  · have hne : List.replicate depth '\t' ++ line ≠ [] := by simp [hline]
    rw [if_neg hline, if_neg hline, if_neg hne, ← List.append_assoc,
      List.replicate_append_replicate, Nat.add_comm]

theorem toList_lineAt (depth : Nat) (text : String) :
    (Page.lineAt depth text).toList = indentLine depth text.toList ++ ['\n'] := by
  rw [Page.lineAt, indentLine]
  by_cases htext : text = ""
  · simp [htext]
  · have hne : text.toList ≠ [] := fun h => htext (String.toList_eq_nil_iff.1 h)
    rw [if_neg htext, if_neg hne]
    simp

@[simp] theorem indentText_empty (n : Nat) : indentText n "" = "" := by
  simp [indentText, indentLine, List.splitOn_nil]

/-- No line feed comes in with the tabs of a line, so a line stays a line. -/
theorem indentText_lineAt_append {text : String} (h : IsSingleLine text) (n depth : Nat)
    (rest : String) : indentText n (Page.lineAt depth text ++ rest) =
      Page.lineAt (depth + n) text ++ indentText n rest := by
  have hline : '\n' ∉ indentLine depth text.toList := by
    unfold indentLine
    split
    · exact List.not_mem_nil
    · rw [List.mem_append, not_or]
      exact ⟨by simp, h⟩
  have hsplit : (Page.lineAt depth text ++ rest).toList.splitOn '\n' =
      indentLine depth text.toList :: rest.toList.splitOn '\n' := by
    rw [String.toList_append, toList_lineAt, List.append_assoc, List.singleton_append,
      List.splitOn_append_cons_self_of_not_mem hline]
  have hrest : (rest.toList.splitOn '\n').map (indentLine n) ≠ [] := by
    rw [Ne, List.map_eq_nil_iff]
    exact List.splitOn_ne_nil '\n' rest.toList
  apply String.toList_inj.1
  rw [indentText, hsplit, List.map_cons, List.intercalate_cons_of_ne_nil hrest,
    indentLine_indentLine, String.toList_append, toList_lineAt, indentText, String.toList_ofList,
    String.toList_ofList]

namespace Code

/-! ### Opened and closed levels -/

/-- The levels that are open behind code, where `depth` are open in front of it. There is no such
number if the code closes a level that is not open. -/
def openAfter? : (depth : Nat) → Code → Option Nat
  | depth, [] => some depth
  | depth, .line _ :: rest => openAfter? depth rest
  | depth, .indent :: rest => openAfter? (depth + 1) rest
  | 0, .dedent :: _ => none
  | depth + 1, .dedent :: rest => openAfter? depth rest

/-- The code never closes more than it opened, and it closes all that it opened. -/
def IsWellNested (code : Code) : Prop := openAfter? 0 code = some 0

instance (code : Code) : Decidable (IsWellNested code) :=
  inferInstanceAs (Decidable (openAfter? 0 code = some 0))

theorem openAfter?_append (depth : Nat) (a b : Code) :
    openAfter? depth (a ++ b) = (openAfter? depth a).bind (openAfter? · b) := by
  induction a generalizing depth with
  | nil => rfl
  | cons step a ih =>
    cases step with
    | line text | indent => exact ih _
    | dedent =>
      cases depth with
      | zero => rfl
      | succ depth => exact ih depth

/-- Levels that are open further out stay open. -/
theorem depthFrom_add {code : Code} {depth inner : Nat} (h : openAfter? depth code = some inner)
    (n : Nat) : depthFrom (depth + n) code = inner + n := by
  induction code generalizing depth with
  | nil =>
    obtain rfl : depth = inner := Option.some.inj h
    rfl
  | cons step code ih =>
    cases step with
    | line text => exact ih h
    | indent =>
      rw [depthFrom, Nat.add_right_comm]
      exact ih h
    | dedent =>
      cases depth with
      | zero => cases h
      | succ depth =>
        have hless : depth + 1 + n - 1 = depth + n := by omega
        rw [depthFrom, hless]
        exact ih h

/-- Without enough open levels the depth is cut off at 0, and one more level makes no difference. -/
theorem depthFrom_succ_of_none {code : Code} {depth : Nat} (h : openAfter? depth code = none) :
    depthFrom (depth + 1) code = depthFrom depth code := by
  induction code generalizing depth with
  | nil => cases h
  | cons step code ih =>
    cases step with
    | line text | indent => exact ih h
    | dedent =>
      cases depth with
      | zero => rfl
      | succ depth => exact ih h

/-- The code that comes back to every depth is the code that closes just what it opened. -/
theorem isWellNested_iff {code : Code} : IsWellNested code ↔ IsBalanced code := by
  constructor
  · intro h depth
    have hdepth := depthFrom_add h depth
    rwa [Nat.zero_add] at hdepth
  · intro h
    unfold IsWellNested
    cases hopen : openAfter? 0 code with
    | none =>
      have hdepth := depthFrom_succ_of_none hopen
      rw [h, h] at hdepth
      cases hdepth
    | some inner =>
      have hdepth := depthFrom_add hopen 0
      rw [h] at hdepth
      exact congrArg some hdepth.symm

/-! ### Code at another depth -/

theorem join_linesFrom_add {code : Code} {depth inner : Nat}
    (h : openAfter? depth code = some inner) (hlines : code.HasSingleLines) (n : Nat) :
    String.join (linesFrom (depth + n) code) =
      indentText n (String.join (linesFrom depth code)) := by
  induction code generalizing depth with
  | nil => exact (indentText_empty n).symm
  | cons step code ih =>
    cases step with
    | line text =>
      obtain ⟨htext, hrest⟩ := List.forall_mem_cons.1 hlines
      rw [linesFrom, linesFrom, String.join_cons, String.join_cons, indentText_lineAt_append htext,
        ih h hrest]
    | indent =>
      rw [linesFrom, linesFrom, Nat.add_right_comm]
      exact ih h hlines
    | dedent =>
      cases depth with
      | zero => cases h
      | succ depth =>
        have hless : depth + 1 + n - 1 = depth + n := by omega
        rw [linesFrom, linesFrom, hless]
        exact ih h hlines

/-- On the page the code adds to the text only, and it stays within the level of the page. -/
structure StaysWithin (code : Code) (p : Page) : Prop where
  text : ∃ added, (p.write code).text = p.text ++ added
  depth : (p.write code).depth = p.depth
  /-- Wherever the code closes a level, it is deeper than the page. -/
  above : ∀ front back, code = front ++ .dedent :: back → p.depth < (p.write front).depth

/-- The code adds to the page what it writes from the left margin, moved to the depth of the
page. -/
structure Relocates (code : Code) (p : Page) : Prop extends StaysWithin code p where
  text_eq : (p.write code).text = p.text ++ indentText p.depth code.text

namespace IsWellNested

variable {code : Code}

theorem staysWithin (h : IsWellNested code) (p : Page) : StaysWithin code p := by
  refine ⟨⟨_, congrArg Page.text (p.write_eq code)⟩, ?_, ?_⟩
  · rw [Page.write_eq]
    exact isWellNested_iff.1 h p.depth
  · rintro front back rfl
    unfold IsWellNested at h
    rw [openAfter?_append] at h
    obtain ⟨inner, hfront, hback⟩ := Option.bind_eq_some_iff.1 h
    cases inner with
    | zero => cases hback
    | succ inner =>
      have hdepth := depthFrom_add hfront p.depth
      rw [Nat.zero_add] at hdepth
      rw [Page.write_eq]
      show p.depth < depthFrom p.depth front
      omega

theorem relocates (h : IsWellNested code) (hlines : code.HasSingleLines) (p : Page) :
    Relocates code p := by
  have hjoin := join_linesFrom_add h hlines p.depth
  rw [Nat.zero_add] at hjoin
  refine ⟨h.staysWithin p, ?_⟩
  rw [Page.write_eq, Code.text_eq, ← hjoin]

end IsWellNested

theorem IsBalanced.relocates {code : Code} (h : IsBalanced code) (hlines : code.HasSingleLines)
    (p : Page) : Relocates code p := (isWellNested_iff.2 h).relocates hlines p

end Code

end WrenGlue.Cpp
