import WrenGlue.Proofs.Header.Revision
import WrenGlue.Proofs.Header.RoundTrip

/-! Edits of the layout of a header: white space, comments, line endings, and lines that say nothing
about bindings. They change what is read from the header in nothing but the numbers of lines. -/

namespace WrenGlue.Header

open WrenGlue.Text

/-- An edit at one end of a line. The white space in front of a comment may be left out, but not
behind a slash, which would become part of the comment. -/
inductive LineEdit (line : List Char) : List Char → Prop
  | front {gap : List Char} : isBlank gap = true → LineEdit line (gap ++ line)
  | back {ending : List Char} :
      LineEnd ending → (line.getLast? = some '/' → ending.head? ≠ some '/') →
      LineEdit line (line ++ ending)

/-- Without its comment and surrounding white space, the line is no heading and no method, as it is
when nothing is left of it. -/
def IsIdle (line : List Char) : Prop :=
  headingName? (trim (beforeComment line)) = none ∧
    MethodText.ofLine? (trim (beforeComment line)) = none

instance (line : List Char) : Decidable (IsIdle line) :=
  inferInstanceAs (Decidable (_ ∧ _))

/-- Where a line goes when one is inserted behind the first `k` lines. -/
def insertedBehind (k number : Nat) : Nat := if number ≤ k then number else number + 1

/-- Where a line goes when the one behind the first `k` lines is deleted. -/
def deletedBehind (k number : Nat) : Nat := if number ≤ k then number else number - 1

/-- An edit of a text, and where it moves the lines. -/
inductive Edit : (moves : Nat → Nat) → (before after : List Char) → Prop
  | within {front line line' ending rest : List Char} :
      IsLine front line ending rest → IsLine front line' ending rest → LineEdit line line' →
      Edit id (front ++ line ++ ending ++ rest) (front ++ line' ++ ending ++ rest)
  | ending {front line ending ending' rest : List Char} :
      IsLine front line ending rest → IsLine front line ending' rest →
      Edit id (front ++ line ++ ending ++ rest) (front ++ line ++ ending' ++ rest)
  | insert {front line ending rest : List Char} :
      IsLine front line ending rest → IsIdle line →
      Edit (insertedBehind (lines front).length) (front ++ rest) (front ++ line ++ ending ++ rest)
  | delete {front line ending rest : List Char} :
      IsLine front line ending rest → IsIdle line →
      Edit (deletedBehind (lines front).length) (front ++ line ++ ending ++ rest) (front ++ rest)

/-- Edits one after the other. -/
inductive Edits : (moves : Nat → Nat) → (before after : List Char) → Prop
  | nil {text : List Char} : Edits id text text
  | cons {moves moves' : Nat → Nat} {before between after : List Char} :
      Edit moves before between → Edits moves' between after →
      Edits (moves' ∘ moves) before after

/-! ### Numbers of lines -/

def MethodDecl.renumber (moves : Nat → Nat) (m : MethodDecl) : MethodDecl :=
  { m with line := moves m.line }

def ClassDecl.renumber (moves : Nat → Nat) (c : ClassDecl) : ClassDecl :=
  { c with methods := c.methods.map (·.renumber moves), line := moves c.line }

def DeclarationError.renumber (moves : Nat → Nat) (e : DeclarationError) : DeclarationError :=
  { e with line := moves e.line }

/-- What is read from a header whose lines move. -/
def renumberResult (moves : Nat → Nat) :
    Except DeclarationError (List ClassDecl) → Except DeclarationError (List ClassDecl)
  | .ok classes => .ok (classes.map (·.renumber moves))
  | .error e => .error (e.renumber moves)

theorem ClassDecl.renumber_id (c : ClassDecl) : c.renumber id = c := by
  have hm : ∀ m : MethodDecl, m.renumber id = m := fun _ => rfl
  simp [renumber, hm]

theorem ClassDecl.renumber_renumber (moves moves' : Nat → Nat) (c : ClassDecl) :
    (c.renumber moves).renumber moves' = c.renumber (moves' ∘ moves) := by
  simp [renumber, MethodDecl.renumber, Function.comp_def]

theorem renumberResult_id (x : Except DeclarationError (List ClassDecl)) :
    renumberResult id x = x := by
  cases x with
  | ok classes => simp [renumberResult, ClassDecl.renumber_id]
  | error e => rfl

theorem renumberResult_renumberResult (moves moves' : Nat → Nat)
    (x : Except DeclarationError (List ClassDecl)) :
    renumberResult moves' (renumberResult moves x) = renumberResult (moves' ∘ moves) x := by
  cases x with
  | ok classes => simp [renumberResult, ClassDecl.renumber_renumber]
  | error e => rfl

/-- Nothing but the numbers of lines changes. -/
def Revision.renumbering (moves : Nat → Nat) : Revision where
  number := moves
  method := (·.renumber moves)
  Error e e' := e' = e.renumber moves

theorem Revision.OnLines.readClasses_renumber {moves : Nat → Nat} {text text' : String}
    (h : (renumbering moves).OnLines (Line.ofText text) (Line.ofText text')) :
    readClasses text' = renumberResult moves (readClasses text) := by
  have hrel := h.readClasses_rel
  generalize readClasses text = x, readClasses text' = x' at hrel
  cases hrel with
  | ok hc => exact congrArg Except.ok hc
  | error he => exact congrArg Except.error he

/-! ### One line -/

theorem MethodText.method_renumber (parts : MethodText) (moves : Nat → Nat) (line : Nat) :
    parts.method (moves line) = (parts.method line).map (·.renumber moves) := by
  rw [method, method]
  cases MethodKind.ofText? (String.ofList parts.kind) with
  | none => rfl
  | some kind =>
    cases Argument.readList parts.args with
    | error entry => rfl
    | ok declared =>
      simp only [bind, Except.bind, Except.mapError]
      split <;> rfl

/-- A line says what its content says. -/
theorem Revision.renumbering_onLine {moves : Nat → Nat} {l l' : Line}
    (hcontent : l'.content = l.content) (hnumber : l'.number = moves l.number) :
    (renumbering moves).OnLine l l' := by
  have herror : ∀ what, (renumbering moves).Error (l.error what) (l'.error what) := fun what => by
    simp [renumbering, Line.error, DeclarationError.renumber, hcontent, hnumber]
  cases hname : headingName? l.content with
  | some name =>
    exact .heading (by rw [Line.read, hname]) (by rw [Line.read, hcontent, hname]) hnumber
  | none =>
    cases hparts : MethodText.ofLine? l.content with
    | none =>
      exact .other (by simp only [Line.read, hname, hparts])
        (by simp only [Line.read, hcontent, hname, hparts])
    | some parts =>
      have hmethod := parts.method_renumber moves l.number
      cases hm : parts.method l.number with
      | ok m =>
        rw [hm] at hmethod
        have hread : l.read = .method m := by simp only [Line.read, hname, hparts, hm]
        refine .method hread ?_ (herror .methodOutsideClass)
        simp only [Line.read, hcontent, hnumber, hname, hparts, hmethod, Except.map, renumbering]
      | error what =>
        rw [hm] at hmethod
        refine .fault ?_ ?_ (herror what)
        · simp only [Line.read, hname, hparts, hm]
        · simp only [Line.read, hcontent, hnumber, hname, hparts, hmethod, Except.map]

theorem IsIdle.read_eq {line : List Char} (h : IsIdle line) (number : Nat) :
    Line.read ⟨number, line⟩ = .other := by
  simp only [Line.read, Line.content, h.1, h.2]

/-! ### The content of a line -/

theorem LineEnd.append_blank {ending gap : List Char} (h : LineEnd ending)
    (hg : isBlank gap = true) : LineEnd (ending ++ gap) := by
  cases h with
  | blank he => exact .blank (by rw [isBlank_append, he, hg, Bool.and_self])
  | @comment gap' rest he => simpa using @LineEnd.comment gap' (rest ++ gap) he

theorem LineEnd.content_append {line ending : List Char} (h : LineEnd ending)
    (hs : line.getLast? = some '/' → ending.head? ≠ some '/') :
    trim (beforeComment (line ++ ending)) = trim (beforeComment line) := by
  rcases beforeComment_append hs with heq | ⟨hline, heq⟩
  · rw [heq]
  · rw [heq, hline, trim_append_blank line h.beforeComment_eq]

theorem content_append_blank (line : List Char) {gap : List Char} (h : isBlank gap = true) :
    trim (beforeComment (line ++ gap)) = trim (beforeComment line) := by
  refine LineEnd.content_append (.blank h) fun _ hslash => ?_
  have hwhite := isWhite_of_mem h (List.mem_of_mem_head? hslash)
  exact absurd hwhite (by decide)

theorem LineEdit.content_eq {line line' gap : List Char} (h : LineEdit line line')
    (hg : isBlank gap = true) :
    trim (beforeComment (line' ++ gap)) = trim (beforeComment (line ++ gap)) := by
  rw [content_append_blank line hg]
  cases h with
  | @front before hb =>
    have hfree : CommentFree before := .of_not_mem (not_mem_of_blank hb (by decide))
    rw [content_append_blank _ hg, hfree, trim_append_of_blank hb]
  | @back ending he hs =>
    rw [List.append_assoc]
    refine (he.append_blank hg).content_append fun hl hslash => ?_
    cases ending with
    | nil => exact absurd (isWhite_of_mem hg (List.mem_of_mem_head? hslash)) (by decide)
    | cons c ending => exact hs hl hslash

theorem isBlank_dropLast {line rest ending : List Char} (h : LineBreak line rest ending) :
    isBlank ending.dropLast = true := by
  cases h <;> decide

theorem IsIdle.append_blank {line gap : List Char} (h : IsIdle line) (hg : isBlank gap = true) :
    IsIdle (line ++ gap) := by
  rwa [IsIdle, content_append_blank line hg]

/-! ### The lines of a text -/

/-- The texts of two lines say the same. -/
def SameContent (line line' : List Char) : Prop :=
  trim (beforeComment line') = trim (beforeComment line)

theorem Revision.renumbering_onLines {moves : Nat → Nat} {ls ls' : List (List Char)}
    (h : List.Forall₂ SameContent ls ls') {n n' : Nat}
    (hm : ∀ i < ls.length, moves (n + i) = n' + i) :
    (renumbering moves).OnLines (Line.numbered n ls) (Line.numbered n' ls') := by
  induction h generalizing n n' with
  | nil => exact .nil
  | cons hl _ ih =>
    refine .cons (renumbering_onLine hl (hm 0 (Nat.succ_pos _)).symm) (ih fun i hi => ?_)
    rw [Nat.add_assoc, Nat.add_assoc, Nat.add_comm 1]
    exact hm (i + 1) (Nat.succ_lt_succ hi)

theorem Line.numbered_append (n : Nat) (ls ls' : List (List Char)) :
    numbered n (ls ++ ls') = numbered n ls ++ numbered (n + ls.length) ls' := by
  simp [numbered, List.zipIdx_append]

theorem forall₂_sameContent_refl (ls : List (List Char)) : List.Forall₂ SameContent ls ls :=
  List.forall₂_same.2 fun _ _ => rfl

/-- Replacing one line by another that says the same. -/
theorem Revision.renumbering_replace {line line' : List Char} (h : SameContent line line')
    (above below : List (List Char)) :
    (renumbering id).OnLines (Line.numbered 1 (above ++ line :: below))
      (Line.numbered 1 (above ++ line' :: below)) :=
  renumbering_onLines (List.rel_append (forall₂_sameContent_refl above)
    (.cons h (forall₂_sameContent_refl below))) fun _ _ => rfl

theorem Edit.onLines {moves : Nat → Nat} {before after : List Char} (h : Edit moves before after) :
    (Revision.renumbering moves).OnLines (Line.numbered 1 (lines before))
      (Line.numbered 1 (lines after)) := by
  cases h with
  | within hline hline' hedit =>
    rw [hline.lines_eq, hline'.lines_eq]
    exact Revision.renumbering_replace (hedit.content_eq (isBlank_dropLast hline.ending)) _ _
  | ending hline hline' =>
    rw [hline.lines_eq, hline'.lines_eq]
    refine Revision.renumbering_replace ?_ _ _
    rw [SameContent, content_append_blank _ (isBlank_dropLast hline.ending),
      content_append_blank _ (isBlank_dropLast hline'.ending)]
  | @insert front line ending rest hline hidle =>
    rw [lines_append hline.start, hline.lines_eq, Line.numbered_append, Line.numbered_append,
      Line.numbered_cons]
    refine .append (Revision.renumbering_onLines (forall₂_sameContent_refl _) fun i hi => ?_)
      (.added ((hidle.append_blank (isBlank_dropLast hline.ending)).read_eq _)
        (Revision.renumbering_onLines (forall₂_sameContent_refl _) fun i _ => ?_))
    · rw [insertedBehind, if_pos (by omega)]
    · rw [insertedBehind, if_neg (by omega)]
      omega
  | @delete front line ending rest hline hidle =>
    rw [lines_append hline.start, hline.lines_eq, Line.numbered_append, Line.numbered_append,
      Line.numbered_cons]
    refine .append (Revision.renumbering_onLines (forall₂_sameContent_refl _) fun i hi => ?_)
      (.removed ((hidle.append_blank (isBlank_dropLast hline.ending)).read_eq _)
        (Revision.renumbering_onLines (forall₂_sameContent_refl _) fun i _ => ?_))
    · rw [deletedBehind, if_pos (by omega)]
    · rw [deletedBehind, if_neg (by omega)]
      omega

/-- Edits of the layout move lines, and nothing else that is read changes. -/
theorem Edits.readClasses_eq {moves : Nat → Nat} {before after : List Char}
    (h : Edits moves before after) : readClasses (String.ofList after) =
      renumberResult moves (readClasses (String.ofList before)) := by
  induction h with
  | nil => rw [renumberResult_id]
  | @cons moves moves' before between after hedit _ ih =>
    have hlines : (Revision.renumbering moves).OnLines (Line.ofText (String.ofList before))
        (Line.ofText (String.ofList between)) := by
      rw [Line.ofText_eq_numbered, Line.ofText_eq_numbered, String.toList_ofList,
        String.toList_ofList]
      exact hedit.onLines
    rw [ih, hlines.readClasses_renumber, renumberResult_renumberResult]

end WrenGlue.Header
