import WrenGlue.Proofs.Header.Edits
import WrenGlue.Proofs.Header.Scanned

/-! Headers written one behind the other. The last class of the first header is still open where the
second begins, and the first class boundary there closes it. -/

namespace WrenGlue.Header

open WrenGlue.Text
open Line ClassStream

/-- The number of lines of a text. -/
def lineCount (text : String) : Nat := (lines text.toList).length

/-- Where the lines of a text go when `text` is written in front of it. -/
def movedBy (text : String) (number : Nat) : Nat := lineCount text + number

/-! ### The lines of two texts -/

theorem ofText_append {a : String} (h : AtLineStart a.toList) (b : String) :
    Line.ofText (a ++ b) =
      Line.ofText a ++ numbered (1 + lineCount a) (lines b.toList) := by
  rw [ofText_eq_numbered, String.toList_append, lines_append h, numbered_append, lineCount,
    ofText_eq_numbered]

/-- The lines of a text say the same behind another text. -/
theorem onLines_movedBy (a b : String) : (Revision.renumbering (movedBy a)).OnLines
    (Line.ofText b) (numbered (1 + lineCount a) (lines b.toList)) := by
  rw [ofText_eq_numbered]
  refine Revision.renumbering_onLines (forall₂_sameContent_refl _) fun i _ => ?_
  show lineCount a + (1 + i) = 1 + lineCount a + i
  omega

/-! ### The classes of lines behind an open class -/

/-- The classes of lines where `current` has begun before them, or their first error. -/
def readFrom (current : Option ClassDecl) (lines : List Line) :
    Except DeclarationError (List ClassDecl) :=
  (itemsFrom current lines).mapM id

theorem readClasses_eq_readFrom (text : String) :
    readClasses text = readFrom none (Line.ofText text) := rfl

theorem mapM_ok_append (classes : List ClassDecl) (items : List Item) :
    (classes.map .ok ++ items : List Item).mapM id = (classes ++ ·) <$> items.mapM id := by
  induction classes with
  | nil => exact (id_map _).symm
  | cons c classes ih =>
    rw [List.map_cons, List.cons_append, List.mapM_cons, ih]
    cases items.mapM id with
    | error e => rfl
    | ok rest => rfl

/-- An open class is closed by the first boundary, or by the end. A method in front of that would
become one of its own, and without the open class it would be an error. -/
theorem readFrom_some (c : ClassDecl) {lines : List Line}
    (h : ∀ e, readFrom none lines = .error e → e.fault ≠ .methodOutsideClass) :
    readFrom (some c) lines = (c :: ·) <$> readFrom none lines := by
  induction lines with
  | nil => rfl
  | cons l rest ih =>
    cases hr : l.read with
    | other =>
      simp only [readFrom, itemsFrom, hr] at h ih ⊢
      exact ih h
    | heading name =>
      simp only [readFrom, itemsFrom, hr]
      exact mapM_ok_append [c] _
    | method m =>
      have hout : readFrom none (l :: rest) = .error (l.error .methodOutsideClass) := by
        simp only [readFrom, itemsFrom, hr]
        rfl
      exact absurd rfl (h _ hout)
    | fault what =>
      simp only [readFrom, itemsFrom, hr]
      rfl

theorem readFrom_renumber {moves : Nat → Nat} {lines lines' : List Line}
    (h : (Revision.renumbering moves).OnLines lines lines') :
    readFrom none lines' = renumberResult moves (readFrom none lines) := by
  have hrel : ExceptRel (Revision.renumbering moves).Error
      (fun cs cs' => cs' = cs.map (Revision.renumbering moves).ofClass) (readFrom none lines)
      (readFrom none lines') :=
    (ExceptRel.mapM (h.itemsFrom none)).imp (fun _ _ he => he) fun _ _ => eq_map_of_forall₂
  generalize readFrom none lines = x, readFrom none lines' = x' at hrel
  cases hrel with
  | ok hc => exact congrArg Except.ok hc
  | error he => exact congrArg Except.error he

/-! ### Two headers -/

variable {a b : String}

/-- An error is found before anything behind its line is read. -/
theorem readClasses_append_error (h : AtLineStart a.toList) {e : DeclarationError}
    (ha : readClasses a = .error e) : readClasses (a ++ b) = .error e := by
  have hfault : ¬ FaultlessFrom false (Line.ofText a) := fun hf => by
    rw [readClasses_eq (faultless_iff.2 hf)] at ha
    cases ha
  obtain ⟨before, l, after, what, ht, hbefore, hl⟩ := exists_first_fault hfault
  rw [readClasses_eq_error ht (faultless_iff.2 hbefore) hl] at ha
  have hboth : Line.ofText (a ++ b) =
      before ++ l :: (after ++ numbered (1 + lineCount a) (lines b.toList)) := by
    rw [ofText_append h, ht, List.append_assoc, List.cons_append]
  rw [readClasses_eq_error hboth (faultless_iff.2 hbefore) hl, ha]

/-- Behind a header without an error, another is read as it is alone, but for the numbers of lines,
unless it begins with methods that belong to no class. -/
theorem readClasses_append (h : AtLineStart a.toList) {classes : List ClassDecl}
    (ha : readClasses a = .ok classes)
    (hb : classes = [] ∨ ∀ e, readClasses b = .error e → e.fault ≠ .methodOutsideClass) :
    readClasses (a ++ b) = (classes ++ ·) <$> renumberResult (movedBy a) (readClasses b) := by
  obtain ⟨hfaultless, hclasses⟩ := readClasses_eq_ok_iff.1 ha
  have hmoved := readFrom_renumber (onLines_movedBy a b)
  rw [readClasses_eq_readFrom, readFrom, ofText_append h,
    @itemsFrom_append none _ (faultless_iff.1 hfaultless), classesFrom, ← hclasses, mapM_ok_append,
    ← readFrom, readClasses_eq_readFrom b, ← hmoved]
  cases hlast : classes.getLast? with
  | none => rw [List.getLast?_eq_none_iff.1 hlast, List.dropLast_nil]
  | some c =>
    have hsplit : classes.dropLast ++ [c] = classes :=
      List.dropLast_append_getLast? c (Option.mem_def.2 hlast)
    have hout : ∀ e, readFrom none (numbered (1 + lineCount a) (lines b.toList)) = .error e →
        e.fault ≠ .methodOutsideClass := by
      intro e he
      rw [hmoved] at he
      cases hread : readFrom none (Line.ofText b) with
      | ok found => simp [hread, renumberResult] at he
      | error e' =>
        rw [hread] at he
        obtain rfl := Except.error.inj he
        rcases hb with hnil | hb
        · rw [hnil] at hlast
          cases hlast
        · exact hb e' hread
    rw [readFrom_some c hout, Functor.map_map]
    simp only [List.append_cons, hsplit]

end WrenGlue.Header
