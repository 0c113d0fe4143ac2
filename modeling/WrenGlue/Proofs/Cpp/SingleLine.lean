import WrenGlue.Proofs.Cpp.CodeLines
import WrenGlue.Proofs.Cpp.Prototype
import WrenGlue.Proofs.Text.Name

/-! Texts that are one line, which is what each line of code should be. -/

namespace WrenGlue.Cpp

open WrenGlue.Text

/-- No line feed stands in the text. -/
def IsSingleLine (text : String) : Prop := '\n' ∉ text.toList

instance (text : String) : Decidable (IsSingleLine text) :=
  inferInstanceAs (Decidable ('\n' ∉ text.toList))

@[simp] theorem isSingleLine_append {a b : String} :
    IsSingleLine (a ++ b) ↔ IsSingleLine a ∧ IsSingleLine b := by
  simp [IsSingleLine]

theorem IsSingleLine.of_wordName {name : String} (h : IsWordName name) : IsSingleLine name :=
  h.not_mem (by decide)

@[simp] theorem isSingleLine_repr (n : Nat) : IsSingleLine n.repr :=
  .of_wordName (isWordName_toString n)

theorem mem_escapeChars {c : Char} {text : List Char} (h : c ∈ escapeChars text) :
    c = '\\' ∨ c ∈ text := by
  induction text with
  | nil => cases h
  | cons d text ih =>
    rw [escapeChars] at h
    split at h <;> simp only [List.mem_cons] at h ⊢ <;> tauto

theorem IsSingleLine.escape {text : String} (h : IsSingleLine text) :
    IsSingleLine (escape text) := by
  intro hmem
  rw [Cpp.escape, String.toList_ofList] at hmem
  exact (mem_escapeChars hmem).elim (by decide) h

theorem IsSingleLine.quoted {body : String} (h : IsSingleLine body) :
    IsSingleLine (quoted body) := by
  have hquote : IsSingleLine "\"" := by decide
  exact isSingleLine_append.2 ⟨isSingleLine_append.2 ⟨hquote, h⟩, hquote⟩

theorem IsSingleLine.commaList {items : List String} (h : ∀ item ∈ items, IsSingleLine item) :
    IsSingleLine (commaList items) := by
  intro hmem
  rcases mem_commaList hmem with hc | hc | ⟨item, hitem, hc⟩
  · exact absurd hc (by decide)
  · exact absurd hc (by decide)
  · exact h item hitem hc

theorem IsSingleLine.braced {items : List String} (h : ∀ item ∈ items, IsSingleLine item) :
    IsSingleLine (braced items) := by
  have hopen : IsSingleLine "\x7b" := by decide
  have hclose : IsSingleLine "\x7d" := by decide
  exact isSingleLine_append.2 ⟨isSingleLine_append.2 ⟨hopen, .commaList h⟩, hclose⟩

namespace Code

/-- Each of the lines is one line of text. -/
def HasSingleLines (code : Code) : Prop := ∀ line ∈ code.lines, IsSingleLine line

namespace HasSingleLines

variable {a b : Code}

theorem nil : HasSingleLines [] := fun _ hline => absurd hline List.not_mem_nil

theorem append (ha : HasSingleLines a) (hb : HasSingleLines b) : HasSingleLines (a ++ b) := by
  unfold HasSingleLines
  rw [lines_append]
  exact List.forall_mem_append.2 ⟨ha, hb⟩

theorem cons {text : String} (ht : IsSingleLine text) (ha : HasSingleLines a) :
    HasSingleLines (.line text :: a) := List.forall_mem_cons.2 ⟨ht, ha⟩

theorem ofLines {texts : List String} (h : ∀ text ∈ texts, IsSingleLine text) :
    HasSingleLines (ofLines texts) := by
  unfold HasSingleLines
  rwa [lines_ofLines]

theorem indented (h : HasSingleLines a) : HasSingleLines (indented a) := by
  unfold HasSingleLines
  rwa [lines_indented]

theorem block {head : String} (hh : IsSingleLine head) (h : HasSingleLines a) :
    HasSingleLines (block head a) := by
  have hopen : IsSingleLine " \x7b" := by decide
  have hclose : IsSingleLine "\x7d" := by decide
  unfold HasSingleLines
  rw [lines_block, List.forall_mem_cons, List.forall_mem_append, List.forall_mem_singleton]
  exact ⟨isSingleLine_append.2 ⟨hh, hopen⟩, h, hclose⟩

theorem flatMap {α : Type} {l : List α} {f : α → Code} (h : ∀ x ∈ l, HasSingleLines (f x)) :
    HasSingleLines (l.flatMap f) := by
  unfold HasSingleLines
  rw [lines_flatMap, List.forall_mem_flatMap]
  exact h

end HasSingleLines

end Code

end WrenGlue.Cpp
