import WrenGlue.Proofs.Bindings.Binding
import WrenGlue.Proofs.Cpp.Token
import WrenGlue.Proofs.Header.Edits

/-! Lines that declare nothing because of how they begin. A text of such lines alone is a header
without classes, whatever stands behind the beginnings. -/

namespace WrenGlue.Text

theorem beforeComment_prefix (line : List Char) : beforeComment line <+: line := by
  obtain ⟨rest, hrest, -⟩ := exists_append_beforeComment line
  exact ⟨rest, hrest.symm⟩

theorem trimEnd_prefix (text : List Char) : trimEnd text <+: text := by
  rw [trimEnd, ← List.reverse_suffix, List.reverse_reverse]
  exact List.dropWhile_suffix isWhite

theorem trimStart_prefix {front text : List Char} (h : front <+: text) :
    trimStart front <+: trimStart text := by
  obtain ⟨rest, rfl⟩ := h
  cases hb : isBlank front with
  | true => simp [trimStart_eq_nil_iff.2 hb]
  | false => simp [trimStart_append hb]

end WrenGlue.Text

namespace WrenGlue.Header

open WrenGlue.Text WrenGlue.Cpp

/-- How the lines begin that say something about bindings. -/
def declarationFronts : List (List Char) := ["class".toList, "WREN_METHOD(".toList]

/-- Behind its white space the line begins like no declaration. -/
def Undeclaring (line : List Char) : Prop :=
  ∀ declaration ∈ declarationFronts, ¬ declaration <+: trimStart line

instance (line : List Char) : Decidable (Undeclaring line) :=
  inferInstanceAs (Decidable (∀ _ ∈ _, _))

/-- No line that begins with `front` begins like a declaration. -/
def TellsApart (front : List Char) : Prop :=
  front.head?.any isWhite = false ∧
    ∀ declaration ∈ declarationFronts, ¬ declaration <+: front ∧ ¬ front <+: declaration

instance (front : List Char) : Decidable (TellsApart front) :=
  inferInstanceAs (Decidable (_ ∧ _))

theorem Undeclaring.of_front {line : List Char} (front : List Char) (hfront : TellsApart front)
    (h : front <+: line) : Undeclaring line := by
  obtain ⟨hblack, hapart⟩ := hfront
  intro declaration hd hline
  have htrim : trimStart line = line := by
    obtain ⟨rest, rfl⟩ := h
    cases front with
    | nil => exact absurd List.nil_prefix (hapart declaration hd).2
    | cons c front => exact trimStart_cons hblack _
  rw [htrim] at hline
  exact (List.prefix_or_prefix_of_prefix hline h).elim (hapart declaration hd).1
    (hapart declaration hd).2

theorem Undeclaring.append_blank {gap line : List Char} (hg : isBlank gap = true)
    (h : Undeclaring line) : Undeclaring (gap ++ line) := by
  intro declaration hd
  rw [trimStart_append_of_blank hg]
  exact h declaration hd

/-- A line that begins like no declaration is none. -/
theorem Undeclaring.isIdle {line : List Char} (h : Undeclaring line) : IsIdle line := by
  have hcut := beforeComment_prefix line
  have hend := trimEnd_prefix (trimStart (beforeComment line))
  have hcontent : trim (beforeComment line) <+: trimStart line :=
    hend.trans <| trimStart_prefix hcut
  have hnone : ∀ declaration ∈ declarationFronts,
      declaration.isPrefixOf? (trim (beforeComment line)) = none := by
    intro declaration hd
    refine Option.eq_none_iff_forall_ne_some.2 fun rest hrest => h declaration hd ?_
    exact (show declaration <+: _ from
      ⟨rest, List.isPrefixOf?_eq_some_iff_append_eq.1 hrest⟩).trans hcontent
  refine ⟨?_, ?_⟩
  · rw [headingName?, hnone _ (by decide)]
    rfl
  · rw [MethodText.ofLine?, hnone _ (by decide)]
    rfl

theorem ClassStream.itemsFrom_of_other {ls : List Line} (h : ∀ l ∈ ls, l.read = .other)
    (current : Option ClassDecl) : itemsFrom current ls = current.toList.map .ok := by
  induction ls with
  | nil => rfl
  | cons l ls ih =>
    rw [List.forall_mem_cons] at h
    simpa only [itemsFrom, h.1] using ih h.2

/-- A header of lines that say nothing about bindings has no classes. -/
theorem readClasses_of_isIdle {text : String} (h : ∀ line ∈ lines text.toList, IsIdle line) :
    readClasses text = .ok [] := by
  have hother : ∀ l ∈ Line.ofText text, l.read = .other := by
    intro l hl
    obtain ⟨⟨line, number⟩, hline, rfl⟩ := List.mem_map.1 hl
    exact (h line (List.fst_mem_of_mem_zipIdx hline)).read_eq number
  rw [readClasses, ClassStream.toList, ClassStream.ofText, ClassStream.itemsFrom_of_other hother]
  rfl

/-- Code declares nothing, at any depth, if none of its lines does. -/
theorem readClasses_text {code : Code}
    (h : ∀ line ∈ code.lines, '\n' ∉ line.toList ∧ Undeclaring line.toList) :
    readClasses code.text = .ok [] := by
  obtain ⟨tabbed, htext, htabbed⟩ := exists_lines_write {} code
  have hmute : ∀ t ∈ tabbed, '\n' ∉ t ∧ Undeclaring t := by
    intro t ht
    obtain ⟨line, hline, n, rfl⟩ := exists_mem_of_forall₂ htabbed.flip ht
    have hgap : isBlank (List.replicate n '\t') = true := by
      rw [isBlank, List.all_replicate]
      split
      · rfl
      · decide
    obtain ⟨hsingle, hmute⟩ := h line hline
    refine ⟨?_, hmute.append_blank hgap⟩
    simpa using hsingle
  have hchars : code.text.toList = unlines tabbed := htext
  refine readClasses_of_isIdle ?_
  rw [hchars, lines_unlines fun t ht => (hmute t ht).1]
  exact fun t ht => (hmute t ht).2.isIdle

end WrenGlue.Header
