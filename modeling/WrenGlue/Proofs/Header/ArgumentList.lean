import WrenGlue.Proofs.Header.EntryCuts
import WrenGlue.Proofs.Header.WellFormed

/-! What an argument list declares: one argument for each piece of it, or none at all if a piece is
no type and name. Reading the list fails at the first such piece. -/

namespace WrenGlue.Header

open WrenGlue.Text
open WrenGlue.Cpp (DeclaredType)

/-- A label stands at the front of the text. -/
inductive HasLabel : (text : List Char) → Prop
  | intro {inner label outer rest : List Char} :
      isBlank inner = true → '"' ∉ label → isBlank outer = true →
      HasLabel (labelText inner label outer ++ rest)

/-- An entry without the label that it begins with, if there is one. -/
inductive Unlabelled :
    (entry : List Char) → (label : Option (List Char)) → (rest : List Char) → Prop
  | labelled {inner label outer rest : List Char} :
      isBlank inner = true → '"' ∉ label → isBlank outer = true →
      Unlabelled (labelText inner label outer ++ rest) (some label) rest
  | plain {entry : List Char} : ¬ HasLabel entry → Unlabelled entry none entry

/-- The parts of a piece of a list that declares an argument: perhaps a label, then a run that ends
with white space or a sigil, and a name. -/
inductive EntryParts (piece : List Char) (label : Option (List Char)) (run name : List Char) : Prop
  | intro {rest : List Char} :
      Unlabelled (trim piece) label rest → trim rest = run ++ name →
      run.getLast?.any isTypeEnd = true → IsParameterName name → EntryParts piece label run name

/-- The piece of a list declares an argument. -/
def IsEntry (piece : List Char) : Prop := ∃ label run name, EntryParts piece label run name

/-- The piece of a list declares this argument at this position. -/
def Declares (piece : List Char × Nat) (a : Argument) : Prop :=
  ∃ label run name, EntryParts piece.1 label run name ∧
    a = ⟨String.ofList (DeclaredType.normalizeChars run), String.ofList name, piece.2,
      label.map String.ofList⟩

theorem isEntry_iff_exists_declares {piece : List Char} (position : Nat) :
    IsEntry piece ↔ ∃ a, Declares (piece, position) a :=
  ⟨fun ⟨label, run, name, h⟩ => ⟨_, label, run, name, h, rfl⟩,
    fun ⟨_, label, run, name, h, _⟩ => ⟨label, run, name, h⟩⟩

theorem Unlabelled.subset {entry rest : List Char} {label : Option (List Char)}
    (h : Unlabelled entry label rest) : rest ⊆ entry ∧ ∀ chars ∈ label, chars ⊆ entry := by
  cases h with
  | @labelled inner label outer rest =>
    refine ⟨List.subset_append_right _ _, fun chars hchars c hc => ?_⟩
    obtain rfl : label = chars := Option.some.inj hchars
    simp [labelText, hc]
  | plain => exact ⟨List.Subset.refl _, by simp⟩

/-- The parts of a piece are made of its characters. -/
theorem EntryParts.subset {piece run name : List Char} {label : Option (List Char)}
    (h : EntryParts piece label run name) :
    run ⊆ piece ∧ name ⊆ piece ∧ ∀ chars ∈ label, chars ⊆ piece := by
  obtain ⟨hlabel, htext, -, -⟩ := h
  obtain ⟨hrest, hchars⟩ := hlabel.subset
  have hboth : run ++ name ⊆ piece := fun c hc =>
    mem_of_mem_trim (hrest (mem_of_mem_trim (htext ▸ hc)))
  exact ⟨fun c hc => hboth (List.mem_append_left _ hc),
    fun c hc => hboth (List.mem_append_right _ hc),
    fun chars hm c hc => mem_of_mem_trim (hchars chars hm hc)⟩

/-! ### Reading -/

theorem label?_eq_none_iff {text : List Char} : label? text = none ↔ ¬ HasLabel text := by
  constructor
  · rintro h ⟨hi, hq, ho⟩
    rw [label?_eq_some_iff.2 ⟨_, _, hi, hq, ho, rfl⟩] at h
    cases h
  · refine fun h => Option.eq_none_iff_forall_ne_some.2 fun found hfound => h ?_
    obtain ⟨inner, outer, hi, hq, ho, rfl⟩ := label?_eq_some_iff.1 hfound
    exact .intro hi hq ho

theorem exists_unlabelled (entry : List Char) : ∃ label rest, Unlabelled entry label rest := by
  by_cases h : HasLabel entry
  · obtain ⟨hi, hq, ho⟩ := h
    exact ⟨_, _, .labelled hi hq ho⟩
  · exact ⟨none, entry, .plain h⟩

theorem Unlabelled.splitLabel_eq {entry rest : List Char} {label : Option (List Char)}
    (h : Unlabelled entry label rest) (hline : '\n' ∉ entry) :
    ∃ behind, splitLabel entry = (label, behind) ∧ trim behind = trim rest := by
  cases h with
  | @labelled inner label outer rest hi hq ho =>
    rw [List.mem_append, not_or] at hline
    refine ⟨trimStart rest, ?_, trim_trimStart rest⟩
    rw [labelText_append, splitLabel_labelText hq hi ho hline.2]
  | plain hno => exact ⟨entry, by rw [splitLabel, label?_eq_none_iff.2 hno], rfl⟩

/-- What is read for a piece is what it declares. -/
theorem readEntry_eq_ok_iff {piece : List Char × Nat} (hline : '\n' ∉ piece.1) {a : Argument} :
    readEntry piece = .ok a ↔ Declares piece a := by
  have htrim : '\n' ∉ trim piece.1 := fun hm => hline (mem_of_mem_trim hm)
  constructor
  · intro h
    rw [readEntry] at h
    split at h
    · next found hfound =>
      cases h
      obtain ⟨label, rest, hlabel⟩ := exists_unlabelled (trim piece.1)
      obtain ⟨behind, hsplit, hbehind⟩ := hlabel.splitLabel_eq htrim
      rw [Argument.ofEntry?, hsplit] at hfound
      obtain ⟨⟨run, name⟩, htyped, ha⟩ := Option.bind_eq_some_iff.1 hfound
      obtain ⟨htext, hrun, hname⟩ := typedName?_eq_some htyped
      exact ⟨label, run, name, .intro hlabel (hbehind ▸ htext) hrun hname, (Option.some.inj ha).symm⟩
    · cases h
  · rintro ⟨label, run, name, hparts, rfl⟩
    have hfree : '\n' ∉ run := fun hm => hline (hparts.subset.1 hm)
    obtain ⟨hlabel, htext, hrun, hname⟩ := hparts
    obtain ⟨behind, hsplit, hbehind⟩ := hlabel.splitLabel_eq htrim
    have hread := @ofEntry?_eq_some piece.2 _ _ _ _ _ hsplit
      (by rw [hbehind, htext, typedName?_append hrun hname hfree])
    rw [readEntry, hread]

theorem readEntry_eq_error_iff {piece : List Char × Nat} (hline : '\n' ∉ piece.1)
    {entry : List Char} :
    readEntry piece = .error entry ↔ ¬ IsEntry piece.1 ∧ entry = trim piece.1 := by
  rw [isEntry_iff_exists_declares piece.2]
  cases hread : readEntry piece with
  | ok a =>
    have ha := (readEntry_eq_ok_iff hline).1 hread
    simpa using fun hno => absurd ha (hno a)
  | error found =>
    have hno : ∀ a, ¬ Declares piece a := fun a ha => by
      rw [(readEntry_eq_ok_iff hline).2 ha] at hread
      cases hread
    have hfound : found = trim piece.1 := by
      rw [readEntry] at hread
      split at hread
      · cases hread
      · exact (Except.error.inj hread).symm
    simp [hno, hfound, eq_comm]

theorem not_mem_of_mem_pieces {text piece : List Char} (h : piece ∈ pieces text)
    (hline : '\n' ∉ text) : '\n' ∉ piece := by
  rw [← splitEntries_eq_pieces] at h
  exact fun hm => hline (subset_of_mem_splitEntries h hm)

/-- A list that is not blank is read piece by piece. -/
theorem Argument.readList_eq_ok_iff {text : List Char} (hline : '\n' ∉ text)
    {args : List Argument} : readList text = .ok args ↔
      isBlank text = true ∧ args = [] ∨
        isBlank text = false ∧ List.Forall₂ Declares (pieces text).zipIdx args := by
  cases hb : isBlank text with
  | true => simp [readList, hb, eq_comm]
  | false =>
    have hfree : ∀ piece ∈ (pieces text).zipIdx, '\n' ∉ piece.1 := fun piece hp =>
      not_mem_of_mem_pieces (List.fst_mem_of_mem_zipIdx hp) hline
    rw [readList_eq_mapM hb, splitEntries_eq_pieces, mapM_eq_ok_iff]
    simp only [Bool.false_eq_true, false_and, true_and, false_or]
    constructor
    · exact fun h => ((List.forall₂_and_left _ _).2 ⟨hfree, h⟩).imp fun _ _ hread =>
        (readEntry_eq_ok_iff hread.1).1 hread.2
    · exact fun h => ((List.forall₂_and_left _ _).2 ⟨hfree, h⟩).imp fun _ _ hdeclares =>
        (readEntry_eq_ok_iff hdeclares.1).2 hdeclares.2

/-- A list that is not blank fails at its first piece that declares no argument. -/
theorem Argument.readList_eq_error_iff {text : List Char} (hline : '\n' ∉ text)
    {entry : List Char} : readList text = .error entry ↔ isBlank text = false ∧
      ∃ before piece after, pieces text = before ++ piece :: after ∧
        (∀ p ∈ before, IsEntry p) ∧ ¬ IsEntry piece ∧ entry = trim piece := by
  cases hb : isBlank text with
  | true => simp [readList, hb]
  | false =>
    have hfree : ∀ piece ∈ (pieces text).zipIdx, '\n' ∉ piece.1 := fun piece hp =>
      not_mem_of_mem_pieces (List.fst_mem_of_mem_zipIdx hp) hline
    have hread : ∀ p ∈ (pieces text).zipIdx, (∃ a, readEntry p = .ok a) ↔ IsEntry p.1 := by
      intro p hp
      rw [isEntry_iff_exists_declares p.2]
      exact exists_congr fun a => readEntry_eq_ok_iff (hfree p hp)
    rw [readList_eq_mapM hb, splitEntries_eq_pieces, mapM_eq_error_iff]
    simp only [true_and]
    constructor
    · rintro ⟨before, piece, after, hpieces, hbefore, herror⟩
      have hmem : ∀ p ∈ before ++ piece :: after, p ∈ (pieces text).zipIdx := fun p hp =>
        hpieces ▸ hp
      obtain ⟨hno, he⟩ := (readEntry_eq_error_iff (hfree piece (hmem piece (by simp)))).1 herror
      refine ⟨before.map Prod.fst, piece.1, after.map Prod.fst, ?_, ?_, hno, he⟩
      · rw [← List.zipIdx_map_fst 0 (pieces text), hpieces, List.map_append, List.map_cons]
      · exact List.forall_mem_map.2 fun p hp =>
          (hread p (hmem p (List.mem_append_left _ hp))).1 (hbefore p hp)
    · rintro ⟨before, piece, after, hpieces, hbefore, hno, he⟩
      have hzip : (pieces text).zipIdx = before.zipIdx ++
          (piece, before.length) :: after.zipIdx (before.length + 1) := by
        rw [hpieces, List.zipIdx_append, List.zipIdx_cons, Nat.zero_add]
      have hmem : ∀ p ∈ before.zipIdx ++ (piece, before.length) ::
          after.zipIdx (before.length + 1), p ∈ (pieces text).zipIdx := fun p hp => hzip ▸ hp
      refine ⟨_, _, _, hzip, fun p hp => ?_, ?_⟩
      · exact (hread p (hmem p (List.mem_append_left _ hp))).2
          (hbefore p.1 (List.fst_mem_of_mem_zipIdx hp))
      · exact (readEntry_eq_error_iff (hfree _ (hmem _ (by simp)))).2 ⟨hno, he⟩

/-- A list declares arguments exactly if it is blank or all of its pieces declare one. -/
theorem Argument.exists_readList_iff {text : List Char} (hline : '\n' ∉ text) :
    (∃ args, readList text = .ok args) ↔
      isBlank text = true ∨ ∀ piece ∈ pieces text, IsEntry piece := by
  cases hread : readList text with
  | ok args =>
    refine iff_of_true ⟨args, rfl⟩ (((readList_eq_ok_iff hline).1 hread).imp And.left ?_)
    rintro ⟨-, hdeclares⟩ piece hp
    have hentries : ∀ p ∈ (pieces text).zipIdx, IsEntry p.1 :=
      ((List.forall₂_and_left _ _).1 (hdeclares.imp fun p a ha =>
        ⟨(isEntry_iff_exists_declares p.2).2 ⟨a, ha⟩, ha⟩)).1
    rw [← List.zipIdx_map_fst 0 (pieces text)] at hp
    obtain ⟨p, hmem, rfl⟩ := List.mem_map.1 hp
    exact hentries p hmem
  | error entry =>
    obtain ⟨hblank, before, piece, after, hpieces, -, hno, -⟩ :=
      (readList_eq_error_iff hline).1 hread
    refine iff_of_false (fun ⟨_, h⟩ => nomatch h) (not_or.2 ⟨by simp [hblank], fun hall => ?_⟩)
    exact hno (hall piece (by simp [hpieces]))

end WrenGlue.Header
