import WrenGlue.Proofs.Cpp.Normalize
import WrenGlue.Proofs.Text.Name

/-! Names of classes: `Obj` and word characters behind it. A pointer to such a class is a type that
crosses to native code if the name stays within ASCII, and an unsupported one if not. -/

namespace WrenGlue.Cpp

open WrenGlue.Text

/-- A name that begins with `Obj` and has only word characters. -/
def IsClassName (name : String) : Prop :=
  ∃ rest, (∀ c ∈ rest, isWord c = true) ∧ name = String.ofList (bindablePrefix.toList ++ rest)

theorem IsClassName.isWordName {name : String} (h : IsClassName name) : IsWordName name := by
  obtain ⟨rest, hrest, rfl⟩ := h
  have hfront : ∀ c ∈ bindablePrefix.toList, isWord c = true := by decide
  intro c hc
  rw [String.toList_ofList, List.mem_append] at hc
  exact hc.elim (hfront c) (hrest c)

theorem IsClassName.ne_nil {name : String} (h : IsClassName name) : name.toList ≠ [] := by
  obtain ⟨rest, -, rfl⟩ := h
  simp [bindablePrefix]

/-- There is no white space in a class name, and no sigil. -/
theorem IsClassName.plain {name : String} (h : IsClassName name) :
    ∀ c ∈ name.toList, isWhite c = false ∧ c ≠ '*' ∧ c ≠ '&' := by
  intro c hc
  have hword := h.isWordName c hc
  refine ⟨Bool.eq_false_iff.2 fun hw => ?_, ?_, ?_⟩
  · rw [isWord_eq_false_of_isWhite hw] at hword
    cases hword
  · rintro rfl
    exact absurd hword (by decide)
  · rintro rfl
    exact absurd hword (by decide)

/-- Types take the class names without characters beyond ASCII. -/
theorem isBindableName_iff {name : String} :
    isBindableName name = true ↔ IsClassName name ∧ IsAscii name := by
  have hfront : ∀ c ∈ bindablePrefix.toList, c.toNat < 128 := by decide
  constructor
  · intro h
    cases hs : bindablePrefix.toList.isPrefixOf? name.toList with
    | none => simp [isBindableName, hs] at h
    | some rest =>
      rw [isBindableName, hs] at h
      have hrest : ∀ c ∈ rest, isAsciiWord c = true := List.all_eq_true.1 h
      rw [List.isPrefixOf?_eq_some_iff_append_eq] at hs
      refine ⟨⟨rest, fun c hc => isWord_of_isAsciiWord (hrest c hc), ?_⟩, fun c hc => ?_⟩
      · rw [hs, String.ofList_toList]
      · rw [← hs, List.mem_append] at hc
        exact hc.elim (hfront c) fun hc => toNat_lt_of_isAsciiWord (hrest c hc)
  · rintro ⟨⟨rest, hrest, rfl⟩, hascii⟩
    rw [IsAscii, String.toList_ofList] at hascii
    have hs := List.isPrefixOf?_eq_some_iff_append_eq.2 (@rfl _ (bindablePrefix.toList ++ rest))
    have hall : rest.all isAsciiWord = true := List.all_eq_true.2 fun c hc =>
      isAsciiWord_iff.2 ⟨hrest c hc, hascii c (List.mem_append_right _ hc)⟩
    rwa [isBindableName, String.toList_ofList, hs]

namespace DeclaredType

theorem normalize_pointer {name : String} (h : IsClassName name) :
    normalize (name ++ " *") = name ++ "*" := by
  have hwords : words (name.toList ++ [' ', '*']) = [name.toList, ['*']] := by
    rw [words_append_white (by decide), words_of_forall h.ne_nil fun c hc => (h.plain c hc).1]
    rfl
  rw [normalize, String.toList_append, normalizeChars,
    show (" *" : String).toList = [' ', '*'] from rfl, hwords, joinWords]
  simp [attaches, String.ofList_append]

/-- The type that points to a class: it takes the class if its name is bindable. -/
theorem ofText_pointer {name : String} (h : IsClassName name) :
    ofText (normalize (name ++ " *")) =
      if IsAscii name then .object name else .unsupported (name ++ "*") := by
  rw [normalize_pointer h]
  have hsuffix : ['*'].isSuffixOf? (name ++ "*").toList = some name.toList := by
    rw [List.isSuffixOf?_eq_some_iff_append_eq]
    simp
  have hpointee : pointee? (name ++ "*") = if IsAscii name then some name else none := by
    simp only [pointee?, hsuffix, String.ofList_toList, isBindableName_iff, h, true_and]
  have hother : ∀ word : String, word.toList.getLast? ≠ some '*' → name ++ "*" ≠ word := by
    rintro word hlast rfl
    exact hlast (getLast?_toList_append name rfl)
  rw [ofText, if_neg (hother _ (by decide)), if_neg (hother _ (by decide)),
    if_neg (hother _ (by decide)), if_neg (hother _ (by decide)), if_neg (hother _ (by decide)),
    if_neg (not_or.2 ⟨hother _ (by decide), hother _ (by decide)⟩), hpointee]
  by_cases hascii : IsAscii name
  · simp only [if_pos hascii]
  · simp only [if_neg hascii]

/-- Only a bindable name and a star point to a class. -/
theorem ofText_eq_object_iff {text name : String} :
    ofText text = .object name ↔ isBindableName name = true ∧ text = name ++ "*" := by
  constructor
  · intro h
    have hp : pointee? text = some name := by
      simp only [ofText] at h
      repeat' split at h
      all_goals cases h
      assumption
    rw [pointee?] at hp
    split at hp
    · next chars hsuffix =>
      rw [Option.ite_none_right_eq_some, Option.some.injEq] at hp
      obtain ⟨hbindable, rfl⟩ := hp
      rw [List.isSuffixOf?_eq_some_iff_append_eq] at hsuffix
      refine ⟨hbindable, String.toList_inj.1 ?_⟩
      rw [← hsuffix, String.toList_append, String.toList_ofList]
      rfl
    · cases hp
  · rintro ⟨hbindable, rfl⟩
    obtain ⟨hname, hascii⟩ := isBindableName_iff.1 hbindable
    have hpointer := ofText_pointer hname
    rwa [normalize_pointer hname, if_pos hascii] at hpointer

theorem isClassName_of_ofText {text name : String} (h : ofText text = .object name) :
    IsClassName name :=
  (isBindableName_iff.1 (ofText_eq_object_iff.1 h).1).1

end DeclaredType

end WrenGlue.Cpp
