import WrenGlue.Proofs.Cpp.ClassName
import Mathlib.Logic.Relation

/-! Types that differ in white space only. Every type is its normalized form with other white space,
so two types have one normalized form exactly if changes of white space lead from one to the other.
A normalized type is read back from what is printed for it. -/

namespace WrenGlue.Cpp.DeclaredType

open WrenGlue.Text

namespace Spells

/-- The white space in front of a sigil goes with the sigil. -/
theorem of_append {a b text : List Char} (h : Spells (a ++ b) text) :
    ∃ a' b', text = a' ++ b' ∧ Spells a a' ∧ Spells b b' := by
  induction a generalizing text with
  | nil => exact ⟨[], text, rfl, .nil, h⟩
  | cons c a ih =>
    cases h with
    | char hc h =>
      obtain ⟨a', b', rfl, ha, hb⟩ := ih h
      exact ⟨c :: a', b', rfl, .char hc ha, hb⟩
    | space hne hg h =>
      obtain ⟨a', b', rfl, ha, hb⟩ := ih h
      exact ⟨_, b', (List.append_assoc ..).symm, .space hne hg ha, hb⟩
    | sigil hc hg h =>
      obtain ⟨a', b', rfl, ha, hb⟩ := ih h
      exact ⟨_ ++ c :: a', b', by simp, .sigil hc hg ha, hb⟩

/-- Text without white space and sigils is spelled in one way. -/
theorem eq_of_plain {type text : List Char} (h : Spells type text)
    (hplain : ∀ c ∈ type, isWhite c = false ∧ c ≠ '*' ∧ c ≠ '&') : text = type := by
  induction h with
  | nil => rfl
  | char _ _ ih =>
    rw [List.forall_mem_cons] at hplain
    rw [ih hplain.2]
  | space =>
    rw [List.forall_mem_cons, isWhite_space] at hplain
    cases hplain.1.1
  | sigil hc =>
    rw [List.forall_mem_cons] at hplain
    exact absurd hc (not_or.2 hplain.1.2)

theorem isBlank {type text : List Char} (h : Spells type text)
    (hblank : Text.isBlank type = true) : Text.isBlank text = true := by
  induction h with
  | nil => rfl
  | char hc =>
    rw [isBlank_cons, hc, Bool.false_and] at hblank
    cases hblank
  | space _ hg _ ih =>
    rw [isBlank_cons, Bool.and_eq_true] at hblank
    rw [isBlank_append, hg, ih hblank.2, Bool.and_self]
  | sigil hc =>
    have hw := isWhite_of_mem hblank List.mem_cons_self
    rcases hc with rfl | rfl <;> exact absurd hw (by decide)

/-- The only white space of a type that is spelled are spaces. -/
theorem eq_space_of_isWhite {type text : List Char} (h : Spells type text) {c : Char}
    (hc : c ∈ type) (hw : isWhite c = true) : c = ' ' := by
  induction h with
  | nil => cases hc
  | char hd _ ih =>
    rcases List.mem_cons.1 hc with rfl | hc
    · rw [hd] at hw
      cases hw
    · exact ih hc
  | space _ _ _ ih =>
    rcases List.mem_cons.1 hc with rfl | hc
    · rfl
    · exact ih hc
  | sigil hd _ _ ih =>
    rcases List.mem_cons.1 hc with rfl | hc
    · rcases hd with rfl | rfl <;> exact absurd hw (by decide)
    · exact ih hc

/-- A spelling has the same characters, white space aside. -/
theorem filter_eq {type text : List Char} (h : Spells type text) :
    text.filter (! isWhite ·) = type.filter (! isWhite ·) := by
  induction h with
  | nil => rfl
  | char hc _ ih => simp [hc, ih]
  | space _ hg _ ih => simp [List.filter_append, filter_of_blank hg, ih, isWhite_space]
  | sigil _ hg _ ih => simp [List.filter_append, filter_of_blank hg, List.filter_cons, ih]

end Spells

/-! ### Normalized types -/

/-- What is squeezed is spelled by the text, white space at its end aside. -/
theorem spells_squeeze (text : List Char) :
    Spells (squeeze false text) (trimEnd text) ∧
    ∀ gap, gap ≠ [] → isBlank gap = true → Spells (squeeze true text) (trimEnd (gap ++ text)) := by
  -- The gap collects the white space that has been passed.
  induction text with
  | nil =>
    refine ⟨.nil, fun gap _ hg => ?_⟩
    have hnil := trimEnd_append_of_blank [] hg
    rw [List.nil_append] at hnil
    rw [List.append_nil, hnil]
    exact .nil
  | cons c text ih =>
    cases hc : isWhite c with
    | true =>
      have hsingle : isBlank [c] = true := by rw [isBlank_cons, hc, isBlank_nil, Bool.and_self]
      refine ⟨?_, fun gap _ hg => ?_⟩
      · rw [squeeze_white hc]
        exact ih.2 [c] (List.cons_ne_nil c []) hsingle
      · rw [squeeze_white hc, ← List.singleton_append, ← List.append_assoc]
        exact ih.2 _ (by simp) (by rw [isBlank_append, hg, hsingle, Bool.and_self])
    | false =>
      have hend : trimEnd (c :: text) = c :: trimEnd text := trimEnd_append_cons hc [] text
      refine ⟨?_, fun gap hne hg => ?_⟩
      · rw [hend]
        simpa [squeeze, hc] using Spells.char hc ih.1
      · rw [trimEnd_append_cons hc]
        by_cases hs : c = '*' ∨ c = '&'
        · rw [squeeze_sigil hs]
          exact .sigil hs hg ih.1
        · rw [not_or] at hs
          simpa [squeeze, hc, hs] using Spells.space hne hg (.char hc ih.1)

/-- A text is its normalized form with other white space. -/
theorem spells_normalizeChars (text : List Char) : Spells (normalizeChars text) (trim text) := by
  rw [normalizeChars_eq_squeeze, trim]
  exact (spells_squeeze (trimStart text)).1

theorem normalizeChars_trim (text : List Char) :
    normalizeChars (trim text) = normalizeChars text := by
  rw [(spells_normalizeChars text).normalizeChars_eq, normalizeChars_normalizeChars]

theorem normalizeChars_append_append {before after : List Char} (hb : isBlank before = true)
    (ha : isBlank after = true) (text : List Char) :
    normalizeChars (before ++ text ++ after) = normalizeChars text := by
  rw [normalizeChars_append_blank _ ha, normalizeChars, words_append_of_blank hb, normalizeChars]

/-- A change of white space that does not change the type. -/
inductive Respaced : List Char → List Char → Prop
  /-- Other white space where there is some. -/
  | gap {before gap gap' after : List Char} :
      gap ≠ [] → isBlank gap = true → gap' ≠ [] → isBlank gap' = true →
      Respaced (before ++ gap ++ after) (before ++ gap' ++ after)
  /-- White space at the ends. -/
  | ends {before text after : List Char} :
      isBlank before = true → isBlank after = true → Respaced text (before ++ text ++ after)
  /-- White space in front of a sigil. -/
  | sigil {before gap after : List Char} {c : Char} :
      c = '*' ∨ c = '&' → isBlank gap = true →
      Respaced (before ++ c :: after) (before ++ gap ++ c :: after)

theorem words_append_gap_append (before : List Char) {gap : List Char} (hne : gap ≠ [])
    (hg : isBlank gap = true) (after : List Char) :
    words (before ++ gap ++ after) = words before ++ words after := by
  cases gap with
  | nil => exact absurd rfl hne
  | cons c gap =>
    rw [isBlank_cons, Bool.and_eq_true] at hg
    rw [List.append_assoc, List.cons_append, words_append_white hg.1, words_append_of_blank hg.2]

theorem squeeze_append_congr {a b : List Char} (h : ∀ gap, squeeze gap a = squeeze gap b)
    (before : List Char) (gap : Bool) : squeeze gap (before ++ a) = squeeze gap (before ++ b) := by
  induction before generalizing gap with
  | nil => exact h gap
  | cons c before ih => simp only [List.cons_append, squeeze, ih]

theorem normalizeChars_gap_sigil {c : Char} (hc : c = '*' ∨ c = '&') {gap : List Char}
    (hg : isBlank gap = true) (before after : List Char) :
    normalizeChars (before ++ gap ++ c :: after) = normalizeChars (before ++ c :: after) := by
  have hw : isWhite c = false := by rcases hc with rfl | rfl <;> decide
  have hsqueeze : ∀ behind, squeeze behind (gap ++ c :: after) = squeeze behind (c :: after) :=
    fun behind => by rw [squeeze_gap_sigil hc hg, squeeze_sigil hc]
  rw [List.append_assoc, normalizeChars_eq_squeeze, normalizeChars_eq_squeeze]
  by_cases hb : isBlank before = true
  · rw [trimStart_append_of_blank hb, trimStart_append_of_blank hb, trimStart_append_of_blank hg]
  · rw [trimStart_append (Bool.eq_false_iff.2 hb), trimStart_append (Bool.eq_false_iff.2 hb),
      squeeze_append_congr hsqueeze]

theorem Respaced.normalizeChars_eq {a b : List Char} (h : Respaced a b) :
    normalizeChars a = normalizeChars b := by
  cases h with
  | gap hne hg hne' hg' =>
    rw [normalizeChars, normalizeChars, words_append_gap_append _ hne hg,
      words_append_gap_append _ hne' hg']
  | ends hb ha => rw [normalizeChars_append_append hb ha]
  | sigil hc hg => rw [normalizeChars_gap_sigil hc hg]

open Relation (EqvGen)

/-- The changes that lead from a type to one of its spellings, behind any text. -/
theorem Spells.eqvGen {type text : List Char} (h : Spells type text) (before : List Char) :
    EqvGen Respaced (before ++ type) (before ++ text) := by
  induction h generalizing before with
  | nil => exact .refl _
  | @char c _ _ _ _ ih => simpa using ih (before ++ [c])
  | @space gap type text hne hg _ ih =>
    have hgap := EqvGen.rel _ _
      (@Respaced.gap before [' '] gap text (List.cons_ne_nil ' ' [])
        (show Text.isBlank [' '] = true by decide) hne hg)
    have hrest := ih (before ++ [' '])
    simp only [List.append_assoc, List.singleton_append] at hgap hrest
    exact hrest.trans _ _ _ hgap
  | @sigil c gap type text hc hg _ ih =>
    have hgap := EqvGen.rel _ _ (@Respaced.sigil before gap text c hc hg)
    have hrest := ih (before ++ [c])
    simp only [List.append_assoc, List.singleton_append] at hgap hrest
    exact hrest.trans _ _ _ hgap

theorem eqvGen_normalizeChars (text : List Char) : EqvGen Respaced (normalizeChars text) text := by
  obtain ⟨before, after, hb, ha, htext⟩ := exists_blank_append_trim text
  have hends := EqvGen.rel _ _ (@Respaced.ends before (trim text) after hb ha)
  rw [← htext] at hends
  exact ((spells_normalizeChars text).eqvGen []).trans _ _ _ hends

/-- Two types have one normalized form exactly if changes of white space lead from one to the
other. -/
theorem normalizeChars_eq_iff {a b : List Char} :
    normalizeChars a = normalizeChars b ↔ EqvGen Respaced a b := by
  constructor
  · intro h
    have ha := (eqvGen_normalizeChars a).symm
    rw [h] at ha
    exact ha.trans _ _ _ (eqvGen_normalizeChars b)
  · intro h
    induction h with
    | rel _ _ hstep => exact hstep.normalizeChars_eq
    | refl _ => rfl
    | symm _ _ _ ih => exact ih.symm
    | trans _ _ _ _ _ ih ih' => exact ih.trans ih'

/-! ### Types that are read back -/

theorem eq_of_ofText_eq_unsupported {text other : String} (h : ofText text = .unsupported other) :
    other = text := by
  simp only [ofText] at h
  repeat' split at h
  all_goals cases h
  rfl

theorem normalizeChars_eq_pointer_iff {name : String} (h : IsClassName name) {text : List Char} :
    normalizeChars text = name.toList ++ ['*'] ↔
      ∃ gap, isBlank gap = true ∧ trim text = name.toList ++ gap ++ ['*'] := by
  constructor
  · intro hn
    have hspells := spells_normalizeChars text
    rw [hn] at hspells
    obtain ⟨front, back, ht, hfront, hback⟩ := hspells.of_append
    rw [ht, hfront.eq_of_plain h.plain]
    cases hback with
    | char _ hnil =>
      cases hnil
      exact ⟨[], rfl, by simp⟩
    | @sigil _ gap _ _ _ hg hnil =>
      cases hnil
      exact ⟨gap, hg, by simp⟩
  · rintro ⟨gap, hg, ht⟩
    have hword : words (name.toList ++ ['*']) = [name.toList ++ ['*']] := by
      refine words_of_forall (by simp) (List.forall_mem_append.2
        ⟨fun c hc => (h.plain c hc).1, by decide⟩)
    rw [← normalizeChars_trim, ht, normalizeChars_gap_sigil (.inl rfl) hg, normalizeChars, hword,
      joinWords, List.flatMap_nil, List.append_nil]

/-- What is printed for a type that is read from a spelling is read as the same type. -/
theorem ofText_normalize_text {text : String} {type : DeclaredType}
    (h : ofText (normalize text) = type) : ofText (normalize type.text) = type := by
  cases type with
  | void | value | bool | int | double | string => decide +kernel
  | object name =>
    obtain ⟨hname, hascii⟩ := isBindableName_iff.1 (ofText_eq_object_iff.1 h).1
    rw [DeclaredType.text, ofText_pointer hname, if_pos hascii]
  | unsupported other =>
    obtain rfl := eq_of_ofText_eq_unsupported h
    rwa [DeclaredType.text, normalize, normalize, String.toList_ofList,
      normalizeChars_normalizeChars, ← normalize]

/-- Normalization takes each type to one form for all that differ from it by white space only, and
leaves that form alone. A type points to a class if it is a bindable name and one star. What is
printed for a type is read as this type. -/
theorem normalize_canonical (text : String) :
    normalize (normalize text) = normalize text ∧
    (∀ other, normalize text = normalize other ↔ EqvGen Respaced text.toList other.toList) ∧
    (∀ name, ofText (normalize text) = .object name ↔ isBindableName name = true ∧
      ∃ gap, isBlank gap = true ∧ trim text.toList = name.toList ++ gap ++ ['*']) ∧
    ofText (normalize (ofText (normalize text)).text) = ofText (normalize text) := by
  refine ⟨?_, fun other => ?_, fun name => ?_, ofText_normalize_text rfl⟩
  · rw [normalize, normalize, String.toList_ofList, normalizeChars_normalizeChars]
  · rw [normalize, normalize, String.ofList_inj, normalizeChars_eq_iff]
  · rw [ofText_eq_object_iff]
    refine and_congr_right fun hbindable => ?_
    rw [← normalizeChars_eq_pointer_iff (isBindableName_iff.1 hbindable).1, normalize,
      ← String.toList_inj, String.toList_ofList, String.toList_append]
    rfl

end WrenGlue.Cpp.DeclaredType
