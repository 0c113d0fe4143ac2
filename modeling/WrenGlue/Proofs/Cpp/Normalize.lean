import WrenGlue.Cpp.DeclaredType
import WrenGlue.Proofs.Text.White

/-! Normalized types, one character at a time: white space survives as one space, and only where no
sigil follows it. So two spellings of a type that differ in such white space have one normalized
form. -/

namespace WrenGlue.Cpp.DeclaredType

open WrenGlue.Text

/-- The rest of a spelling in its normalized form, where `gap` tells whether white space came before
it. -/
def squeeze : (gap : Bool) → List Char → List Char
  | _, [] => []
  | gap, c :: rest =>
    if isWhite c then squeeze true rest
    else if gap = true ∧ c ≠ '*' ∧ c ≠ '&' then ' ' :: c :: squeeze false rest
    else c :: squeeze false rest

theorem squeeze_white {c : Char} (h : isWhite c = true) (gap : Bool) (rest : List Char) :
    squeeze gap (c :: rest) = squeeze true rest := by
  simp [squeeze, h]

theorem squeeze_blank_append {blank : List Char} (h : isBlank blank = true) (text : List Char) :
    squeeze true (blank ++ text) = squeeze true text := by
  induction blank with
  | nil => rfl
  | cons c blank ih =>
    simp only [isBlank_cons, Bool.and_eq_true] at h
    rw [List.cons_append, squeeze_white h.1, ih h.2]

/-- A sigil takes no space in front of it. -/
theorem squeeze_sigil {c : Char} (h : c = '*' ∨ c = '&') (gap : Bool) (rest : List Char) :
    squeeze gap (c :: rest) = c :: squeeze false rest := by
  have hw : isWhite c = false := by rcases h with rfl | rfl <;> decide
  have hs : ¬(gap = true ∧ c ≠ '*' ∧ c ≠ '&') := fun ⟨_, h1, h2⟩ => h.elim h1 h2
  simp only [squeeze, hw, if_neg hs, Bool.false_eq_true, if_false]

theorem isWhite_space : isWhite ' ' = true := by decide

theorem squeeze_gap {gap : List Char} (hne : gap ≠ []) (hg : isBlank gap = true) (behind : Bool)
    (text : List Char) : squeeze behind (gap ++ text) = squeeze true text := by
  cases gap with
  | nil => exact absurd rfl hne
  | cons c gap =>
    simp only [isBlank_cons, Bool.and_eq_true] at hg
    rw [List.cons_append, squeeze_white hg.1, squeeze_blank_append hg.2]

theorem squeeze_gap_sigil {c : Char} (hc : c = '*' ∨ c = '&') {gap : List Char}
    (hg : isBlank gap = true) (behind : Bool) (text : List Char) :
    squeeze behind (gap ++ c :: text) = c :: squeeze false text := by
  by_cases hne : gap = []
  · rw [hne, List.nil_append, squeeze_sigil hc]
  · rw [squeeze_gap hne hg, squeeze_sigil hc]

theorem squeeze_of_blank {gap : List Char} (hg : isBlank gap = true) (behind : Bool) :
    squeeze behind gap = [] := by
  by_cases hne : gap = []
  · rw [hne]
    rfl
  · rw [← List.append_nil gap, squeeze_gap hne hg]
    rfl

/-- A word stays as it is. -/
theorem squeeze_word {word : List Char} (h : ∀ c ∈ word, isWhite c = false) (rest : List Char) :
    squeeze false (word ++ rest) = word ++ squeeze false rest := by
  induction word with
  | nil => rfl
  | cons c word ih =>
    rw [List.forall_mem_cons] at h
    simp [squeeze, h.1, ih h.2]

/-- A word behind white space, unless it begins with a sigil. -/
theorem squeeze_gap_word {gap word : List Char} {c : Char} (hne : gap ≠ [])
    (hg : isBlank gap = true) (h : ∀ d ∈ c :: word, isWhite d = false) (hc : c ≠ '*' ∧ c ≠ '&')
    (behind : Bool) (rest : List Char) :
    squeeze behind (gap ++ (c :: word ++ rest)) = ' ' :: (c :: word ++ squeeze false rest) := by
  rw [List.forall_mem_cons] at h
  rw [squeeze_gap hne hg]
  simp [squeeze, h.1, hc, squeeze_word h.2]

/-- What is left of white space is kept. -/
theorem squeeze_squeeze (gap : Bool) (text : List Char) :
    squeeze false (squeeze gap text) = squeeze gap text := by
  induction text generalizing gap with
  | nil => rfl
  | cons c rest ih =>
    cases hc : isWhite c with
    | true => rw [squeeze_white hc, ih]
    | false =>
      by_cases hs : gap = true ∧ c ≠ '*' ∧ c ≠ '&'
      · simp [squeeze, hc, hs, isWhite_space, ih]
      · simp [squeeze, hc, hs, ih]

/-- Words behind another word. -/
def joinBehind (ws : List (List Char)) : List Char :=
  ws.flatMap fun w => if attaches w then w else ' ' :: w

theorem joinWords_cons (word : List Char) (ws : List (List Char)) :
    joinWords (word :: ws) = word ++ joinBehind ws := rfl

theorem squeeze_eq (text : List Char) :
    squeeze true text = joinBehind (words text) ∧
    squeeze false text =
      text.takeWhile (! isWhite ·) ++ joinBehind (words (text.dropWhile (! isWhite ·))) := by
  induction text with
  | nil => exact ⟨rfl, rfl⟩
  | cons c rest ih =>
    cases hc : isWhite c with
    | true =>
      rw [squeeze_white hc, squeeze_white hc, ih.1]
      simp [hc, words_cons_white hc]
    | false =>
      refine ⟨?_, by simp [squeeze, hc, ih.2]⟩
      rw [words_cons hc, joinBehind, List.flatMap_cons, ← joinBehind]
      by_cases hs : c = '*' ∨ c = '&'
      · rw [squeeze_sigil hs, ih.2]
        rcases hs with rfl | rfl <;> simp [attaches]
      · have ha : attaches (c :: rest.takeWhile (! isWhite ·)) = false := by
          unfold attaches
          split <;> simp_all
        rw [not_or] at hs
        simp [squeeze, hc, hs, ha, ih.2]

theorem normalizeChars_eq_squeeze (text : List Char) :
    normalizeChars text = squeeze false (trimStart text) := by
  induction text with
  | nil => rfl
  | cons c rest ih =>
    cases hc : isWhite c with
    | true =>
      have ht : trimStart (c :: rest) = trimStart rest := by simp [trimStart, hc]
      rw [normalizeChars, words_cons_white hc, ← normalizeChars, ih, ht]
    | false =>
      rw [normalizeChars, words_cons hc, joinWords_cons, trimStart_cons hc]
      simp [squeeze, hc, (squeeze_eq rest).2]

theorem normalizeChars_trimStart (text : List Char) :
    normalizeChars (trimStart text) = normalizeChars text := by
  obtain ⟨gap, hg, ht⟩ := exists_blank_append_trimStart text
  rw [normalizeChars, normalizeChars, ← words_append_of_blank hg, ← ht]

/-- A normalized type is a type in its normalized form. -/
theorem normalizeChars_normalizeChars (text : List Char) :
    normalizeChars (normalizeChars text) = normalizeChars text := by
  have hstart : trimStart (squeeze false (trimStart text)) = squeeze false (trimStart text) := by
    cases hs : trimStart text with
    | nil => rfl
    | cons c rest =>
      have hc : isWhite c = false := isWhite_eq_false_of_trimStart hs
      simp [squeeze, hc, trimStart_cons hc]
  rw [normalizeChars_eq_squeeze, normalizeChars_eq_squeeze, hstart, squeeze_squeeze]

theorem normalizeChars_cons_ne_nil {c : Char} (h : isWhite c = false) (text : List Char) :
    normalizeChars (c :: text) ≠ [] := by
  rw [normalizeChars_eq_squeeze, trimStart_cons h]
  simp [squeeze, h]

theorem normalizeChars_append_blank (text : List Char) {gap : List Char}
    (h : isBlank gap = true) : normalizeChars (text ++ gap) = normalizeChars text := by
  rw [normalizeChars, words_append_blank text h, normalizeChars]

/-- `text` spells the type `type` with other white space: any run of it for a space, and any in
front of a sigil. -/
inductive Spells : (type text : List Char) → Prop
  | nil : Spells [] []
  | char {c : Char} {type text : List Char} :
      isWhite c = false → Spells type text → Spells (c :: type) (c :: text)
  | space {gap type text : List Char} :
      gap ≠ [] → isBlank gap = true → Spells type text → Spells (' ' :: type) (gap ++ text)
  | sigil {c : Char} {gap type text : List Char} :
      c = '*' ∨ c = '&' → isBlank gap = true → Spells type text →
      Spells (c :: type) (gap ++ c :: text)

namespace Spells

theorem squeeze_eq {type text : List Char} (h : Spells type text) (behind : Bool) :
    squeeze behind text = squeeze behind type := by
  induction h generalizing behind with
  | nil => rfl
  | char hc _ ih => simp only [squeeze, hc, ih]
  | space hne hg _ ih => rw [squeeze_gap hne hg, squeeze_white isWhite_space, ih]
  | sigil hc hg _ ih => rw [squeeze_gap_sigil hc hg, squeeze_sigil hc, ih]

/-- Other white space makes no other type. -/
theorem normalizeChars_eq {type text : List Char} (h : Spells type text) :
    normalizeChars text = normalizeChars type := by
  rw [normalizeChars_eq_squeeze, normalizeChars_eq_squeeze]
  induction h with
  | nil => rfl
  | char hc h _ => rw [trimStart_cons hc, trimStart_cons hc, (Spells.char hc h).squeeze_eq]
  | @space gap type text _ hg _ ih =>
    have hs : trimStart (' ' :: type) = trimStart type := by simp [trimStart, isWhite_space]
    rw [trimStart_append_of_blank hg, hs, ih]
  | @sigil c gap type text hc hg h _ =>
    have hw : isWhite c = false := by rcases hc with rfl | rfl <;> decide
    rw [trimStart_append_of_blank hg, trimStart_cons hw, trimStart_cons hw,
      (Spells.char hw h).squeeze_eq]

theorem not_mem {type text : List Char} (h : Spells type text) {c : Char}
    (hw : isWhite c = false) (hc : c ∉ type) : c ∉ text := by
  have hgap : ∀ {gap : List Char}, isBlank gap = true → c ∉ gap := by
    intro gap hg hm
    rw [isWhite_of_mem hg hm] at hw
    cases hw
  induction h with
  | nil => exact hc
  | char _ _ ih => simp_all
  | space _ hg _ ih =>
    rw [List.mem_append, not_or]
    exact ⟨hgap hg, ih fun hm => hc (List.mem_cons_of_mem _ hm)⟩
  | sigil _ hg _ ih =>
    rw [List.mem_cons, not_or] at hc
    rw [List.mem_append, not_or, List.mem_cons, not_or]
    exact ⟨hgap hg, hc.1, ih hc.2⟩

theorem getLast?_eq {type text : List Char} (h : Spells type text) {c : Char}
    (hc : type.getLast? = some c) (hw : isWhite c = false) : text.getLast? = some c := by
  induction h with
  | nil => exact hc
  | @char d type text _ h ih =>
    cases ht : type.getLast? with
    | none =>
      obtain rfl := List.getLast?_eq_none_iff.1 ht
      cases h
      exact hc
    | some e =>
      obtain rfl : e = c := by simpa [List.getLast?_cons, ht] using hc
      simp [List.getLast?_cons, ih ht]
  | @space gap type text _ _ _ ih =>
    cases ht : type.getLast? with
    | none =>
      obtain rfl : ' ' = c := by simpa [List.getLast?_cons, ht] using hc
      exact absurd hw (by decide)
    | some e =>
      obtain rfl : e = c := by simpa [List.getLast?_cons, ht] using hc
      simp [List.getLast?_append, ih ht]
  | @sigil d gap type text _ _ h ih =>
    cases ht : type.getLast? with
    | none =>
      obtain rfl := List.getLast?_eq_none_iff.1 ht
      cases h
      simpa [List.getLast?_append] using hc
    | some e =>
      obtain rfl : e = c := by simpa [List.getLast?_cons, ht] using hc
      simp [List.getLast?_append, List.getLast?_cons, ih ht]

end Spells

end WrenGlue.Cpp.DeclaredType
