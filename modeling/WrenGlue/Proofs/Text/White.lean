import WrenGlue.Text.White
import Mathlib.Data.List.DropRight

/-! White space around and between other text: trimming takes it off the ends, and words do not
depend on how much of it stands between them. -/

namespace WrenGlue.Text

/-- A property of the characters of a text is decided on these alone, not on every character. -/
instance (priority := 2000) decidableForallMem {p : Char → Prop} [DecidablePred p]
    (text : List Char) : Decidable (∀ c ∈ text, p c) :=
  List.decidableBAll p text

@[simp] theorem isBlank_nil : isBlank [] = true := rfl

@[simp] theorem isBlank_cons (c : Char) (text : List Char) :
    isBlank (c :: text) = (isWhite c && isBlank text) := rfl

theorem isBlank_append (a b : List Char) : isBlank (a ++ b) = (isBlank a && isBlank b) :=
  List.all_append

theorem isWhite_of_mem {text : List Char} (h : isBlank text = true) {c : Char} (hc : c ∈ text) :
    isWhite c = true :=
  List.all_eq_true.1 h c hc

/-! ### Trimming -/

theorem trimStart_append_of_blank {gap : List Char} (h : isBlank gap = true) (text : List Char) :
    trimStart (gap ++ text) = trimStart text :=
  List.dropWhile_append_of_pos fun _ hc => isWhite_of_mem h hc

theorem trimStart_cons {c : Char} (h : isWhite c = false) (text : List Char) :
    trimStart (c :: text) = c :: text := by
  simp [trimStart, h]

/-- What is left of a text begins with other than white space. -/
theorem isWhite_eq_false_of_trimStart {text rest : List Char} {c : Char}
    (h : trimStart text = c :: rest) : isWhite c = false := by
  have hdrop := List.head?_dropWhile_not isWhite text
  rw [← trimStart, h] at hdrop
  simpa using hdrop

theorem trimStart_eq_nil_iff {text : List Char} : trimStart text = [] ↔ isBlank text = true := by
  simp [trimStart, isBlank, List.dropWhile_eq_nil_iff]

theorem trimStart_append {a : List Char} (h : isBlank a = false) (b : List Char) :
    trimStart (a ++ b) = trimStart a ++ b := by
  have hne : trimStart a ≠ [] := by simp [trimStart_eq_nil_iff, h]
  rw [trimStart, List.dropWhile_append, ← trimStart]
  simp [hne]

/-- What stands in front of the trimmed text. -/
theorem exists_blank_append_trimStart (text : List Char) :
    ∃ gap, isBlank gap = true ∧ text = gap ++ trimStart text :=
  ⟨text.takeWhile isWhite, List.all_takeWhile, (List.takeWhile_append_dropWhile).symm⟩

theorem trimEnd_append_of_blank (text : List Char) {gap : List Char} (h : isBlank gap = true) :
    trimEnd (text ++ gap) = trimEnd text := by
  have hr : ∀ c ∈ gap.reverse, isWhite c = true := fun c hc =>
    isWhite_of_mem h (List.mem_reverse.1 hc)
  rw [trimEnd, List.reverse_append, List.dropWhile_append_of_pos hr, ← trimEnd]

theorem trimEnd_append_singleton {c : Char} (h : isWhite c = false) (text : List Char) :
    trimEnd (text ++ [c]) = text ++ [c] := by
  simp [trimEnd, h]

theorem trimEnd_of_getLast? {c : Char} {text : List Char} (hl : text.getLast? = some c)
    (h : isWhite c = false) : trimEnd text = text := by
  obtain ⟨init, rfl⟩ := List.getLast?_eq_some_iff.1 hl
  exact trimEnd_append_singleton h init

theorem trimEnd_append (a : List Char) {b : List Char} (h : isBlank b = false) :
    trimEnd (a ++ b) = a ++ trimEnd b := by
  have hne : b.reverse.dropWhile isWhite ≠ [] := by
    simpa [isBlank, List.all_eq_false, List.dropWhile_eq_nil_iff] using h
  rw [trimEnd, List.reverse_append, List.dropWhile_append]
  simp [hne, trimEnd]

theorem trimEnd_append_cons {c : Char} (h : isWhite c = false) (text rest : List Char) :
    trimEnd (text ++ c :: rest) = text ++ c :: trimEnd rest := by
  rw [← List.singleton_append, ← List.append_assoc]
  by_cases hr : isBlank rest = true
  · have hnil : trimEnd rest = [] := by
      have ht := trimEnd_append_of_blank [] hr
      rwa [List.nil_append] at ht
    rw [trimEnd_append_of_blank _ hr, trimEnd_append_singleton h, hnil]
  · rw [trimEnd_append _ (Bool.eq_false_iff.2 hr), List.append_assoc, List.singleton_append]

/-- Text with white space at neither end. -/
structure IsTrimmed (text : List Char) : Prop where
  head : text.head?.any isWhite = false
  last : text.getLast?.any isWhite = false

theorem trimStart_of_head? {text : List Char} (h : text.head?.any isWhite = false) :
    trimStart text = text := by
  cases text with
  | nil => rfl
  | cons c rest => exact trimStart_cons (by simpa using h) rest

theorem IsTrimmed.trim_eq {text : List Char} (h : IsTrimmed text) {before after : List Char}
    (hb : isBlank before = true) (ha : isBlank after = true) :
    trim (before ++ text ++ after) = text := by
  rw [trim, List.append_assoc, trimStart_append_of_blank hb]
  cases hl : text.getLast? with
  | none =>
    obtain rfl := List.getLast?_eq_none_iff.1 hl
    rw [List.nil_append, trimStart_eq_nil_iff.2 ha]
    rfl
  | some c =>
    have hc : isWhite c = false := by simpa [hl] using h.last
    have hblank : isBlank text = false := by
      refine Bool.eq_false_iff.2 fun hall => ?_
      rw [isWhite_of_mem hall (List.mem_of_getLast? hl)] at hc
      cases hc
    rw [trimStart_append hblank, trimStart_of_head? h.head, trimEnd_append_of_blank _ ha,
      trimEnd_of_getLast? hl hc]

theorem getLast?_trimStart {text : List Char} (h : isBlank text = false) :
    (trimStart text).getLast? = text.getLast? := by
  obtain ⟨gap, _, ht⟩ := exists_blank_append_trimStart text
  have hne : trimStart text ≠ [] := by simp [trimStart_eq_nil_iff, h]
  rw [ht, List.getLast?_append, ← ht]
  cases hl : (trimStart text).getLast? with
  | none => exact absurd (List.getLast?_eq_none_iff.1 hl) hne
  | some c => rfl

theorem trimStart_trimStart (text : List Char) : trimStart (trimStart text) = trimStart text :=
  List.dropWhile_idempotent _ _

theorem trim_trimStart (text : List Char) : trim (trimStart text) = trim text := by
  rw [trim, trimStart_trimStart, ← trim]

theorem trim_append_of_blank {gap : List Char} (h : isBlank gap = true) (text : List Char) :
    trim (gap ++ text) = trim text := by
  rw [trim, trimStart_append_of_blank h, ← trim]

theorem trim_append_blank (text : List Char) {gap : List Char} (h : isBlank gap = true) :
    trim (text ++ gap) = trim text := by
  by_cases ht : isBlank text = true
  · have hboth : isBlank (text ++ gap) = true := by rw [isBlank_append, ht, h, Bool.and_self]
    rw [trim, trim, trimStart_eq_nil_iff.2 ht, trimStart_eq_nil_iff.2 hboth]
  · rw [trim, trimStart_append (Bool.eq_false_iff.2 ht), trimEnd_append_of_blank _ h, ← trim]

/-- What stands behind the text without the white space at its end. -/
theorem exists_trimEnd_append_blank (text : List Char) :
    ∃ gap, isBlank gap = true ∧ text = trimEnd text ++ gap := by
  refine ⟨(splitTail isWhite text).2, ?_, (splitTail_append isWhite text).symm⟩
  rw [isBlank, splitTail, List.all_reverse]
  exact List.all_takeWhile

/-- What stands on both sides of the trimmed text. -/
theorem exists_blank_append_trim (text : List Char) : ∃ before after,
    isBlank before = true ∧ isBlank after = true ∧ text = before ++ trim text ++ after := by
  obtain ⟨before, hb, htext⟩ := exists_blank_append_trimStart text
  obtain ⟨after, ha, hstart⟩ := exists_trimEnd_append_blank (trimStart text)
  refine ⟨before, after, hb, ha, ?_⟩
  rw [trim, List.append_assoc, ← hstart]
  exact htext

theorem isWhite_eq_false_of_trim {text rest : List Char} {c : Char} (h : trim text = c :: rest) :
    isWhite c = false := by
  obtain ⟨gap, -, hstart⟩ := exists_trimEnd_append_blank (trimStart text)
  rw [← trim, h, List.cons_append] at hstart
  exact isWhite_eq_false_of_trimStart hstart

theorem isTrimmed_trim (text : List Char) : IsTrimmed (trim text) := by
  constructor
  · cases h : trim text with
    | nil => rfl
    | cons c rest => simpa using isWhite_eq_false_of_trim h
  · rw [trim, trimEnd, List.getLast?_reverse]
    have h := List.head?_dropWhile_not isWhite (trimStart text).reverse
    cases hd : ((trimStart text).reverse.dropWhile isWhite).head? with
    | none => rfl
    | some c => simpa [hd] using h

theorem trim_trim (text : List Char) : trim (trim text) = trim text := by
  simpa using (isTrimmed_trim text).trim_eq isBlank_nil isBlank_nil

theorem filter_of_blank {gap : List Char} (h : isBlank gap = true) :
    gap.filter (! isWhite ·) = [] :=
  List.filter_eq_nil_iff.2 fun c hc => by simp [isWhite_of_mem h hc]

theorem filter_trim (text : List Char) :
    (trim text).filter (! isWhite ·) = text.filter (! isWhite ·) := by
  obtain ⟨before, after, hb, ha, htext⟩ := exists_blank_append_trim text
  conv_rhs => rw [htext, List.filter_append, List.filter_append, filter_of_blank hb,
    filter_of_blank ha, List.nil_append, List.append_nil]

theorem mem_of_mem_trimStart {c : Char} {text : List Char} (h : c ∈ trimStart text) : c ∈ text :=
  (List.dropWhile_suffix _).subset h

theorem mem_of_mem_trimEnd {c : Char} {text : List Char} (h : c ∈ trimEnd text) : c ∈ text := by
  rw [trimEnd, List.mem_reverse] at h
  exact List.mem_reverse.1 ((List.dropWhile_suffix _).subset h)

theorem mem_of_mem_trim {c : Char} {text : List Char} (h : c ∈ trim text) : c ∈ text :=
  mem_of_mem_trimStart (mem_of_mem_trimEnd h)

/-- Trimming a text that ends with other than white space, but for white space behind it. -/
theorem trim_append_append {before front tail after : List Char} {c : Char}
    (hb : isBlank before = true) (hf : isBlank front = false) (hl : tail.getLast? = some c)
    (hc : isWhite c = false) (ha : isBlank after = true) :
    trim (before ++ front ++ tail ++ after) = trimStart front ++ tail := by
  have hlast : (trimStart front ++ tail).getLast? = some c := by
    rw [List.getLast?_append, hl, Option.some_or]
  rw [trim, List.append_assoc, List.append_assoc, trimStart_append_of_blank hb,
    trimStart_append hf, ← List.append_assoc, trimEnd_append_of_blank _ ha,
    trimEnd_of_getLast? hlast hc]

/-! ### Words -/

theorem words_append_of_blank {gap : List Char} (h : isBlank gap = true) (text : List Char) :
    words (gap ++ text) = words text := by
  induction gap with
  | nil => rfl
  | cons c gap ih =>
    simp only [isBlank_cons, Bool.and_eq_true] at h
    rw [List.cons_append, words_cons_white h.1, ih h.2]

theorem words_of_blank {gap : List Char} (h : isBlank gap = true) : words gap = [] := by
  simpa [words] using words_append_of_blank h []

theorem words_append_blank (text : List Char) {gap : List Char} (h : isBlank gap = true) :
    words (text ++ gap) = words text := by
  cases gap with
  | nil => rw [List.append_nil]
  | cons c gap =>
    simp only [isBlank_cons, Bool.and_eq_true] at h
    rw [words_append_white h.1, words_of_blank h.2, List.append_nil]

theorem words_of_forall {word : List Char} (hne : word ≠ []) (h : ∀ c ∈ word, isWhite c = false) :
    words word = [word] := by
  simp [words, List.splitOnP_eq_singleton h, hne]

/-- A word, white space behind it, and more text. -/
theorem words_append_gap {word gap : List Char} (hne : word ≠ [])
    (h : ∀ c ∈ word, isWhite c = false) (hgne : gap ≠ []) (hg : isBlank gap = true)
    (text : List Char) : words (word ++ (gap ++ text)) = word :: words text := by
  cases gap with
  | nil => exact absurd rfl hgne
  | cons c gap =>
    simp only [isBlank_cons, Bool.and_eq_true] at hg
    rw [List.cons_append, words_append_white hg.1, words_of_forall hne h,
      words_append_of_blank hg.2, List.singleton_append]

theorem words_cons {c : Char} (h : isWhite c = false) (rest : List Char) :
    words (c :: rest) =
      (c :: rest.takeWhile (! isWhite ·)) :: words (rest.dropWhile (! isWhite ·)) := by
  have hword : ∀ d ∈ c :: rest.takeWhile (! isWhite ·), isWhite d = false := by
    intro d hd
    rcases List.mem_cons.1 hd with rfl | hd
    · exact h
    · simpa using List.mem_takeWhile_imp hd
  have hsplit : c :: rest =
      (c :: rest.takeWhile (! isWhite ·)) ++ rest.dropWhile (! isWhite ·) := by
    rw [List.cons_append, List.takeWhile_append_dropWhile]
  cases hd : rest.dropWhile (! isWhite ·) with
  | nil =>
    rw [hd, List.append_nil] at hsplit
    rw [hsplit, words_of_forall (List.cons_ne_nil _ _) hword]
    rfl
  | cons d more =>
    have hdw : isWhite d = true := by
      have h := List.head?_dropWhile_not (! isWhite ·) rest
      rw [hd] at h
      simpa using h
    rw [hd] at hsplit
    rw [hsplit, words_append_white hdw, words_of_forall (List.cons_ne_nil _ _) hword,
      words_cons_white hdw, List.singleton_append]

/-- A text without words is white space. -/
theorem isBlank_of_words_eq_nil {text : List Char} (h : words text = []) : isBlank text = true := by
  obtain ⟨gap, hg, ht⟩ := exists_blank_append_trimStart text
  cases hs : trimStart text with
  | nil => exact trimStart_eq_nil_iff.1 hs
  | cons c rest =>
    have hc : isWhite c = false := isWhite_eq_false_of_trimStart hs
    rw [ht, words_append_of_blank hg, hs, words_cons hc] at h
    cases h

/-- The first word of a text. White space parts it from the others. -/
theorem exists_of_words_eq_cons {text word : List Char} {more : List (List Char)}
    (h : words text = word :: more) : ∃ gap rest, isBlank gap = true ∧
      text = gap ++ word ++ rest ∧ words rest = more ∧ word ≠ [] ∧
      (∀ c ∈ word, isWhite c = false) ∧ ∀ c ∈ rest.head?, isWhite c = true := by
  obtain ⟨gap, hg, ht⟩ := exists_blank_append_trimStart text
  cases hs : trimStart text with
  | nil =>
    rw [words_of_blank (trimStart_eq_nil_iff.1 hs)] at h
    cases h
  | cons c rest =>
    have hc : isWhite c = false := isWhite_eq_false_of_trimStart hs
    rw [ht, words_append_of_blank hg, hs, words_cons hc] at h
    obtain ⟨rfl, rfl⟩ := List.cons.inj h
    refine ⟨gap, rest.dropWhile (! isWhite ·), hg, ?_, rfl, List.cons_ne_nil _ _, ?_, ?_⟩
    · rw [List.append_assoc, List.cons_append, List.takeWhile_append_dropWhile, ← hs, ← ht]
    · intro d hd
      rcases List.mem_cons.1 hd with rfl | hd
      · exact hc
      · simpa using List.mem_takeWhile_imp hd
    · intro d hd
      have hdrop := List.head?_dropWhile_not (! isWhite ·) rest
      rw [Option.mem_def.1 hd] at hdrop
      simpa using hdrop

/-! ### The trailing run -/

theorem of_mem_splitTail {p : Char → Bool} {text : List Char} {c : Char}
    (h : c ∈ (splitTail p text).2) : p c = true := by
  rw [splitTail, List.mem_reverse] at h
  exact List.all_eq_true.1 List.all_takeWhile c h

theorem splitTail_eq {p : Char → Bool} {front run : List Char}
    (hf : front.getLast?.any p = false) (hr : ∀ c ∈ run, p c = true) :
    splitTail p (front ++ run) = (front, run) := by
  have hrun : ∀ c ∈ run.reverse, p c = true := fun c hc => hr c (List.mem_reverse.1 hc)
  have hhead : front.reverse.head?.any p = false := by simpa using hf
  rw [splitTail, List.reverse_append, List.dropWhile_append_of_pos hrun,
    List.takeWhile_append_of_pos hrun]
  cases hrev : front.reverse with
  | nil => simp [List.reverse_eq_nil_iff.1 hrev]
  | cons c rest =>
    rw [hrev, List.head?_cons, Option.any_some] at hhead
    have hfront : front = rest.reverse ++ [c] := by simpa using congrArg List.reverse hrev
    simp [hhead, hfront]

end WrenGlue.Text
