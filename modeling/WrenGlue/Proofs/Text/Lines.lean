import WrenGlue.Text.Cut

/-! The lines of a text: no line holds a line feed, and lines with a line feed behind each make a
text of just these lines. Text in which no comment begins stays when the comment of its line is cut
off. -/

namespace WrenGlue.Text

theorem not_mem_of_mem_splitOn {sep : Char} {text piece : List Char}
    (h : piece ∈ text.splitOn sep) : sep ∉ piece := by
  induction text generalizing piece with
  | nil => simp_all [List.splitOn_nil]
  | cons c rest ih =>
    rw [List.splitOn_cons_eq_if_modifyHead] at h
    by_cases hc : c = sep
    · simp only [hc, beq_self_eq_true, if_true, List.mem_cons] at h
      rcases h with rfl | h
      · exact List.not_mem_nil
      · exact ih h
    · simp only [beq_iff_eq, hc, if_false] at h
      cases hs : rest.splitOn sep with
      | nil => exact absurd hs (List.splitOn_ne_nil sep rest)
      | cons first others =>
        rw [hs, List.modifyHead_cons, List.mem_cons] at h
        rcases h with rfl | h
        · have hfirst : sep ∉ first := ih (hs ▸ List.mem_cons_self)
          simp [Ne.symm hc, hfirst]
        · exact ih (hs ▸ List.mem_cons_of_mem _ h)

theorem not_mem_of_mem_lines {text line : List Char} (h : line ∈ lines text) : '\n' ∉ line := by
  simp only [lines] at h
  split at h
  · exact not_mem_of_mem_splitOn (List.dropLast_subset _ h)
  · exact not_mem_of_mem_splitOn h

/-- The lines `ls`, with a line feed behind each. -/
def unlines (ls : List (List Char)) : List Char := ls.flatMap fun line => line ++ ['\n']

@[simp] theorem unlines_nil : unlines [] = [] := rfl

theorem unlines_cons (line : List Char) (ls : List (List Char)) :
    unlines (line :: ls) = line ++ '\n' :: unlines ls := by
  simp [unlines]

theorem splitOn_unlines_append {ls : List (List Char)} (h : ∀ line ∈ ls, '\n' ∉ line)
    (rest : List Char) : (unlines ls ++ rest).splitOn '\n' = ls ++ rest.splitOn '\n' := by
  induction ls with
  | nil => rfl
  | cons line ls ih =>
    rw [unlines_cons, List.append_assoc, List.cons_append,
      List.splitOn_append_cons_self_of_not_mem (h line List.mem_cons_self),
      ih fun l hl => h l (List.mem_cons_of_mem _ hl), List.cons_append]

theorem lines_unlines {ls : List (List Char)} (h : ∀ line ∈ ls, '\n' ∉ line) :
    lines (unlines ls) = ls := by
  have hs := splitOn_unlines_append h []
  rw [List.append_nil, List.splitOn_nil] at hs
  simp [lines, hs]

/-- The last line needs no line feed, if there is something in it. -/
theorem lines_unlines_append {ls : List (List Char)} {last : List Char}
    (h : ∀ line ∈ ls, '\n' ∉ line) (hlast : '\n' ∉ last) (hne : last ≠ []) :
    lines (unlines ls ++ last) = ls ++ [last] := by
  have hs := splitOn_unlines_append h last
  rw [List.splitOn_eq_singleton hlast] at hs
  simp [lines, hs, hne]

/-! ### One line of a text -/

/-- A line begins behind `front`. -/
def AtLineStart (front : List Char) : Prop := ∀ c ∈ front.getLast?, c = '\n'

instance (front : List Char) : Decidable (AtLineStart front) :=
  Option.decidableForallMem front.getLast?

/-- What may stand between the line `line` and the text `rest` behind it: a line feed, perhaps with
a carriage return in front of it. The last line may do without, if there is something in it. -/
inductive LineBreak (line rest : List Char) : List Char → Prop
  | lf : LineBreak line rest ['\n']
  | crlf : LineBreak line rest ['\r', '\n']
  | none : line ≠ [] → rest = [] → LineBreak line rest []

/-- In the text `front ++ line ++ ending ++ rest` the text `line` is a line, and `ending` ends
it. -/
structure IsLine (front line ending rest : List Char) : Prop where
  start : AtLineStart front
  single : '\n' ∉ line
  ending : LineBreak line rest ending

theorem exists_unlines_append (text : List Char) : ∃ ls last,
    (∀ line ∈ ls, '\n' ∉ line) ∧ '\n' ∉ last ∧ text = unlines ls ++ last := by
  induction text with
  | nil => exact ⟨[], [], by simp, List.not_mem_nil, rfl⟩
  | cons c text ih =>
    obtain ⟨ls, last, hls, hlast, rfl⟩ := ih
    by_cases hc : c = '\n'
    · exact ⟨[] :: ls, last, by simpa using hls, hlast, by simp [hc, unlines_cons]⟩
    · cases ls with
      | nil => exact ⟨[], c :: last, by simp, by simpa [Ne.symm hc] using hlast, rfl⟩
      | cons line ls =>
        rw [List.forall_mem_cons] at hls
        exact ⟨(c :: line) :: ls, last, by simpa [Ne.symm hc] using hls, hlast,
          by simp [unlines_cons]⟩

theorem AtLineStart.exists_unlines {front : List Char} (h : AtLineStart front) :
    ∃ ls, (∀ line ∈ ls, '\n' ∉ line) ∧ front = unlines ls := by
  obtain ⟨ls, last, hls, hlast, rfl⟩ := exists_unlines_append front
  cases hl : last.getLast? with
  | none => exact ⟨ls, hls, by rw [List.getLast?_eq_none_iff.1 hl, List.append_nil]⟩
  | some c =>
    have hc : c = '\n' := h c (by simp [hl])
    exact absurd (hc ▸ List.mem_of_getLast? hl) hlast

/-- Where a line begins, the lines in front and those behind are read apart. -/
theorem lines_append {front : List Char} (h : AtLineStart front) (rest : List Char) :
    lines (front ++ rest) = lines front ++ lines rest := by
  obtain ⟨ls, hls, rfl⟩ := h.exists_unlines
  have hne : rest.splitOn '\n' ≠ [] := List.splitOn_ne_nil '\n' rest
  have hlast : (ls ++ rest.splitOn '\n').getLast? = (rest.splitOn '\n').getLast? := by
    rw [List.getLast?_append, List.getLast?_eq_some_getLast hne, Option.some_or]
  rw [lines_unlines hls]
  simp only [lines, splitOn_unlines_append hls, hlast, List.dropLast_append_of_ne_nil hne]
  split <;> rfl

/-- A carriage return in front of the line feed counts as part of the line. -/
theorem IsLine.lines_eq {front line ending rest : List Char} (h : IsLine front line ending rest) :
    lines (front ++ line ++ ending ++ rest) =
      lines front ++ (line ++ ending.dropLast) :: lines rest := by
  have hbreak : ∀ {line : List Char}, '\n' ∉ line →
      lines (line ++ '\n' :: rest) = line :: lines rest := by
    intro line hline
    have hstart : AtLineStart (line ++ ['\n']) := by simp [AtLineStart]
    have hone : lines (line ++ ['\n']) = [line] := by
      simpa [unlines_cons] using @lines_unlines [line] (by simpa using hline)
    rw [List.append_cons, lines_append hstart, hone, List.singleton_append]
  rw [List.append_assoc, List.append_assoc, lines_append h.start]
  congr 1
  cases h.ending with
  | lf => simpa using hbreak h.single
  | crlf =>
    have hcr : '\n' ∉ line ++ ['\r'] := by simp [h.single]
    simpa using hbreak hcr
  | none hne hrest =>
    subst hrest
    have hone : lines line = [line] := by
      simpa using @lines_unlines_append [] line (by simp) h.single hne
    have hnil : lines [] = [] := by simp [lines]
    simp [hone, hnil]

theorem IsLine.of_line {front line line' ending rest : List Char}
    (h : IsLine front line ending rest) (hl : '\n' ∉ line') (hne : line' ≠ []) :
    IsLine front line' ending rest := by
  refine ⟨h.start, hl, ?_⟩
  cases h.ending with
  | lf => exact .lf
  | crlf => exact .crlf
  | none _ hrest => exact .none hne hrest

theorem unlines_append (a b : List (List Char)) : unlines (a ++ b) = unlines a ++ unlines b := by
  simp [unlines]

theorem atLineStart_unlines (ls : List (List Char)) : AtLineStart (unlines ls) := by
  rcases List.eq_nil_or_concat ls with rfl | ⟨ls, last, rfl⟩
  · simp [AtLineStart]
  · simp [AtLineStart, unlines_append, unlines_cons]

/-- Where the line stands that is found between the lines `a` and `b`. -/
theorem exists_isLine {text line : List Char} {a b : List (List Char)}
    (h : lines text = a ++ line :: b) : ∃ front ending rest,
      text = front ++ line ++ ending ++ rest ∧ IsLine front line ending rest ∧
        ending.dropLast = [] ∧ lines front = a ∧ lines rest = b := by
  have hfree : ∀ l ∈ a ++ line :: b, '\n' ∉ l := fun l hl => not_mem_of_mem_lines (h ▸ hl)
  rw [List.forall_mem_append, List.forall_mem_cons] at hfree
  obtain ⟨ls, last, hls, hlast, rfl⟩ := exists_unlines_append text
  -- The last line may lack its line feed, and then `line` may be that one.
  by_cases hne : last = []
  · subst hne
    rw [List.append_nil, lines_unlines hls] at h
    subst h
    exact ⟨unlines a, ['\n'], unlines b, by simp [unlines_append, unlines_cons],
      ⟨atLineStart_unlines a, hfree.2.1, .lf⟩, rfl, lines_unlines hfree.1, lines_unlines hfree.2.2⟩
  · rw [lines_unlines_append hls hlast hne] at h
    rcases List.eq_nil_or_concat b with rfl | ⟨b, final, rfl⟩
    · obtain ⟨rfl, heq⟩ := List.append_inj' h rfl
      obtain rfl := List.singleton_inj.1 heq
      exact ⟨unlines ls, [], [], by simp,
        ⟨atLineStart_unlines ls, hlast, .none hne rfl⟩, rfl, lines_unlines hls, by simp [lines]⟩
    · rw [List.concat_eq_append, ← List.cons_append, ← List.append_assoc] at h
      obtain ⟨rfl, heq⟩ := List.append_inj' h rfl
      obtain rfl := List.singleton_inj.1 heq
      simp only [List.concat_eq_append, List.forall_mem_append] at hfree
      exact ⟨unlines a, ['\n'], unlines b ++ last, by simp [unlines_append, unlines_cons],
        ⟨atLineStart_unlines a, hfree.2.1, .lf⟩, rfl, lines_unlines hfree.1,
        by rw [lines_unlines_append hfree.2.2.1 hlast hne, List.concat_eq_append]⟩

/-! ### Comments -/

theorem mem_of_mem_beforeComment {c : Char} {text : List Char} (h : c ∈ beforeComment text) :
    c ∈ text := by
  induction text using beforeComment.induct with
  | case1 => exact h
  | case2 d => exact h
  | case3 d e rest hslash =>
    rw [beforeComment, if_pos hslash] at h
    cases h
  | case4 d e rest hslash ih =>
    rw [beforeComment, if_neg hslash, List.mem_cons] at h
    exact h.elim (fun hc => hc ▸ List.mem_cons_self) fun hc => List.mem_cons_of_mem _ (ih hc)

theorem beforeComment_cons {c : Char} (h : c ≠ '/') (rest : List Char) :
    beforeComment (c :: rest) = c :: beforeComment rest := by
  cases rest <;> simp [beforeComment, h]

theorem beforeComment_comment (rest : List Char) : beforeComment ('/' :: '/' :: rest) = [] := by
  simp [beforeComment]

/-- A comment begins in the first of two texts, or the second is read on its own. -/
theorem beforeComment_append {line tail : List Char}
    (h : line.getLast? = some '/' → tail.head? ≠ some '/') :
    beforeComment (line ++ tail) = beforeComment line ∨
      beforeComment line = line ∧ beforeComment (line ++ tail) = line ++ beforeComment tail := by
  induction line using beforeComment.induct with
  | case1 => exact .inr ⟨rfl, rfl⟩
  | case2 c =>
    refine .inr ⟨rfl, ?_⟩
    cases tail with
    | nil => rfl
    | cons d tail =>
      have hslash : ¬ (c = '/' ∧ d = '/') := by simpa using h
      simp only [List.cons_append, List.nil_append, beforeComment, if_neg hslash]
  | case3 c d rest hslash => exact .inl (by simp [beforeComment, hslash])
  | case4 c d rest hslash ih =>
    rw [List.getLast?_cons_cons] at h
    simp only [List.cons_append, beforeComment, if_neg hslash] at ih ⊢
    exact (ih h).imp (congrArg _) fun hr => ⟨congrArg _ hr.1, congrArg _ hr.2⟩

/-- What is cut off is a comment. -/
theorem exists_append_beforeComment (text : List Char) : ∃ rest,
    text = beforeComment text ++ rest ∧ (rest = [] ∨ ∃ comment, rest = '/' :: '/' :: comment) := by
  induction text using beforeComment.induct with
  | case1 => exact ⟨[], rfl, .inl rfl⟩
  | case2 c => exact ⟨[], rfl, .inl rfl⟩
  | case3 c d rest hslash =>
    obtain ⟨rfl, rfl⟩ := hslash
    exact ⟨_, by rw [beforeComment_comment]; rfl, .inr ⟨rest, rfl⟩⟩
  | case4 c d rest hslash ih =>
    obtain ⟨tail, htext, htail⟩ := ih
    refine ⟨tail, ?_, htail⟩
    rw [beforeComment, if_neg hslash, List.cons_append, ← htext]

theorem not_infix_beforeComment (text : List Char) : ¬ ['/', '/'] <:+: beforeComment text := by
  induction text using beforeComment.induct with
  | case1 => simp [beforeComment]
  | case2 c => exact fun h => absurd h.length_le (by simp [beforeComment])
  | case3 c d rest hslash => simp [beforeComment, hslash]
  | case4 c d rest hslash ih =>
    rw [beforeComment, if_neg hslash, List.infix_cons_iff, not_or]
    refine ⟨fun h => ?_, ih⟩
    obtain ⟨rfl, hd⟩ := List.cons_prefix_cons.1 h
    obtain ⟨tail, htext, -⟩ := exists_append_beforeComment (d :: rest)
    have hnext : ['/'] <+: d :: rest := hd.trans ⟨tail, htext.symm⟩
    exact hslash ⟨rfl, (List.cons_prefix_cons.1 hnext).1.symm⟩

/-- A comment in the first of two texts ends what is read. -/
theorem beforeComment_append_of_infix {line tail : List Char} (h : ['/', '/'] <:+: line)
    (ht : tail.head? ≠ some '/') : beforeComment (line ++ tail) = beforeComment line :=
  (beforeComment_append fun _ => ht).resolve_right fun hr =>
    not_infix_beforeComment line (hr.1.symm ▸ h)

/-- No comment begins in the text, whatever follows it. -/
def CommentFree (text : List Char) : Prop :=
  ∀ rest, beforeComment (text ++ rest) = text ++ beforeComment rest

namespace CommentFree

theorem nil : CommentFree [] := fun _ => rfl

theorem append {a b : List Char} (ha : CommentFree a) (hb : CommentFree b) :
    CommentFree (a ++ b) := by
  intro rest
  rw [List.append_assoc, ha, hb, List.append_assoc]

theorem of_not_mem {text : List Char} (h : '/' ∉ text) : CommentFree text := by
  induction text with
  | nil => exact nil
  | cons c rest ih =>
    rw [List.mem_cons, not_or] at h
    intro more
    rw [List.cons_append, beforeComment_cons (Ne.symm h.1), ih h.2, List.cons_append]

/-- A comment needs two slashes side by side, so none begins in front of another character. -/
theorem append_singleton {text : List Char} {last : Char} (h : ¬ ['/', '/'] <:+: text)
    (hl : last ≠ '/') : CommentFree (text ++ [last]) := by
  induction text with
  | nil => exact of_not_mem (by simpa using Ne.symm hl)
  | cons c rest ih =>
    have hrest : CommentFree (rest ++ [last]) :=
      ih fun hi => h (hi.trans (List.suffix_cons c rest).isInfix)
    intro more
    have hm := hrest more
    rw [List.cons_append, List.cons_append]
    by_cases hc : c = '/'
    · subst hc
      cases rest with
      | nil => simpa [beforeComment, hl] using hm
      | cons d rest =>
        have hd : d ≠ '/' := by
          rintro rfl
          exact h ⟨[], rest, rfl⟩
        simpa [beforeComment, hd] using hm
    · rw [beforeComment_cons hc, hm, List.cons_append]

end CommentFree

end WrenGlue.Text
