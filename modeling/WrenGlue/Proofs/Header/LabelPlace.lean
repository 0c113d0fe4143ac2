import WrenGlue.Proofs.Header.Relabel
import WrenGlue.Proofs.Header.Scanned

/-! Where a label stands in a header, and what another text there does. Unless that text holds the
mark of a comment, all that is read from the header stays but for the label. The mark of a comment
hides the declaration, even though it stands between quotes. -/

namespace WrenGlue.Header

open WrenGlue.Text

/-! ### The declaration -/

theorem skipWord_suffix (word : String) (text : List Char) : (skipWord word text).2 <:+ text := by
  rw [skipWord]
  split
  · next rest hrest =>
    have hbehind : rest <:+ trimStart text :=
      ⟨word.toList, List.isPrefixOf?_eq_some_iff_append_eq.1 hrest⟩
    exact (List.dropWhile_suffix _).trans (hbehind.trans (List.dropWhile_suffix _))
  · exact List.dropWhile_suffix _

/-- The argument list of a declaration that is scanned stands between `opening` and `closing`, and
another may take its place. -/
structure ArgumentsPlace (text : List Char) (parts : MethodText) (opening closing : List Char) :
    Prop where
  eq : text = opening ++ parts.args ++ closing
  run : ArgumentRun parts.args
  start : "WREN_METHOD(".toList <+: opening
  last : closing.getLast? = some ';'
  replace : ∀ args, ArgumentRun args →
    MethodText.ofLine? (opening ++ args ++ closing) = some { parts with args }
  unclosed : ∀ rest, argumentText? 0 rest = none → MethodText.ofLine? (opening ++ rest) = none

theorem exists_argumentsPlace {text : List Char} {parts : MethodText}
    (h : MethodText.ofLine? text = some parts) :
    ∃ opening closing, ArgumentsPlace text parts opening closing := by
  simp only [MethodText.ofLine?, Option.bind_eq_bind, Option.bind_eq_some_iff, Option.pure_def,
    Option.some.injEq] at h
  obtain ⟨rest, hfront, ⟨kind, rest'⟩, hkind, ⟨head, rest''⟩, hhead, ⟨qualifiers, type, name⟩,
    hmethod, ⟨args, trailer⟩, hargs, _, hsemicolon, rfl⟩ := h
  obtain ⟨rfl, hkindfree⟩ := cut?_eq_some_iff.1 hkind
  obtain ⟨rfl, hheadfree⟩ := cut?_eq_some_iff.1 hhead
  obtain ⟨hrun, rfl⟩ := argumentText?_eq_some_iff.1 hargs
  rw [List.isPrefixOf?_eq_some_iff_append_eq] at hfront
  have hend : (skipWord "override" (skipWord "const" trailer).2).2 = [';'] := by
    by_contra hne
    simp [guard, hne] at hsemicolon
  -- The front is cut off in the same way whatever stands behind it.
  have hprefix : ∀ rest, "WREN_METHOD(".toList.isPrefixOf? ("WREN_METHOD(".toList ++ rest) =
      some rest := fun rest => List.isPrefixOf?_eq_some_iff_append_eq.2 rfl
  have hkind : ∀ rest, cut? ')' (kind ++ ')' :: rest) = some (kind, rest) :=
    fun rest => cut?_eq_some_iff.2 ⟨rfl, hkindfree⟩
  have hhead : ∀ rest, cut? '(' (head ++ '(' :: rest) = some (head, rest) :=
    fun rest => cut?_eq_some_iff.2 ⟨rfl, hheadfree⟩
  have hopening : ∀ rest, "WREN_METHOD(".toList ++ (kind ++ ')' :: (head ++ ['('])) ++ rest =
      "WREN_METHOD(".toList ++ (kind ++ ')' :: (head ++ '(' :: rest)) := fun rest => by simp
  refine ⟨"WREN_METHOD(".toList ++ (kind ++ ')' :: (head ++ ['('])), ')' :: trailer, ?_, hrun,
    List.prefix_append _ _, ?_, fun args hargs => ?_, fun rest hrest => ?_⟩
  · rw [← hfront, List.append_assoc, hopening]
  · have hsuffix : [';'] <:+ trailer :=
      hend ▸ (skipWord_suffix "override" _).trans (skipWord_suffix "const" trailer)
    obtain ⟨front, rfl⟩ := hsuffix
    rw [← List.cons_append, List.getLast?_concat]
  · have hscan := argumentText?_eq_some_iff.2 ⟨hargs, @rfl _ (args ++ ')' :: trailer)⟩
    rw [List.append_assoc, hopening, MethodText.ofLine?, hprefix]
    simp only [Option.bind_eq_bind, Option.bind_some, hkind, hhead, hmethod, hscan, hend, guard,
      if_true, Option.pure_def]
  · rw [hopening, MethodText.ofLine?, hprefix]
    simp only [Option.bind_eq_bind, Option.bind_some, hkind, hhead, hmethod, hrest,
      Option.bind_none]

/-- A label needs its second quote. -/
theorem label?_unclosed {inner rest : List Char} (hi : isBlank inner = true) (hq : '"' ∉ rest) :
    label? ("ARG(".toList ++ inner ++ '"' :: rest) = none := by
  rw [Option.eq_none_iff_forall_ne_some]
  rintro ⟨label, behind⟩ hlabel
  obtain ⟨inner', outer', -, -, -, htext⟩ := label?_eq_some_iff.1 hlabel
  have hcount := congrArg (List.count '"') htext
  have hinner : inner.count '"' = 0 := List.count_eq_zero.2 (not_mem_of_blank hi (by decide))
  have hrest : rest.count '"' = 0 := List.count_eq_zero.2 hq
  simp only [labelText, List.count_append, List.count_cons_self, hinner, hrest] at hcount
  omega

theorem argumentText?_unclosed {inner rest : List Char} (hi : isBlank inner = true)
    (hq : '"' ∉ rest) : argumentText? 0 ("ARG(".toList ++ inner ++ '"' :: rest) = none := by
  have hlabel := label?_unclosed hi hq
  have hcons : "ARG(".toList ++ inner ++ '"' :: rest =
      'A' :: 'R' :: 'G' :: '(' :: (inner ++ '"' :: rest) := by simp
  rw [hcons] at hlabel ⊢
  simp [argumentText?, labelLength, hlabel, label?_cons_eq_none]

/-- A label that begins the entry at position `i` of a declaration that is scanned stands between
`front` and `back`, and another may take its place. -/
structure LabelPlace (text : List Char) (parts : MethodText) (i : Nat)
    (label front inner outer back : List Char) : Prop where
  eq : text = front ++ labelText inner label outer ++ back
  blankInner : isBlank inner = true
  blankOuter : isBlank outer = true
  start : "WREN_METHOD(".toList <+: front
  last : back.getLast? = some ';'
  replace : ∀ label', '"' ∉ label' → ∃ args',
    MethodText.ofLine? (front ++ labelText inner label' outer ++ back) =
      some { parts with args := args' } ∧
    ExceptRel (Requoted label label')
      (fun as as' => as' = as.map (·.relabel i (String.ofList label')))
      (Argument.readList parts.args) (Argument.readList args')
  unclosed : ∀ rest, '"' ∉ rest →
    MethodText.ofLine? (front ++ "ARG(".toList ++ inner ++ '"' :: rest) = none

/-- Every label of a declaration that is scanned has a place in it. -/
theorem exists_labelPlace {text : List Char} {parts : MethodText} {i : Nat}
    {entry label : List Char} (hparts : MethodText.ofLine? text = some parts)
    (hentry : (splitEntries false parts.args)[i]? = some entry)
    (hlabel : (splitLabel (trim entry)).1 = some label) :
    ∃ front inner outer back, LabelPlace text parts i label front inner outer back := by
  obtain ⟨opening, closing, hopening⟩ := exists_argumentsPlace hparts
  obtain ⟨before, after, hplace⟩ := hopening.run.exists_entryPlace hentry
  obtain ⟨gap, inner, outer, more, rfl, hg, hi, hq, ho, hline⟩ :=
    exists_labelText_of_splitLabel hlabel
  have hmore : ArgumentRun more :=
    hplace.runEntry.of_append ((GoesThrough.blank hg _).append (.labelText hi hq ho _))
  refine ⟨opening ++ before ++ gap, inner, outer, more ++ after ++ closing, ?_, hi, ho, ?_, ?_,
    fun label' hq' => ?_, fun rest hrest => ?_⟩
  · rw [hopening.eq, hplace.eq]
    simp only [List.append_assoc]
  · exact hopening.start.trans (by simp)
  · rw [List.getLast?_append, hopening.last, Option.some_or]
  · have hrun : ArgumentRun (before ++ (gap ++ labelText inner label' outer ++ more) ++ after) := by
      rw [List.append_assoc gap]
      exact (hplace.runFront.append ((ArgumentRun.blank hg).append (.label hi hq' ho hmore))).append
        hplace.runBack
    have hscan := hopening.replace _ hrun
    exact ⟨_, by simpa only [List.append_assoc] using hscan,
      readList_rel hplace hentry hg hi hq hq' ho hline⟩
  · have hscan : argumentText? 0 ((before ++ gap) ++ ("ARG(".toList ++ inner ++ '"' :: rest)) =
        none := by
      rw [(hplace.runFront.append (.blank hg)).goesThrough (by simp),
        argumentText?_unclosed hi hrest, Option.map_none]
    simpa only [List.append_assoc] using hopening.unclosed _ hscan

/-! ### The line -/

theorem exists_content_append (l : Line) : ∃ margin ending,
    l.text = margin ++ l.content ++ ending ∧ isBlank margin = true ∧ LineEnd ending := by
  obtain ⟨rest, htext, hrest⟩ := exists_append_beforeComment l.text
  obtain ⟨margin, after, hm, ha, htrim⟩ := exists_blank_append_trim (beforeComment l.text)
  refine ⟨margin, after ++ rest, ?_, hm, ?_⟩
  · rw [Line.content, ← List.append_assoc, ← htrim, ← htext]
  · rcases hrest with rfl | ⟨comment, rfl⟩
    · exact .blank (by rwa [List.append_nil])
    · exact .comment ha

theorem not_infix_content (l : Line) : ¬ ['/', '/'] <:+: l.content := by
  obtain ⟨margin, after, -, -, htrim⟩ := exists_blank_append_trim (beforeComment l.text)
  have hinfix : l.content <:+: beforeComment l.text := ⟨margin, after, htrim.symm⟩
  exact fun h => not_infix_beforeComment l.text (h.trans hinfix)

namespace LabelPlace

variable {text : List Char} {parts : MethodText} {i : Nat}
  {label label' front inner outer back margin ending : List Char}

theorem head_not_white (h : LabelPlace text parts i label front inner outer back)
    (rest : List Char) : (front ++ rest).head?.any isWhite = false := by
  obtain ⟨behind, rfl⟩ := h.start
  exact show isWhite 'W' = false by decide

/-- The text up to the first quote of a label, in which no comment begins. -/
theorem commentFree_front (h : LabelPlace text parts i label front inner outer back)
    (hfree : ¬ ['/', '/'] <:+: text) : CommentFree (front ++ "ARG(".toList ++ inner ++ ['"']) := by
  refine .append_singleton (fun hi => hfree (hi.trans ?_)) (by decide)
  refine ⟨[], '"' :: label ++ '"' :: outer ++ ')' :: back, ?_⟩
  rw [h.eq, labelText]
  simp only [List.append_assoc, List.nil_append, List.cons_append]

theorem commentFree (h : LabelPlace text parts i label front inner outer back)
    (hfree : ¬ ['/', '/'] <:+: text) (hl : ¬ ['/', '/'] <:+: label') :
    CommentFree (front ++ labelText inner label' outer ++ back) := by
  obtain ⟨tail, rfl⟩ := List.getLast?_eq_some_iff.1 h.last
  have htail : ¬ ['/', '/'] <:+: outer ++ ')' :: tail := fun hi => hfree (hi.trans
    ⟨front ++ "ARG(".toList ++ inner ++ '"' :: label ++ ['"'], [';'], by simp [h.eq, labelText]⟩)
  have hsplit : front ++ labelText inner label' outer ++ (tail ++ [';']) =
      (front ++ "ARG(".toList ++ inner ++ ['"']) ++ (label' ++ ['"']) ++
        (outer ++ ')' :: tail ++ [';']) := by simp [labelText]
  rw [hsplit]
  exact ((h.commentFree_front hfree).append (.append_singleton hl (by decide))).append
    (.append_singleton htail (by decide))

/-- With another text for the label, the content of the line changes likewise. -/
theorem content_eq (h : LabelPlace text parts i label front inner outer back)
    (hfree : ¬ ['/', '/'] <:+: text) (hm : isBlank margin = true) (he : LineEnd ending)
    (hl : ¬ ['/', '/'] <:+: label') :
    trim (beforeComment (margin ++ (front ++ labelText inner label' outer ++ back) ++ ending)) =
      front ++ labelText inner label' outer ++ back := by
  have hmargin : CommentFree margin := .of_not_mem (not_mem_of_blank hm (by decide))
  rw [hmargin.append (h.commentFree hfree hl)]
  refine IsTrimmed.trim_eq ⟨?_, ?_⟩ hm he.beforeComment_eq
  · rw [List.append_assoc]
    exact h.head_not_white _
  · rw [List.getLast?_append, h.last]
    exact show isWhite ';' = false by decide

/-- A comment that begins in the label ends the content. -/
theorem content_comment (h : LabelPlace text parts i label front inner outer back)
    (hfree : ¬ ['/', '/'] <:+: text) (hm : isBlank margin = true)
    (hl : ['/', '/'] <:+: label') :
    trim (beforeComment (margin ++ (front ++ labelText inner label' outer ++ back) ++ ending)) =
      front ++ "ARG(".toList ++ inner ++ '"' :: trimEnd (beforeComment label') := by
  have hsplit : margin ++ (front ++ labelText inner label' outer ++ back) ++ ending =
      (margin ++ (front ++ "ARG(".toList ++ inner ++ ['"'])) ++
        (label' ++ ('"' :: outer ++ ')' :: back ++ ending)) := by simp [labelText]
  have hmargin : CommentFree margin := .of_not_mem (not_mem_of_blank hm (by decide))
  have hwhite : (front ++ "ARG(".toList ++ inner ++ '"' :: beforeComment label').head?.any isWhite =
      false := by
    rw [List.append_assoc, List.append_assoc]
    exact h.head_not_white _
  rw [hsplit, hmargin.append (h.commentFree_front hfree),
    beforeComment_append_of_infix hl (by simp), List.append_assoc, trim_append_of_blank hm,
    List.append_assoc, List.singleton_append, trim, trimStart_of_head? hwhite,
    trimEnd_append_cons (by decide)]

end LabelPlace

theorem headingName?_eq_none {text : List Char} (h : "WREN_METHOD(".toList <+: text) :
    headingName? text = none := by
  obtain ⟨rest, rfl⟩ := h
  simp [headingName?, List.isPrefixOf?]

/-- A line that is scanned with other arguments, which declare the same but for one label. -/
theorem relabelling_onLine {l l' : Line} {parts : MethodText} {args' label label' : List Char}
    {i : Nat} (hnumber : l'.number = l.number) (hread : headingName? l.content = none)
    (hread' : headingName? l'.content = none) (hparts : MethodText.ofLine? l.content = some parts)
    (hparts' : MethodText.ofLine? l'.content = some { parts with args := args' })
    (hcontent : Requoted label label' l.content l'.content)
    (hargs : ExceptRel (Requoted label label')
      (fun as as' => as' = as.map (·.relabel i (String.ofList label')))
      (Argument.readList parts.args) (Argument.readList args')) :
    (Revision.relabelling l.number i label label').OnLine l l' := by
  have herror : ∀ {what what'}, LineFault.Requoted label label' what what' →
      (Revision.relabelling l.number i label label').Error (l.error what) (l'.error what') := by
    intro what what' hwhat
    simp only [Revision.relabelling, Line.error, if_true]
    exact ⟨hnumber, by simpa using hcontent, hwhat⟩
  have hmethod := method_rel hargs l.number
  generalize hx : parts.method l.number = x, hx' :
    ({ parts with args := args' } : MethodText).method l.number = x' at hmethod
  cases hmethod with
  | @ok m m' hm =>
    subst hm
    refine .method (m := m) (by simp only [Line.read, hread, hparts, hx]) ?_
      (herror .methodOutsideClass)
    simp only [Line.read, hread', hparts', hnumber, hx', Revision.relabelling,
      MethodText.line_of_method hx, if_true]
  | error he =>
    exact .fault (by simp only [Line.read, hread, hparts, hx])
      (by simp only [Line.read, hread', hparts', hnumber, hx']) (herror he)

/-- A line that is scanned as a method has each label of its arguments in one place. With another
text there, the line says the same but for that label, or nothing if the text marks a comment. -/
theorem exists_label_onLine {l : Line} {parts : MethodText} {i : Nat} {entry label : List Char}
    (hparts : MethodText.ofLine? l.content = some parts)
    (hentry : (splitEntries false parts.args)[i]? = some entry)
    (hlabel : (splitLabel (trim entry)).1 = some label) : ∃ front inner outer back,
      l.text = front ++ labelText inner label outer ++ back ∧ isBlank inner = true ∧
        isBlank outer = true ∧ ∀ label', '"' ∉ label' →
          (¬ ['/', '/'] <:+: label' → (Revision.relabelling l.number i label label').OnLine l
            ⟨l.number, front ++ labelText inner label' outer ++ back⟩) ∧
          (['/', '/'] <:+: label' →
            Line.read ⟨l.number, front ++ labelText inner label' outer ++ back⟩ = .other) := by
  obtain ⟨margin, ending, htext, hm, he⟩ := exists_content_append l
  obtain ⟨front, inner, outer, back, hplace⟩ := exists_labelPlace hparts hentry hlabel
  have hfree := not_infix_content l
  have hassoc : ∀ label, margin ++ front ++ labelText inner label outer ++ (back ++ ending) =
      margin ++ (front ++ labelText inner label outer ++ back) ++ ending := fun label => by
    simp only [List.append_assoc]
  have hheading : ∀ rest, headingName? (front ++ rest) = none := fun rest =>
    headingName?_eq_none (hplace.start.trans (List.prefix_append front rest))
  refine ⟨margin ++ front, inner, outer, back ++ ending, ?_, hplace.blankInner, hplace.blankOuter,
    fun label' hq => ⟨fun hl => ?_, fun hl => ?_⟩⟩
  · rw [hassoc, ← hplace.eq]
    exact htext
  · obtain ⟨args', hparts', hargs⟩ := hplace.replace label' hq
    have hcontent' : Line.content ⟨l.number, margin ++ front ++ labelText inner label' outer ++
        (back ++ ending)⟩ = front ++ labelText inner label' outer ++ back := by
      rw [Line.content, hassoc]
      exact hplace.content_eq hfree hm he hl
    refine relabelling_onLine rfl ?_ ?_ hparts (hcontent'.symm ▸ hparts') ?_ hargs
    · rw [hplace.eq, List.append_assoc, hheading]
    · rw [hcontent', List.append_assoc, hheading]
    · exact .inr ⟨front ++ "ARG(".toList ++ inner ++ ['"'], '"' :: outer ++ ')' :: back,
        by rw [hplace.eq, labelText]; simp, by rw [hcontent', labelText]; simp⟩
  · have hcontent' : Line.content ⟨l.number, margin ++ front ++ labelText inner label' outer ++
        (back ++ ending)⟩ =
          front ++ "ARG(".toList ++ inner ++ '"' :: trimEnd (beforeComment label') := by
      rw [Line.content, hassoc]
      exact hplace.content_comment hfree hm hl
    -- What is left of the label has no second quote, so no argument list is found.
    have hscan := hplace.unclosed (trimEnd (beforeComment label')) fun hm =>
      hq (mem_of_mem_beforeComment (mem_of_mem_trimEnd hm))
    simp only [Line.read, hcontent', hscan]
    rw [List.append_assoc, List.append_assoc, hheading]

/-! ### The header -/

theorem relabelling_onLine_self {l : Line} {line : Nat} (h : l.number ≠ line) (i : Nat)
    (label label' : List Char) : (Revision.relabelling line i label label').OnLine l l := by
  have herror : ∀ what, (Revision.relabelling line i label label').Error (l.error what)
      (l.error what) := fun what => by
    simp [Revision.relabelling, Line.error, h]
  cases hread : l.read with
  | other => exact .other hread hread
  | heading name => exact .heading hread hread rfl
  | fault what => exact .fault hread hread (herror what)
  | method m =>
    obtain ⟨parts, -, hm⟩ := Line.exists_parts_of_read hread
    have hline : m.line ≠ line := MethodText.line_of_method hm ▸ h
    refine .method hread ?_ (herror .methodOutsideClass)
    simp only [hread, Revision.relabelling, if_neg hline]

theorem number_of_mem_numbered {n : Nat} {ls : List (List Char)} {l : Line}
    (h : l ∈ Line.numbered n ls) : n ≤ l.number ∧ l.number < n + ls.length := by
  induction ls generalizing n with
  | nil => cases h
  | cons line ls ih =>
    rw [Line.numbered_cons, List.mem_cons] at h
    rw [List.length_cons]
    rcases h with rfl | h
    · exact ⟨Nat.le_refl n, Nat.lt_add_of_pos_right (Nat.succ_pos _)⟩
    · obtain ⟨hlow, hhigh⟩ := ih h
      omega

theorem relabelling_onLines_self {line n : Nat} {ls : List (List Char)}
    (h : line < n ∨ n + ls.length ≤ line) (i : Nat) (label label' : List Char) :
    (Revision.relabelling line i label label').OnLines (Line.numbered n ls)
      (Line.numbered n ls) := by
  induction ls generalizing n with
  | nil => exact .nil
  | cons text ls ih =>
    rw [List.length_cons] at h
    exact .cons (relabelling_onLine_self (show n ≠ line by omega) i label label') (ih (by omega))

/-- The line with the number `a.length + 1` of a text. -/
theorem ofText_eq_append_cons {text line : List Char} {a b : List (List Char)}
    (h : lines text = a ++ line :: b) : Line.ofText (String.ofList text) =
      Line.numbered 1 a ++ ⟨a.length + 1, line⟩ :: Line.numbered (a.length + 2) b := by
  rw [Line.ofText_eq_numbered, String.toList_ofList, h, Line.numbered_append, Line.numbered_cons,
    Nat.add_comm 1]

theorem exists_lines_of_mem_ofText {text : String} {l : Line} (h : l ∈ Line.ofText text) :
    ∃ a b, lines text.toList = a ++ l.text :: b ∧ l.number = a.length + 1 := by
  obtain ⟨i, hi, rfl⟩ := List.mem_iff_getElem.1 h
  have hget := Line.getElem?_ofText text i
  rw [List.getElem?_eq_getElem hi, eq_comm, Option.map_eq_some_iff] at hget
  obtain ⟨line, hline, heq⟩ := hget
  obtain ⟨hlt, rfl⟩ := List.getElem?_eq_some_iff.1 hline
  rw [← heq]
  refine ⟨(lines text.toList).take i, (lines text.toList).drop (i + 1), ?_, ?_⟩
  · rw [List.getElem_cons_drop, List.take_append_drop]
  · rw [List.length_take_of_le hlt.le, Nat.add_comm]

theorem itemsFrom_append_other {l : Line} (h : l.read = .other) (above below : List Line)
    (current : Option ClassDecl) : ClassStream.itemsFrom current (above ++ l :: below) =
      ClassStream.itemsFrom current (above ++ below) := by
  induction above generalizing current with
  | nil => simp only [List.nil_append, ClassStream.itemsFrom, h]
  | cons k above ih =>
    simp only [List.cons_append, ClassStream.itemsFrom]
    split <;> simp only [ih]

/-- Another text for the label of an argument, on a line that is scanned as a method. Where the text
holds no mark of a comment, the header gives the same classes but for that label, or the same error
but for what it quotes of the line. Otherwise the line is not read at all. -/
theorem readClasses_relabel {text : String} {l : Line} {parts : MethodText} {i : Nat}
    {entry label : List Char} (hl : l ∈ Line.ofText text)
    (hparts : MethodText.ofLine? l.content = some parts)
    (hentry : (splitEntries false parts.args)[i]? = some entry)
    (hlabel : (splitLabel (trim entry)).1 = some label) : ∃ front inner outer back,
      text.toList = front ++ labelText inner label outer ++ back ∧ isBlank inner = true ∧
        isBlank outer = true ∧ ∀ label', '"' ∉ label' → '\n' ∉ label' →
          (¬ ['/', '/'] <:+: label' →
            ExceptRel
              (fun e e' => if e.line = l.number then e.Requoted label label' e' else e' = e)
              (fun cs cs' => cs' = cs.map (·.relabel l.number i (String.ofList label')))
              (readClasses text)
              (readClasses (String.ofList (front ++ labelText inner label' outer ++ back)))) ∧
          (['/', '/'] <:+: label' →
            readClasses (String.ofList (front ++ labelText inner label' outer ++ back)) =
              (ClassStream.itemsFrom none ((Line.ofText text).erase l)).mapM id) := by
  obtain ⟨a, b, hlines, hnumber⟩ := exists_lines_of_mem_ofText hl
  obtain ⟨above, ending, below, htext, hline, hending, ha, hb⟩ := exists_isLine hlines
  obtain ⟨front, inner, outer, back, hplace, hi, ho, hrelabel⟩ :=
    exists_label_onLine hparts hentry hlabel
  have hassoc : ∀ label, above ++ front ++ labelText inner label outer ++
      (back ++ ending ++ below) =
        above ++ (front ++ labelText inner label outer ++ back) ++ ending ++ below :=
    fun label => by simp only [List.append_assoc]
  refine ⟨above ++ front, inner, outer, back ++ ending ++ below, ?_, hi, ho,
    fun label' hq hline' => ?_⟩
  · rw [hassoc, ← hplace]
    exact htext
  have hsingle : '\n' ∉ front ++ labelText inner label' outer ++ back := by
    have hold := hline.single
    simp only [hplace, labelText, List.mem_append, List.mem_cons, not_or] at hold ⊢
    tauto
  have hnew := (hline.of_line hsingle (by simp [labelText])).lines_eq
  rw [hending, List.append_nil, ha, hb, ← hassoc] at hnew
  have hofText := ofText_eq_append_cons hlines
  have hofText' := ofText_eq_append_cons hnew
  rw [String.ofList_toList, ← hnumber] at hofText
  rw [← hnumber] at hofText'
  obtain ⟨hsame, hcomment⟩ := hrelabel label' hq
  generalize String.ofList
    (above ++ front ++ labelText inner label' outer ++ (back ++ ending ++ below)) = text'
    at hofText' ⊢
  refine ⟨fun hfree => ?_, fun hmark => ?_⟩
  · -- The other lines keep their numbers, so none of their methods is taken for this one.
    have hrel : (Revision.relabelling l.number i label label').OnLines (Line.ofText text)
        (Line.ofText text') := by
      rw [hofText, hofText']
      exact .append (relabelling_onLines_self (by omega) i label label')
        (.cons (hsame hfree) (relabelling_onLines_self (by omega) i label label'))
    exact hrel.readClasses_rel
  · have hfresh : l ∉ Line.numbered 1 a := fun hm => by
      have hlt := (number_of_mem_numbered hm).2
      omega
    rw [readClasses_eq_mapM, hofText', itemsFrom_append_other (hcomment hmark), hofText,
      List.erase_append_right _ hfresh, List.erase_cons_head]

/-- A method whose label is replaced by a comma and a parenthesis, and then by an address. -/
theorem readClasses_relabel_address : ∃ front inner outer back,
    "class ObjA \x7b\nWREN_METHOD() void F(ARG(\"a\") int x);\n".toList =
      front ++ labelText inner "a".toList outer ++ back ∧
    readClasses (String.ofList (front ++ labelText inner ",)".toList outer ++ back)) =
      .ok [{ name := "ObjA", line := 1, methods := [
        { name := "F", returnType := "void", line := 2, args := [
          { type := "int", name := "x", position := 0, label := some ",)" }] }] }] ∧
    readClasses (String.ofList (front ++ labelText inner "http://a".toList outer ++ back)) =
      .ok [{ name := "ObjA", line := 1 }] := by
  obtain ⟨front, inner, outer, back, htext, -, -, hrelabel⟩ :=
    @readClasses_relabel "class ObjA \x7b\nWREN_METHOD() void F(ARG(\"a\") int x);\n"
      ⟨2, "WREN_METHOD() void F(ARG(\"a\") int x);".toList⟩
      { kind := [], qualifiers := {}, returnType := "void".toList, name := "F".toList,
        args := "ARG(\"a\") int x".toList }
      0 "ARG(\"a\") int x".toList "a".toList (by decide +kernel) (by decide +kernel)
      (by decide +kernel) (by decide +kernel)
  refine ⟨front, inner, outer, back, htext, ?_, ?_⟩
  · have hrel := (hrelabel ",)".toList (by decide) (by decide)).1 (by decide)
    have hold : readClasses "class ObjA \x7b\nWREN_METHOD() void F(ARG(\"a\") int x);\n" =
        .ok [{ name := "ObjA", line := 1, methods := [
          { name := "F", returnType := "void", line := 2, args := [
            { type := "int", name := "x", position := 0, label := some "a" }] }] }] := by
      decide +kernel
    rw [hold] at hrel
    generalize readClasses (String.ofList _) = new at hrel ⊢
    cases hrel with
    | ok hnew =>
      rw [hnew]
      decide +kernel
  · rw [(hrelabel "http://a".toList (by decide) (by decide)).2 (by decide)]
    decide +kernel

/-- An address for a label makes the method disappear, where a plain text leaves it. -/
theorem address_hides_method :
    readClasses "class ObjA \x7b\nWREN_METHOD() void F(ARG(\"a\") int x);\n" =
      .ok [{ name := "ObjA", line := 1, methods := [
        { name := "F", returnType := "void", line := 2, args := [
          { type := "int", name := "x", position := 0, label := some "a" }] }] }] ∧
    readClasses "class ObjA \x7b\nWREN_METHOD() void F(ARG(\"http://a\") int x);\n" =
      .ok [{ name := "ObjA", line := 1 }] := by
  decide +kernel

end WrenGlue.Header
