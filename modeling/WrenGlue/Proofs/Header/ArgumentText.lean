import WrenGlue.Header.Line
import WrenGlue.Proofs.Cpp.Normalize
import WrenGlue.Proofs.Text.Lines
import Mathlib.Data.List.Infix

/-! How argument lists may be written: each argument as an optional label, a type and a name, with
white space around all of them. A list written so is read back as the same arguments. -/

namespace WrenGlue.Header

open WrenGlue.Text
open WrenGlue.Cpp (DeclaredType)

/-- A label as written, with the white space behind it, or nothing for no label. No quote may stand
in a label, and no mark of a comment. -/
inductive LabelText : Option (List Char) → List Char → Prop
  | none : LabelText none []
  | some {label inner outer behind : List Char} :
      '"' ∉ label → ¬ ['/', '/'] <:+: label → isBlank inner = true → isBlank outer = true →
      isBlank behind = true →
      LabelText (some label)
        ("ARG(".toList ++ inner ++ '"' :: label ++ '"' :: outer ++ ')' :: behind)

/-- A normalized type that may stand in an argument list. -/
structure IsArgumentType (type : List Char) : Prop where
  nonempty : type ≠ []
  normalized : DeclaredType.normalizeChars type = type
  plain : ∀ c ∈ ['(', ')', '"', ',', '/'], c ∉ type

/-- The name of a parameter. -/
structure IsParameterName (name : List Char) : Prop where
  start : name.head?.any isNameStart = true
  word : ∀ c ∈ name, isWord c = true

/-- An argument as written. White space separates its type and its name, unless the type ends with a
sigil. -/
inductive EntryText : Argument → List Char → Prop
  | intro {position : Nat} {label : Option (List Char)}
      {type name before labelText typeText gap after : List Char} :
      IsArgumentType type → IsParameterName name → isBlank before = true →
      LabelText label labelText → DeclaredType.Spells type typeText → isBlank gap = true →
      (gap = [] → type.getLast? = some '*' ∨ type.getLast? = some '&') → isBlank after = true →
      EntryText
        ⟨String.ofList type, String.ofList name, position, label.map String.ofList⟩
        (before ++ labelText ++ typeText ++ gap ++ name ++ after)

/-- Arguments as written with commas between them, the first of them at position `position`. -/
inductive EntriesText : (position : Nat) → List Argument → List Char → Prop
  | single {a : Argument} {text : List Char} : EntryText a text → EntriesText a.position [a] text
  | cons {a : Argument} {rest : List Argument} {text more : List Char} :
      EntryText a text → EntriesText (a.position + 1) rest more →
      EntriesText a.position (a :: rest) (text ++ ',' :: more)

/-- An argument list as written. -/
inductive ArgumentsText : List Argument → List Char → Prop
  | empty {text : List Char} : isBlank text = true → ArgumentsText [] text
  | entries {args : List Argument} {text : List Char} :
      EntriesText 0 args text → ArgumentsText args text

/-! ### Characters -/

theorem ne_of_isWord {c d : Char} (hc : isWord c = true) (hd : isWord d = false) : c ≠ d := by
  rintro rfl
  rw [hc] at hd
  cases hd

theorem ne_of_isWhite {c d : Char} (hc : isWhite c = true) (hd : isWhite d = false) : c ≠ d := by
  rintro rfl
  rw [hc] at hd
  cases hd

theorem not_mem_of_blank {gap : List Char} (h : isBlank gap = true) {d : Char}
    (hd : isWhite d = false) : d ∉ gap :=
  fun hm => ne_of_isWhite (isWhite_of_mem h hm) hd rfl

theorem EntryText.plain_tail {type typeText gap name after : List Char} (ht : IsArgumentType type)
    (hn : IsParameterName name) (hs : DeclaredType.Spells type typeText)
    (hg : isBlank gap = true) (ha : isBlank after = true) {d : Char}
    (hd : d ∈ ['(', ')', '"', ',', '/']) : d ∉ typeText ++ gap ++ name ++ after := by
  have hwhite : isWhite d = false := by
    simp only [List.mem_cons, List.not_mem_nil, or_false] at hd
    rcases hd with rfl | rfl | rfl | rfl | rfl <;> decide
  have hword : isWord d = false := by
    simp only [List.mem_cons, List.not_mem_nil, or_false] at hd
    rcases hd with rfl | rfl | rfl | rfl | rfl <;> decide
  simp only [List.mem_append, not_or]
  exact ⟨⟨⟨hs.not_mem hwhite (ht.plain d hd), not_mem_of_blank hg hwhite⟩,
    fun hm => ne_of_isWord (hn.word d hm) hword rfl⟩, not_mem_of_blank ha hwhite⟩

theorem isWhite_A : isWhite 'A' = false := by decide

/-! ### Labels -/

theorem label?_labelText {label inner outer : List Char} (hl : '"' ∉ label)
    (hi : isBlank inner = true) (ho : isBlank outer = true) (rest : List Char) :
    label? ("ARG(".toList ++ inner ++ '"' :: label ++ '"' :: outer ++ ')' :: rest) =
      some (label, rest) := by
  have hquote : trimStart (inner ++ '"' :: (label ++ '"' :: (outer ++ ')' :: rest))) =
      '"' :: (label ++ '"' :: (outer ++ ')' :: rest)) := by
    rw [trimStart_append_of_blank hi, trimStart_cons (by decide)]
  have hparen : trimStart (outer ++ ')' :: rest) = ')' :: rest := by
    rw [trimStart_append_of_blank ho, trimStart_cons (by decide)]
  have hcut : cut? '"' (label ++ '"' :: (outer ++ ')' :: rest)) =
      some (label, outer ++ ')' :: rest) := cut?_eq_some_iff.2 ⟨rfl, hl⟩
  simp [label?, List.isPrefixOf?, hquote, hcut, hparen]

/-- A label needs a parenthesis behind its first three characters. -/
theorem label?_eq_none {text rest : List Char} (hne : text ≠ []) (ht : '(' ∉ text)
    (hr : ∀ d ∈ rest.head?, d ∉ ['R', 'G', '(']) : label? (text ++ rest) = none := by
  have hp : "ARG(".toList.isPrefixOf? (text ++ rest) = none := by
    rw [Option.eq_none_iff_forall_ne_some]
    intro behind h
    have he : 'A' :: 'R' :: 'G' :: '(' :: behind = text ++ rest :=
      List.isPrefixOf?_eq_some_iff_append_eq.1 h
    match text, hne with
    | [a], _ =>
      obtain rfl : 'R' :: 'G' :: '(' :: behind = rest := (List.cons.inj he).2
      simp at hr
    | [a, b], _ =>
      obtain ⟨-, -, rfl⟩ : 'A' = a ∧ 'R' = b ∧ 'G' :: '(' :: behind = rest := by simpa using he
      simp at hr
    | [a, b, c], _ =>
      obtain ⟨-, -, -, rfl⟩ : 'A' = a ∧ 'R' = b ∧ 'G' = c ∧ '(' :: behind = rest := by
        simpa using he
      simp at hr
    | a :: b :: c :: d :: more, _ =>
      obtain ⟨-, -, -, rfl, -⟩ :
          'A' = a ∧ 'R' = b ∧ 'G' = c ∧ '(' = d ∧ behind = more ++ rest := by simpa using he
      simp at ht
  rw [label?, hp]
  rfl

theorem label?_cons_eq_none {c : Char} (h : c ≠ 'A') (rest : List Char) :
    label? (c :: rest) = none := by
  simp [label?, List.isPrefixOf?, Ne.symm h]

/-! ### The end of an argument list -/

/-- In front of `rest`, an argument list goes on through `text`. -/
def GoesThrough (text rest : List Char) : Prop :=
  argumentText? 0 (text ++ rest) = (argumentText? 0 rest).map fun p => (text ++ p.1, p.2)

namespace GoesThrough

theorem nil (rest : List Char) : GoesThrough [] rest := by
  simp [GoesThrough]

theorem append {a b rest : List Char} (ha : GoesThrough a (b ++ rest)) (hb : GoesThrough b rest) :
    GoesThrough (a ++ b) rest := by
  rw [GoesThrough, List.append_assoc, ha, hb, Option.map_map]
  simp [Function.comp_def]

theorem singleton {c : Char} {rest : List Char} (hl : label? (c :: rest) = none)
    (hc : c ∉ ['(', ')', '"']) : GoesThrough [c] rest := by
  simp only [List.mem_cons, List.not_mem_nil, or_false, not_or] at hc
  simp [GoesThrough, argumentText?, labelLength, hl, hc]

theorem blank {gap : List Char} (h : isBlank gap = true) (rest : List Char) :
    GoesThrough gap rest := by
  induction gap with
  | nil => exact nil rest
  | cons c gap ih =>
    simp only [isBlank_cons, Bool.and_eq_true] at h
    have hA : c ≠ 'A' := ne_of_isWhite h.1 (by decide)
    refine append (a := [c]) (singleton (label?_cons_eq_none hA _) ?_) (ih h.2)
    simp [ne_of_isWhite h.1 (show isWhite '(' = false by decide),
      ne_of_isWhite h.1 (show isWhite ')' = false by decide),
      ne_of_isWhite h.1 (show isWhite '"' = false by decide)]

theorem plain {text rest : List Char} (ht : ∀ d ∈ ['(', ')', '"'], d ∉ text)
    (hr : ∀ d ∈ rest.head?, d ∉ ['R', 'G', '(']) : GoesThrough text rest := by
  induction text with
  | nil => exact nil rest
  | cons c text ih =>
    refine append (a := [c]) (singleton ?_ fun hc => ht c hc List.mem_cons_self)
      (ih fun d hd hm => ht d hd (List.mem_cons_of_mem c hm))
    show label? ((c :: text) ++ rest) = none
    exact label?_eq_none (List.cons_ne_nil c text) (ht '(' (by decide)) hr

theorem inside (text rest : List Char) :
    argumentText? text.length (text ++ rest) =
      (argumentText? 0 rest).map fun p => (text ++ p.1, p.2) := by
  induction text with
  | nil => simp
  | cons c text ih => simp [argumentText?, ih, Function.comp_def]

theorem label {label inner outer : List Char} (hl : '"' ∉ label) (hi : isBlank inner = true)
    (ho : isBlank outer = true) (rest : List Char) :
    GoesThrough ("ARG(".toList ++ inner ++ '"' :: label ++ '"' :: outer ++ [')']) rest := by
  obtain ⟨tail, hcons⟩ : ∃ tail, "ARG(".toList ++ inner ++ '"' :: label ++ '"' :: outer ++ [')'] =
      'A' :: tail := ⟨"RG(".toList ++ inner ++ '"' :: label ++ '"' :: outer ++ [')'], by simp⟩
  have hlabel : label? ('A' :: (tail ++ rest)) = some (label, rest) := by
    rw [← List.cons_append, ← hcons, List.append_assoc _ [')'], List.singleton_append]
    exact label?_labelText hl hi ho rest
  have hlength : labelLength ('A' :: (tail ++ rest)) = tail.length + 1 := by
    simp [labelLength, hlabel]
    omega
  rw [GoesThrough, hcons, List.cons_append, argumentText?, hlength]
  simp only [inside, Option.map_map, Function.comp_def, List.cons_append]

end GoesThrough

theorem LabelText.goesThrough {label : Option (List Char)} {text : List Char}
    (h : LabelText label text) (rest : List Char) : GoesThrough text rest := by
  cases h with
  | none => exact .nil rest
  | @some label inner outer behind hl _ hi ho hb =>
    have hsplit : "ARG(".toList ++ inner ++ '"' :: label ++ '"' :: outer ++ ')' :: behind =
        ("ARG(".toList ++ inner ++ '"' :: label ++ '"' :: outer ++ [')']) ++ behind := by simp
    rw [hsplit]
    exact .append (.label hl hi ho _) (.blank hb rest)

theorem EntryText.goesThrough {a : Argument} {text rest : List Char} (h : EntryText a text)
    (hr : ∀ d ∈ rest.head?, d ∉ ['R', 'G', '(']) : GoesThrough text rest := by
  cases h with
  | @intro _ _ _ _ before _ _ _ after ht hn hb hl hs hg _ ha =>
    rw [List.append_assoc, List.append_assoc, List.append_assoc, List.append_assoc]
    refine .append (.blank hb _) (.append (hl.goesThrough _) (.plain (fun d hd => ?_) hr))
    rw [← List.append_assoc, ← List.append_assoc]
    exact plain_tail ht hn hs hg ha (by simp at hd ⊢; tauto)

theorem EntriesText.goesThrough {position : Nat} {args : List Argument} {text : List Char}
    (h : EntriesText position args text) (rest : List Char) :
    GoesThrough text (')' :: rest) := by
  induction h with
  | single h => exact h.goesThrough (by simp)
  | @cons a args text more h _ ih =>
    rw [← List.singleton_append, ← List.append_assoc]
    refine .append (.append (h.goesThrough (by simp)) (.singleton ?_ (by decide))) ih
    exact label?_cons_eq_none (by decide) _

/-- An argument list ends at the parenthesis that closes it. -/
theorem ArgumentsText.argumentText?_eq {args : List Argument} {text : List Char}
    (h : ArgumentsText args text) (rest : List Char) :
    argumentText? 0 (text ++ ')' :: rest) = some (text, rest) := by
  have hg : GoesThrough text (')' :: rest) := by
    cases h with
    | empty h => exact .blank h _
    | entries h => exact h.goesThrough rest
  have hend : argumentText? 0 (')' :: rest) = some ([], rest) := by
    simp [argumentText?, labelLength, label?_cons_eq_none (show ')' ≠ 'A' by decide)]
  rw [hg, hend]
  simp

/-! ### Entries -/

/-- The text stands in one entry, with what follows it up to the next comma. -/
def WithinEntry (text : List Char) : Prop :=
  ∀ rest, splitEntries false (text ++ rest) = (splitEntries false rest).modifyHead (text ++ ·)

namespace WithinEntry

theorem nil : WithinEntry [] := by
  intro rest
  rw [List.nil_append]
  cases splitEntries false rest <;> rfl

theorem append {a b : List Char} (ha : WithinEntry a) (hb : WithinEntry b) :
    WithinEntry (a ++ b) := by
  intro rest
  rw [List.append_assoc, ha, hb]
  cases splitEntries false rest <;> simp

theorem of_not_mem {text : List Char} (hc : ',' ∉ text) (hq : '"' ∉ text) : WithinEntry text := by
  induction text with
  | nil => exact nil
  | cons c text ih =>
    rw [List.mem_cons, not_or] at hc hq
    intro rest
    have hquote : (c == '"') = false := by simpa using Ne.symm hq.1
    simp only [List.cons_append, splitEntries, Ne.symm hc.1, false_and, if_false, hquote,
      bne_self_eq_false, ih hc.2 hq.2 rest]
    cases splitEntries false rest <;> simp

theorem splitEntries_quoted {label : List Char} (h : '"' ∉ label) (rest : List Char) :
    splitEntries true (label ++ '"' :: rest) =
      (splitEntries false rest).modifyHead (label ++ '"' :: ·) := by
  induction label with
  | nil => simp [splitEntries]
  | cons c label ih =>
    rw [List.mem_cons, not_or] at h
    have hquote : (c == '"') = false := by simpa using Ne.symm h.1
    simp only [List.cons_append, splitEntries, Bool.true_eq_false, and_false, if_false, hquote,
      Bool.bne_false, ih h.2]
    cases splitEntries false rest <;> simp

theorem quoted {label : List Char} (h : '"' ∉ label) : WithinEntry ('"' :: label ++ ['"']) := by
  intro rest
  have ht := splitEntries_quoted h rest
  simp only [List.cons_append, List.append_assoc, List.nil_append, splitEntries]
  simp [ht]
  cases splitEntries false rest <;> simp

end WithinEntry

theorem LabelText.withinEntry {label : Option (List Char)} {text : List Char}
    (h : LabelText label text) : WithinEntry text := by
  cases h with
  | none => exact .nil
  | @some label inner outer behind hl _ hi ho hb =>
    have hblank : ∀ {gap : List Char}, isBlank gap = true → WithinEntry gap := fun hg =>
      .of_not_mem (not_mem_of_blank hg (by decide)) (not_mem_of_blank hg (by decide))
    have hsplit : "ARG(".toList ++ inner ++ '"' :: label ++ '"' :: outer ++ ')' :: behind =
        "ARG(".toList ++ inner ++ ('"' :: label ++ ['"']) ++ outer ++ [')'] ++ behind := by simp
    rw [hsplit]
    exact .append (.append (.append (.append (.append (.of_not_mem (by decide) (by decide))
      (hblank hi)) (.quoted hl)) (hblank ho)) (.of_not_mem (by decide) (by decide))) (hblank hb)

theorem EntryText.withinEntry {a : Argument} {text : List Char} (h : EntryText a text) :
    WithinEntry text := by
  cases h with
  | @intro _ _ _ name before _ _ gap after ht hn hb hl hs hg _ ha =>
    rw [List.append_assoc, List.append_assoc, List.append_assoc, List.append_assoc]
    have hfront : WithinEntry before :=
      .of_not_mem (not_mem_of_blank hb (by decide)) (not_mem_of_blank hb (by decide))
    refine .append hfront (.append hl.withinEntry ?_)
    rw [← List.append_assoc, ← List.append_assoc]
    have htail := @plain_tail _ _ gap name after ht hn hs hg ha
    exact .of_not_mem (htail (by decide)) (htail (by decide))

/-! ### Reading -/

theorem IsArgumentType.not_blank {type typeText : List Char} (ht : IsArgumentType type)
    (hs : DeclaredType.Spells type typeText) (more : List Char) :
    isBlank (typeText ++ more) = false := by
  refine Bool.eq_false_iff.2 fun hall => ht.nonempty ?_
  rw [isBlank_append, Bool.and_eq_true] at hall
  rw [← ht.normalized, ← hs.normalizeChars_eq, DeclaredType.normalizeChars, words_of_blank hall.1]
  rfl

theorem IsParameterName.exists_last {name : List Char} (h : IsParameterName name) :
    ∃ c, name.getLast? = some c ∧ isWhite c = false := by
  cases hl : name.getLast? with
  | none =>
    have hs := h.start
    simp [List.getLast?_eq_none_iff.1 hl] at hs
  | some c =>
    refine ⟨c, rfl, Bool.eq_false_iff.2 fun hw => ?_⟩
    have hword := h.word c (List.mem_of_getLast? hl)
    rw [isWord_eq_false_of_isWhite hw] at hword
    cases hword

theorem isWord_eq_false_of_isTypeEnd {c : Char} (h : isTypeEnd c = true) : isWord c = false := by
  simp only [isTypeEnd, Bool.or_eq_true, beq_iff_eq] at h
  rcases h with (hw | rfl) | rfl
  · exact isWord_eq_false_of_isWhite hw
  · decide
  · decide

theorem typedName?_append {run name : List Char} (hrun : run.getLast?.any isTypeEnd = true)
    (hname : IsParameterName name) (hline : '\n' ∉ run) :
    typedName? (run ++ name) = some (run, name) := by
  have hend : run.getLast?.any isWord = false := by
    cases hl : run.getLast? with
    | none => rfl
    | some c =>
      rw [hl] at hrun
      exact isWord_eq_false_of_isTypeEnd hrun
  have hfree : '\n' ∉ run.dropLast := fun hm => hline (List.dropLast_subset _ hm)
  simp only [typedName?, splitTail_eq hend hname.word, hrun, hfree, not_false_eq_true, hname.start,
    and_self, if_true]

/-- The type of an argument with what ends it, apart from the name behind it. -/
theorem typedName?_eq {type typeText gap name : List Char} (ht : IsArgumentType type)
    (hn : IsParameterName name) (hs : DeclaredType.Spells type typeText)
    (hg : isBlank gap = true)
    (hgap : gap = [] → type.getLast? = some '*' ∨ type.getLast? = some '&')
    (hline : '\n' ∉ typeText ++ gap) :
    typedName? (trimStart (typeText ++ gap) ++ name) =
      some (trimStart (typeText ++ gap), name) := by
  have hend : (trimStart (typeText ++ gap)).getLast?.any isTypeEnd = true := by
    rw [getLast?_trimStart (ht.not_blank hs gap), List.getLast?_append]
    cases hl : gap.getLast? with
    | some c =>
      have hw := isWhite_of_mem hg (List.mem_of_getLast? hl)
      simp [isTypeEnd, hw]
    | none =>
      rcases hgap (List.getLast?_eq_none_iff.1 hl) with hc | hc
      · rw [hs.getLast?_eq hc (by decide)]
        decide
      · rw [hs.getLast?_eq hc (by decide)]
        decide
  exact typedName?_append hend hn fun hm => hline (mem_of_mem_trimStart hm)

theorem normalizeChars_type {type typeText gap : List Char} (ht : IsArgumentType type)
    (hs : DeclaredType.Spells type typeText) (hg : isBlank gap = true) :
    DeclaredType.normalizeChars (trimStart (typeText ++ gap)) = type := by
  rw [DeclaredType.normalizeChars_trimStart, DeclaredType.normalizeChars_append_blank _ hg,
    hs.normalizeChars_eq, ht.normalized]

theorem splitLabel_labelText {label inner outer : List Char} (hl : '"' ∉ label)
    (hi : isBlank inner = true) (ho : isBlank outer = true) {rest : List Char}
    (hline : '\n' ∉ rest) :
    splitLabel ("ARG(".toList ++ inner ++ '"' :: label ++ '"' :: outer ++ ')' :: rest) =
      (some label, trimStart rest) := by
  have hfree : '\n' ∉ trimStart rest := fun hm => hline (mem_of_mem_trimStart hm)
  simp only [splitLabel, label?_labelText hl hi ho, hfree, if_false]

theorem splitLabel_plain {text : List Char} (hne : text ≠ []) (h : '(' ∉ text) :
    splitLabel text = (none, text) := by
  have hn := @label?_eq_none text [] hne h (by simp)
  rw [List.append_nil] at hn
  rw [splitLabel, hn]

theorem ofEntry?_eq_some {position : Nat} {entry rest type name : List Char}
    {label : Option (List Char)} (hl : splitLabel entry = (label, rest))
    (ht : typedName? (trim rest) = some (type, name)) :
    Argument.ofEntry? position entry = some
      ⟨String.ofList (DeclaredType.normalizeChars type), String.ofList name, position,
        label.map String.ofList⟩ := by
  simp [Argument.ofEntry?, hl, ht]

/-- An entry declares the argument that it was written for. -/
theorem EntryText.ofEntry?_eq {a : Argument} {text : List Char} (h : EntryText a text)
    (hline : '\n' ∉ text) : Argument.ofEntry? a.position (trim text) = some a := by
  cases h with
  | @intro position label type name before labelText typeText gap after ht hn hb hl hs hg hgap ha =>
    obtain ⟨c, hc, hcw⟩ := hn.exists_last
    have hfront := ht.not_blank hs gap
    have hfree : '\n' ∉ typeText ++ gap := by
      simp only [List.mem_append, not_or] at hline ⊢
      exact ⟨hline.1.1.1.2, hline.1.1.2⟩
    have htyped := typedName?_eq ht hn hs hg hgap hfree
    have htype := normalizeChars_type ht hs hg
    cases hl with
    | none =>
      have htrim : trim (before ++ [] ++ typeText ++ gap ++ name ++ after) =
          trimStart (typeText ++ gap) ++ name := by
        rw [List.append_nil, List.append_assoc before]
        exact trim_append_append hb hfront hc hcw ha
      have hparen : '(' ∉ trimStart (typeText ++ gap) ++ name := by
        have hp := plain_tail ht hn hs hg ha (show '(' ∈ ['(', ')', '"', ',', '/'] by decide)
        simp only [List.mem_append, not_or] at hp ⊢
        exact ⟨fun hm => (List.mem_append.1 (mem_of_mem_trimStart hm)).elim hp.1.1.1 hp.1.1.2,
          hp.1.2⟩
      have hne : trimStart (typeText ++ gap) ++ name ≠ [] := by
        intro hnil
        rw [(List.append_eq_nil_iff.1 hnil).2] at hc
        cases hc
      have hagain : trim (trimStart (typeText ++ gap) ++ name) =
          trimStart (typeText ++ gap) ++ name := by
        rw [← htrim, trim_trim]
      rw [htrim, ofEntry?_eq_some (splitLabel_plain hne hparen) (by rw [hagain, htyped]), htype]
    | @some label inner outer behind hquote _ hi ho hbehind =>
      have hlabel : isBlank ("ARG(".toList ++ inner ++ '"' :: label ++ '"' :: outer ++
          ')' :: behind ++ typeText ++ gap) = false := by
        rw [List.append_assoc, isBlank_append, hfront, Bool.and_false]
      -- The white space behind the label belongs to what follows the label.
      have htrim : trim (before ++ ("ARG(".toList ++ inner ++ '"' :: label ++ '"' :: outer ++
            ')' :: behind) ++ typeText ++ gap ++ name ++ after) =
          "ARG(".toList ++ inner ++ '"' :: label ++ '"' :: outer ++
            ')' :: (behind ++ (typeText ++ gap) ++ name) := by
        have h := trim_append_append hb hlabel hc hcw ha
        rw [trimStart_of_head? (by simp [isWhite_A])] at h
        simpa using h
      have hrest : trim (trimStart (behind ++ (typeText ++ gap) ++ name)) =
          trimStart (typeText ++ gap) ++ name := by
        have h := @trim_append_append behind (typeText ++ gap) name [] c hbehind hfront hc hcw
          isBlank_nil
        rwa [List.append_nil, ← trim_trimStart] at h
      have hfreeRest : '\n' ∉ behind ++ (typeText ++ gap) ++ name := by
        simp only [List.mem_append, List.mem_cons, not_or] at hline ⊢
        exact ⟨⟨hline.1.1.1.1.2.2.2, hline.1.1.1.2, hline.1.1.2⟩, hline.1.2⟩
      rw [htrim, ofEntry?_eq_some (splitLabel_labelText hquote hi ho hfreeRest)
        (by rw [hrest, htyped]), htype]

/-! ### Lists -/

theorem EntriesText.mapM_eq {position : Nat} {args : List Argument} {text : List Char}
    (h : EntriesText position args text) (hline : '\n' ∉ text) :
    ((splitEntries false text).zipIdx position).mapM (fun (entry, position) =>
        match Argument.ofEntry? position (trim entry) with
        | some argument => Except.ok argument
        | none => .error (trim entry)) = .ok args := by
  induction h with
  | @single a text h =>
    have hs : splitEntries false text = [text] := by
      have hw := h.withinEntry []
      rw [List.append_nil] at hw
      rw [hw]
      simp [splitEntries]
    rw [hs, List.zipIdx_singleton, List.mapM_cons, List.mapM_nil]
    simp only [h.ofEntry?_eq hline]
    rfl
  | @cons a args text more h _ ih =>
    have hs : splitEntries false (text ++ ',' :: more) = text :: splitEntries false more := by
      rw [h.withinEntry]
      simp [splitEntries]
    simp only [List.mem_append, List.mem_cons, not_or] at hline
    rw [hs, List.zipIdx_cons, List.mapM_cons, ih hline.2.2]
    simp only [h.ofEntry?_eq hline.1]
    rfl

theorem EntryText.not_blank {a : Argument} {text : List Char} (h : EntryText a text) :
    isBlank text = false := by
  cases h with
  | @intro _ _ _ _ _ _ _ gap after ht _ _ _ hs =>
    rw [List.append_assoc, List.append_assoc, List.append_assoc, isBlank_append,
      ht.not_blank hs, Bool.and_false]

theorem EntriesText.not_blank {position : Nat} {args : List Argument} {text : List Char}
    (h : EntriesText position args text) : isBlank text = false := by
  cases h with
  | single h => exact h.not_blank
  | cons h _ => rw [isBlank_append, h.not_blank, Bool.false_and]

/-- A list written from arguments is read as these arguments. -/
theorem ArgumentsText.readList_eq {args : List Argument} {text : List Char}
    (h : ArgumentsText args text) (hline : '\n' ∉ text) : Argument.readList text = .ok args := by
  cases h with
  | empty h => rw [Argument.readList, if_pos h]
  | entries h =>
    rw [Argument.readList, h.not_blank, if_neg Bool.false_ne_true]
    exact h.mapM_eq hline

/-! ### Comments -/

theorem LabelText.commentFree {label : Option (List Char)} {text : List Char}
    (h : LabelText label text) : CommentFree text := by
  cases h with
  | none => exact .nil
  | @some label inner outer behind _ hc hi ho hb =>
    have hsplit : "ARG(".toList ++ inner ++ '"' :: label ++ '"' :: outer ++ ')' :: behind =
        ("ARG(".toList ++ inner ++ ['"']) ++ (label ++ ['"']) ++ (outer ++ ')' :: behind) := by
      simp
    have hfront : '/' ∉ "ARG(".toList ++ inner ++ ['"'] := by
      simp [not_mem_of_blank hi (show isWhite '/' = false by decide)]
    have hback : '/' ∉ outer ++ ')' :: behind := by
      simp [not_mem_of_blank ho (show isWhite '/' = false by decide),
        not_mem_of_blank hb (show isWhite '/' = false by decide)]
    rw [hsplit]
    exact .append (.append (.of_not_mem hfront) (.append_singleton hc (by decide)))
      (.of_not_mem hback)

theorem EntryText.commentFree {a : Argument} {text : List Char} (h : EntryText a text) :
    CommentFree text := by
  cases h with
  | @intro _ _ _ _ before _ _ _ after ht hn hb hl hs hg _ ha =>
    rw [List.append_assoc, List.append_assoc, List.append_assoc, List.append_assoc]
    refine .append (.of_not_mem (not_mem_of_blank hb (by decide))) (.append hl.commentFree ?_)
    rw [← List.append_assoc, ← List.append_assoc]
    exact .of_not_mem (plain_tail ht hn hs hg ha (by decide))

theorem EntriesText.commentFree {position : Nat} {args : List Argument} {text : List Char}
    (h : EntriesText position args text) : CommentFree text := by
  induction h with
  | single h => exact h.commentFree
  | @cons _ _ text more h _ ih =>
    rw [← List.singleton_append]
    exact .append h.commentFree (.append (.of_not_mem (by decide)) ih)

theorem ArgumentsText.commentFree {args : List Argument} {text : List Char}
    (h : ArgumentsText args text) : CommentFree text := by
  cases h with
  | empty h => exact .of_not_mem (not_mem_of_blank h (by decide))
  | entries h => exact h.commentFree

end WrenGlue.Header
