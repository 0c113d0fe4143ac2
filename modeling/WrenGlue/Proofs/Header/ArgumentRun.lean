import WrenGlue.Proofs.Header.ArgumentText

/-! What the scanner takes for an argument list: characters other than quotes and parentheses, and
labels. An entry of such a list can be replaced, and all else is scanned and split as before. -/

namespace WrenGlue.Header

open WrenGlue.Text

/-- A label as written. -/
def labelText (inner label outer : List Char) : List Char :=
  "ARG(".toList ++ inner ++ '"' :: label ++ '"' :: outer ++ [')']

/-- The text of an argument list, which need not declare arguments. -/
inductive ArgumentRun : List Char → Prop
  | nil : ArgumentRun []
  | char {c : Char} {rest : List Char} :
      c ∉ ['(', ')', '"'] → ArgumentRun rest → ArgumentRun (c :: rest)
  | label {inner label outer rest : List Char} :
      isBlank inner = true → '"' ∉ label → isBlank outer = true → ArgumentRun rest →
      ArgumentRun (labelText inner label outer ++ rest)

/-! ### Labels -/

theorem labelText_append (inner label outer rest : List Char) :
    labelText inner label outer ++ rest =
      "ARG(".toList ++ inner ++ '"' :: label ++ '"' :: outer ++ ')' :: rest := by
  simp [labelText]

theorem labelText_append_eq_cons (inner label outer rest : List Char) :
    labelText inner label outer ++ rest =
      'A' :: 'R' :: 'G' :: '(' :: (inner ++ '"' :: (label ++ '"' :: (outer ++ ')' :: rest))) := by
  simp [labelText]

theorem label?_eq_some_iff {text label rest : List Char} :
    label? text = some (label, rest) ↔ ∃ inner outer, isBlank inner = true ∧ '"' ∉ label ∧
      isBlank outer = true ∧ text = labelText inner label outer ++ rest := by
  constructor
  · intro h
    simp only [label?, Option.bind_eq_bind, Option.bind_eq_some_iff, Option.pure_def,
      Option.some.injEq, Prod.mk.injEq] at h
    obtain ⟨behind, hfront, opened, hopened, ⟨found, closed⟩, hcut, rest', hclosed, rfl, rfl⟩ := h
    obtain ⟨rfl, hquote⟩ := cut?_eq_some_iff.1 hcut
    obtain ⟨inner, hinner, hbehind⟩ := exists_blank_append_trimStart behind
    obtain ⟨outer, houter, htail⟩ := exists_blank_append_trimStart closed
    rw [List.isPrefixOf?_eq_some_iff_append_eq] at hfront hopened hclosed
    refine ⟨inner, outer, hinner, hquote, houter, ?_⟩
    rw [labelText_append, ← hfront, hbehind, ← hopened, htail, ← hclosed]
    simp
  · rintro ⟨inner, outer, hinner, hquote, houter, rfl⟩
    rw [labelText_append]
    exact label?_labelText hquote hinner houter rest

theorem GoesThrough.labelText {inner label outer : List Char} (hi : isBlank inner = true)
    (hl : '"' ∉ label) (ho : isBlank outer = true) (rest : List Char) :
    GoesThrough (labelText inner label outer) rest :=
  .label hl hi ho rest

theorem WithinEntry.blank {gap : List Char} (h : isBlank gap = true) : WithinEntry gap :=
  .of_not_mem (not_mem_of_blank h (by decide)) (not_mem_of_blank h (by decide))

theorem WithinEntry.labelText {inner label outer : List Char} (hi : isBlank inner = true)
    (hl : '"' ∉ label) (ho : isBlank outer = true) :
    WithinEntry (labelText inner label outer) := by
  have hsplit : Header.labelText inner label outer =
      "ARG(".toList ++ inner ++ ('"' :: label ++ ['"']) ++ outer ++ [')'] := by
    simp [Header.labelText]
  rw [hsplit]
  exact .append (.append (.append (.append (.of_not_mem (by decide) (by decide)) (.blank hi))
    (.quoted hl)) (.blank ho)) (.of_not_mem (by decide) (by decide))

/-! ### Scanning -/

namespace ArgumentRun

theorem append {a b : List Char} (ha : ArgumentRun a) (hb : ArgumentRun b) :
    ArgumentRun (a ++ b) := by
  induction ha with
  | nil => exact hb
  | char hc _ ih => exact .char hc ih
  | label hi hl ho _ ih =>
    rw [List.append_assoc]
    exact .label hi hl ho ih

theorem blank {gap : List Char} (h : isBlank gap = true) : ArgumentRun gap := by
  induction gap with
  | nil => exact .nil
  | cons c gap ih =>
    simp only [isBlank_cons, Bool.and_eq_true] at h
    refine .char ?_ (ih h.2)
    simp [ne_of_isWhite h.1 (show isWhite '(' = false by decide),
      ne_of_isWhite h.1 (show isWhite ')' = false by decide),
      ne_of_isWhite h.1 (show isWhite '"' = false by decide)]

/-- Taking a character off the front that begins no label. -/
theorem of_append_eq_cons {text rest more : List Char} {c : Char} (h : ArgumentRun text)
    (hr : ∀ d ∈ rest.head?, d ∉ ['R', 'G', '(']) (hc : c ∈ ['R', 'G', '('])
    (he : text ++ rest = c :: more) :
    c ≠ '(' ∧ ∃ text', ArgumentRun text' ∧ text' ++ rest = more := by
  cases h with
  | nil => exact absurd hc (hr c (by rw [← List.nil_append rest, he]; rfl))
  | @char d text hd hrun =>
    obtain ⟨rfl, rfl⟩ := List.cons_eq_cons.1 he
    exact ⟨fun hparen => hd (by simp [hparen]), text, hrun, rfl⟩
  | label =>
    rw [List.append_assoc, labelText_append_eq_cons] at he
    obtain ⟨rfl, -⟩ := List.cons_eq_cons.1 he
    simp at hc

theorem label?_cons_eq_none {c : Char} {text rest : List Char} (h : ArgumentRun text)
    (hr : ∀ d ∈ rest.head?, d ∉ ['R', 'G', '(']) : label? (c :: (text ++ rest)) = none := by
  rw [Option.eq_none_iff_forall_ne_some]
  rintro ⟨label, behind⟩ hlabel
  obtain ⟨inner, outer, -, -, -, he⟩ := label?_eq_some_iff.1 hlabel
  rw [labelText_append_eq_cons] at he
  obtain ⟨-, textG, hG, heG⟩ := h.of_append_eq_cons hr (by simp) (List.cons_eq_cons.1 he).2
  obtain ⟨-, textParen, hParen, heParen⟩ := hG.of_append_eq_cons hr (by simp) heG
  exact (hParen.of_append_eq_cons hr (by simp) heParen).1 rfl

theorem goesThrough {text rest : List Char} (h : ArgumentRun text)
    (hr : ∀ d ∈ rest.head?, d ∉ ['R', 'G', '(']) : GoesThrough text rest := by
  induction h with
  | nil => exact .nil rest
  | @char c text hc hrun ih =>
    exact .append (a := [c]) (.singleton (hrun.label?_cons_eq_none hr) hc) ih
  | label hi hl ho _ ih => exact .append (.labelText hi hl ho _) ih

end ArgumentRun

theorem argumentText?_paren (rest : List Char) :
    argumentText? 0 (')' :: rest) = some ([], rest) := by
  simp [argumentText?, labelLength, label?_cons_eq_none (show ')' ≠ 'A' by decide)]

theorem argumentRun_of_argumentText? {text args rest : List Char}
    (h : argumentText? 0 text = some (args, rest)) :
    ArgumentRun args ∧ text = args ++ ')' :: rest := by
  -- The scanner skips a label as a whole, so the induction is on the length of what is left.
  induction hn : text.length using Nat.strong_induction_on generalizing text args with
  | _ n ih =>
    subst hn
    cases text with
    | nil => cases h
    | cons c more =>
      cases hlabel : label? (c :: more) with
      | some found =>
        obtain ⟨label, behind⟩ := found
        obtain ⟨inner, outer, hi, hl, ho, he⟩ := label?_eq_some_iff.1 hlabel
        rw [he, GoesThrough.labelText hi hl ho behind] at h
        obtain ⟨⟨args', rest'⟩, hbehind, heq⟩ := Option.map_eq_some_iff.1 h
        cases heq
        have hlt : behind.length < (c :: more).length := by
          simp only [he, labelText_append_eq_cons, List.length_cons, List.length_append]
          omega
        obtain ⟨hrun, hsplit⟩ := ih _ hlt hbehind rfl
        exact ⟨.label hi hl ho hrun, by rw [he, hsplit, List.append_assoc]⟩
      | none =>
        simp only [argumentText?, labelLength, hlabel] at h
        split_ifs at h with hclose hopen
        · cases h
          exact ⟨.nil, by rw [hclose]; rfl⟩
        · obtain ⟨⟨args', rest'⟩, hbehind, heq⟩ := Option.map_eq_some_iff.1 h
          cases heq
          obtain ⟨hrun, hsplit⟩ := ih _ (by simp) hbehind rfl
          refine ⟨.char ?_ hrun, by rw [hsplit]; rfl⟩
          simp only [not_or] at hopen
          simp [hclose, hopen]

/-- The scanner takes exactly the runs for argument lists. -/
theorem argumentText?_eq_some_iff {text args rest : List Char} :
    argumentText? 0 text = some (args, rest) ↔ ArgumentRun args ∧ text = args ++ ')' :: rest := by
  refine ⟨argumentRun_of_argumentText?, ?_⟩
  rintro ⟨hrun, rfl⟩
  rw [hrun.goesThrough (by simp), argumentText?_paren]
  simp

/-- What stands behind something that the scanner goes through. -/
theorem ArgumentRun.of_append {a b : List Char} (h : ArgumentRun (a ++ b))
    (ha : GoesThrough a (b ++ [')'])) : ArgumentRun b := by
  have hscan := argumentText?_eq_some_iff.2 ⟨h, @rfl _ (a ++ b ++ [')'])⟩
  rw [List.append_assoc, ha] at hscan
  obtain ⟨⟨args, rest⟩, hargs, heq⟩ := Option.map_eq_some_iff.1 hscan
  obtain ⟨rfl, rfl⟩ : args = b ∧ rest = [] := by simpa using heq
  exact (argumentText?_eq_some_iff.1 hargs).1

/-! ### Entries -/

theorem splitEntries_ne_nil (quoted : Bool) (text : List Char) : splitEntries quoted text ≠ [] := by
  induction text generalizing quoted with
  | nil => simp [splitEntries]
  | cons c rest ih =>
    rw [splitEntries]
    split
    · simp
    · cases hs : splitEntries (quoted != (c == '"')) rest with
      | nil => exact absurd hs (ih _)
      | cons first others => simp

theorem WithinEntry.of_append {a b : List Char} (h : WithinEntry (a ++ b)) (ha : WithinEntry a) :
    WithinEntry b := by
  intro rest
  have hboth := h rest
  rw [List.append_assoc, ha] at hboth
  cases hs : splitEntries false (b ++ rest) with
  | nil => exact absurd hs (splitEntries_ne_nil false _)
  | cons first others =>
    cases hr : splitEntries false rest with
    | nil => exact absurd hr (splitEntries_ne_nil false _)
    | cons first' others' =>
      rw [hs, hr] at hboth
      simpa using hboth

/-- The entry with the index `i` of the argument list `args` stands between `front` and `back`, and
another may take its place. -/
structure EntryPlace (args : List Char) (i : Nat) (entry front back : List Char) : Prop where
  eq : args = front ++ entry ++ back
  first : i = 0 → front = []
  runFront : ArgumentRun front
  runEntry : ArgumentRun entry
  runBack : ArgumentRun back
  within : WithinEntry entry
  replace : ∀ other, WithinEntry other →
    splitEntries false (front ++ other ++ back) = (splitEntries false args).set i other

/-- Text in front of a list, inside its first entry. -/
theorem EntryPlace.append_piece {args : List Char}
    (h : ∀ {i entry}, (splitEntries false args)[i]? = some entry →
      ∃ front back, EntryPlace args i entry front back)
    {piece : List Char} (hw : WithinEntry piece) (hp : ArgumentRun piece) {i : Nat}
    {entry : List Char} (he : (splitEntries false (piece ++ args))[i]? = some entry) :
    ∃ front back, EntryPlace (piece ++ args) i entry front back := by
  cases hs : splitEntries false args with
  | nil => exact absurd hs (splitEntries_ne_nil false args)
  | cons first others =>
    rw [hw, hs, List.modifyHead_cons] at he
    cases i with
    | zero =>
      obtain rfl : piece ++ first = entry := by simpa using he
      obtain ⟨front, back, hplace⟩ :=
        h (show (splitEntries false args)[0]? = some first by simp [hs])
      obtain rfl := hplace.first rfl
      have hargs := hplace.eq
      refine ⟨[], back, ⟨by simp [hargs], fun _ => rfl, .nil, hp.append hplace.runEntry,
        hplace.runBack, hw.append hplace.within, fun other ho => ?_⟩⟩
      rw [hplace.replace other ho, hw, hs]
      rfl
    | succ i =>
      obtain ⟨front, back, hplace⟩ :=
        h (show (splitEntries false args)[i + 1]? = some entry by simpa [hs] using he)
      have hargs := hplace.eq
      refine ⟨piece ++ front, back, ⟨by simp [hargs], by simp, hp.append hplace.runFront,
        hplace.runEntry, hplace.runBack, hplace.within, fun other ho => ?_⟩⟩
      rw [List.append_assoc, List.append_assoc, hw, ← List.append_assoc, hplace.replace other ho,
        hw, hs]
      rfl

theorem EntryPlace.cons_comma {args : List Char} (hrun : ArgumentRun args)
    (h : ∀ {i entry}, (splitEntries false args)[i]? = some entry →
      ∃ front back, EntryPlace args i entry front back) {i : Nat} {entry : List Char}
    (he : (splitEntries false (',' :: args))[i]? = some entry) :
    ∃ front back, EntryPlace (',' :: args) i entry front back := by
  have hcomma : ∀ text, splitEntries false (',' :: text) = [] :: splitEntries false text :=
    fun text => by simp [splitEntries]
  rw [hcomma] at he
  cases i with
  | zero =>
    obtain rfl : [] = entry := by simpa using he
    refine ⟨[], ',' :: args, ⟨rfl, fun _ => rfl, .nil, .nil, .char (by decide) hrun, .nil,
      fun other ho => ?_⟩⟩
    rw [List.nil_append, ho, hcomma]
    simp
  | succ i =>
    obtain ⟨front, back, hplace⟩ :=
      h (show (splitEntries false args)[i]? = some entry by simpa using he)
    have hargs := hplace.eq
    refine ⟨',' :: front, back, ⟨by simp [hargs], by simp, .char (by decide) hplace.runFront,
      hplace.runEntry, hplace.runBack, hplace.within, fun other ho => ?_⟩⟩
    rw [List.cons_append, List.cons_append, hcomma, hplace.replace other ho, hcomma]
    rfl

/-- Every entry of an argument list has a place in it. -/
theorem ArgumentRun.exists_entryPlace {args : List Char} (h : ArgumentRun args) {i : Nat}
    {entry : List Char} (he : (splitEntries false args)[i]? = some entry) :
    ∃ front back, EntryPlace args i entry front back := by
  induction h generalizing i entry with
  | nil =>
    cases i with
    | zero =>
      obtain rfl : [] = entry := by simpa [splitEntries] using he
      refine ⟨[], [], ⟨rfl, fun _ => rfl, .nil, .nil, .nil, .nil, fun other ho => ?_⟩⟩
      rw [List.nil_append, ho]
      simp [splitEntries]
    | succ i => simp [splitEntries] at he
  | @char c rest hc hrun ih =>
    by_cases hcomma : c = ','
    · subst hcomma
      exact EntryPlace.cons_comma hrun ih he
    · simp only [List.mem_cons, List.not_mem_nil, or_false, not_or] at hc
      have hw : WithinEntry [c] :=
        .of_not_mem (by simpa using Ne.symm hcomma) (by simpa using Ne.symm hc.2.2)
      exact EntryPlace.append_piece ih hw (.char (by simpa using hc) .nil) he
  | label hi hl ho _ ih =>
    have hpiece := ArgumentRun.label hi hl ho .nil
    rw [List.append_nil] at hpiece
    exact EntryPlace.append_piece ih (.labelText hi hl ho) hpiece he

end WrenGlue.Header
