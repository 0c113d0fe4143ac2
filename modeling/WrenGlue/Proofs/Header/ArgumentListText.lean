import WrenGlue.Proofs.Cpp.Respacing
import WrenGlue.Proofs.Header.ArgumentList

/-! Argument lists that are written from arguments. The declaration of an argument has the characters
of the piece that it was read from, apart from white space, so the list is cut at the same commas and
declares the same arguments. -/

namespace WrenGlue.Header

open WrenGlue.Text
open WrenGlue.Cpp (DeclaredType commaList mem_commaList)

/-- An entry as it is printed. -/
def printedEntry (label : Option (List Char)) (type name : List Char) : List Char :=
  label.elim [] (labelText [] · [] ++ [' ']) ++ type ++ ' ' :: name

/-- The declaration of the argument. -/
def Argument.text (a : Argument) : String :=
  match a.label with
  | some label => "ARG(\"" ++ label ++ "\") " ++ a.type ++ " " ++ a.name
  | none => a.type ++ " " ++ a.name

/-- The declarations of the arguments, as a list. -/
def Argument.listText (args : List Argument) : String := commaList (args.map Argument.text)

theorem Argument.toList_text (a : Argument) :
    a.text.toList = printedEntry (a.label.map String.toList) a.type.toList a.name.toList := by
  rcases a with ⟨type, name, position, _ | label⟩ <;> simp [text, printedEntry, labelText]

/-! ### Labels -/

theorem HasLabel.append {a : List Char} (h : HasLabel a) (b : List Char) : HasLabel (a ++ b) := by
  obtain ⟨hi, hq, ho⟩ := h
  rw [List.append_assoc]
  exact .intro hi hq ho

/-- A label ends with a parenthesis. -/
theorem HasLabel.of_append {a b : List Char} (h : HasLabel (a ++ b)) (hb : ')' ∉ b) :
    HasLabel a := by
  generalize htext : a ++ b = text at h
  obtain @⟨inner, label, outer, rest, hi, hq, ho⟩ := h
  rcases List.append_eq_append_iff.1 htext with ⟨back, hlabel, rfl⟩ | ⟨back, rfl, -⟩
  · have hlast : (a ++ back).getLast? = some ')' := by
      rw [← hlabel, labelText, List.getLast?_concat]
    rw [List.getLast?_append] at hlast
    cases hback : back.getLast? with
    | none =>
      rw [List.getLast?_eq_none_iff.1 hback, List.append_nil] at hlabel
      rw [← hlabel, ← List.append_nil (labelText ..)]
      exact .intro hi hq ho
    | some c =>
      rw [hback, Option.some_or] at hlast
      obtain rfl : c = ')' := Option.some.inj hlast
      exact absurd (List.mem_append_left _ (List.mem_of_getLast? hback)) hb
  · exact .intro hi hq ho

/-- White space plays no part in whether a label stands at the front. -/
theorem HasLabel.of_spells {type text : List Char} (h : HasLabel type)
    (hs : DeclaredType.Spells type text) : HasLabel text := by
  obtain @⟨inner, label, outer, rest, hi, hq, ho⟩ := h
  have hsplit : labelText inner label outer ++ rest = "ARG(".toList ++ (inner ++ (['"'] ++
      (label ++ (['"'] ++ (outer ++ ([')'] ++ rest)))))) := by simp [labelText]
  rw [hsplit] at hs
  obtain ⟨front, _, rfl, hfront, hs⟩ := hs.of_append
  obtain ⟨inner', _, rfl, hinner, hs⟩ := hs.of_append
  obtain ⟨opening, _, rfl, hopening, hs⟩ := hs.of_append
  obtain ⟨label', _, rfl, hlabel, hs⟩ := hs.of_append
  obtain ⟨closing, _, rfl, hclosing, hs⟩ := hs.of_append
  obtain ⟨outer', _, rfl, houter, hs⟩ := hs.of_append
  obtain ⟨ending, rest', rfl, hending, -⟩ := hs.of_append
  rw [hfront.eq_of_plain (by decide), hopening.eq_of_plain (by decide),
    hclosing.eq_of_plain (by decide), hending.eq_of_plain (by decide)]
  have hlabelled : HasLabel (labelText inner' label' outer' ++ rest') :=
    .intro (hinner.isBlank hi) (hlabel.not_mem (by decide) hq) (houter.isBlank ho)
  simpa [labelText] using hlabelled

/-! ### Entries -/

theorem trim_printedEntry (label : Option (List Char)) {type name : List Char}
    (htype : type.head?.any (! isWhite ·) = true) (hname : IsParameterName name) :
    trim (printedEntry label type name) = printedEntry label type name := by
  obtain ⟨c, hc, hw⟩ := hname.exists_last
  have h : IsTrimmed (printedEntry label type name) := by
    constructor
    · cases label with
      | none => cases type <;> simp_all [printedEntry]
      | some label => simp [printedEntry, labelText, isWhite_A]
    · rw [printedEntry, List.getLast?_append, List.getLast?_cons, hc]
      simpa using hw
  simpa using h.trim_eq isBlank_nil isBlank_nil

namespace EntryParts

variable {piece run name : List Char} {label : Option (List Char)}

/-- White space around a piece is no part of it. -/
theorem of_trim_eq (h : EntryParts piece label run name) {piece' : List Char}
    (htrim : trim piece' = trim piece) : EntryParts piece' label run name := by
  obtain ⟨hlabel, htext, hrun, hname⟩ := h
  exact .intro (htrim ▸ hlabel) htext hrun hname

theorem head?_run (h : EntryParts piece label run name) :
    run.head?.any (! isWhite ·) = true := by
  obtain ⟨-, htext, hrun, -⟩ := h
  cases run with
  | nil => simp at hrun
  | cons c run => simpa using isWhite_eq_false_of_trim htext

theorem head?_normalizeChars (h : EntryParts piece label run name) :
    (DeclaredType.normalizeChars run).head?.any (! isWhite ·) = true := by
  have hhead := h.head?_run
  cases run with
  | nil => simp at hhead
  | cons c run =>
    have hc : isWhite c = false := by simpa using hhead
    rw [DeclaredType.normalizeChars_eq_squeeze, trimStart_cons hc]
    simp [DeclaredType.squeeze, hc]

/-- The type of a piece begins with a label only if the piece does. -/
theorem not_hasLabel_printed (hno : ¬ HasLabel (trim piece))
    (htext : trim (trim piece) = run ++ name) (hhead : run.head?.any (! isWhite ·) = true)
    (hname : IsParameterName name) :
    ¬ HasLabel (printedEntry none (DeclaredType.normalizeChars run) name) := by
  intro h
  have hfree : ')' ∉ ' ' :: name := by
    rw [List.mem_cons, not_or]
    refine ⟨by decide, fun hm => ?_⟩
    exact absurd (hname.word _ hm) (by decide)
  -- The run begins with its type, so only white space at its end is lost.
  have hstart : trimStart run = run := trimStart_of_head? (by cases run <;> simp_all)
  obtain ⟨gap, -, hrun⟩ := exists_trimEnd_append_blank run
  have hspells := DeclaredType.spells_normalizeChars run
  rw [trim, hstart] at hspells
  have hlabel := ((h.of_append hfree).of_spells hspells).append (gap ++ name)
  rw [← List.append_assoc, ← hrun, ← htext, trim_trim] at hlabel
  exact hno hlabel

/-- The piece that is printed for the parts of one has these parts. -/
theorem printed (h : EntryParts piece label run name) :
    EntryParts (printedEntry label (DeclaredType.normalizeChars run) name) label
      (DeclaredType.normalizeChars run ++ [' ']) name := by
  have htype := h.head?_normalizeChars
  have hhead := h.head?_run
  obtain ⟨hlabel, htext, -, hname⟩ := h
  have htrim := trim_printedEntry none htype hname
  have hrest : printedEntry none (DeclaredType.normalizeChars run) name =
      DeclaredType.normalizeChars run ++ [' '] ++ name := by simp [printedEntry]
  have hend : (DeclaredType.normalizeChars run ++ [' ']).getLast?.any isTypeEnd = true := by
    simp [isTypeEnd, DeclaredType.isWhite_space]
  generalize hentry : trim piece = entry at hlabel
  cases hlabel with
  | @labelled inner label outer rest _ hq _ =>
    have hlabelled : Unlabelled
        (printedEntry (some label) (DeclaredType.normalizeChars run) name) (some label)
        ([' '] ++ printedEntry none (DeclaredType.normalizeChars run) name) := by
      have h := @Unlabelled.labelled [] label []
        ([' '] ++ printedEntry none (DeclaredType.normalizeChars run) name)
        isBlank_nil hq isBlank_nil
      simpa [printedEntry] using h
    rw [← trim_printedEntry _ htype hname] at hlabelled
    refine .intro hlabelled ?_ hend hname
    rw [trim_append_of_blank (by decide), htrim, hrest]
  | plain hno =>
    subst hentry
    have hplain := Unlabelled.plain (not_hasLabel_printed hno htext hhead hname)
    rw [← htrim] at hplain
    exact .intro hplain (by rw [htrim, htrim, hrest]) hend hname

/-- The piece that is printed has the same characters, white space aside. -/
theorem filter_printed (h : EntryParts piece label run name) :
    (printedEntry label (DeclaredType.normalizeChars run) name).filter (! isWhite ·) =
      piece.filter (! isWhite ·) := by
  obtain @⟨rest, hlabel, htext, -, -⟩ := h
  have htype : (DeclaredType.normalizeChars run).filter (! isWhite ·) =
      run.filter (! isWhite ·) := by
    rw [← (DeclaredType.spells_normalizeChars run).filter_eq, filter_trim]
  have hrest := filter_trim rest
  rw [htext, List.filter_append] at hrest
  rw [← filter_trim piece]
  generalize trim piece = entry at hlabel
  cases hlabel with
  | labelled hi _ ho =>
    simp [printedEntry, labelText, List.filter_append, List.filter_cons, filter_of_blank hi,
      filter_of_blank ho, htype, ← hrest, DeclaredType.isWhite_space]
  | plain => simp [printedEntry, htype, ← hrest, DeclaredType.isWhite_space]

theorem not_mem_printed (h : EntryParts piece label run name) (hline : '\n' ∉ piece) :
    '\n' ∉ printedEntry label (DeclaredType.normalizeChars run) name := by
  obtain ⟨hrun, hname, hlabel⟩ := h.subset
  have htype : '\n' ∉ DeclaredType.normalizeChars run := fun hm =>
    absurd ((DeclaredType.spells_normalizeChars run).eq_space_of_isWhite hm (by decide)) (by decide)
  have hname' : '\n' ∉ name := fun hm => hline (hname hm)
  cases label with
  | none => simp [printedEntry, htype, hname']
  | some label =>
    have hlabel' : '\n' ∉ label := fun hm => hline (hlabel label rfl hm)
    simp [printedEntry, labelText, htype, hname', hlabel']

theorem not_blank (h : EntryParts piece label run name) : isBlank piece = false := by
  obtain ⟨hrun, -, -⟩ := h.subset
  refine Bool.eq_false_iff.2 fun hblank => ?_
  have hhead := h.head?_run
  cases run with
  | nil => simp at hhead
  | cons c run =>
    have hc := isWhite_of_mem hblank (hrun List.mem_cons_self)
    simp [hc] at hhead

end EntryParts

namespace Declares

variable {piece : List Char × Nat} {a : Argument}

/-- The declaration of an argument declares it, at the position of the argument. -/
theorem append_text (h : Declares piece a) {gap : List Char} (hg : isBlank gap = true) :
    Declares (gap ++ a.text.toList, piece.2) a := by
  obtain ⟨label, run, name, hparts, rfl⟩ := h
  have hagain : DeclaredType.normalizeChars (DeclaredType.normalizeChars run ++ [' ']) =
      DeclaredType.normalizeChars run := by
    rw [DeclaredType.normalizeChars_append_blank _ (by decide),
      DeclaredType.normalizeChars_normalizeChars]
  refine ⟨label, DeclaredType.normalizeChars run ++ [' '], name, ?_, by rw [hagain]⟩
  refine hparts.printed.of_trim_eq ?_
  rw [trim_append_of_blank hg, Argument.toList_text]
  simp

theorem filter_append_text (h : Declares piece a) {gap : List Char} (hg : isBlank gap = true) :
    piece.1.filter (! isWhite ·) = (gap ++ a.text.toList).filter (! isWhite ·) := by
  obtain ⟨label, run, name, hparts, rfl⟩ := h
  rw [← hparts.filter_printed, ← filter_trim (gap ++ _), trim_append_of_blank hg, filter_trim,
    Argument.toList_text]
  simp

theorem not_mem_text (h : Declares piece a) (hline : '\n' ∉ piece.1) : '\n' ∉ a.text.toList := by
  obtain ⟨label, run, name, hparts, rfl⟩ := h
  rw [Argument.toList_text]
  simpa using hparts.not_mem_printed hline

theorem isBlank_text (h : Declares piece a) : isBlank a.text.toList = false := by
  obtain ⟨label, run, name, hparts, -⟩ := h.append_text isBlank_nil
  exact hparts.not_blank

end Declares

/-! ### Lists -/

/-- The declarations of arguments are pieces that declare them. -/
theorem forall₂_declares_text {pieces : List (List Char)} {n : Nat} {args : List Argument}
    (h : List.Forall₂ Declares (pieces.zipIdx n) args) {gap : List Char} (hg : isBlank gap = true) :
    List.Forall₂ Declares ((args.map fun a => gap ++ a.text.toList).zipIdx n) args ∧
    List.Forall₂ (fun a b => a.filter (! isWhite ·) = b.filter (! isWhite ·)) pieces
      (args.map fun a => gap ++ a.text.toList) := by
  induction pieces generalizing n args with
  | nil =>
    cases h
    exact ⟨.nil, .nil⟩
  | cons piece pieces ih =>
    rw [List.zipIdx_cons] at h
    cases h with
    | cons hfirst hrest =>
      obtain ⟨hdeclares, hsame⟩ := ih hrest
      exact ⟨.cons (hfirst.append_text hg) hdeclares, .cons (hfirst.filter_append_text hg) hsame⟩

theorem Argument.not_mem_listText {text : List Char} (hline : '\n' ∉ text) {args : List Argument}
    (h : readList text = .ok args) : '\n' ∉ (listText args).toList := by
  intro hm
  rcases mem_commaList hm with hc | hc | ⟨item, hitem, hc⟩
  · exact absurd hc (by decide)
  · exact absurd hc (by decide)
  · obtain ⟨a, ha, rfl⟩ := List.mem_map.1 hitem
    obtain ⟨entry, position, hmem, hread⟩ := exists_entry_of_readList h a ha
    have hfree : '\n' ∉ (entry, position).1 := fun hn => hline (subset_of_mem_splitEntries hmem hn)
    have hdeclares := (readEntry_eq_ok_iff hfree).1 (by rw [readEntry, hread])
    exact hdeclares.not_mem_text hfree hc

/-- A list that is written from the arguments of one is read as these arguments. -/
theorem Argument.readList_listText {text : List Char} (hline : '\n' ∉ text) {args : List Argument}
    (h : readList text = .ok args) : readList (listText args).toList = .ok args := by
  have hfree := not_mem_listText hline h
  rcases (readList_eq_ok_iff hline).1 h with ⟨-, rfl⟩ | ⟨-, hdeclares⟩
  · rfl
  have hentries := areEntries_splitEntries false text
  rw [splitEntries_eq_pieces] at hentries
  cases hpieces : pieces text with
  | nil =>
    rw [hpieces] at hentries
    cases hentries
  | cons piece rest =>
    rw [hpieces] at hentries hdeclares
    rw [List.zipIdx_cons] at hdeclares
    cases hdeclares with
    | @cons _ a _ args hfirst hrest =>
      -- The first declaration stands at the front, the others behind a comma and a space.
      obtain ⟨hmore, hsame⟩ := forall₂_declares_text hrest (show isBlank [' '] = true by decide)
      have hsplit := (hentries.congr
        (.cons (hfirst.filter_append_text isBlank_nil) hsame)).splitEntries_intercalate
      have htext : (listText (a :: args)).toList =
          [','].intercalate (([] ++ a.text.toList) :: args.map fun a => [' '] ++ a.text.toList) := by
        rw [listText, List.map_cons, toList_commaList, List.map_map]
        rfl
      rw [← htext, splitEntries_eq_pieces] at hsplit
      have hblank : isBlank (listText (a :: args)).toList = false := by
        rw [htext]
        cases args <;> simp [List.intercalate_cons_cons, isBlank_append, hfirst.isBlank_text]
      refine (readList_eq_ok_iff hfree).2 (.inr ⟨hblank, ?_⟩)
      rw [hsplit, List.zipIdx_cons]
      exact .cons (hfirst.append_text isBlank_nil) hmore

/-- A list of arguments is read exactly if all of its pieces declare one. Then each piece gives its
argument, and otherwise the first that gives none is the error. The arguments have types, and what is
written from them is read as the same arguments. -/
theorem Argument.readList_exact {text : List Char} (hline : '\n' ∉ text) :
    ((∃ args, readList text = .ok args) ↔
      isBlank text = true ∨ ∀ piece ∈ pieces text, IsEntry piece) ∧
    (∀ args, readList text = .ok args ↔ isBlank text = true ∧ args = [] ∨
      isBlank text = false ∧ List.Forall₂ Declares (pieces text).zipIdx args) ∧
    (∀ entry, readList text = .error entry ↔ isBlank text = false ∧
      ∃ before piece after, pieces text = before ++ piece :: after ∧
        (∀ p ∈ before, IsEntry p) ∧ ¬ IsEntry piece ∧ entry = trim piece) ∧
    ∀ args, readList text = .ok args →
      (∀ a ∈ args, a.type ≠ "") ∧ readList (listText args).toList = .ok args :=
  ⟨exists_readList_iff hline, fun _ => readList_eq_ok_iff hline,
    fun _ => readList_eq_error_iff hline, fun _ h =>
      ⟨fun a ha => (isWellFormed_of_readList h hline a ha).type_ne, readList_listText hline h⟩⟩

/-- Commas and parentheses within quotes, and quotes that are not closed. -/
def quotedList : String := "ARG( \"a, b\" )int  * at ,f(\"x,  y\") g,\tA\"b , C d"

/-- The arguments that `quotedList` declares. -/
def quotedArguments : List Argument :=
  [{ type := "int*", name := "at", position := 0, label := some "a, b" },
   { type := "f(\"x, y\")", name := "g", position := 1 },
   { type := "A\"b , C", name := "d", position := 2 }]

/-- The arguments are read again from their declarations. An empty piece declares none. -/
theorem Argument.readList_exact_quotes :
    List.Forall₂ Declares (pieces quotedList.toList).zipIdx quotedArguments ∧
    listText quotedArguments = "ARG(\"a, b\") int* at, f(\"x, y\") g, A\"b , C d" ∧
    readList (listText quotedArguments).toList = .ok quotedArguments ∧
    ∃ before piece after, pieces "int a, , int b".toList = before ++ piece :: after ∧
      (∀ p ∈ before, IsEntry p) ∧ ¬ IsEntry piece ∧ [] = trim piece := by
  have hread : readList quotedList.toList = .ok quotedArguments := by decide +kernel
  obtain ⟨-, hok, -, hagain⟩ := @readList_exact quotedList.toList (by decide +kernel)
  obtain ⟨-, -, herror, -⟩ := @readList_exact "int a, , int b".toList (by decide +kernel)
  refine ⟨?_, by decide +kernel, (hagain _ hread).2, ((herror []).1 (by decide +kernel)).2⟩
  exact ((hok _).1 hread).elim (fun h => absurd h.2 (by decide)) And.right

end WrenGlue.Header
