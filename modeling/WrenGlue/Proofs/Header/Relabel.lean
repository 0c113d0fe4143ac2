import WrenGlue.Proofs.Header.ArgumentRun
import WrenGlue.Proofs.Header.Edits
import WrenGlue.Proofs.Header.Scanned

/-! Another text for the label of an argument. The argument list is split and read as before, and
nothing changes but that label, or what an error quotes. -/

namespace WrenGlue.Header

open WrenGlue.Text

/-- The same text, or `label'` in it in the place of `label`. -/
def Requoted (label label' text text' : List Char) : Prop :=
  text' = text ∨ ∃ front back, text = front ++ label ++ back ∧ text' = front ++ label' ++ back

/-- The same fault, where a text that is quoted may be another one. -/
inductive LineFault.Requoted (label label' : List Char) : LineFault → LineFault → Prop
  | unknownKind (kind : String) : Requoted label label' (.unknownKind kind) (.unknownKind kind)
  | malformedArgument {entry entry' : List Char} :
      Header.Requoted label label' entry entry' → Requoted label label'
        (.malformedArgument (String.ofList entry)) (.malformedArgument (String.ofList entry'))
  | missingVariadicTail : Requoted label label' .missingVariadicTail .missingVariadicTail
  | methodOutsideClass : Requoted label label' .methodOutsideClass .methodOutsideClass

/-- The same kind of error on the same line, which the error quotes. -/
structure DeclarationError.Requoted (label label' : List Char) (e e' : DeclarationError) :
    Prop where
  line : e'.line = e.line
  fragment : Header.Requoted label label' e.fragment.toList e'.fragment.toList
  fault : e.fault.Requoted label label' e'.fault

/-- The argument with another label, if it is the one at `position`. -/
def Argument.relabel (position : Nat) (label : String) (a : Argument) : Argument :=
  if a.position = position then { a with label := some label } else a

def MethodDecl.relabel (position : Nat) (label : String) (m : MethodDecl) : MethodDecl :=
  { m with args := m.args.map (·.relabel position label) }

/-- The class with another label in the method on the line with the number `line`. -/
def ClassDecl.relabel (line position : Nat) (label : String) (c : ClassDecl) : ClassDecl :=
  { c with methods := c.methods.map fun m =>
      if m.line = line then m.relabel position label else m }

/-- Only one label on the line with the number `line` changes. -/
def Revision.relabelling (line position : Nat) (label label' : List Char) : Revision where
  number := id
  method m := if m.line = line then m.relabel position (String.ofList label') else m
  Error e e' := if e.line = line then e.Requoted label label' e' else e' = e

/-! ### The argument -/

theorem Requoted.refl (label label' text : List Char) : Requoted label label' text text := .inl rfl

theorem trim_labelText {gap : List Char} (hg : isBlank gap = true)
    (inner label outer more : List Char) :
    trim (gap ++ labelText inner label outer ++ more) =
      labelText inner label outer ++ trimEnd more := by
  have hlast : trimEnd (labelText inner label outer ++ more) =
      labelText inner label outer ++ trimEnd more := by
    have h := trimEnd_append_cons (show isWhite ')' = false by decide)
      ("ARG(".toList ++ inner ++ '"' :: label ++ '"' :: outer) more
    simpa [labelText] using h
  rw [List.append_assoc, trim_append_of_blank hg, trim, trimStart_of_head?, hlast]
  rw [labelText_append_eq_cons]
  simpa using isWhite_A

/-- Where the label stands that an entry begins with. -/
theorem exists_labelText_of_splitLabel {entry label : List Char}
    (h : (splitLabel (trim entry)).1 = some label) : ∃ gap inner outer more,
      entry = gap ++ labelText inner label outer ++ more ∧ isBlank gap = true ∧
        isBlank inner = true ∧ '"' ∉ label ∧ isBlank outer = true ∧
        '\n' ∉ trimStart (trimEnd more) := by
  cases hlabel : label? (trim entry) with
  | none => simp [splitLabel, hlabel] at h
  | some found =>
    obtain ⟨found, rest⟩ := found
    by_cases hline : '\n' ∈ trimStart rest
    · simp [splitLabel, hlabel, hline] at h
    · obtain rfl : found = label := by simpa [splitLabel, hlabel, hline] using h
      obtain ⟨inner, outer, hi, hq, ho, htrim⟩ := label?_eq_some_iff.1 hlabel
      obtain ⟨gap, after, hg, ha, hentry⟩ := exists_blank_append_trim entry
      rw [htrim, List.append_assoc, List.append_assoc, ← List.append_assoc] at hentry
      have hboth := trim_labelText hg inner found outer (rest ++ after)
      rw [← hentry, htrim, List.append_cancel_left_eq] at hboth
      exact ⟨gap, inner, outer, rest ++ after, hentry, hg, hi, hq, ho, by rwa [← hboth]⟩

theorem ofEntry?_labelText {gap inner label outer more : List Char} (hg : isBlank gap = true)
    (hi : isBlank inner = true) (hq : '"' ∉ label) (ho : isBlank outer = true)
    (hline : '\n' ∉ trimStart (trimEnd more)) (position : Nat) :
    Argument.ofEntry? position (trim (gap ++ labelText inner label outer ++ more)) =
      (typedName? (trim (trimStart (trimEnd more)))).map fun (type, name) =>
        { type := String.ofList (Cpp.DeclaredType.normalizeChars type)
          name := String.ofList name, position, label := some (String.ofList label) } := by
  have hlabel : label? (trim (gap ++ labelText inner label outer ++ more)) =
      some (label, trimEnd more) :=
    label?_eq_some_iff.2 ⟨inner, outer, hi, hq, ho, trim_labelText hg _ _ _ _⟩
  rw [Argument.ofEntry?, splitLabel, hlabel]
  simp only [if_neg hline]
  cases typedName? (trim (trimStart (trimEnd more))) <;> rfl

/-- What the entry at a position declares. -/
def readEntry (entry : List Char × Nat) : Except (List Char) Argument :=
  match Argument.ofEntry? entry.2 (trim entry.1) with
  | some argument => .ok argument
  | none => .error (trim entry.1)

theorem readList_eq_mapM {text : List Char} (h : isBlank text = false) :
    Argument.readList text = (splitEntries false text).zipIdx.mapM readEntry := by
  rw [Argument.readList, h]
  rfl

theorem readEntry_rel_self (label label' entry : List Char) {i j : Nat} (h : j ≠ i) :
    ExceptRel (Requoted label label') (fun a a' => a' = a.relabel i (String.ofList label'))
      (readEntry (entry, j)) (readEntry (entry, j)) := by
  rw [readEntry]
  cases hread : Argument.ofEntry? j (trim entry) with
  | none => exact .error (.refl _ _ _)
  | some a =>
    have hposition : a.position = j := by
      obtain ⟨_, -, ha⟩ := Option.bind_eq_some_iff.1 hread
      rw [← Option.some.inj ha]
    exact .ok (by rw [Argument.relabel, hposition, if_neg h])

theorem readEntry_rel_labelText {gap inner label label' outer more : List Char}
    (hg : isBlank gap = true) (hi : isBlank inner = true) (hq : '"' ∉ label) (hq' : '"' ∉ label')
    (ho : isBlank outer = true) (hline : '\n' ∉ trimStart (trimEnd more)) (i : Nat) :
    ExceptRel (Requoted label label') (fun a a' => a' = a.relabel i (String.ofList label'))
      (readEntry (gap ++ labelText inner label outer ++ more, i))
      (readEntry (gap ++ labelText inner label' outer ++ more, i)) := by
  rw [readEntry, readEntry, ofEntry?_labelText hg hi hq ho hline,
    ofEntry?_labelText hg hi hq' ho hline]
  cases typedName? (trim (trimStart (trimEnd more))) with
  | none =>
    rw [trim_labelText hg, trim_labelText hg]
    exact .error (.inr ⟨"ARG(".toList ++ inner ++ ['"'], '"' :: outer ++ ')' :: trimEnd more,
      by simp [labelText], by simp [labelText]⟩)
  | some found => exact .ok (by simp [Argument.relabel])

/-! ### The argument list -/

/-- Replacing the label that the entry at position `i` begins with. -/
theorem readList_rel {args gap inner label label' outer more front back : List Char} {i : Nat}
    (hplace : EntryPlace args i (gap ++ labelText inner label outer ++ more) front back)
    (he : (splitEntries false args)[i]? = some (gap ++ labelText inner label outer ++ more))
    (hg : isBlank gap = true) (hi : isBlank inner = true) (hq : '"' ∉ label) (hq' : '"' ∉ label')
    (ho : isBlank outer = true) (hline : '\n' ∉ trimStart (trimEnd more)) :
    ExceptRel (Requoted label label')
      (fun as as' => as' = as.map (·.relabel i (String.ofList label')))
      (Argument.readList args)
      (Argument.readList (front ++ (gap ++ labelText inner label' outer ++ more) ++ back)) := by
  have hblank : ∀ label, isBlank (front ++ (gap ++ labelText inner label outer ++ more) ++ back) =
      false := fun label => by
    simp [isBlank_append, labelText, isWhite_A]
  have hwithin : WithinEntry (gap ++ labelText inner label' outer ++ more) := by
    have hmore : WithinEntry more :=
      hplace.within.of_append ((WithinEntry.blank hg).append (.labelText hi hq ho))
    exact ((WithinEntry.blank hg).append (.labelText hi hq' ho)).append hmore
  have hentries := hplace.replace _ hwithin
  have hargs := hplace.eq ▸ hblank label
  rw [readList_eq_mapM hargs, readList_eq_mapM (hblank label'), hentries]
  refine (ExceptRel.mapM (List.forall₂_iff_get.2 ⟨by simp, fun j hj hj' => ?_⟩)).imp
    (fun _ _ h => h) fun _ _ => eq_map_of_forall₂
  simp only [List.get_eq_getElem, List.getElem_zipIdx, Nat.zero_add, List.getElem_set]
  -- The other entries are read as before, as their positions stay.
  by_cases hji : i = j
  · subst hji
    obtain ⟨_, hentry⟩ := List.getElem?_eq_some_iff.1 he
    rw [if_pos rfl, hentry]
    exact readEntry_rel_labelText hg hi hq hq' ho hline i
  · rw [if_neg hji]
    exact readEntry_rel_self label label' _ (Ne.symm hji)

theorem method_rel {parts : MethodText} {args' label label' : List Char} {i : Nat}
    (h : ExceptRel (Requoted label label')
      (fun as as' => as' = as.map (·.relabel i (String.ofList label')))
      (Argument.readList parts.args) (Argument.readList args')) (line : Nat) :
    ExceptRel (LineFault.Requoted label label')
      (fun m m' => m' = m.relabel i (String.ofList label'))
      (parts.method line) ({ parts with args := args' }.method line) := by
  rw [MethodText.method, MethodText.method]
  cases MethodKind.ofText? (String.ofList parts.kind) with
  | none => exact .error (.unknownKind _)
  | some kind =>
    generalize Argument.readList parts.args = x, Argument.readList args' = x' at h
    cases h with
    | error he => exact .error (.malformedArgument he)
    | @ok as as' ha =>
      subst ha
      -- A label changes no number of arguments, so the tail is missing in both or in none.
      by_cases hv : kind = .variadic ∧ as = []
      · simp only [bind, Except.bind, Except.mapError, hv, List.map_nil, and_self, if_true]
        exact .error .missingVariadicTail
      · simp only [bind, Except.bind, Except.mapError, List.map_eq_nil_iff, if_neg hv]
        refine .ok ?_
        split <;> simp [MethodDecl.relabel, List.map_dropLast]

end WrenGlue.Header
