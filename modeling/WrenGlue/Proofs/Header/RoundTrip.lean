import WrenGlue.Proofs.Header.LineText
import WrenGlue.Proofs.Header.Segmentation

/-! A header written from classes, with any spacing between its tokens and with comments, is read as
these classes. -/

namespace WrenGlue.Header

open WrenGlue.Text

/-- Lines, the first of them numbered `n`, that declare the methods `methods` and then the classes
`classes`. -/
inductive HeaderLines :
    (n : Nat) → (methods : List MethodDecl) → (classes : List ClassDecl) →
    List (List Char) → Prop
  | nil {n : Nat} : HeaderLines n [] [] []
  | other {n : Nat} {methods : List MethodDecl} {classes : List ClassDecl} {line : List Char}
      {lines : List (List Char)} :
      LineEnd line → HeaderLines (n + 1) methods classes lines →
      HeaderLines n methods classes (line :: lines)
  | method {m : MethodDecl} {methods : List MethodDecl} {classes : List ClassDecl}
      {line : List Char} {lines : List (List Char)} :
      MethodLine m line → HeaderLines (m.line + 1) methods classes lines →
      HeaderLines m.line (m :: methods) classes (line :: lines)
  | heading {n : Nat} {name : String} {methods : List MethodDecl} {classes : List ClassDecl}
      {line : List Char} {lines : List (List Char)} :
      HeadingLine name line → HeaderLines (n + 1) methods classes lines →
      HeaderLines n [] ({ name, methods, line := n } :: classes) (line :: lines)

/-- The text of a header that declares the classes `classes`. Its last line may do without a line
feed. -/
inductive HeaderText (classes : List ClassDecl) : (text : String) → Prop
  | closed {lines : List (List Char)} :
      HeaderLines 1 [] classes lines → (∀ line ∈ lines, '\n' ∉ line) →
      HeaderText classes (String.ofList (unlines lines))
  | unclosed {lines : List (List Char)} {last : List Char} :
      HeaderLines 1 [] classes (lines ++ [last]) → (∀ line ∈ lines ++ [last], '\n' ∉ line) →
      last ≠ [] → HeaderText classes (String.ofList (unlines lines ++ last))

namespace Line

/-- The lines `lines`, numbered from `n`. -/
def numbered (n : Nat) (lines : List (List Char)) : List Line :=
  (lines.zipIdx n).map fun (text, number) => ⟨number, text⟩

@[simp] theorem numbered_nil (n : Nat) : numbered n [] = [] := rfl

@[simp] theorem numbered_cons (n : Nat) (line : List Char) (lines : List (List Char)) :
    numbered n (line :: lines) = ⟨n, line⟩ :: numbered (n + 1) lines := rfl

theorem ofText_eq_numbered (text : String) : ofText text = numbered 1 (lines text.toList) := rfl

end Line

open Line

namespace HeaderLines

variable {n : Nat} {methods : List MethodDecl} {classes : List ClassDecl}
  {lines : List (List Char)}

/-- Methods in front of the first class need a class that has begun before them. -/
theorem faultlessFrom (h : HeaderLines n methods classes lines) (hline : ∀ l ∈ lines, '\n' ∉ l)
    {inClass : Bool} (hin : methods ≠ [] → inClass = true) :
    FaultlessFrom inClass (numbered n lines) := by
  induction h generalizing inClass with
  | nil => exact faultlessFrom_nil inClass
  | other he _ ih =>
    rw [List.forall_mem_cons] at hline
    refine faultlessFrom_cons.2 ⟨by simp [he.read_eq], ih hline.2 fun hne => ?_⟩
    rw [hin hne, Bool.true_or]
  | method hm _ ih =>
    rw [List.forall_mem_cons] at hline
    have hclass : inClass = true := hin (by simp)
    refine faultlessFrom_cons.2 ⟨by simp [hm.read_eq hline.1, hclass], ih hline.2 fun _ => ?_⟩
    rw [hclass, Bool.true_or]
  | heading hh _ ih =>
    rw [List.forall_mem_cons] at hline
    refine faultlessFrom_cons.2 ⟨by simp [hh.read_eq], ih hline.2 fun _ => ?_⟩
    simp [beginsClass, hh.read_eq]

theorem leadingMethods_eq (h : HeaderLines n methods classes lines)
    (hline : ∀ l ∈ lines, '\n' ∉ l) : leadingMethods (numbered n lines) = methods := by
  induction h with
  | nil => rfl
  | other he _ ih =>
    rw [List.forall_mem_cons] at hline
    rw [numbered_cons, leadingMethods_cons (by simp [beginsClass, he.read_eq]), ih hline.2]
    simp [he.read_eq]
  | method hm _ ih =>
    rw [List.forall_mem_cons] at hline
    rw [numbered_cons, leadingMethods_cons (by simp [beginsClass, hm.read_eq hline.1]),
      ih hline.2]
    simp [hm.read_eq hline.1]
  | heading hh _ _ =>
    exact leadingMethods_cons_heading (by simp [beginsClass, hh.read_eq])

theorem classesOf_eq (h : HeaderLines n methods classes lines) (hline : ∀ l ∈ lines, '\n' ∉ l) :
    classesOf (numbered n lines) = classes := by
  induction h with
  | nil => rfl
  | other he _ ih =>
    rw [List.forall_mem_cons] at hline
    simp [classesOf, he.read_eq, ih hline.2]
  | method hm _ ih =>
    rw [List.forall_mem_cons] at hline
    simp [classesOf, hm.read_eq hline.1, ih hline.2]
  | heading hh hrest ih =>
    rw [List.forall_mem_cons] at hline
    simp [classesOf, hh.read_eq, ih hline.2, hrest.leadingMethods_eq hline.2]

end HeaderLines

/-- A header is read as the classes that it was written for: their names and roles, their methods in
order with lines, types, qualifiers and labels, and no others. -/
theorem readClasses_headerText {classes : List ClassDecl} {text : String}
    (h : HeaderText classes text) : readClasses text = .ok classes := by
  obtain ⟨ls, hls, hline, htext⟩ : ∃ ls, HeaderLines 1 [] classes ls ∧ (∀ l ∈ ls, '\n' ∉ l) ∧
      lines text.toList = ls := by
    cases h with
    | closed hls hline =>
      exact ⟨_, hls, hline, by rw [String.toList_ofList, lines_unlines hline]⟩
    | @unclosed ls last hls hline hne =>
      refine ⟨_, hls, hline, ?_⟩
      rw [List.forall_mem_append, List.forall_mem_singleton] at hline
      rw [String.toList_ofList, lines_unlines_append hline.1 hline.2 hne]
  have hfaultless : Faultless (Line.ofText text) := by
    rw [ofText_eq_numbered, htext, faultless_iff]
    exact hls.faultlessFrom hline fun hne => absurd rfl hne
  rw [readClasses_eq hfaultless, ofText_eq_numbered, htext, hls.classesOf_eq hline]

/-- A label may hold a comma and parentheses, and the values of a variadic method stand behind its
arguments. -/
theorem readClasses_headerText_label :
    readClasses ("class  ObjList: public Obj \x7b // a list\n" ++
        " WREN_METHOD( variadic ) static const T & Add (int  *at, " ++
        "ARG( \"One, (or) more\" ) Value &more)const ; // done\n") =
      .ok [{ name := "ObjList", line := 1, methods := [
        { name := "Add", returnType := "const T&", kind := .variadic
          qualifiers := { isStatic := true, isConst := true }
          args := [{ type := "int*", name := "at", position := 0 }], line := 2 }] }] := by
  have hspace : " ".toList ≠ [] ∧ isBlank " ".toList = true := by decide
  have hat : EntryText { type := "int*", name := "at", position := 0 }
      ([] ++ [] ++ ['i', 'n', 't', ' ', ' ', '*'] ++ [] ++ "at".toList ++ []) := by
    have htype : IsArgumentType ['i', 'n', 't', '*'] :=
      ⟨by decide, by decide +kernel, by decide⟩
    have hspells : Cpp.DeclaredType.Spells ['i', 'n', 't', '*'] ['i', 'n', 't', ' ', ' ', '*'] :=
      .char (by decide) (.char (by decide) (.char (by decide)
        (@Cpp.DeclaredType.Spells.sigil _ [' ', ' '] _ _ (.inl rfl) (by decide) .nil)))
    exact .intro htype ⟨by decide, by decide⟩ rfl .none hspells rfl (by simp) rfl
  have hmore : EntryText
      { type := "Value&", name := "more", position := 1, label := some "One, (or) more" }
      (" ".toList ++ ("ARG(".toList ++ " ".toList ++ '"' :: "One, (or) more".toList ++
        '"' :: " ".toList ++ ')' :: " ".toList) ++ ['V', 'a', 'l', 'u', 'e', ' ', '&'] ++ [] ++
        "more".toList ++ []) := by
    have htype : IsArgumentType ['V', 'a', 'l', 'u', 'e', '&'] :=
      ⟨by decide, by decide +kernel, by decide⟩
    have hspells : Cpp.DeclaredType.Spells ['V', 'a', 'l', 'u', 'e', '&']
        ['V', 'a', 'l', 'u', 'e', ' ', '&'] :=
      .char (by decide) (.char (by decide) (.char (by decide) (.char (by decide) (.char (by decide)
        (@Cpp.DeclaredType.Spells.sigil _ [' '] _ _ (.inr rfl) (by decide) .nil)))))
    have hlabel : LabelText (some "One, (or) more".toList) _ :=
      .some (by decide) (by decide) hspace.2 hspace.2 hspace.2
    exact .intro htype ⟨by decide, by decide⟩ hspace.2 hlabel hspells rfl (by simp) rfl
  have hhead : HeadText { isStatic := true } ("const".toList ++ ' ' :: "T".toList ++ ['&'])
      "Add".toList _ :=
    .intro hspace.2 (.static hspace.1 hspace.2)
      (.sigil (.const (by decide) (by decide) hspace.1 hspace.2) (.inr rfl) hspace.2 hspace.2)
      (by decide) (by decide) hspace.2
  have hargs : ArgumentsText _ _ := .entries (.cons hat (.single hmore))
  have htrailer : TrailerText true false _ := .intro isBlank_nil (.present hspace.2) .absent
  have hmethod : MethodLine _ _ :=
    .intro hspace.2 (@DeclarationText.intro .variadic _ _ _ _ _ _ _ _ _ _ [_] [_] 2 hspace.2
      hspace.2 hhead hargs rfl htrailer) (@LineEnd.comment _ " done".toList hspace.2)
  have hheading : HeadingLine _ _ :=
    @HeadingLine.intro [] "  ".toList "List".toList [] " public Obj \x7b // a list".toList ':' rfl
      (by decide) (by decide) (by decide) rfl (.inl rfl)
  have h := readClasses_headerText (.closed (.heading hheading (.method hmethod .nil))
    (by decide))
  refine (congrArg readClasses ?_).trans (h.trans ?_) <;> decide +kernel

end WrenGlue.Header
