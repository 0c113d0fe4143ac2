import WrenGlue.Proofs.Header.MethodPattern
import WrenGlue.Proofs.Header.Relabel

/-! What the emitter relies on in the classes that are read from a header. Names are names, types are
written in their normalized form, and arguments know their positions. A class and its methods stand
on lines of their own, one behind the other. All of this holds of the classes in front of an error
too. -/

namespace WrenGlue.Header

open WrenGlue.Text
open WrenGlue.Cpp (DeclaredType IsClassName)

structure Argument.IsWellFormed (a : Argument) : Prop where
  type_ne : a.type ≠ ""
  normalized : DeclaredType.normalize a.type = a.type
  name : IsParameterName a.name.toList
  label : ∀ label ∈ a.label, '"' ∉ label.toList ∧ '\n' ∉ label.toList

structure MethodDecl.IsWellFormed (m : MethodDecl) : Prop where
  name_ne : m.name ≠ ""
  word : IsWordName m.name
  specifier : ¬ (m.qualifiers.isStatic = true ∧ m.qualifiers.isVirtual = true)
  returnType_ne : m.returnType ≠ ""
  normalized : DeclaredType.normalize m.returnType = m.returnType
  positioned : m.IsPositioned
  args : ∀ a ∈ m.args, a.IsWellFormed

structure ClassDecl.IsWellFormed (c : ClassDecl) : Prop where
  name : IsClassName c.name
  role : c.role = .ofName c.name
  methods : ∀ m ∈ c.methods, m.IsWellFormed

/-- The numbers of the lines that declare the class and its methods. -/
def ClassDecl.lineNumbers (c : ClassDecl) : List Nat := c.line :: c.methods.map (·.line)

/-! ### Arguments -/

theorem Argument.isWellFormed_of_ofEntry? {position : Nat} {entry : List Char} {a : Argument}
    (h : ofEntry? position (trim entry) = some a) (hline : '\n' ∉ entry) : a.IsWellFormed := by
  simp only [ ofEntry?, Option.bind_eq_bind, Option.bind_eq_some_iff, Option.pure_def,
    Option.some.injEq] at h
  obtain ⟨⟨type, name⟩, htyped, rfl⟩ := h
  obtain ⟨htext, hend, hname⟩ := typedName?_eq_some htyped
  -- The type begins where the trimmed text does.
  have hne : DeclaredType.normalizeChars type ≠ [] := by
    cases type with
    | nil => simp at hend
    | cons c type =>
      exact DeclaredType.normalizeChars_cons_ne_nil (isWhite_eq_false_of_trim htext) type
  refine ⟨by simpa using hne, ?_, by simpa using hname, fun label hlabel => ?_⟩
  · simp [DeclaredType.normalize, DeclaredType.normalizeChars_normalizeChars]
  · obtain ⟨chars, hchars, rfl⟩ := Option.map_eq_some_iff.1 hlabel
    obtain ⟨gap, inner, outer, more, rfl, -, -, hquote, -, -⟩ :=
      exists_labelText_of_splitLabel hchars
    rw [String.toList_ofList]
    exact ⟨hquote, fun hm => hline (by simp [labelText, hm])⟩

theorem Argument.isWellFormed_of_readList {text : List Char} {args : List Argument}
    (h : readList text = .ok args) (hline : '\n' ∉ text) : ∀ a ∈ args, a.IsWellFormed := by
  intro a ha
  obtain ⟨entry, position, hmem, hread⟩ := exists_entry_of_readList h a ha
  exact isWellFormed_of_ofEntry? hread fun hm => hline (subset_of_mem_splitEntries hmem hm)

/-! ### Methods -/

theorem SpecifierText.not_both {qualifiers : Qualifiers} {text : List Char}
    (h : SpecifierText qualifiers text) :
    ¬ (qualifiers.isStatic = true ∧ qualifiers.isVirtual = true) := by
  cases h <;> simp

theorem ReturnText.type_ne_nil {type text : List Char} (h : ReturnText type text) : type ≠ [] := by
  cases h with
  | spaced hbase =>
    cases hbase with
    | plain hne => exact hne
    | const => simp
  | sigil => simp

/-- Each part of a line that is cut up is what its place in the line makes it. -/
theorem MethodDecl.isWellFormed_of_read {text : String} {l : Line} (hl : l ∈ Line.ofText text)
    {m : MethodDecl} (h : l.read = .method m) : m.IsWellFormed := by
  obtain ⟨parts, hparts, hm⟩ := Line.exists_parts_of_read h
  obtain ⟨raw, hraw, rfl⟩ := MethodText.ofLine?_eq_some_iff.1 hparts
  obtain ⟨declared, hread, hfront⟩ := exists_readList_of_method hm
  have hline : '\n' ∉ raw.normalized.args := fun hn =>
    Line.not_mem_content hl (args_subset_of_ofLine? hparts hn)
  have hpositioned := isPositioned_of_method hm
  have hargs : ∀ a ∈ m.args, a.IsWellFormed := fun a ha =>
    Argument.isWellFormed_of_readList hread hline a (hfront.subset ha)
  obtain ⟨kind, declared', -, -, -, rfl⟩ := MethodText.exists_of_method hm
  generalize l.content = content at hraw
  cases hraw with
  | intro _ _ hs ht hne hn _ _ _ =>
    have htype := ht.normalizeChars_eq
    refine ⟨by simpa [MethodText.normalized] using hne, ?_, hs.not_both, ?_, ?_, hpositioned, hargs⟩
    · rw [IsWordName, String.toList_ofList]
      exact hn
    · simpa [MethodText.normalized, htype] using ht.type_ne_nil
    · simp [MethodText.normalized, DeclaredType.normalize,
        DeclaredType.normalizeChars_normalizeChars]

/-! ### Classes -/

namespace Line

theorem role_of_mem_classesOf {lines : List Line} {c : ClassDecl} (h : c ∈ classesOf lines) :
    c.role = .ofName c.name := by
  induction lines with
  | nil => cases h
  | cons l rest ih =>
    cases hl : l.read.heading? with
    | none => exact ih (by simpa [classesOf, hl] using h)
    | some name =>
      rw [classesOf, hl, List.mem_cons] at h
      rcases h with rfl | h
      · rfl
      · exact ih h

/-- The methods in front of the first class boundary, and the classes with theirs, stand on lines
that follow each other. -/
theorem lineNumbers_sublist (lines : List Line) :
    ((leadingMethods lines).map (·.line) ++ (classesOf lines).flatMap (·.lineNumbers)).Sublist
      (lines.map (·.number)) := by
  induction lines with
  | nil => exact .slnil
  | cons l rest ih =>
    rw [List.map_cons]
    cases hr : l.read with
    | heading name =>
      have hb : l.beginsClass = true := by simp [beginsClass, hr]
      rw [leadingMethods_cons_heading hb, classesOf, hr, LineReading.heading?_heading]
      simpa [ClassDecl.lineNumbers] using ih.cons_cons l.number
    | method m =>
      have hb : l.beginsClass = false := by simp [beginsClass, hr]
      obtain ⟨parts, -, hm⟩ := exists_parts_of_read hr
      have hline := MethodText.line_of_method hm
      rw [leadingMethods_cons hb, classesOf, hr, LineReading.heading?_method]
      simpa [hline] using ih.cons_cons l.number
    | other | fault =>
      have hb : l.beginsClass = false := by simp [beginsClass, hr]
      simpa [leadingMethods_cons hb, classesOf, hr] using ih.cons l.number

theorem isWellFormed_of_mem_classesOf {text : String} {before : List Line}
    (hbefore : before <+: ofText text) {c : ClassDecl} (h : c ∈ classesOf before) :
    c.IsWellFormed := by
  obtain ⟨heading, -, hname⟩ := exists_heading_of_mem_classesOf h
  refine ⟨isClassName_of_heading hname, role_of_mem_classesOf h, fun m hm => ?_⟩
  obtain ⟨l, hl, hmethod⟩ := exists_method_of_mem_classesOf h hm
  exact MethodDecl.isWellFormed_of_read (hbefore.subset hl)
    (LineReading.method?_eq_some_iff.1 hmethod)

theorem map_number_ofText (text : String) :
    (ofText text).map (·.number) = List.range' 1 (lines text.toList).length := by
  rw [ofText, List.map_map]
  exact List.zipIdx_map_snd 1 _

end Line

open Line ClassStream

/-- The classes that a header gives are well-formed, also those in front of an error. They stand on
lines of the text, and so do their methods, in this order. -/
theorem scanned_isWellFormed (text : String) :
    (∀ classes, readClasses text = .ok classes → (ClassStream.ofText text).yielded = classes) ∧
    (∀ c ∈ (ClassStream.ofText text).yielded, c.IsWellFormed) ∧
    ((ClassStream.ofText text).yielded.flatMap (·.lineNumbers)).Pairwise (· < ·) ∧
    ∀ n ∈ (ClassStream.ofText text).yielded.flatMap (·.lineNumbers),
      1 ≤ n ∧ n ≤ (lines text.toList).length := by
  obtain ⟨before, hbefore, hstart⟩ := exists_yielded_prefix text
  have hnumbers : ((ClassStream.ofText text).yielded.flatMap (·.lineNumbers)).Sublist
      (List.range' 1 (lines text.toList).length) := by
    rw [← map_number_ofText]
    exact ((hstart.flatMap _).sublist.trans (List.sublist_append_right _ _)).trans
      ((lineNumbers_sublist before).trans (hbefore.map _).sublist)
  refine ⟨fun classes => yielded_eq_of_readClasses,
    fun c hc => isWellFormed_of_mem_classesOf hbefore (hstart.subset hc),
    List.Pairwise.sublist hnumbers List.pairwise_lt_range', fun n hn => ?_⟩
  have hmem := List.mem_range'_1.1 (hnumbers.subset hn)
  omega

/-- A header with a variadic method. -/
def variadicHeader : String :=
  "class ObjA :\n" ++
  "WREN_METHOD(variadic) static const  ObjA &F(ARG(\"a, b\")int a, Value v);\n"

/-- The class that `variadicHeader` declares. -/
def variadicClass : ClassDecl :=
  { name := "ObjA", line := 1, methods := [
    { name := "F", returnType := "const ObjA&", kind := .variadic
      qualifiers := { isStatic := true }, line := 2, args := [
        { type := "int", name := "a", position := 0, label := some "a, b" }] }] }

/-- The class is well-formed, and so it is in front of one that is lost to an error. -/
theorem scanned_isWellFormed_variadic :
    readClasses variadicHeader = .ok [variadicClass] ∧
    (ClassStream.ofText (variadicHeader ++
      "class ObjNull \x7b\nWREN_METHOD(set) int X();\n")).yielded = [variadicClass] ∧
    variadicClass.IsWellFormed ∧ variadicClass.lineNumbers.Pairwise (· < ·) ∧
    ∀ n ∈ variadicClass.lineNumbers, 1 ≤ n ∧ n ≤ 2 := by
  have hread : readClasses variadicHeader = .ok [variadicClass] := by decide +kernel
  have hlines : (lines variadicHeader.toList).length = 2 := by decide +kernel
  obtain ⟨hyielded, hwell, hincreasing, hbound⟩ := scanned_isWellFormed variadicHeader
  rw [hyielded _ hread] at hwell hincreasing hbound
  rw [hlines] at hbound
  exact ⟨hread, by decide +kernel, hwell variadicClass (by simp), by simpa using hincreasing,
    fun n hn => hbound n (by simpa using hn)⟩

end WrenGlue.Header
