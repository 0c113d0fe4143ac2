import WrenGlue.Proofs.Header.MethodPattern
import WrenGlue.Proofs.Bindings.Binding
import WrenGlue.Proofs.Cpp.ClassName
import WrenGlue.Generate
import Mathlib.Data.Option.Basic

/-! What holds of every class that is read from a header: the lines had no fault, and its name and
those of its methods are made of word characters. -/

namespace WrenGlue.Header

open WrenGlue.Text
open WrenGlue.Cpp (IsClassName)

namespace Line

theorem exists_first_fault {inClass : Bool} {lines : List Line}
    (h : ¬ FaultlessFrom inClass lines) : ∃ before l after what,
      lines = before ++ l :: after ∧ FaultlessFrom inClass before ∧
        l.read.fault? (inClass || before.any beginsClass) = some what := by
  induction lines generalizing inClass with
  | nil => exact absurd (faultlessFrom_nil inClass) h
  | cons l rest ih =>
    cases hl : l.read.fault? inClass with
    | some what => exact ⟨[], l, rest, what, rfl, faultlessFrom_nil inClass, by simpa using hl⟩
    | none =>
      obtain ⟨before, l', after, what, rfl, hbefore, hfault⟩ :=
        ih fun hrest => h (faultlessFrom_cons.2 ⟨hl, hrest⟩)
      refine ⟨l :: before, l', after, what, rfl, faultlessFrom_cons.2 ⟨hl, hbefore⟩, ?_⟩
      rwa [List.any_cons, ← Bool.or_assoc]

theorem exists_heading_of_mem_classesOf {lines : List Line} {c : ClassDecl}
    (h : c ∈ classesOf lines) : ∃ l ∈ lines, l.read.heading? = some c.name := by
  have hname : c.name ∈ (classesOf lines).map (·.name) := List.mem_map_of_mem h
  rw [map_name_classesOf, List.mem_filterMap] at hname
  exact hname

theorem exists_method_of_mem_classesOf {lines : List Line} {c : ClassDecl}
    (h : c ∈ classesOf lines) {m : MethodDecl} (hm : m ∈ c.methods) :
    ∃ l ∈ lines, l.read.method? = some m := by
  have hmethod : m ∈ (classesOf lines).flatMap (·.methods) := List.mem_flatMap.2 ⟨c, h, hm⟩
  have hall := List.mem_append_right (leadingMethods lines) hmethod
  rw [leadingMethods_append_flatMap_classesOf, List.mem_filterMap] at hall
  exact hall

end Line

open Line

/-- A header gives classes if no line has a fault. -/
theorem readClasses_eq_ok_iff {text : String} {classes : List ClassDecl} :
    readClasses text = .ok classes ↔
      Faultless (Line.ofText text) ∧ classes = classesOf (Line.ofText text) := by
  constructor
  · intro h
    by_cases hf : Faultless (Line.ofText text)
    · rw [readClasses_eq hf] at h
      exact ⟨hf, (Except.ok.inj h).symm⟩
    · obtain ⟨before, l, after, what, ht, hbefore, hl⟩ :=
        exists_first_fault (mt faultless_iff.2 hf)
      rw [readClasses_eq_error ht (faultless_iff.2 hbefore) hl] at h
      cases h
  · rintro ⟨hf, rfl⟩
    exact readClasses_eq hf

namespace ClassStream

/-- The classes of the stream, up to its error. -/
def yielded (s : ClassStream) : List ClassDecl := s.toList.filterMap Except.toOption

theorem mem_yielded {s : ClassStream} {c : ClassDecl} : c ∈ s.yielded ↔ .ok c ∈ s.toList := by
  rw [yielded, List.mem_filterMap]
  constructor
  · rintro ⟨item, hitem, hc⟩
    cases item with
    | error e => cases hc
    | ok found =>
      obtain rfl : found = c := Option.some.inj hc
      exact hitem
  · exact fun h => ⟨_, h, rfl⟩

theorem filterMap_map_ok (classes : List ClassDecl) :
    (classes.map .ok : List Item).filterMap Except.toOption = classes := by
  rw [List.filterMap_map]
  exact List.filterMap_some

theorem yielded_eq_of_readClasses {text : String} {classes : List ClassDecl}
    (h : readClasses text = .ok classes) : (ofText text).yielded = classes := by
  obtain ⟨hf, rfl⟩ := readClasses_eq_ok_iff.1 h
  rw [yielded, toList, ofText, itemsFrom_none hf, filterMap_map_ok]

/-- The stream yields classes that the lines in front of the first fault declare, read on their
own. -/
theorem exists_yielded_prefix (text : String) : ∃ before, before <+: Line.ofText text ∧
    (ofText text).yielded <+: classesOf before := by
  by_cases hf : Faultless (Line.ofText text)
  · exact ⟨Line.ofText text, List.prefix_refl _,
      yielded_eq_of_readClasses (readClasses_eq hf) ▸ List.prefix_refl _⟩
  · obtain ⟨before, l, after, what, ht, hbefore, hl⟩ := exists_first_fault (mt faultless_iff.2 hf)
    refine ⟨before, ⟨l :: after, ht.symm⟩, ?_⟩
    have herror : ([.error (l.error what)] : List Item).filterMap Except.toOption = [] := rfl
    rw [yielded, toList, ofText, ht, itemsFrom_fault (faultless_iff.2 hbefore) hl,
      List.filterMap_append, filterMap_map_ok, herror, List.append_nil]
    exact List.dropLast_prefix _

end ClassStream

/-! ### Names -/

theorem isClassName_of_headingName? {text name : List Char} (h : headingName? text = some name) :
    IsClassName (String.ofList name) := by
  simp only [headingName?, Option.bind_eq_bind, Option.bind_eq_some_iff, Option.pure_def,
    Option.some.injEq] at h
  obtain ⟨-, -, -, -, rest, -, -, -, -, -, rfl⟩ := h
  exact ⟨_, fun c hc => List.all_eq_true.1 List.all_takeWhile c hc, rfl⟩

theorem isWord_of_ofLine? {text : List Char} {parts : MethodText}
    (h : MethodText.ofLine? text = some parts) : ∀ c ∈ parts.name, isWord c = true := by
  obtain ⟨raw, hraw, rfl⟩ := MethodText.ofLine?_eq_some_iff.1 h
  cases hraw with
  | intro _ _ _ _ _ hn => exact hn

/-- What the parts of a method have to be for there to be one, and what it is made of. -/
theorem MethodText.exists_of_method {parts : MethodText} {line : Nat} {m : MethodDecl}
    (h : parts.method line = .ok m) : ∃ kind declared,
      MethodKind.ofText? (String.ofList parts.kind) = some kind ∧
      Argument.readList parts.args = .ok declared ∧ ¬ (kind = .variadic ∧ declared = []) ∧
      m = { name := String.ofList parts.name, returnType := String.ofList parts.returnType, kind
            qualifiers := parts.qualifiers
            args := if kind = .variadic then declared.dropLast else declared
            line } := by
  cases hkind : MethodKind.ofText? (String.ofList parts.kind) with
  | none => simp [MethodText.method, hkind, bind, Except.bind] at h
  | some kind =>
    simp only [MethodText.method, hkind] at h
    obtain ⟨_, ⟨⟩, h⟩ := bind_eq_ok.1 h
    obtain ⟨declared, hdeclared, h⟩ := bind_eq_ok.1 h
    have hread : Argument.readList parts.args = .ok declared := by
      cases hr : Argument.readList parts.args with
      | error e => simp [hr, Except.mapError] at hdeclared
      | ok args => simpa [hr, Except.mapError] using hdeclared
    split at h
    · cases h
    · next htail =>
      cases h
      exact ⟨kind, declared, rfl, hread, htail, rfl⟩

theorem MethodText.name_of_method {parts : MethodText} {line : Nat} {m : MethodDecl}
    (h : parts.method line = .ok m) : m.name = String.ofList parts.name := by
  obtain ⟨_, _, -, -, -, rfl⟩ := MethodText.exists_of_method h
  rfl

theorem MethodText.line_of_method {parts : MethodText} {line : Nat} {m : MethodDecl}
    (h : parts.method line = .ok m) : m.line = line := by
  obtain ⟨_, _, -, -, -, rfl⟩ := MethodText.exists_of_method h
  rfl

theorem Line.headingName?_of_read {l : Line} {name : String} (h : l.read = .heading name) :
    headingName? l.content = some name.toList := by
  rw [Line.read] at h
  split at h
  · next found hn =>
    obtain rfl := LineReading.heading.inj h
    rw [hn, String.toList_ofList]
  · repeat' split at h
    all_goals cases h

theorem Line.exists_parts_of_read {l : Line} {m : MethodDecl} (h : l.read = .method m) :
    ∃ parts, MethodText.ofLine? l.content = some parts ∧ parts.method l.number = .ok m := by
  rw [Line.read] at h
  split at h
  · cases h
  · split at h
    · cases h
    · next parts hparts =>
      split at h
      · next m' hm =>
        obtain rfl := LineReading.method.inj h
        exact ⟨parts, hparts, hm⟩
      · cases h

theorem isClassName_of_heading {l : Line} {name : String} (h : l.read.heading? = some name) :
    IsClassName name := by
  have hname := Line.headingName?_of_read (LineReading.heading?_eq_some_iff.1 h)
  simpa using isClassName_of_headingName? hname

theorem isWordName_of_method {l : Line} {m : MethodDecl} (h : l.read.method? = some m) :
    IsWordName m.name := by
  obtain ⟨parts, hparts, hm⟩ := Line.exists_parts_of_read (LineReading.method?_eq_some_iff.1 h)
  rw [MethodText.name_of_method hm, IsWordName, String.toList_ofList]
  exact isWord_of_ofLine? hparts

theorem isClassName_of_readClasses {text : String} {classes : List ClassDecl}
    (h : readClasses text = .ok classes) : ∀ c ∈ classes, Cpp.IsClassName c.name := by
  obtain ⟨-, rfl⟩ := readClasses_eq_ok_iff.1 h
  intro c hc
  obtain ⟨l, -, hl⟩ := exists_heading_of_mem_classesOf hc
  exact isClassName_of_heading hl

/-- The classes of a header and their methods have names of word characters. -/
theorem isWordName_of_readClasses {text : String} {classes : List ClassDecl}
    (h : readClasses text = .ok classes) :
    ∀ c ∈ classes, IsWordName c.name ∧ ∀ m ∈ c.methods, IsWordName m.name := by
  intro c hc
  refine ⟨(isClassName_of_readClasses h c hc).isWordName, fun m hm => ?_⟩
  obtain ⟨-, rfl⟩ := readClasses_eq_ok_iff.1 h
  obtain ⟨l, -, hl⟩ := exists_method_of_mem_classesOf hc hm
  exact isWordName_of_method hl

/-! ### Arguments -/

theorem args_subset_of_ofLine? {text : List Char} {parts : MethodText}
    (h : MethodText.ofLine? text = some parts) : parts.args ⊆ text := by
  obtain ⟨raw, hraw, rfl⟩ := MethodText.ofLine?_eq_some_iff.1 h
  cases hraw with
  | @intro _ _ _ _ _ _ _ args _ _ _ _ =>
    intro c hc
    have hargs : c ∈ args := hc
    simp [hargs]

theorem subset_of_mem_splitEntries {quoted : Bool} {text entry : List Char}
    (h : entry ∈ splitEntries quoted text) : entry ⊆ text := by
  induction text generalizing quoted entry with
  | nil =>
    rw [List.mem_singleton.1 h]
    exact List.nil_subset _
  | cons c text ih =>
    rw [splitEntries] at h
    split at h
    · rcases List.mem_cons.1 h with rfl | h
      · exact List.nil_subset _
      · exact List.subset_cons_of_subset c (ih h)
    · cases hs : splitEntries (quoted != (c == '"')) text with
      | nil => simp [hs] at h
      | cons first others =>
        rw [hs, List.modifyHead_cons, List.mem_cons] at h
        rcases h with rfl | h
        · exact List.cons_subset_cons c (ih (hs ▸ List.mem_cons_self))
        · exact List.subset_cons_of_subset c (ih (hs ▸ List.mem_cons_of_mem _ h))

theorem subset_of_label? {text label rest : List Char} (h : label? text = some (label, rest)) :
    label ⊆ text ∧ rest ⊆ text := by
  obtain ⟨inner, outer, -, -, -, rfl⟩ := label?_eq_some_iff.1 h
  exact ⟨fun c hc => by simp [labelText, hc], List.subset_append_right _ _⟩

theorem typedName?_eq_some {text type name : List Char}
    (h : typedName? text = some (type, name)) :
    text = type ++ name ∧ type.getLast?.any isTypeEnd = true ∧ IsParameterName name := by
  simp only [typedName?, Option.ite_none_right_eq_some, Option.some.injEq] at h
  obtain ⟨⟨hend, -, hstart⟩, heq⟩ := h
  cases heq
  exact ⟨(splitTail_append isWord text).symm, hend, hstart, fun c hc => of_mem_splitTail hc⟩

/-- An argument is shown by characters of its declaration. -/
theorem Argument.shownName_subset {position : Nat} {entry : List Char} {a : Argument}
    (h : ofEntry? position entry = some a) : a.shownName.toList ⊆ entry := by
  have hsplit : (∀ label ∈ (splitLabel entry).1, label ⊆ entry) ∧
      (splitLabel entry).2 ⊆ entry := by
    cases hl : label? entry with
    | none => simp [splitLabel, hl]
    | some found =>
      obtain ⟨label, rest⟩ := found
      obtain ⟨hlabel, hrest⟩ := subset_of_label? hl
      have htrim : trimStart rest ⊆ entry := fun c hc => hrest (mem_of_mem_trimStart hc)
      by_cases hline : '\n' ∈ trimStart rest
      · simp [splitLabel, hl, hline]
      · simp [splitLabel, hl, hline, hlabel, htrim]
  simp only [ ofEntry?, Option.bind_eq_bind, Option.bind_eq_some_iff, Option.pure_def,
    Option.some.injEq] at h
  obtain ⟨⟨type, name⟩, hname, rfl⟩ := h
  rw [shownName]
  cases hl : (splitLabel entry).1 with
  | some label => simpa using hsplit.1 label (by rw [hl]; rfl)
  | none =>
    have hsub : name ⊆ trim (splitLabel entry).2 := by
      rw [(typedName?_eq_some hname).1]
      exact List.subset_append_right _ _
    intro c hc
    exact hsplit.2 (mem_of_mem_trim (hsub (by simpa using hc)))

theorem Argument.exists_entry_of_readList {text : List Char} {args : List Argument}
    (h : readList text = .ok args) : ∀ a ∈ args, ∃ entry position,
      entry ∈ splitEntries false text ∧ ofEntry? position (trim entry) = some a := by
  intro a ha
  rw [readList] at h
  split at h
  · cases h
    cases ha
  · obtain ⟨⟨entry, position⟩, hentry, hread⟩ := mem_of_mapM_eq_ok h ha
    have hmem : entry ∈ splitEntries false text := (List.mem_zipIdx' hentry).2 ▸ List.getElem_mem _
    simp only at hread
    split at hread
    · next found hfound =>
      cases hread
      exact ⟨entry, position, hmem, hfound⟩
    · cases hread

theorem Argument.shownName_subset_of_readList {text : List Char} {args : List Argument}
    (h : readList text = .ok args) : ∀ a ∈ args, a.shownName.toList ⊆ text := by
  intro a ha c hc
  obtain ⟨entry, position, hmem, hread⟩ := exists_entry_of_readList h a ha
  exact subset_of_mem_splitEntries hmem (mem_of_mem_trim (shownName_subset hread hc))

/-- The arguments of a method come first among those that it declares. -/
theorem exists_readList_of_method {parts : MethodText} {line : Nat} {m : MethodDecl}
    (h : parts.method line = .ok m) :
    ∃ declared, Argument.readList parts.args = .ok declared ∧ m.args <+: declared := by
  obtain ⟨kind, declared, -, hread, -, rfl⟩ := MethodText.exists_of_method h
  refine ⟨declared, hread, ?_⟩
  dsimp only
  split
  · exact List.dropLast_prefix declared
  · exact List.prefix_refl declared

theorem shownName_subset_of_method {parts : MethodText} {line : Nat} {m : MethodDecl}
    (h : parts.method line = .ok m) : ∀ a ∈ m.args, a.shownName.toList ⊆ parts.args := by
  obtain ⟨declared, hread, hfront⟩ := exists_readList_of_method h
  exact fun a ha => Argument.shownName_subset_of_readList hread a (hfront.subset ha)

/-! ### Positions -/

/-- Each argument knows its index. -/
def MethodDecl.IsPositioned (d : MethodDecl) : Prop :=
  ∀ (i : Nat) (h : i < d.args.length), d.args[i].position = i

theorem Argument.position_of_readList {text : List Char} {args : List Argument}
    (h : readList text = .ok args) (i : Nat) (hi : i < args.length) : args[i].position = i := by
  rw [readList] at h
  split at h
  · cases h
    cases hi
  · have hread := forall₂_of_mapM_eq_ok h
    have hentry := hread.get (hread.length_eq ▸ hi) hi
    simp only [List.get_eq_getElem, List.getElem_zipIdx, Nat.zero_add] at hentry
    split at hentry
    · next found hfound =>
      obtain ⟨_, -, hargument⟩ := Option.bind_eq_some_iff.1 hfound
      rw [← Except.ok.inj hentry, ← Option.some.inj hargument]
    · cases hentry

theorem isPositioned_of_method {parts : MethodText} {line : Nat} {m : MethodDecl}
    (h : parts.method line = .ok m) : m.IsPositioned := by
  obtain ⟨declared, hread, hfront⟩ := exists_readList_of_method h
  intro i hi
  rw [hfront.getElem hi]
  exact Argument.position_of_readList hread i _

/-- A method of a class that is read stands on a line of the text. -/
theorem exists_line_of_readClasses {text : String} {classes : List ClassDecl}
    (h : readClasses text = .ok classes) {c : ClassDecl} (hc : c ∈ classes) {m : MethodDecl}
    (hm : m ∈ c.methods) : ∃ l ∈ Line.ofText text, l.read = .method m := by
  obtain ⟨-, rfl⟩ := readClasses_eq_ok_iff.1 h
  obtain ⟨l, hl, hmethod⟩ := exists_method_of_mem_classesOf hc hm
  exact ⟨l, hl, LineReading.method?_eq_some_iff.1 hmethod⟩

theorem Line.not_mem_content {text : String} {l : Line} (h : l ∈ ofText text) :
    '\n' ∉ l.content := by
  intro hm
  obtain ⟨⟨chars, number⟩, hzip, rfl⟩ := List.mem_map.1 h
  exact not_mem_of_mem_lines (List.fst_mem_of_mem_zipIdx hzip)
    (mem_of_mem_beforeComment (mem_of_mem_trim hm))

/-- The names that arguments are shown by stand on one line. -/
theorem not_mem_shownName_of_readClasses {text : String} {classes : List ClassDecl}
    (h : readClasses text = .ok classes) :
    ∀ c ∈ classes, ∀ m ∈ c.methods, ∀ a ∈ m.args, '\n' ∉ a.shownName.toList := by
  intro c hc m hm a ha hline
  obtain ⟨l, hl, hr⟩ := exists_line_of_readClasses h hc hm
  obtain ⟨parts, hparts, hm'⟩ := Line.exists_parts_of_read hr
  exact Line.not_mem_content hl
    (args_subset_of_ofLine? hparts (shownName_subset_of_method hm' a ha hline))

end WrenGlue.Header

namespace WrenGlue

open WrenGlue.Header

theorem eq_of_addDeclared {path : String} {seen all : List Declared} {classes : List ClassDecl}
    (h : addDeclared path seen classes = .ok all) : all = seen ++ classes.map (·, path) := by
  induction classes generalizing seen with
  | nil =>
    cases h
    simp
  | cons c rest ih =>
    rw [addDeclared] at h
    split at h
    · cases h
    · rw [ih h, List.append_assoc, List.map_cons, List.singleton_append]

/-- Every class that is collected is read from one of the sources. -/
theorem exists_source_of_mem_addSources {seen all : List Declared} {sources : List Source}
    (h : addSources seen sources = .ok all) : ∀ d ∈ all, d ∈ seen ∨
      ∃ source ∈ sources, ∃ classes, readClasses source.text = .ok classes ∧ d.1 ∈ classes := by
  induction sources generalizing seen with
  | nil =>
    cases h
    exact fun d hd => .inl hd
  | cons source rest ih =>
    rw [addSources] at h
    split at h
    · cases h
    · next classes hclasses =>
      obtain ⟨added, hadded, h⟩ := bind_eq_ok.1 h
      intro d hd
      rcases ih h d hd with hm | ⟨other, hother, hread⟩
      · rw [eq_of_addDeclared hadded, List.mem_append, List.mem_map] at hm
        rcases hm with hm | ⟨c, hc, rfl⟩
        · exact .inl hm
        · exact .inr ⟨source, List.mem_cons_self, classes, hclasses, hc⟩
      · exact .inr ⟨other, List.mem_cons_of_mem _ hother, hread⟩

theorem exists_source_of_mem_collectClasses {sources : List Source} {classes : List ClassDecl}
    (h : collectClasses sources = .ok classes) {c : ClassDecl} (hc : c ∈ classes) :
    ∃ source ∈ sources, ∃ read, readClasses source.text = .ok read ∧ c ∈ read := by
  obtain ⟨all, hall, h⟩ := bind_eq_ok.1 h
  cases h
  obtain ⟨d, hd, rfl⟩ := List.mem_map.1 hc
  exact (exists_source_of_mem_addSources hall d hd).resolve_left List.not_mem_nil

theorem isClassName_of_collectClasses {sources : List Source} {classes : List ClassDecl}
    (h : collectClasses sources = .ok classes) : ∀ c ∈ classes, Cpp.IsClassName c.name := by
  intro c hc
  obtain ⟨source, -, read, hread, hmem⟩ := exists_source_of_mem_collectClasses h hc
  exact isClassName_of_readClasses hread c hmem

theorem not_mem_shownName_of_collectClasses {sources : List Source} {classes : List ClassDecl}
    (h : collectClasses sources = .ok classes) :
    ∀ c ∈ classes, ∀ m ∈ c.methods, ∀ a ∈ m.args, '\n' ∉ a.shownName.toList := by
  intro c hc
  obtain ⟨source, -, read, hread, hmem⟩ := exists_source_of_mem_collectClasses h hc
  exact not_mem_shownName_of_readClasses hread c hmem

/-- The arguments of all methods that are collected know their indices. -/
theorem isPositioned_of_collectClasses {sources : List Source} {classes : List ClassDecl}
    (h : collectClasses sources = .ok classes) :
    ∀ c ∈ classes, ∀ m ∈ c.methods, m.IsPositioned := by
  intro c hc m hm
  obtain ⟨source, -, read, hread, hc'⟩ := exists_source_of_mem_collectClasses h hc
  obtain ⟨l, -, hr⟩ := exists_line_of_readClasses hread hc' hm
  obtain ⟨parts, -, hm'⟩ := Line.exists_parts_of_read hr
  exact isPositioned_of_method hm'

end WrenGlue
