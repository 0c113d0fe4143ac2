import WrenGlue.Proofs.Bindings.OptionLines
import WrenGlue.Proofs.Generate.Collected
import WrenGlue.Proofs.Header.Edits

/-! What a generated file owes to its sources: their classes and, if wanted, their includes. All
that follows the includes depends on the classes alone, and not on the numbers of their lines. -/

namespace WrenGlue

open WrenGlue.Bindings WrenGlue.Cpp
open WrenGlue.Header (ClassDecl)

/-! ### Numbers of lines -/

/-- The class without the numbers of its lines. -/
def Header.ClassDecl.unnumbered (c : ClassDecl) : ClassDecl := c.renumber fun _ => 0

/-- The member without the numbers of its lines. -/
def Member.unnumbered (m : Member) : Member :=
  ⟨m.owner.unnumbered, m.method.renumber fun _ => 0⟩

theorem Header.ClassDecl.members_unnumbered (c : ClassDecl) :
    c.unnumbered.members = c.members.map Member.unnumbered := by
  simp [members, unnumbered, renumber, Member.unnumbered]

theorem Header.ClassDecl.unnumbered_renumber (moves : Nat → Nat) (c : ClassDecl) :
    (c.renumber moves).unnumbered = c.unnumbered :=
  c.renumber_renumber moves _

theorem Member.symbol_unnumbered (m : Member) : m.unnumbered.symbol = m.symbol := rfl

theorem Member.binding_unnumbered (m : Member) (options : Options) :
    m.unnumbered.binding options = m.binding options := rfl

namespace Bindings

theorem ClassTable.bindMembers_unnumbered (options : Options) (t : ClassTable)
    (ms : List Member) :
    t.bindMembers options (ms.map Member.unnumbered) = t.bindMembers options ms := by
  induction ms generalizing t with
  | nil => rfl
  | cons m ms ih =>
    simp only [List.map_cons, bindMembers, m.symbol_unnumbered, m.binding_unnumbered, ih]
    rfl

theorem ClassTable.bindClasses_unnumbered (options : Options) (t : ClassTable)
    (cs : List ClassDecl) :
    t.bindClasses options (cs.map ClassDecl.unnumbered) = t.bindClasses options cs := by
  induction cs generalizing t with
  | nil => rfl
  | cons c cs ih =>
    simp only [List.map_cons, bindClasses, c.members_unnumbered, bindMembers_unnumbered, ih]
    rfl

theorem BindingFile.ofClasses_unnumbered (options : Options) (sources : List String)
    (cs : List ClassDecl) :
    ofClasses options sources (cs.map ClassDecl.unnumbered) = ofClasses options sources cs := by
  rw [ofClasses, ClassTable.bindClasses_unnumbered, ← ofClasses]

end Bindings

/-! ### The parts of a file -/

namespace Bindings

/-- What stands in front of the includes of sources. -/
def openingText (options : Options) : String := (preludeCode options []).text

/-- The includes of sources, if they are wanted. -/
def includesText (options : Options) (paths : List String) : String :=
  if options.includeSources then String.join (includeLines paths) else ""

theorem includesText_of_not {options : Options} (h : options.includeSources = false)
    (paths : List String) : includesText options paths = "" := by
  rw [includesText, h]
  rfl

theorem text_sourceIncludes (options : Options) (paths : List String) :
    (sourceIncludes options paths).text = includesText options paths := by
  have htrue : ∀ l : OptionLine, l ∈ under .includeSources (includeLines paths) →
      l.condition.holds options = options.includeSources := by
    intro l hl
    obtain ⟨line, -, rfl⟩ := List.mem_map.1 hl
    rfl
  rw [(writes_sourceIncludes options paths).text_eq, selectedText, includesText,
    List.filter_congr htrue]
  cases options.includeSources with
  | true => simp [under, Function.comp_def]
  | false => simp

theorem text_preludeCode (options : Options) (paths : List String) :
    (preludeCode options paths).text = openingText options ++ includesText options paths := by
  rw [preludeCode_eq, (isBalanced_preludeCode _ _).text_append, text_sourceIncludes, openingText]

namespace BindingFile

/-- What follows the includes of sources. -/
def bodyText (u : BindingFile) : String :=
  String.join (u.classes.map (·.code.text)) ++ bindText (u.classes.map (·.name)) ++ dispatchText

theorem text_eq_bodyText (u : BindingFile) :
    u.text = openingText u.options ++ includesText u.options u.sources ++ u.bodyText := by
  rw [text_eq, text_preludeCode, bodyText]
  simp only [String.append_assoc]

/-- The sources show in the file, and nowhere else. -/
theorem ofClasses_sources (options : Options) (sources : List String) (classes : List ClassDecl) :
    ofClasses options sources classes =
      (fun u => { u with sources }) <$> ofClasses options [] classes := by
  rw [ofClasses, ofClasses]
  cases ({} : ClassTable).bindClasses options classes with
  | error e => rfl
  | ok bound => rfl

end BindingFile

end Bindings

/-- What follows the includes of sources in the file for the classes. -/
def bodyText (options : Options) (classes : List ClassDecl) : Except GenerateError String :=
  BindingFile.bodyText <$> (BindingFile.ofClasses options [] classes).mapError .binding

theorem bodyText_unnumbered (options : Options) (classes : List ClassDecl) :
    bodyText options (classes.map ClassDecl.unnumbered) = bodyText options classes := by
  rw [bodyText, BindingFile.ofClasses_unnumbered, bodyText]

/-- A generated file is an opening, the includes of its sources, and what their classes give. -/
theorem generate_eq_bodyText (options : Options) (sources : List Source) :
    generate options sources = (do
      let body ← bodyText options (← collectClasses sources)
      return openingText options ++ includesText options (sources.map (·.path)) ++ body) := by
  cases hclasses : collectClasses sources with
  | error e =>
    rw [generate, generateWithSummary, hclasses]
    rfl
  | ok classes =>
    have hpure : collectClasses sources = pure classes := hclasses
    simp only [generate, generateWithSummary, hpure, ← hclasses, pure_bind, bodyText,
      BindingFile.ofClasses_sources options (sources.map (·.path))]
    cases hfile : BindingFile.ofClasses options [] classes with
    | error e => rfl
    | ok u =>
      obtain ⟨bound, -, hu⟩ := bind_eq_ok.1 hfile
      obtain rfl : BindingFile.mk options [] bound.1 = u := Except.ok.inj hu
      exact congrArg Except.ok (BindingFile.text_eq_bodyText _)

theorem generate_eq_ok_iff_declare {options : Options} {sources : List Source} {code : String} :
    generate options sources = .ok code ↔ ∃ all body, Declare sources all ∧ DistinctNames all ∧
      bodyText options (all.map (·.1)) = .ok body ∧
      code = openingText options ++ includesText options (sources.map (·.path)) ++ body := by
  rw [generate_eq_bodyText, bind_eq_ok]
  constructor
  · rintro ⟨classes, hclasses, h⟩
    obtain ⟨all, hall, hdistinct, rfl⟩ := collectClasses_eq_ok_iff.1 hclasses
    obtain ⟨body, hbody, h⟩ := bind_eq_ok.1 h
    exact ⟨all, body, hall, hdistinct, hbody, (Except.ok.inj h).symm⟩
  · rintro ⟨all, body, hall, hdistinct, hbody, rfl⟩
    refine ⟨all.map (·.1), collectClasses_eq_ok_iff.2 ⟨all, hall, hdistinct, rfl⟩, ?_⟩
    rw [hbody]
    rfl

/-! ### Other sources for the same classes -/

/-- Whatever the sources `sources` declare, the sources `sources'` declare it too, but for paths and
the numbers of lines. -/
def Redeclare (sources sources' : List Source) : Prop :=
  ∀ all, Declare sources all → ∃ all', Declare sources' all' ∧
    all'.map (·.1.unnumbered) = all.map (·.1.unnumbered)

/-- What is generated depends on the classes, and on the paths only in the includes. -/
theorem Redeclare.generate_eq_ok {sources sources' : List Source} (h : Redeclare sources sources')
    {options : Options} (hincludes : includesText options (sources'.map (·.path)) =
      includesText options (sources.map (·.path))) {code : String}
    (hcode : generate options sources = .ok code) : generate options sources' = .ok code := by
  obtain ⟨all, body, hall, hdistinct, hbody, rfl⟩ := generate_eq_ok_iff_declare.1 hcode
  obtain ⟨all', hall', hsame⟩ := h all hall
  have hnames : all'.map (·.1.name) = all.map (·.1.name) := by
    have hmap := congrArg (List.map ClassDecl.name) hsame
    rwa [List.map_map, List.map_map] at hmap
  have hclasses : (all'.map (·.1)).map ClassDecl.unnumbered =
      (all.map (·.1)).map ClassDecl.unnumbered := by
    rw [List.map_map, List.map_map]
    exact hsame
  refine generate_eq_ok_iff_declare.2 ⟨all', body, hall', ?_, ?_, ?_⟩
  · rwa [DistinctNames, hnames]
  · rw [← bodyText_unnumbered, hclasses, bodyText_unnumbered, hbody]
  · rw [hincludes]

theorem Declare.append {xs ys : List Source} {all all' : List Declared} (h : Declare xs all)
    (h' : Declare ys all') : Declare (xs ++ ys) (all ++ all') := by
  induction h with
  | nil => exact h'
  | cons hread _ ih =>
    rw [List.append_assoc]
    exact .cons hread ih

theorem Declare.exists_append {xs ys : List Source} {all : List Declared}
    (h : Declare (xs ++ ys) all) :
    ∃ front back, all = front ++ back ∧ Declare xs front ∧ Declare ys back := by
  induction xs generalizing all with
  | nil => exact ⟨[], all, rfl, .nil, h⟩
  | cons source xs ih =>
    cases h with
    | cons hread hrest =>
      obtain ⟨front, back, rfl, hfront, hback⟩ := ih hrest
      exact ⟨_, back, (List.append_assoc ..).symm, .cons hread hfront, hback⟩

/-- Sources in the middle of others. -/
theorem Redeclare.within {sources sources' : List Source} (h : Redeclare sources sources')
    (front back : List Source) :
    Redeclare (front ++ sources ++ back) (front ++ sources' ++ back) := by
  intro all hall
  obtain ⟨most, last, rfl, hmost, hlast⟩ := hall.exists_append
  obtain ⟨first, middle, rfl, hfirst, hmiddle⟩ := hmost.exists_append
  obtain ⟨middle', hmiddle', hsame⟩ := h middle hmiddle
  refine ⟨first ++ middle' ++ last, (hfirst.append hmiddle').append hlast, ?_⟩
  simp only [List.map_append, hsame]

end WrenGlue
