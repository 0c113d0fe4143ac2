import WrenGlue.Proofs.Bindings.LineFronts
import WrenGlue.Proofs.Bindings.Relocation

/-! What the text of a generated file says by itself. If no name, label or path brings a line feed
with it, the statements on the lines of the text are those of the code, so that the functions that
the text defines and uses can be told from the text alone, and so can what they do. -/

namespace WrenGlue

open WrenGlue.Bindings WrenGlue.Cpp WrenGlue.Text
open WrenGlue.Header (ClassDecl)

/-! ### Single lines -/

/-- The names of a class and its methods, and what the arguments are called, are single lines. -/
structure Header.ClassDecl.HasSingleLines (c : ClassDecl) : Prop where
  name : IsSingleLine c.name
  methods : ∀ m ∈ c.methods, IsSingleLine m.name
  labels : ∀ m ∈ c.methods, ∀ a ∈ m.args, IsSingleLine a.shownName

theorem Header.ClassDecl.HasSingleLines.member {c : ClassDecl} (h : c.HasSingleLines) {m : Member}
    (hm : m ∈ c.members) : m.HasSingleLines := by
  obtain ⟨d, hd, rfl⟩ := List.mem_map.1 hm
  exact ⟨h.name, h.methods d hd, h.labels d hd⟩

theorem Header.ClassDecl.HasWordNames.hasSingleLines {c : ClassDecl} (h : c.HasWordNames)
    (hl : ∀ m ∈ c.methods, ∀ a ∈ m.args, IsSingleLine a.shownName) : c.HasSingleLines :=
  ⟨.of_wordName h.name, fun m hm => .of_wordName (h.methods m hm), hl⟩

theorem Member.HasSingleLines.registrations {m : Member} (hm : m.HasSingleLines)
    {options : Options} {b : MethodBinding} (h : m.binding options = .ok b) :
    ∀ r ∈ b.registrations, r.HasSingleLines := by
  obtain ⟨form, arity, hbinding⟩ := Member.exists_isBinding h
  have hform := Member.callForm_eq_ok.1 (Member.callShape_eq_ok.1 hbinding.callShape).1
  have hsignature := Wren.CallForm.isSingleLine_render hm.method hform m.method.kind
  have hname := hm.trampolineName arity
  rw [hbinding.registrations]
  split
  · refine List.forall_mem_map.2 fun extra _ => ⟨hsignature _, ?_⟩
    exact isSingleLine_forwarderName hname extra
  · exact List.forall_mem_singleton.2 ⟨hsignature arity, hname⟩

namespace Bindings

theorem ClassBinding.hasSingleLines_code {options : Options} {c : ClassDecl} {b : ClassBinding}
    (h : ClassTable.BindsClass options c b) (hc : c.HasSingleLines) : b.code.HasSingleLines := by
  have hname : IsSingleLine b.name := h.1 ▸ hc.name
  have htitle : IsSingleLine ("// Methods of " ++ b.name) := by simp +decide [hname]
  have hmethods : ∀ mb ∈ b.methods, ∃ m : Member, m.HasSingleLines ∧
      m.binding options = .ok mb := by
    intro mb hmb
    obtain ⟨m, hm, hbinding⟩ := exists_mem_of_forall₂ h.2 hmb
    exact ⟨m, hc.member hm, hbinding⟩
  have hregistrations : ∀ r ∈ b.registrations, r.HasSingleLines := by
    refine List.forall_mem_flatMap.2 fun mb hmb => ?_
    obtain ⟨m, hm, hbinding⟩ := hmethods mb hmb
    exact hm.registrations hbinding
  refine .append (.append (.cons htitle (.flatMap fun mb hmb => ?_))
    (hasSingleLines_registerCode hname hregistrations)) (.cons (by decide) .nil)
  obtain ⟨m, hm, hbinding⟩ := hmethods mb hmb
  exact Member.hasSingleLines_binding hbinding hm

theorem isSingleLine_includePath {path : String} (h : IsSingleLine path) :
    IsSingleLine (includePath path) :=
  fun hm => (mem_of_mem_includePath hm).elim h (by decide)

theorem hasSingleLines_preludeCode {options : Options} {sources : List String}
    (h : options.includeSources = true → ∀ path ∈ sources, IsSingleLine path) :
    (preludeCode options sources).HasSingleLines := by
  have hincludes : (sourceIncludes options sources).HasSingleLines := by
    rw [sourceIncludes]
    split
    · next hs =>
      refine .append (.cons (by decide +kernel) (.ofLines (List.forall_mem_map.2 fun path hp => ?_)))
        (.cons (by decide) .nil)
      have hquoted := (isSingleLine_includePath (h hs.1 path hp)).quoted
      simp +decide [includeLine, hquoted]
    · exact .nil
  refine .append (.append (.append ?_ ?_) ?_) hincludes
  · unfold Code.HasSingleLines
    decide +kernel
  · split
    · exact .cons (by decide +kernel) .nil
    · exact .nil
  · unfold Code.HasSingleLines
    decide +kernel

namespace BindingFile

/-- Nothing that is written into the file for these classes and sources holds a line feed. The paths
of the sources are written if they are to be included. -/
structure HaveSingleLines (options : Options) (sources : List String) (classes : List ClassDecl) :
    Prop where
  classes : ∀ c ∈ classes, c.HasSingleLines
  paths : options.includeSources = true → ∀ path ∈ sources, IsSingleLine path

theorem hasSingleLines_code {u : BindingFile} {classes : List ClassDecl} (h : u.IsFor classes)
    (hlines : HaveSingleLines u.options u.sources classes) : u.code.HasSingleLines := by
  have hnames : ∀ name ∈ u.classes.map (·.name), IsSingleLine name := by
    refine List.forall_mem_map.2 fun b hb => ?_
    obtain ⟨c, hc, hbinds⟩ := exists_mem_of_forall₂ h.bindings hb
    exact hbinds.1 ▸ (hlines.classes c hc).name
  have hclasses : Code.HasSingleLines (u.classes.flatMap ClassBinding.code) := by
    refine .flatMap fun b hb => ?_
    obtain ⟨c, hc, hbinds⟩ := exists_mem_of_forall₂ h.bindings hb
    exact ClassBinding.hasSingleLines_code hbinds (hlines.classes c hc)
  have hclosed : ∀ text, IsSingleLine text → Code.HasSingleLines [.line text] := fun text ht =>
    .cons ht .nil
  exact .append (.append (.append (.append (.append (.append
    (hasSingleLines_preludeCode hlines.paths) hclasses) (hclosed _ (by decide +kernel)))
    (hasSingleLines_bindCode hnames)) (hclosed "" (by decide))) (hclosed _ (by decide +kernel)))
    hasSingleLines_functionDispatch

variable {options : Options} {sources : List String} {classes : List ClassDecl} {u : BindingFile}

/-- The statements on the lines of the text are the lines of the code. -/
theorem statementLines_text (h : ofClasses options sources classes = .ok u)
    (hnames : ∀ c ∈ classes, IsWordName c.name) (hlines : HaveSingleLines options sources classes) :
    statementLines u.text = u.code.lines := by
  obtain ⟨rfl, rfl⟩ := eq_of_ofClasses h
  have hfor := isFor h
  have htext : u.text = String.join (u.code.linesFrom 0) := u.code.text_eq
  rw [htext]
  exact statementLines_linesFrom (hasSingleLines_code hfor hlines)
    (fun line hline => (begins_lines hfor hnames line hline).isUnindented) 0

/-! ### Definitions and uses -/

/-- All functions that a generated text defines have different names. A function that the text
registers, or calls without its being one of a library, is defined exactly once, in front of the
use, and is given as many arguments as it has parameters. -/
theorem defined_once_before_use (hc : ∀ c ∈ classes, c.HasWordNames)
    (hlines : HaveSingleLines options sources classes)
    (h : ofClasses options sources classes = .ok u) :
    definitions (statementLines u.text) = u.prototypes ∧ (u.prototypes.map (·.name)).Nodup ∧
    ∀ before line after, statementLines u.text = before ++ line :: after →
      (∀ name ∈ address? line, name ∈ (definitions before).map (·.name) ∧
        (u.prototypes.map (·.name)).count name = 1) ∧
      ∀ p ∈ call? line, p.name ∉ libraryFunctions → p ∈ definitions before ∧
        (u.prototypes.map (·.name)).count p.name = 1 := by
  have hfor := isFor h
  have hlinks := links hfor hc
  have hnodup := nodup_prototypes hfor
  rw [statementLines_text h (fun c hm => (hc c hm).name) hlines]
  refine ⟨hlinks.definitions, hnodup, fun before line after hsplit => ?_⟩
  have hresolves : Resolves (definitions before) line := by
    have hlinked := hlinks.linked
    rw [hsplit] at hlinked
    exact hlinked.resolves
  have hcount : ∀ name ∈ (definitions before).map (·.name),
      (u.prototypes.map (·.name)).count name = 1 := by
    intro name hn
    refine List.count_eq_one_of_mem hnodup ?_
    rw [← hlinks.definitions, hsplit, definitions_append, List.map_append]
    exact List.mem_append_left _ hn
  refine ⟨fun name hn => ?_, fun p hp hlib => ?_⟩
  · have hk := hresolves.address name hn
    exact ⟨hk, hcount name hk⟩
  · have hk := (hresolves.call p hp).resolve_left hlib
    exact ⟨hk, hcount p.name (List.mem_map_of_mem hk)⟩

/-- A class with a variadic method, whose registration is called by `ObjClass::Bind`. -/
theorem defined_once_before_use_variadic :
    ∃ u, ofClasses {} ["list.h"] [{ name := "ObjList", methods :=
        [{ name := "Add", returnType := "void", kind := .variadic }] }] = .ok u ∧
      "register_ObjList(cls, isMeta);" ∈ statementLines u.text ∧
      ∀ before after,
        statementLines u.text = before ++ "register_ObjList(cls, isMeta);" :: after →
          ⟨"register_ObjList", 2⟩ ∈ definitions before := by
  have hrun : (match ofClasses {} ["list.h"] [{ name := "ObjList", methods :=
        [{ name := "Add", returnType := "void", kind := .variadic }] }] with
      | .ok u => decide ("register_ObjList(cls, isMeta);" ∈ u.code.lines)
      | .error _ => false) = true := by decide +kernel
  have hwords : ∀ c ∈ ([{ name := "ObjList", methods :=
      [{ name := "Add", returnType := "void", kind := .variadic }] }] : List ClassDecl),
      c.HasWordNames := by
    rw [List.forall_mem_singleton]
    exact ⟨by decide, by decide⟩
  have hlines : HaveSingleLines {} ["list.h"] [{ name := "ObjList", methods :=
      [{ name := "Add", returnType := "void", kind := .variadic }] }] := by
    refine ⟨fun c hc => (hwords c hc).hasSingleLines ?_, fun _ => by decide⟩
    obtain rfl := List.mem_singleton.1 hc
    decide
  split at hrun
  · rename_i u hu
    have htext := statementLines_text hu (fun c hc => (hwords c hc).name) hlines
    refine ⟨u, hu, htext ▸ of_decide_eq_true hrun, fun before after hsplit => ?_⟩
    have h := (defined_once_before_use hwords hlines hu).2.2 before _ after hsplit
    have hcall : call? "register_ObjList(cls, isMeta);" = some ⟨"register_ObjList", 2⟩ := by
      decide +kernel
    exact (h.2 _ hcall (by decide)).1
  · cases hrun

/-- The text defines `FunctionDispatch` at its end, so nothing in front of that may define it. -/
theorem not_nodup_of_mem {u : BindingFile} (h : "FunctionDispatch" ∈ (definitions (((preludeCode
      u.options u.sources ++ u.classes.flatMap ClassBinding.code).linesFrom 0).flatMap
        statementLines)).map (·.name)) :
    ¬ ((definitions (statementLines u.text)).map (·.name)).Nodup := by
  obtain ⟨middle, hcode⟩ : ∃ middle, u.code = preludeCode u.options u.sources ++
      u.classes.flatMap ClassBinding.code ++ (middle ++ functionDispatch) := by
    refine ⟨[.line "// Binding setup method, called by hand-written C++ classes"] ++
      bindCode (u.classes.map (·.name)) ++ Code.blank ++ [.line "// Generic closure dispatch"], ?_⟩
    simp only [code, List.append_assoc]
  have hbalanced : Code.IsBalanced (preludeCode u.options u.sources ++
      u.classes.flatMap ClassBinding.code) :=
    (isBalanced_preludeCode _ _).append (.flatMap fun b _ => b.isBalanced_code)
  have hend : "FunctionDispatch" ∈ (definitions ((functionDispatch.linesFrom
      (Code.depthFrom 0 middle)).flatMap statementLines)).map (·.name) := by
    have hflush : ∀ line ∈ functionDispatch.lines, IsUnindented line := fun line hline =>
      (begins_functionDispatch line hline).isUnindented
    rw [← statementLines_join, statementLines_linesFrom hasSingleLines_functionDispatch hflush,
      (links_functionDispatch []).definitions, dispatchPrototypes, List.map_append]
    exact List.mem_append_right _ List.mem_cons_self
  have htext : u.text = String.join (u.code.linesFrom 0) := u.code.text_eq
  rw [htext, statementLines_join, hcode, hbalanced.linesFrom_append,
    Code.linesFrom_append 0 middle, List.flatMap_append, List.flatMap_append,
    definitions_append, definitions_append, List.map_append, List.map_append, List.nodup_append]
  intro hnodup
  exact hnodup.2.2 _ h _ (List.mem_append_right _ hend) rfl

/-- A class with a method whose argument is shown as `label`. -/
def labelledClass (label : String) : ClassDecl where
  name := "ObjA"
  methods := [{
    name := "Foo"
    returnType := "void"
    qualifiers := { isStatic := true }
    args := [{ type := "int", name := "x", position := 0, label }] }]

/-- A line feed in the path of a source, or in a label, begins a line that may define any function.
-/
theorem not_nodup_of_lineFeed :
    (∃ u, ofClasses {} ["x.h\"\nvoid FunctionDispatch() \x7b\n\x7d\n// "] [] = .ok u ∧
      ¬ ((definitions (statementLines u.text)).map (·.name)).Nodup) ∧
    (labelledClass "\nvoid FunctionDispatch() \x7b\n").HasWordNames ∧
    ∃ u, ofClasses {} [] [labelledClass "\nvoid FunctionDispatch() \x7b\n"] = .ok u ∧
      ¬ ((definitions (statementLines u.text)).map (·.name)).Nodup := by
  refine ⟨⟨_, rfl, not_nodup_of_mem (by decide +kernel)⟩, ⟨by decide, by decide⟩, ?_⟩
  have hlabel : (match ofClasses {} [] [labelledClass "\nvoid FunctionDispatch() \x7b\n"] with
      | .ok u => decide ("FunctionDispatch" ∈ (definitions (((preludeCode
          u.options u.sources ++ u.classes.flatMap ClassBinding.code).linesFrom 0).flatMap
            statementLines)).map (·.name))
      | .error _ => false) = true := by
    decide +kernel
  split at hlabel
  · next u hu => exact ⟨u, hu, not_nodup_of_mem (of_decide_eq_true hlabel)⟩
  · cases hlabel

/-! ### Runs -/

/-- `ObjClass::Bind` adds, for the name of a class, the functions of the methods that are of the
level asked for, method by method as they are declared, and returns. For any other name it adds
nothing and aborts. What is run are the lines of the code, which are those of the text as well. -/
theorem runBind_spec (hc : ∀ c ∈ classes, IsWordName c.name)
    (h : ofClasses options sources classes = .ok u) (type : String) (isMeta : Bool) :
    (∀ c ∈ classes, c.name = type → ∃ calls,
      (c.members.filter (·.method.isStatic == isMeta)).mapM Member.entries = .ok calls ∧
      runBind u.code.lines type isMeta = some { added := calls.flatten, outcome := .returned }) ∧
    (type ∉ classes.map (·.name) →
      runBind u.code.lines type isMeta = some { added := [], outcome := .aborted }) ∧
    (HaveSingleLines options sources classes → statementLines u.text = u.code.lines) := by
  have hfor := isFor h
  have hw := hfor.isWordName_classes hc
  have hrun := runBind_eq hfor hw type isMeta
  refine ⟨?_, ?_, statementLines_text h hc⟩
  · rintro c hmem rfl
    obtain ⟨b, hb, hbinds⟩ := exists_mem_of_forall₂ hfor.bindings.flip hmem
    obtain ⟨calls, hcalls, hflatten⟩ := exists_entries hbinds.2 isMeta
    refine ⟨calls, hcalls, ?_⟩
    rw [← hbinds.1] at hrun ⊢
    rw [hrun, if_pos (List.mem_map_of_mem hb), runRegister_eq hfor hw isMeta hb, ← hflatten]
    simp [Run.asCall, Run.andThen, ClassBinding.registrations]
  · intro hnone
    have hnames : type ∉ u.classes.map (·.name) := by
      intro hm
      obtain ⟨b, hb, rfl⟩ := List.mem_map.1 hm
      obtain ⟨c, hmem, hbinds⟩ := exists_mem_of_forall₂ hfor.bindings hb
      exact hnone (List.mem_map.2 ⟨c, hmem, hbinds.1.symm⟩)
    rw [hrun, if_neg hnames]

/-- A class with methods of both levels, and a name that no class has. -/
theorem runBind_spec_levels : ∃ u, ofClasses {} [] [{ name := "ObjA", methods := [
      { name := "Foo", returnType := "int", qualifiers := { isStatic := true } },
      { name := "Bar", returnType := "void" },
      { name := "Baz", returnType := "int", qualifiers := { isStatic := true } }] }] = .ok u ∧
    runBind (statementLines u.text) "ObjA" true = some {
      added := [⟨"foo()", "binding_ObjA_Foo_0"⟩, ⟨"baz()", "binding_ObjA_Baz_0"⟩],
      outcome := .returned } ∧
    runBind (statementLines u.text) "ObjB" true = some { added := [], outcome := .aborted } := by
  have hok : (ofClasses {} [] [{ name := "ObjA", methods := [
      { name := "Foo", returnType := "int", qualifiers := { isStatic := true } },
      { name := "Bar", returnType := "void" },
      { name := "Baz", returnType := "int", qualifiers := { isStatic := true } }] }]).isOk =
      true := by
    decide +kernel
  cases h : ofClasses {} [] [{ name := "ObjA", methods := [
      { name := "Foo", returnType := "int", qualifiers := { isStatic := true } },
      { name := "Bar", returnType := "void" },
      { name := "Baz", returnType := "int", qualifiers := { isStatic := true } }] }] with
  | error e =>
    rw [h] at hok
    cases hok
  | ok u =>
    have hspec := runBind_spec (List.forall_mem_singleton.2 (by decide)) h
    have htext := (hspec "ObjA" true).2.2
      ⟨List.forall_mem_singleton.2 ⟨by decide, by decide, by decide⟩, fun _ => by simp⟩
    obtain ⟨calls, hcalls, hrun⟩ := (hspec "ObjA" true).1 _ List.mem_cons_self rfl
    have hexpected : calls =
        [[⟨"foo()", "binding_ObjA_Foo_0"⟩], [⟨"baz()", "binding_ObjA_Baz_0"⟩]] := by
      refine Except.ok.inj (hcalls.symm.trans ?_)
      decide +kernel
    have hnone := (hspec "ObjB" true).2.1 (by decide)
    rw [hexpected, ← htext] at hrun
    rw [← htext] at hnone
    exact ⟨u, rfl, hrun, hnone⟩

end BindingFile

end Bindings

/-! ### Collected classes -/

/-- What is read from a header are single lines. -/
theorem Bindings.BindingFile.HaveSingleLines.of_collectClasses {options : Options}
    {sources : List Source} {classes : List ClassDecl}
    (h : collectClasses sources = .ok classes)
    (hp : options.includeSources = true → ∀ source ∈ sources, IsSingleLine source.path) :
    HaveSingleLines options (sources.map (·.path)) classes := by
  refine ⟨fun c hc => ?_, fun ho => List.forall_mem_map.2 (hp ho)⟩
  exact (hasWordNames_of_collectClasses h c hc).hasSingleLines
    (not_mem_shownName_of_collectClasses h c hc)

end WrenGlue
