import WrenGlue.Proofs.Bindings.Collection
import WrenGlue.Proofs.Bindings.Independence

/-! What the options change in a generated file: nothing but the lines of their own. Every file for
the same classes is a selection of one list of lines, each with the condition that it is written
under. -/

namespace WrenGlue

open WrenGlue.Bindings WrenGlue.Cpp
open WrenGlue.Header (ClassDecl)

namespace Bindings

/-- No option is set. -/
def Options.plain : Options := { debugGc := false, includeSources := false }

/-! ### Files with other options -/

/-- The function with a garbage collection in front of its body, if wanted. -/
def Function.probed (debugGc : Bool) (f : Function) : Function :=
  { f with body := (if debugGc then [.collect f.values] else []) ++ f.body }

def MethodBinding.probed (debugGc : Bool) (b : MethodBinding) : MethodBinding where
  trampoline := b.trampoline.probed debugGc
  forwarders := b.forwarders.map (·.probed debugGc)
  registrations := b.registrations

def ClassBinding.probed (debugGc : Bool) (b : ClassBinding) : ClassBinding :=
  { b with methods := b.methods.map (·.probed debugGc) }

theorem forwarder_eq (options : Options) (target : String) (fixed : List String) (count : Nat) :
    forwarder options target fixed count =
      (forwarder .plain target fixed count).probed options.debugGc := by
  have hvalues : (forwarder .plain target fixed count).values = fixed ++ numbered "va" count :=
    filterMap_value?_map _
  rw [Function.probed, hvalues]
  rfl

end Bindings

namespace Member

theorem trampoline_eq (m : Member) (options : Options) (symbol shown : String)
    (unboxings : List Unboxing) (boxing : Boxing) :
    m.trampoline options symbol shown unboxings boxing =
      (m.trampoline .plain symbol shown unboxings boxing).probed options.debugGc := by
  have hvalues : (m.trampoline .plain symbol shown unboxings boxing).values = m.fixedParams :=
    m.values_params
  rw [Function.probed, hvalues]
  simp only [trampoline, List.append_assoc]
  rfl

theorem binding_eq (m : Member) (options : Options) :
    m.binding options = MethodBinding.probed options.debugGc <$> m.binding .plain := by
  simp only [binding, map_bind, m.trampoline_eq options]
  refine bind_congr fun symbol => bind_congr fun shown => bind_congr fun unboxings =>
    bind_congr fun boxing => ?_
  split
  · have hforwarders : (List.range (maxDispatchArity + 1)).map (forwarder options symbol m.fixedParams) =
        ((List.range (maxDispatchArity + 1)).map (forwarder .plain symbol m.fixedParams)).map
          (·.probed options.debugGc) := by
      rw [List.map_map]
      exact List.map_congr_left fun count _ => forwarder_eq options symbol m.fixedParams count
    rw [map_bind]
    refine bind_congr fun signatures => ?_
    rw [hforwarders, List.zipWith_map_right, map_pure]
    rfl
  · rw [map_bind]
    rfl

end Member

namespace Bindings

namespace ClassTable

theorem bindMembers_eq (options : Options) (t : ClassTable) (ms : List Member) :
    t.bindMembers options ms =
      (fun (bs, t') => (bs.map (MethodBinding.probed options.debugGc), t')) <$>
        t.bindMembers .plain ms := by
  induction ms generalizing t with
  | nil => rfl
  | cons m ms ih =>
    simp only [bindMembers, m.binding_eq options, ih, map_bind, bind_map_left, map_pure]
    rfl

theorem bindClasses_eq (options : Options) (t : ClassTable) (cs : List ClassDecl) :
    t.bindClasses options cs =
      (fun (bs, t') => (bs.map (ClassBinding.probed options.debugGc), t')) <$>
        t.bindClasses .plain cs := by
  induction cs generalizing t with
  | nil => rfl
  | cons c cs ih =>
    simp only [bindClasses, bindMembers_eq options, ih, map_bind, bind_map_left, map_pure]
    rfl

end ClassTable

namespace BindingFile

/-- The same file with other options. -/
def withOptions (options : Options) (u : BindingFile) : BindingFile where
  options := options
  sources := u.sources
  classes := u.classes.map (·.probed options.debugGc)

theorem ofClasses_eq (options : Options) (sources : List String) (classes : List ClassDecl) :
    ofClasses options sources classes =
      withOptions options <$> ofClasses .plain sources classes := by
  simp only [ofClasses, ClassTable.bindClasses_eq options, map_bind, bind_map_left, map_pure]
  rfl

end BindingFile

/-! ### Lines and their conditions -/

/-- When a line is written. -/
inductive Condition where
  | always
  | debugGc
  | includeSources
deriving DecidableEq, Repr

def Condition.holds (options : Options) : Condition → Bool
  | always => true
  | debugGc => options.debugGc
  | includeSources => options.includeSources

/-- A line as it is written, with its line feed, if the condition holds. -/
structure OptionLine where
  condition : Condition
  text : String
deriving DecidableEq, Repr

/-- The text of the lines that are written. -/
def selectedText (options : Options) (ls : List OptionLine) : String :=
  String.join ((ls.filter fun l => l.condition.holds options).map (·.text))

/-- The lines that are written under one condition. -/
def linesUnder (condition : Condition) (ls : List OptionLine) : List String :=
  (ls.filter fun l => l.condition == condition).map (·.text)

/-- Lines under one condition. -/
def under (condition : Condition) (lines : List String) : List OptionLine :=
  lines.map (.mk condition)

/-- The line that runs the garbage collection in a function. -/
def Function.probeLine (f : Function) : String := Page.lineAt 1 (Statement.collect f.values).text

/-- The collection is the first line of the body. -/
def Function.optionLines (f : Function) : List OptionLine :=
  under .always [Page.lineAt 0 (f.header ++ " \x7b")]
    ++ under .debugGc [f.probeLine]
    ++ under .always (f.body.map (fun s => Page.lineAt 1 s.text) ++ [Page.lineAt 0 "\x7d"])

def ClassBinding.functions (b : ClassBinding) : List Function := b.methods.flatMap (·.functions)

def ClassBinding.optionLines (b : ClassBinding) : List OptionLine :=
  under .always [Page.lineAt 0 ("// Methods of " ++ b.name)]
    ++ b.functions.flatMap Function.optionLines
    ++ under .always ((registerCode b.name b.registrations ++ Code.blank).linesFrom 0)

/-- The includes of the sources, with a comment above and an empty line below, if there are any. -/
def includeLines (sources : List String) : List String :=
  if sources = [] then []
  else (["// Includes for the declaration sources"]
    ++ sources.map (fun source => includeLine (includePath source))
    ++ [""]).map (Page.lineAt 0)

/-- The include that the garbage collections need. -/
def runtimeInclude : String := Page.lineAt 0 "#include \"WrenRuntime.h\""

namespace BindingFile

def functions (u : BindingFile) : List Function := u.classes.flatMap (·.functions)

/-- What follows the classes. -/
def lookupCode (u : BindingFile) : Code :=
  [.line "// Binding setup method, called by hand-written C++ classes"]
    ++ bindCode (u.classes.map (·.name)) ++ Code.blank
    ++ [.line "// Generic closure dispatch"] ++ functionDispatch

/-- The lines that a file may have. -/
def optionLines (u : BindingFile) : List OptionLine :=
  under .always ([banner, "", "#define BINDINGS_GEN", "#include \"binding_utils.h\""].map
      (Page.lineAt 0))
    ++ under .debugGc [runtimeInclude]
    ++ under .always (["", "#include <initializer_list>", "#include <stdio.h>",
      "#include <stdlib.h>", ""].map (Page.lineAt 0))
    ++ under .includeSources (includeLines u.sources)
    ++ u.classes.flatMap ClassBinding.optionLines
    ++ under .always (u.lookupCode.linesFrom 0)

end BindingFile

/-! ### The lines under one condition -/

section LinesUnder

variable {c d : Condition} (ls ms : List OptionLine) (lines : List String)

theorem linesUnder_append : linesUnder c (ls ++ ms) = linesUnder c ls ++ linesUnder c ms := by
  rw [linesUnder, List.filter_append, List.map_append, linesUnder, linesUnder]

theorem linesUnder_under : linesUnder c (under d lines) = if d = c then lines else [] := by
  split_ifs with h <;> simp [linesUnder, under, List.filter_map, Function.comp_def, h]

theorem linesUnder_flatMap {α : Type} (l : List α) (f : α → List OptionLine) :
    linesUnder c (l.flatMap f) = l.flatMap fun x => linesUnder c (f x) := by
  rw [linesUnder, List.filter_flatMap, List.map_flatMap]
  rfl

end LinesUnder

theorem Function.linesUnder_optionLines (f : Function) :
    linesUnder .debugGc f.optionLines = [f.probeLine] ∧
      linesUnder .includeSources f.optionLines = [] := by
  simp [optionLines, linesUnder_append, linesUnder_under]

theorem ClassBinding.linesUnder_optionLines (b : ClassBinding) :
    linesUnder .debugGc b.optionLines = b.functions.map Function.probeLine ∧
      linesUnder .includeSources b.optionLines = [] := by
  simp [optionLines, linesUnder_append, linesUnder_under, linesUnder_flatMap,
    Function.linesUnder_optionLines, ← List.map_eq_flatMap]

theorem BindingFile.linesUnder_optionLines (u : BindingFile) :
    linesUnder .debugGc u.optionLines = runtimeInclude :: u.functions.map Function.probeLine ∧
      linesUnder .includeSources u.optionLines = includeLines u.sources := by
  simp [optionLines, functions, linesUnder_append, linesUnder_under, linesUnder_flatMap,
    ClassBinding.linesUnder_optionLines, List.map_flatMap]

/-! ### Selected lines -/

/-- The lines of `ls` that are written are those of `code`. -/
structure Writes (options : Options) (ls : List OptionLine) (code : Code) : Prop where
  isBalanced : code.IsBalanced
  lines : (ls.filter fun l => l.condition.holds options).map (·.text) = code.linesFrom 0

namespace Writes

variable {options : Options} {ls ms : List OptionLine} {a b : Code}

theorem append (ha : Writes options ls a) (hb : Writes options ms b) :
    Writes options (ls ++ ms) (a ++ b) where
  isBalanced := ha.isBalanced.append hb.isBalanced
  lines := by
    rw [List.filter_append, List.map_append, ha.lines, hb.lines, ha.isBalanced.linesFrom_append]

theorem flatMap {α : Type} {l : List α} {f : α → List OptionLine} {g : α → Code}
    (h : ∀ x ∈ l, Writes options (f x) (g x)) : Writes options (l.flatMap f) (l.flatMap g) := by
  induction l with
  | nil => exact ⟨.nil, rfl⟩
  | cons x l ih =>
    rw [List.forall_mem_cons] at h
    exact h.1.append (ih h.2)

theorem under (options : Options) (c : Condition) (ha : a.IsBalanced) :
    Writes options (under c (a.linesFrom 0)) (if c.holds options then a else []) := by
  split_ifs with h
  · exact ⟨ha, by simp [Bindings.under, List.filter_map, Function.comp_def, h]⟩
  · exact ⟨.nil, by simp [Bindings.under, List.filter_map, Function.comp_def, h, Code.linesFrom]⟩

theorem always (options : Options) (ha : a.IsBalanced) :
    Writes options (Bindings.under .always (a.linesFrom 0)) a := under options .always ha

theorem ofLines (options : Options) (texts : List String) :
    Writes options (Bindings.under .always (texts.map (Page.lineAt 0))) (Code.ofLines texts) := by
  rw [← Code.linesFrom_ofLines]
  exact always options (.ofLines texts)

theorem text_eq (h : Writes options ls a) : a.text = selectedText options ls := by
  rw [Code.text_eq, selectedText, h.lines]

end Writes

theorem Function.writes (options : Options) (f : Function) :
    Writes options f.optionLines (f.probed options.debugGc).code := by
  refine ⟨isBalanced_code _, ?_⟩
  rw [code, Code.linesFrom_block _ _ (.ofLines _), Code.linesFrom_ofLines, probed, optionLines]
  cases h : options.debugGc <;>
    simp [under, probeLine, header, Condition.holds, h, List.filter_map, Function.comp_def]

theorem MethodBinding.functions_probed (debugGc : Bool) (b : MethodBinding) :
    (b.probed debugGc).functions = b.functions.map (·.probed debugGc) := rfl

theorem ClassBinding.writes (options : Options) (b : ClassBinding) :
    Writes options b.optionLines (b.probed options.debugGc).code := by
  have hfunctions : (b.probed options.debugGc).methods.flatMap MethodBinding.code =
      b.functions.flatMap fun f => (f.probed options.debugGc).code := by
    simp only [probed, functions, List.flatMap_map, List.flatMap_assoc, MethodBinding.code,
      MethodBinding.functions_probed]
  have hregistrations : (b.probed options.debugGc).registrations = b.registrations := by
    simp only [registrations, probed, List.flatMap_map, MethodBinding.probed]
  have hcode : (b.probed options.debugGc).code =
      [.line ("// Methods of " ++ b.name)]
        ++ (b.functions.flatMap fun f => (f.probed options.debugGc).code)
        ++ (registerCode b.name b.registrations ++ Code.blank) := by
    rw [code, hfunctions, hregistrations, List.append_assoc]
    rfl
  rw [hcode]
  exact ((Writes.always options (.line _)).append (.flatMap fun f _ => f.writes options)).append
    (.always options (.append (isBalanced_registerCode _ _) .blank))

theorem writes_sourceIncludes (options : Options) (sources : List String) :
    Writes options (under .includeSources (includeLines sources))
      (sourceIncludes options sources) := by
  by_cases h : sources = []
  · subst h
    rw [sourceIncludes, if_neg (fun h => h.2 rfl)]
    exact ⟨.nil, rfl⟩
  · have hincludes : Code.IsBalanced (.line "// Includes for the declaration sources" ::
        Code.ofLines (sources.map fun source => includeLine (includePath source)) ++ Code.blank) :=
      .append (.cons _ (.ofLines _)) .blank
    have hlines : includeLines sources = Code.linesFrom 0
        (.line "// Includes for the declaration sources" ::
          Code.ofLines (sources.map fun source => includeLine (includePath source)) ++
            Code.blank) := by
      rw [Code.IsBalanced.linesFrom_append (.cons _ (.ofLines _)), Code.linesFrom,
        Code.linesFrom_ofLines, includeLines, if_neg h, List.map_append, List.map_append]
      rfl
    rw [hlines, sourceIncludes]
    simp only [h, ne_eq, not_false_eq_true, and_true]
    exact Writes.under options .includeSources hincludes

theorem BindingFile.isBalanced_lookupCode (u : BindingFile) : u.lookupCode.IsBalanced :=
  .append (.append (.append (.append (.line _) (isBalanced_bindCode _)) .blank) (.line _))
    fun _ => rfl

theorem BindingFile.writes (options : Options) (u : BindingFile) :
    Writes options u.optionLines (u.withOptions options).code := by
  have hclasses : (u.withOptions options).classes.flatMap ClassBinding.code =
      u.classes.flatMap fun b => (b.probed options.debugGc).code := List.flatMap_map ..
  have hlookup : (u.withOptions options).lookupCode = u.lookupCode := by
    simp only [lookupCode, withOptions, List.map_map]
    rfl
  have hcode : (u.withOptions options).code =
      [.line banner, .line "", .line "#define BINDINGS_GEN", .line "#include \"binding_utils.h\""]
        ++ (if options.debugGc then [.line "#include \"WrenRuntime.h\""] else [])
        ++ [.line "", .line "#include <initializer_list>", .line "#include <stdio.h>",
          .line "#include <stdlib.h>", .line ""]
        ++ sourceIncludes options u.sources
        ++ (u.classes.flatMap fun b => (b.probed options.debugGc).code)
        ++ u.lookupCode := by
    rw [← hlookup, ← hclasses, code]
    simp only [lookupCode, preludeCode, List.append_assoc]
    rfl
  rw [hcode]
  exact (((((Writes.ofLines options _).append
    (.under options .debugGc (.line _))).append
    (.ofLines options _)).append
    (writes_sourceIncludes options u.sources)).append
    (.flatMap fun (b : ClassBinding) _ => b.writes options)).append
    (.always options u.isBalanced_lookupCode)

end Bindings

/-! ### Generated files -/

theorem Member.IsBinding.collect_notMem_body {m : Member} {options : Options} {form : Wren.CallForm}
    {arity : Nat} {b : MethodBinding} (h : m.IsBinding options form arity b)
    (hd : options.debugGc = false) :
    ∀ f ∈ b.functions, ∀ roots, Statement.collect roots ∉ f.body := by
  intro f hf roots
  rcases List.mem_cons.1 hf with rfl | hf
  · obtain ⟨shown, unboxings, boxing, -, -, -, hbody⟩ := h.body
    rw [hbody, collectFirst, hd]
    cases boxing <;> simp [Boxing.statements]
  · rw [h.forwarders] at hf
    split at hf
    · obtain ⟨count, -, rfl⟩ := List.mem_map.1 hf
      simp [forwarder, collectFirst, hd]
    · cases hf

theorem Bindings.BindingFile.collect_notMem_body {options : Options} {sources : List String}
    {classes : List ClassDecl} {u : BindingFile}
    (h : BindingFile.ofClasses options sources classes = .ok u) (hd : options.debugGc = false) :
    ∀ f ∈ u.functions, ∀ roots, Statement.collect roots ∉ f.body := by
  obtain ⟨⟨bs, t⟩, hbs, hfile⟩ := bind_eq_ok.1 h
  obtain rfl : BindingFile.mk options sources bs = u := Except.ok.inj hfile
  intro f hf
  obtain ⟨b, hb, hf⟩ := List.mem_flatMap.1 hf
  obtain ⟨mb, hmb, hf⟩ := List.mem_flatMap.1 hf
  obtain ⟨c, -, hbinds⟩ := exists_mem_of_forall₂ (ClassTable.boundClasses hbs).bindings hb
  obtain ⟨m, -, form, arity, hbinding⟩ := hbinds.exists_isBinding hmb
  exact hbinding.collect_notMem_body hd f hf

theorem generate_eq (options : Options) (sources : List Source) {classes : List ClassDecl}
    (h : collectClasses sources = .ok classes) : generate options sources =
      (do let u ← (BindingFile.ofClasses .plain (sources.map (·.path)) classes).mapError .binding
          return selectedText options u.optionLines) := by
  have hclasses : collectClasses sources = pure classes := h
  simp only [generate, generateWithSummary, hclasses, pure_bind, BindingFile.ofClasses_eq options]
  cases BindingFile.ofClasses .plain (sources.map (·.path)) classes with
  | error e => rfl
  | ok u => exact congrArg Except.ok (u.writes options).text_eq

/-- Sources fail in the same way under all options, or all their files are selections of the same
lines. The option for garbage collections adds an include and the first line of each function, and
the option for includes adds those of the sources. -/
theorem generate_options (sources : List Source) :
    (∃ e, ∀ options, generate options sources = .error e) ∨
    ∃ classes u, collectClasses sources = .ok classes ∧
      BindingFile.ofClasses .plain (sources.map (·.path)) classes = .ok u ∧
      (∀ f ∈ u.functions, ∀ roots, Statement.collect roots ∉ f.body) ∧
      linesUnder .debugGc u.optionLines = runtimeInclude :: u.functions.map Function.probeLine ∧
      linesUnder .includeSources u.optionLines = includeLines (sources.map (·.path)) ∧
      ∀ options, generate options sources = .ok (selectedText options u.optionLines) := by
  cases hclasses : collectClasses sources with
  | error e =>
    refine .inl ⟨e, fun options => ?_⟩
    rw [generate, generateWithSummary, hclasses]
    rfl
  | ok classes =>
    cases hfile : BindingFile.ofClasses .plain (sources.map (·.path)) classes with
    | error e =>
      refine .inl ⟨.binding e, fun options => ?_⟩
      rw [generate_eq options sources hclasses, hfile]
      rfl
    | ok u =>
      have hsources : u.sources = sources.map (·.path) := by
        obtain ⟨bound, -, hu⟩ := bind_eq_ok.1 hfile
        rw [← Except.ok.inj hu]
      refine .inr ⟨classes, u, rfl, hfile, BindingFile.collect_notMem_body hfile rfl,
        u.linesUnder_optionLines.1, hsources ▸ u.linesUnder_optionLines.2, fun options => ?_⟩
      rw [generate_eq options sources hclasses, hfile]
      rfl

end WrenGlue
