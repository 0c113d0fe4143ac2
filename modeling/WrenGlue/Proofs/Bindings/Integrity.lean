import WrenGlue.Proofs.Bindings.Definitions
import WrenGlue.Proofs.Bindings.Names

/-! The generated file as a whole: what it defines, that every use follows the definition, and that
no two definitions share a name. -/

namespace WrenGlue.Bindings

open WrenGlue.Cpp WrenGlue.Text
open WrenGlue.Header (ClassDecl)

/-! ### `ObjClass::Bind` -/

/-- The function `ObjClass::Bind`. -/
def bindPrototype : Prototype := ⟨"ObjClass::Bind", 3⟩

theorem call?_registerCall {className : String} (hn : IsWordName className) :
    call? (registerName className ++ "(cls, isMeta);") = some ⟨registerName className, 2⟩ := by
  have hfront : IsWordName "register_" := by decide
  have hargs : commaList ["cls", "isMeta"] = "cls, isMeta" := by decide
  have hcall := @call?_eq "" (registerName className) ["cls", "isMeta"] (.inl rfl)
    (by simp [registerName]) (hfront.append hn) (by decide)
    (List.forall_mem_cons.2 ⟨.of_plain (by decide), List.forall_mem_singleton.2
      (.of_plain (by decide))⟩)
  have hline : "" ++ registerName className ++ "(" ++ commaList ["cls", "isMeta"] ++ ");" =
      registerName className ++ "(cls, isMeta);" := by
    rw [hargs, String.empty_append, String.append_assoc, String.append_assoc]
    rfl
  rwa [hline] at hcall

theorem resolves_registerCall {known : List Prototype} {className : String}
    (hn : IsWordName className) (hk : ⟨registerName className, 2⟩ ∈ known) :
    Resolves known (registerName className ++ "(cls, isMeta);") ∧
      definition? (registerName className ++ "(cls, isMeta);") = none := by
  have hlast : (registerName className ++ "(cls, isMeta);").toList.getLast? = some ';' :=
    getLast?_toList_append _ rfl
  refine ⟨⟨?_, ?_⟩, definition?_eq_none_of_last (by rw [hlast]; decide)⟩
  · have haddress : address? (registerName className ++ "(cls, isMeta);") = none :=
      address?_eq_none_of_head (by simp [registerName])
    simp [haddress]
  · rw [call?_registerCall hn]
    rintro p ⟨⟩
    exact .inr hk

theorem inert_bindTest (className : String) :
    Inert ("if (type == " ++ quoted className ++ ")" ++ " \x7b") := by
  have hlast : ("if (type == " ++ quoted className ++ ")" ++ " \x7b").toList.getLast? =
      some '\x7b' := getLast?_toList_append _ rfl
  refine ⟨definition?_eq_none_of_head (by simp), address?_eq_none_of_head (by simp), ?_⟩
  have hcall : call? ("if (type == " ++ quoted className ++ ")" ++ " \x7b") = none :=
    call?_eq_none_of_last (by rw [hlast]; decide)
  simp [hcall]

theorem links_bindCode {known : List Prototype} {classes : List String}
    (h : ∀ name ∈ classes, IsWordName name ∧ ⟨registerName name, 2⟩ ∈ known) :
    Links known (bindCode classes).lines [bindPrototype] := by
  have hbranches : Links known (classes.flatMap fun name => (bindBranch name).lines)
      (classes.flatMap fun _ => []) := by
    refine .flatMap fun name hname known' hsub => ?_
    have hcall := resolves_registerCall (h name hname).1 (hsub (h name hname).2)
    have hspec : ∀ line ∈ (bindBranch name).lines,
        Resolves known' line ∧ definition? line = none := by
      intro line hline
      simp only [bindBranch, Code.lines_block, Code.lines_line, Code.lines_nil, List.mem_cons,
        List.mem_append, List.not_mem_nil, or_false] at hline
      rcases hline with rfl | (rfl | rfl) | rfl
      · exact ⟨(inert_bindTest name).resolves known', (inert_bindTest name).definition⟩
      · exact hcall
      · have hinert : Inert "return;" := by decide
        exact ⟨hinert.resolves known', hinert.definition⟩
      · exact ⟨inert_close.resolves known', inert_close.definition⟩
    exact .of_resolves (fun line hl => (hspec line hl).1) fun line hl => (hspec line hl).2
  have hend : Links (known ++ classes.flatMap fun _ => [])
      ["fprintf(stderr, \"Unknown bindings class '%s'\\n\", type.c_str());", "abort();"] [] := by
    refine .of_inert ?_
    rw [List.forall_mem_cons, List.forall_mem_singleton]
    exact ⟨by decide +kernel, by decide +kernel⟩
  have hbody := hbranches.append hend
  have hnone : (classes.flatMap fun _ => ([] : List Prototype)) ++ [] = [] := by simp
  rw [hnone] at hbody
  rw [bindCode, Code.lines_block, Code.lines_append, Code.lines_flatMap]
  exact .function (by decide +kernel) (by decide) hbody

/-! ### Dispatch -/

/-- The function that calls a function of `arity` arguments. -/
def dispatchPrototype (arity : Nat) : Prototype := ⟨dispatchName arity, arity + 2⟩

/-- The function `FunctionDispatch`. -/
def entryPrototype : Prototype := ⟨"FunctionDispatch", 3⟩

theorem isWordName_dispatchName (arity : Nat) : IsWordName (dispatchName arity) := by
  have hfront : IsWordName "functionDispatch" := by decide
  exact hfront.append (isWordName_toString arity)

theorem dispatchParams_spec (arity : Nat) :
    ∀ p ∈ dispatchParams arity, p ≠ "" ∧ IsItem p.toList := by
  intro p hp
  simp only [dispatchParams, List.mem_append, List.mem_cons, List.not_mem_nil, or_false,
    List.mem_map] at hp
  have harg : IsWordName "arg" := by decide
  rcases hp with (rfl | rfl) | ⟨name, hname, rfl⟩
  · exact ⟨by decide, .of_plain (by decide)⟩
  · exact ⟨by decide, .of_plain (by decide)⟩
  · exact ⟨by simp, isItem_append (by decide) (isWordName_numbered harg arity name hname)⟩

theorem length_dispatchParams (arity : Nat) : (dispatchParams arity).length = arity + 2 := by
  simp [dispatchParams, numbered]

/-- A line whose first parenthesis has no name in front of it. -/
theorem inert_of_gap {line : String} {front : List Char}
    (h : front ++ ['('] <+: line.toList) (hparen : '(' ∉ front)
    (hgap : front.getLast?.any isWord = false) (hhead : line.toList.head? ≠ some 'c')
    (hlast : line.toList.getLast? = some ';') : Inert line :=
  ⟨definition?_eq_none_of_last (by rw [hlast]; decide), address?_eq_none_of_head hhead, by
    simp [call?_eq_none_of_gap h hparen hgap]⟩

theorem links_dispatchCode (known : List Prototype) (arity : Nat) :
    Links known (dispatchCode arity).lines [dispatchPrototype arity] := by
  have hdef : definition? ("static Value " ++ dispatchName arity ++ "(" ++
      commaList (dispatchParams arity) ++ ")" ++ " \x7b") = some (dispatchPrototype arity) := by
    have h := @definition?_eq "static Value " (dispatchName arity) (dispatchParams arity)
      (by decide) ((isWordName_dispatchName arity).not_mem (by decide))
      (fun p hp => (dispatchParams_spec arity p hp).1)
      fun p hp => (dispatchParams_spec arity p hp).2
    rw [length_dispatchParams] at h
    exact h
  rw [dispatchCode, Code.lines_block, Code.lines_append, Code.lines_block]
  refine .function hdef (by simp) (.of_inert fun line hline => ?_)
  simp only [Code.lines_line, Code.lines_nil, List.mem_cons, List.mem_append, List.not_mem_nil,
    or_false] at hline
  rcases hline with (rfl | (rfl | rfl) | rfl) | rfl | rfl
  · decide
  · exact @inert_of_gap _ "typedef Value ".toList (by simp) (by decide) (by decide) (by simp)
      (getLast?_toList_append _ rfl)
  · exact @inert_of_gap _ "return ".toList (by simp) (by decide) (by decide) (by simp)
      (getLast?_toList_append _ rfl)
  · exact inert_close
  · exact @inert_of_gap _ "typedef Value ".toList (by simp) (by decide) (by decide) (by simp)
      (getLast?_toList_append _ rfl)
  · exact @inert_of_gap _ "return ".toList (by simp) (by decide) (by decide) (by simp)
      (getLast?_toList_append _ rfl)

theorem dispatchArgs_spec (arity : Nat) : ∀ a ∈ dispatchArgs arity, a ≠ "" ∧ IsItem a.toList := by
  intro a ha
  simp only [dispatchArgs, List.mem_append, List.mem_cons, List.not_mem_nil, or_false,
    List.mem_map] at ha
  rcases ha with (rfl | rfl) | ⟨i, -, rfl⟩
  · exact ⟨by decide, .of_plain (by decide)⟩
  · exact ⟨by decide, .of_plain (by decide)⟩
  · refine ⟨by simp, .of_plain fun c hc => ?_⟩
    simp only [String.toList_append, List.mem_append] at hc
    rcases hc with (hc | hc) | hc
    · revert c
      decide
    · exact isPlain_of_isWord (isWordName_toString i c hc)
    · revert c
      decide

theorem length_dispatchArgs (arity : Nat) : (dispatchArgs arity).length = arity + 2 := by
  simp [dispatchArgs]

theorem call?_dispatchCase (arity : Nat) :
    call? ("return " ++ dispatchName arity ++ "(" ++ commaList (dispatchArgs arity) ++ ");") =
      some (dispatchPrototype arity) := by
  have h := call?_eq (.inr rfl) (by simp [dispatchName]) (isWordName_dispatchName arity)
    (fun a ha => (dispatchArgs_spec arity a ha).1) fun a ha => (dispatchArgs_spec arity a ha).2
  rw [length_dispatchArgs] at h
  exact h

theorem links_dispatchCase {known : List Prototype} {arity : Nat}
    (hk : dispatchPrototype arity ∈ known) : Links known (Code.lines (dispatchCase arity)) [] := by
  have hlabel : Inert ("case " ++ toString arity ++ ":") := by
    have hlast : ("case " ++ toString arity ++ ":").toList.getLast? = some ':' :=
      getLast?_toList_append _ rfl
    have hfront : "case ".toList <+: ("case " ++ toString arity ++ ":").toList := by
      simp
    have hnone : call? ("case " ++ toString arity ++ ":") = none :=
      call?_eq_none_of_last (by rw [hlast]; decide)
    exact ⟨definition?_eq_none_of_last (by rw [hlast]; decide),
      address?_eq_none_of_front hfront (by decide) (c := ' ') (by decide) (by decide), by
      rw [hnone]
      simp⟩
  have hreturn : Resolves known ("return " ++ dispatchName arity ++ "(" ++
      commaList (dispatchArgs arity) ++ ");") := by
    refine ⟨?_, ?_⟩
    · have haddress : address? ("return " ++ dispatchName arity ++ "(" ++
          commaList (dispatchArgs arity) ++ ");") = none := address?_eq_none_of_head (by simp)
      simp [haddress]
    · rw [call?_dispatchCase]
      rintro p ⟨⟩
      exact .inr hk
  have hnodef : definition? ("return " ++ dispatchName arity ++ "(" ++
      commaList (dispatchArgs arity) ++ ");") = none := definition?_eq_none_of_head (by simp)
  rw [dispatchCase, Code.lines_line, Code.lines_indented]
  refine .of_resolves ?_ ?_
  · exact List.forall_mem_cons.2 ⟨hlabel.resolves known, List.forall_mem_singleton.2 hreturn⟩
  · exact List.forall_mem_cons.2 ⟨hlabel.definition, List.forall_mem_singleton.2 hnodef⟩

theorem links_dispatchEntry {known : List Prototype}
    (hk : ∀ arity ∈ List.range (maxDispatchArity + 1), dispatchPrototype arity ∈ known) :
    Links known dispatchEntry.lines [entryPrototype] := by
  have hopen : Links known ["const Value *args = values.begin();", "switch (values.size()) \x7b"]
      [] := by
    refine .of_inert ?_
    rw [List.forall_mem_cons, List.forall_mem_singleton]
    exact ⟨by decide +kernel, by decide +kernel⟩
  have hcases : Links (known ++ [])
      ((List.range (maxDispatchArity + 1)).flatMap fun arity => Code.lines (dispatchCase arity))
      ((List.range (maxDispatchArity + 1)).flatMap fun _ => []) := by
    refine .flatMap fun arity harity known' hsub => links_dispatchCase (hsub ?_)
    exact List.mem_append_left _ (hk arity harity)
  have hnone : (List.range (maxDispatchArity + 1)).flatMap (fun _ => ([] : List Prototype)) =
      [] := by
    simp
  rw [hnone] at hcases
  have hdefault : Links (known ++ ([] ++ [])) ["default:", "fprintf(stderr, \"Cannot dispatch a " ++
        "function with %d arguments, at most " ++ toString maxDispatchArity ++
        " are supported\\n\", (int)values.size());", "abort();"] [] := by
    refine .of_inert ?_
    simp only [List.forall_mem_cons]
    exact ⟨by decide +kernel, by decide +kernel, by decide +kernel, by simp⟩
  have hclose : Links (known ++ ([] ++ [] ++ [])) ["\x7d"] [] :=
    .of_inert (List.forall_mem_singleton.2 inert_close)
  have hbody := ((hopen.append hcases).append hdefault).append hclose
  rw [dispatchEntry, Code.lines_block, Code.lines_append, Code.lines_append, Code.lines_append,
    Code.lines_flatMap]
  exact .function (by decide +kernel) (by decide) hbody

/-- The functions that `functionDispatch` defines. -/
def dispatchPrototypes : List Prototype :=
  (List.range (maxDispatchArity + 1)).map dispatchPrototype ++ [entryPrototype]

theorem links_functionDispatch (known : List Prototype) :
    Links known functionDispatch.lines dispatchPrototypes := by
  have hfunctions : Links known ((List.range (maxDispatchArity + 1)).flatMap fun arity =>
      Code.lines (dispatchCode arity ++ Code.blank))
      ((List.range (maxDispatchArity + 1)).flatMap fun arity => [dispatchPrototype arity]) := by
    refine .flatMap fun arity _ known' _ => ?_
    have hblank : Links (known' ++ [dispatchPrototype arity]) [""] [] :=
      .of_inert (List.forall_mem_singleton.2 inert_blank)
    rw [Code.lines_append]
    exact (links_dispatchCode known' arity).append hblank
  rw [← List.map_eq_flatMap] at hfunctions
  have hentry := links_dispatchEntry fun arity harity =>
    List.mem_append_right known (List.mem_map_of_mem harity)
  rw [functionDispatch, Code.lines_append, Code.lines_flatMap]
  exact hfunctions.append hentry

/-! ### The whole file -/

theorem inert_includeLine (path : String) : Inert (includeLine path) :=
  .of_head (c := '#') (by simp [includeLine]) (by decide) (by decide)

theorem preludeCode_eq (options : Options) (sources : List String) :
    preludeCode options sources = preludeCode options [] ++ sourceIncludes options sources := by
  have hnone : sourceIncludes options [] = [] := by simp [sourceIncludes]
  simp only [preludeCode, hnone, List.append_nil]

theorem mem_lines_sourceIncludes {options : Options} {sources : List String} {line : String}
    (h : line ∈ (sourceIncludes options sources).lines) :
    line = "// Includes for the declaration sources" ∨
      (∃ source ∈ sources, line = includeLine (includePath source)) ∨ line = "" := by
  rw [sourceIncludes] at h
  split at h
  · simpa [eq_comm] using h
  · cases h

theorem inert_preludeCode (options : Options) (sources : List String) :
    ∀ line ∈ (preludeCode options sources).lines, Inert line := by
  intro line hline
  simp only [preludeCode, Code.lines_append, List.mem_append] at hline
  rcases hline with ((hline | hline) | hline) | hline
  · revert line
    decide +kernel
  · split at hline
    · revert line
      decide +kernel
    · cases hline
  · revert line
    decide +kernel
  · rcases mem_lines_sourceIncludes hline with rfl | ⟨source, -, rfl⟩ | rfl
    · decide +kernel
    · exact inert_includeLine _
    · exact inert_blank

namespace BindingFile

/-- The functions that a generated file defines. -/
def prototypes (u : BindingFile) : List Prototype :=
  u.classes.flatMap ClassBinding.prototypes ++ [bindPrototype] ++ dispatchPrototypes

theorem links {u : BindingFile} {classes : List ClassDecl} (h : u.IsFor classes)
    (hc : ∀ c ∈ classes, c.HasWordNames) : Links [] u.code.lines u.prototypes := by
  have hclass : ∀ b ∈ u.classes, ∃ c, c.HasWordNames ∧ ClassTable.BindsClass u.options c b := by
    intro b hb
    obtain ⟨c, hmem, hbinds⟩ := exists_mem_of_forall₂ h.bindings hb
    exact ⟨c, hc c hmem, hbinds⟩
  have hprelude : Links [] (preludeCode u.options u.sources).lines [] :=
    .of_inert (inert_preludeCode u.options u.sources)
  have hclasses : Links ([] ++ []) (u.classes.flatMap fun b => b.code.lines)
      (u.classes.flatMap ClassBinding.prototypes) := by
    refine .flatMap fun b hb known' _ => ?_
    obtain ⟨c, hword, hbinds⟩ := hclass b hb
    exact ClassBinding.links hbinds hword known'
  have htitle : ∀ known, Links known ["// Binding setup method, called by hand-written C++ classes"]
      [] := fun _ => .of_inert (List.forall_mem_singleton.2 (by decide +kernel))
  have hregisters : ∀ name ∈ u.classes.map (·.name), IsWordName name ∧
      ⟨registerName name, 2⟩ ∈ [] ++ ([] ++ u.classes.flatMap ClassBinding.prototypes ++ []) := by
    intro name hname
    obtain ⟨b, hb, rfl⟩ := List.mem_map.1 hname
    obtain ⟨c, hword, hbinds⟩ := hclass b hb
    refine ⟨hbinds.1 ▸ hword.name, ?_⟩
    rw [List.nil_append, List.nil_append, List.append_nil, List.mem_flatMap]
    exact ⟨b, hb, List.mem_append_right _ List.mem_cons_self⟩
  have hblank : ∀ known, Links known [""] [] := fun _ =>
    .of_inert (List.forall_mem_singleton.2 inert_blank)
  have hdispatchTitle : ∀ known, Links known ["// Generic closure dispatch"] [] := fun _ =>
    .of_inert (List.forall_mem_singleton.2 (by decide +kernel))
  have hall := ((((((hprelude.append hclasses).append (htitle _)).append
    (links_bindCode hregisters)).append (hblank _)).append (hdispatchTitle _)).append
    (links_functionDispatch _))
  have hdefs : [] ++ u.classes.flatMap ClassBinding.prototypes ++ [] ++ [bindPrototype] ++ [] ++
      [] ++ dispatchPrototypes = u.prototypes := by
    simp [prototypes]
  rw [hdefs] at hall
  rw [code, Code.lines_append, Code.lines_append, Code.lines_append, Code.lines_append,
    Code.lines_append, Code.lines_append, Code.lines_flatMap]
  exact hall

theorem nodup_prototypes {u : BindingFile} {classes : List ClassDecl} (h : u.IsFor classes) :
    (u.prototypes.map (·.name)).Nodup := by
  have hclasses : (u.classes.flatMap ClassBinding.prototypes).map (·.name) =
      u.classes.flatMap fun b => b.methods.flatMap (fun mb => mb.functions.map (·.name)) ++
        [registerName b.name] := by
    simp [ClassBinding.prototypes, List.map_flatMap, Function.prototype, Function.comp_def]
  have hdispatch : dispatchPrototypes.map (·.name) =
      (List.range (maxDispatchArity + 1)).map dispatchName ++ ["FunctionDispatch"] := by
    simp [dispatchPrototypes, entryPrototype, dispatchPrototype, Function.comp_def]
  have hbind : (u.classes.flatMap ClassBinding.prototypes ++ [bindPrototype]).map (·.name) =
      (u.classes.flatMap fun b => b.methods.flatMap (fun mb => mb.functions.map (·.name)) ++
        [registerName b.name]) ++ ["ObjClass::Bind"] := by
    rw [List.map_append, hclasses]
    rfl
  rw [prototypes, List.map_append, hbind, hdispatch, ← List.append_assoc]
  have hheads := h.head_classNames
  refine nodup_append_of_head (c := 'F') (nodup_append_of_head (c := 'f') (nodup_append_of_head
    (c := 'O') h.nodup_classNames (by simp) ?_ (by simp)) (nodup_dispatchNames _) ?_ ?_) (by simp)
    ?_ (by simp)
  · intro name hn
    rcases hheads name hn with hh | hh <;> rw [hh] <;> decide
  · intro name hn
    rcases List.mem_append.1 hn with hn | hn
    · rcases hheads name hn with hh | hh <;> rw [hh] <;> decide
    · rw [List.mem_singleton.1 hn]
      decide
  · intro name hn
    obtain ⟨i, -, rfl⟩ := List.mem_map.1 hn
    simp [dispatchName]
  · intro name hn
    rcases List.mem_append.1 hn with hn | hn
    · rcases List.mem_append.1 hn with hn | hn
      · rcases hheads name hn with hh | hh <;> rw [hh] <;> decide
      · rw [List.mem_singleton.1 hn]
        decide
    · obtain ⟨i, -, rfl⟩ := List.mem_map.1 hn
      simp [dispatchName]

end BindingFile

end WrenGlue.Bindings
