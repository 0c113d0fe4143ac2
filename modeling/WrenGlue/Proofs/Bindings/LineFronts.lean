import WrenGlue.Proofs.Bindings.Quotations
import WrenGlue.Proofs.Cpp.StatementLines
import WrenGlue.Proofs.Header.Undeclaring

/-! How the lines of generated code begin: with a fixed text, with the type of a variable, or with
the name of a class. What stands further behind on a line, labels and signatures among it, is never
looked at. -/

namespace WrenGlue

open WrenGlue.Bindings WrenGlue.Cpp WrenGlue.Text
open WrenGlue.Header (ClassDecl Undeclaring TellsApart)

namespace Bindings

/-- The line is empty, or it begins with a text that tells it apart from declarations, or with the
name of a class that `named` holds for. -/
inductive Begins (named : String → Prop) : String → Prop
  | empty : Begins named ""
  | fixed {line : String} (front : String) :
      TellsApart front.toList → front.toList <+: line.toList → Begins named line
  | name {line name : String} {mark : Char} : named name → mark = ' ' ∨ mark = ':' →
      name.toList ++ [mark] <+: line.toList → Begins named line

namespace Begins

variable {named : String → Prop} {line : String}

theorem of_closed (h : line = "" ∨ TellsApart line.toList) : Begins named line := by
  rcases h with rfl | h
  · exact .empty
  · exact .fixed line h List.prefix_rfl

theorem forall_of_closed {lines : List String}
    (h : ∀ line ∈ lines, line = "" ∨ TellsApart line.toList) :
    ∀ line ∈ lines, Begins named line :=
  fun line hline => .of_closed (h line hline)

/-- A line that begins with the name of a class that can be bound is no declaration. -/
theorem undeclaring (h : Begins IsClassName line) : Undeclaring line.toList := by
  cases h with
  | empty => decide
  | fixed front hfront h => exact .of_front front.toList hfront h
  | @name _ name mark hname _ h =>
    obtain ⟨rest, -, rfl⟩ := hname
    refine .of_front bindablePrefix.toList (by decide) (List.IsPrefix.trans ?_ h)
    simp

theorem isUnindented (h : Begins IsWordName line) : IsUnindented line := by
  have hhead : ∀ {c : Char} {front : List Char}, c :: front <+: line.toList →
      line.toList.head? = some c := by
    rintro c front ⟨rest, hrest⟩
    rw [← hrest]
    rfl
  cases h with
  | empty => decide
  | fixed front hfront h =>
    cases hf : front.toList with
    | nil =>
      rw [hf] at hfront
      exact absurd hfront (by decide)
    | cons c rest =>
      rw [hf] at hfront h
      rw [IsUnindented, hhead h]
      rintro ⟨⟩
      exact absurd hfront.1 (by simp +decide)
  | @name _ name mark hname hmark h =>
    cases hn : name.toList with
    | nil =>
      rw [hn] at h
      rw [IsUnindented, hhead h]
      rcases hmark with rfl | rfl <;> decide
    | cons c rest =>
      rw [hn] at h
      rw [IsUnindented, hhead h]
      rintro ⟨⟩
      have htab : IsWordName name := hname
      exact absurd (htab '\t' (by simp [hn])) (by decide)

end Begins

variable {named : String → Prop}

/-! ### Statements -/

/-- A variable of a type that crosses between the runtime and native code. -/
theorem begins_declare {text : String}
    (hu : ∀ other, DeclaredType.ofText text ≠ .unsupported other) {name line : String}
    (hline : ((DeclaredType.ofText text).declare name).toList <+: line.toList) :
    Begins named line := by
  have htype : (DeclaredType.ofText text).text.toList <+: line.toList := by
    refine List.IsPrefix.trans ?_ hline
    cases DeclaredType.ofText text <;> simp [DeclaredType.declare]
  cases ht : DeclaredType.ofText text with
  | object className =>
    obtain ⟨rest, -, rfl⟩ := DeclaredType.isClassName_of_ofText ht
    refine .fixed bindablePrefix (by decide) (List.IsPrefix.trans ?_ htype)
    simp [ht, DeclaredType.text]
  | unsupported other => exact absurd ht (hu other)
  | void | value | bool | int | double | string =>
    rw [ht] at htype
    exact .fixed _ (by decide) htype

theorem begins_unbox {m : Member} {shown : String} {a : Header.Argument} {u : Unboxing}
    (h : m.unboxing shown a = .ok u) : Begins named (Statement.unbox u).text := by
  have hline : (a.declaredType.declare a.typedName).toList <+:
      (Statement.unbox u).text.toList := by
    rcases text_unbox_eq h with ⟨-, htext⟩ | ⟨checker, more, -, -, htext⟩ <;> simp [htext]
  exact begins_declare (Member.supported_of_unboxing h) hline

theorem begins_receive {className : String} (h : named className) (shown : String) :
    Begins named (Statement.receive className shown).text :=
  .name h (.inl rfl) (by simp [Statement.text_receive])

theorem begins_nativeCall {m : Member} (h : named m.owner.name) {line : String}
    (hline : m.nativeCall.text.toList <+: line.toList) : Begins named line := by
  have hcallee : m.callee.text.toList <+: line.toList := by
    refine List.IsPrefix.trans ?_ hline
    simp [NativeCall.text, Member.nativeCall]
  rw [Member.callee] at hcallee
  split at hcallee
  · exact .name h (.inr rfl) (List.IsPrefix.trans (by simp [Callee.text]) hcallee)
  · split at hcallee
    · exact .fixed _ (by decide) hcallee
    · exact .name h (.inr rfl) (List.IsPrefix.trans (by simp [Callee.text]) hcallee)
    · exact .fixed "static_cast<" (by decide) (List.IsPrefix.trans (by simp [Callee.text]) hcallee)

theorem begins_return {line : String} (h : "return ".toList <+: line.toList) :
    Begins named line := .fixed _ (by decide) h

theorem begins_boxing {m : Member} (h : named m.owner.name) {b : Boxing}
    (hb : m.boxing = .ok b) : ∀ line ∈ b.lines m.nativeCall.text, Begins named line := by
  intro line hline
  rcases Member.eq_of_boxing hb with rfl | ⟨⟨rule, rfl⟩, hu⟩
  · rcases List.mem_pair.1 hline with rfl | rfl
    · exact begins_nativeCall h (by simp)
    · exact begins_return (by decide)
  · rcases List.mem_pair.1 hline with rfl | rfl
    · exact @begins_declare _ _ hu "ret" _ (by simp)
    · exact begins_return (by simp)

/-! ### Functions -/

theorem begins_function {f : Function}
    (h : ∀ text ∈ f.body.map Statement.text, Begins named text) :
    ∀ line ∈ f.code.lines, Begins named line := by
  intro line hline
  rw [lines_function, List.mem_cons, List.mem_append, List.mem_singleton] at hline
  rcases hline with rfl | hline | rfl
  · exact .fixed "static Value " (by decide) (by simp [Function.header])
  · exact h line hline
  · exact .of_closed (by decide)

theorem begins_collectFirst (options : Options) (roots : List String) :
    ∀ text ∈ (collectFirst options roots).map Statement.text, Begins named text := by
  rw [collectFirst]
  split
  · refine List.forall_mem_singleton.2 (.fixed "WrenRuntime" (by decide) ?_)
    simp [Statement.text_collect]
  · exact List.forall_mem_nil _

theorem begins_forwarder (options : Options) (target : String) (fixed : List String)
    (count : Nat) : ∀ line ∈ (forwarder options target fixed count).code.lines,
      Begins named line := by
  refine begins_function ?_
  rw [forwarder, List.map_append, List.forall_mem_append]
  refine ⟨begins_collectFirst options _, List.forall_mem_singleton.2 (begins_return ?_)⟩
  simp [Statement.text_forward]

end Bindings

theorem Member.IsBinding.begins_lines {m : Member} {options : Options} {form : Wren.CallForm}
    {arity : Nat} {b : MethodBinding} (h : m.IsBinding options form arity b)
    {named : String → Prop} (hname : named m.owner.name) :
    ∀ line ∈ b.code.lines, Begins named line := by
  have htrampoline : ∀ line ∈ b.trampoline.code.lines, Begins named line := by
    obtain ⟨shown, unboxings, boxing, -, hunboxings, hboxing, hbody⟩ := h.body
    refine begins_function ?_
    simp only [hbody, List.map_append, Boxing.map_text_statements, List.forall_mem_append]
    refine ⟨⟨⟨begins_collectFirst options _, ?_⟩, ?_⟩, begins_boxing hname hboxing⟩
    · split
      · exact List.forall_mem_singleton.2 (begins_receive hname shown)
      · exact List.forall_mem_nil _
    · simp only [List.forall_mem_map]
      intro u hu
      obtain ⟨a, -, ha⟩ := mem_of_mapM_eq_ok hunboxings hu
      exact begins_unbox ha
  intro line hline
  rw [MethodBinding.code, Code.lines_flatMap, MethodBinding.functions, List.flatMap_cons,
    List.mem_append, List.mem_flatMap] at hline
  rcases hline with hline | ⟨f, hf, hline⟩
  · exact htrampoline line hline
  · rw [h.forwarders] at hf
    split at hf
    · obtain ⟨count, -, rfl⟩ := List.mem_map.1 hf
      exact begins_forwarder options _ _ count line hline
    · cases hf

namespace Bindings

/-! ### The rest of a file -/

theorem begins_guard (r : Registration) :
    Begins named r.guard ∧ Begins named (r.guard ++ " \x7b") := by
  rw [Registration.guard]
  split <;> exact ⟨.of_closed (by decide), .of_closed (by decide)⟩

theorem begins_registerCode (className : String) (rs : List Registration) :
    ∀ line ∈ (registerCode className rs).lines, Begins named line := by
  intro line hline
  rw [lines_registerCode, List.mem_cons, List.mem_append, List.mem_singleton] at hline
  rcases hline with rfl | hline | rfl
  · exact .fixed "static void " (by decide) (by simp [registerHead])
  · rcases mem_lines_runs hline with rfl | ⟨r, -, rfl | rfl | rfl⟩
    · exact .of_closed (by decide)
    · exact (begins_guard r).1
    · exact (begins_guard r).2
    · exact .fixed "cls->" (by decide) (by simp [Registration.text_eq])
  · exact .of_closed (by decide)

theorem ClassBinding.begins_lines {options : Options} {c : ClassDecl} {b : ClassBinding}
    (h : ClassTable.BindsClass options c b) (hname : named c.name) :
    ∀ line ∈ b.code.lines, Begins named line := by
  intro line hline
  simp only [b.lines_code, List.mem_append, List.mem_singleton, List.mem_flatMap] at hline
  rcases hline with ((rfl | ⟨mb, hmb, hline⟩) | hline) | rfl
  · exact .fixed "//" (by decide) (by simp)
  · obtain ⟨m, hm, form, arity, hbinding⟩ := h.exists_isBinding hmb
    obtain ⟨d, -, rfl⟩ := List.mem_map.1 hm
    exact hbinding.begins_lines hname line hline
  · exact begins_registerCode b.name _ line hline
  · exact .empty

theorem begins_bindCode (names : List String) :
    ∀ line ∈ (bindCode names).lines, Begins named line := by
  have hbranch : ∀ name : String, ∀ line ∈ (bindBranch name).lines, Begins named line := by
    intro name line hline
    simp only [lines_bindBranch, List.mem_cons, List.not_mem_nil, or_false] at hline
    rcases hline with rfl | rfl | rfl | rfl
    · exact .fixed "if (" (by decide) (by simp [branchHead])
    · exact .fixed "register_" (by decide) (by simp [registerName])
    · exact .of_closed (by decide)
    · exact .of_closed (by decide)
  intro line hline
  simp only [lines_bindCode, List.mem_cons, List.mem_append, List.mem_flatMap, List.not_mem_nil,
    or_false] at hline
  rcases hline with rfl | (⟨name, -, hline⟩ | rfl | rfl) | rfl
  · exact .of_closed (by decide +kernel)
  · exact hbranch name line hline
  · exact .of_closed (by decide +kernel)
  · exact .of_closed (by decide)
  · exact .of_closed (by decide)

theorem begins_dispatchCode (arity : Nat) :
    ∀ line ∈ (dispatchCode arity).lines, Begins named line := by
  have htypedef : TellsApart "typedef Value (".toList := by decide
  have hreturn : TellsApart "return ((".toList := by decide
  intro line hline
  rw [dispatchCode, Code.lines_block, Code.lines_append, Code.lines_block] at hline
  simp only [Code.lines_line, Code.lines_nil, List.mem_cons, List.mem_append, List.not_mem_nil,
    or_false] at hline
  rcases hline with rfl | ((rfl | (rfl | rfl) | rfl) | rfl | rfl) | rfl
  · exact .fixed "static Value " (by decide) (by simp)
  · exact .of_closed (by decide)
  · exact .fixed _ htypedef (by simp)
  · exact .fixed _ hreturn (by simp)
  · exact .of_closed (by decide)
  · exact .fixed _ htypedef (by simp)
  · exact .fixed _ hreturn (by simp)
  · exact .of_closed (by decide)

theorem begins_dispatchCase (arity : Nat) :
    ∀ line ∈ Code.lines (dispatchCase arity), Begins named line := by
  rw [dispatchCase, Code.lines_line, Code.lines_indented]
  refine List.forall_mem_cons.2 ⟨?_, List.forall_mem_singleton.2 ?_⟩
  · exact .fixed "case " (by decide) (by simp)
  · exact begins_return (by simp)

theorem begins_dispatchEntry : ∀ line ∈ dispatchEntry.lines, Begins named line := by
  have hhead : Begins named ("Value FunctionDispatch(void *func, void *upvalues, " ++
      "const std::initializer_list<Value> &values)" ++ " \x7b") :=
    .of_closed (by decide +kernel)
  have hswitch : ∀ line ∈ ["const Value *args = values.begin();", "switch (values.size()) \x7b"],
      Begins named line := Begins.forall_of_closed (by decide +kernel)
  have hcases : ∀ line ∈ (List.range (maxDispatchArity + 1)).flatMap fun arity =>
      Code.lines (dispatchCase arity), Begins named line := by
    intro line hline
    obtain ⟨arity, -, hline⟩ := List.mem_flatMap.1 hline
    exact begins_dispatchCase arity line hline
  have hdefault : ∀ line ∈ ["default:", "fprintf(stderr, \"Cannot dispatch a function with %d " ++
      "arguments, at most " ++ toString maxDispatchArity ++
      " are supported\\n\", (int)values.size());", "abort();"], Begins named line :=
    Begins.forall_of_closed (by decide +kernel)
  have hclose : ∀ line ∈ ["\x7d"], Begins named line := Begins.forall_of_closed (by decide)
  rw [dispatchEntry, Code.lines_block, Code.lines_append, Code.lines_append, Code.lines_append,
    Code.lines_flatMap]
  exact List.forall_mem_cons.2 ⟨hhead, List.forall_mem_append.2 ⟨List.forall_mem_append.2
    ⟨List.forall_mem_append.2 ⟨List.forall_mem_append.2 ⟨hswitch, hcases⟩, hdefault⟩, hclose⟩,
    hclose⟩⟩

theorem begins_functionDispatch : ∀ line ∈ functionDispatch.lines, Begins named line := by
  rw [functionDispatch, Code.lines_append, Code.lines_flatMap, List.forall_mem_append]
  refine ⟨fun line hline => ?_, begins_dispatchEntry⟩
  obtain ⟨arity, -, hline⟩ := List.mem_flatMap.1 hline
  rw [Code.lines_append, List.mem_append, Code.lines_blank, List.mem_singleton] at hline
  rcases hline with hline | rfl
  · exact begins_dispatchCode arity line hline
  · exact .empty

theorem begins_preludeCode (options : Options) (paths : List String) :
    ∀ line ∈ (preludeCode options paths).lines, Begins named line := by
  have hinclude : ∀ path, Begins named (includeLine path) := fun path =>
    .fixed "#include " (by decide) (by simp [includeLine])
  intro line hline
  simp only [preludeCode, Code.lines_append, List.mem_append] at hline
  rcases hline with ((hline | hline) | hline) | hline
  · exact Begins.forall_of_closed (by decide +kernel) line hline
  · split at hline
    · rw [List.mem_singleton.1 hline]
      exact hinclude _
    · cases hline
  · exact Begins.forall_of_closed (by decide +kernel) line hline
  · rcases mem_lines_sourceIncludes hline with rfl | ⟨source, -, rfl⟩ | rfl
    · exact .of_closed (by decide +kernel)
    · exact hinclude _
    · exact .empty

namespace BindingFile

theorem begins_lines {u : BindingFile} {classes : List ClassDecl} (h : u.IsFor classes)
    (hnames : ∀ c ∈ classes, named c.name) : ∀ line ∈ u.code.lines, Begins named line := by
  intro line hline
  simp only [u.lines_code, List.mem_append, List.mem_singleton, List.mem_flatMap] at hline
  rcases hline with (((((hline | ⟨b, hb, hline⟩) | rfl) | hline) | rfl) | rfl) | hline
  · exact begins_preludeCode u.options u.sources line hline
  · obtain ⟨c, hc, hbinds⟩ := exists_mem_of_forall₂ h.bindings hb
    exact ClassBinding.begins_lines hbinds (hnames c hc) line hline
  · exact .of_closed (by decide +kernel)
  · exact begins_bindCode _ line hline
  · exact .empty
  · exact .of_closed (by decide +kernel)
  · exact begins_functionDispatch line hline

end BindingFile

end Bindings

end WrenGlue
