import WrenGlue.Proofs.Bindings.Linkage
import Mathlib.Data.List.SplitBy

/-! What each piece of a generated file defines, and that it uses only what stands before it. -/

namespace WrenGlue.Bindings

open WrenGlue.Cpp WrenGlue.Text

/-- With the functions `known` before them, the lines are linked and define the functions `defs`. -/
structure Links (known : List Prototype) (lines : List String) (defs : List Prototype) : Prop where
  definitions : definitions lines = defs
  linked : Linked known lines

namespace Links

variable {known : List Prototype}

theorem nil : Links known [] [] := ⟨rfl, trivial⟩

theorem append {a b : List String} {da db : List Prototype} (ha : Links known a da)
    (hb : Links (known ++ da) b db) : Links known (a ++ b) (da ++ db) := by
  refine ⟨by rw [definitions_append, ha.definitions, hb.definitions], ha.linked.append ?_⟩
  rw [ha.definitions]
  exact hb.linked

/-- Pieces that need no more than is known before all of them. -/
theorem flatMap {α : Type} {l : List α} {lines : α → List String} {defs : α → List Prototype}
    (h : ∀ a ∈ l, ∀ known', known ⊆ known' → Links known' (lines a) (defs a)) :
    Links known (l.flatMap lines) (l.flatMap defs) := by
  induction l generalizing known with
  | nil => exact nil
  | cons a l ih =>
    rw [List.forall_mem_cons] at h
    refine append (h.1 known (List.Subset.refl _)) (ih fun b hb known' hsub => ?_)
    exact h.2 b hb known' fun p hp => hsub (List.mem_append_left _ hp)

theorem of_resolves {lines : List String} (h : ∀ line ∈ lines, Resolves known line)
    (hd : ∀ line ∈ lines, definition? line = none) : Links known lines [] :=
  ⟨List.filterMap_eq_nil_iff.2 hd, .of_forall h⟩

theorem of_inert {lines : List String} (h : ∀ line ∈ lines, Inert line) : Links known lines [] :=
  of_resolves (fun line hl => (h line hl).resolves known) fun line hl => (h line hl).definition

theorem mono {known' : List Prototype} {lines : List String} {defs : List Prototype}
    (h : Links known lines defs) (hsub : known ⊆ known') : Links known' lines defs :=
  ⟨h.definitions, h.linked.mono hsub⟩

/-- The definition of a function: its first line, and a body that defines nothing. -/
theorem function {head : String} {body : List String} {p : Prototype}
    (hp : definition? (head ++ " \x7b") = some p) (hhead : head.toList.head? ≠ some 'c')
    (hbody : Links known body []) : Links known ((head ++ " \x7b") :: (body ++ ["\x7d"])) [p] := by
  have hlast : (head ++ " \x7b").toList.getLast? = some '\x7b' := getLast?_toList_append _ rfl
  have hne : head.toList ≠ [] := by
    intro hnil
    rw [String.toList_eq_nil_iff.1 hnil] at hp
    cases hp
  have haddress : address? (head ++ " \x7b") = none := by
    refine address?_eq_none_of_head ?_
    rwa [String.toList_append, List.head?_append_of_ne_nil _ hne]
  have hcall : call? (head ++ " \x7b") = none := call?_eq_none_of_last (by rw [hlast]; decide)
  have hfirst : Links known [head ++ " \x7b"] [p] := by
    refine ⟨by simp [Cpp.definitions, hp], ⟨?_, ?_⟩, trivial⟩
    · simp [haddress]
    · simp [hcall]
  have hclose : Links (known ++ [p] ++ []) ["\x7d"] [] := by
    refine of_inert fun line hl => ?_
    rw [List.mem_singleton.1 hl]
    exact by decide
  exact hfirst.append ((hbody.mono (List.subset_append_left _ _)).append hclose)

end Links

/-! ### Methods -/

def Function.prototype (f : Function) : Prototype := ⟨f.name, f.params.length⟩

theorem lines_function (f : Function) :
    f.code.lines = (f.header ++ " \x7b") :: (f.body.map Statement.text ++ ["\x7d"]) := by
  rw [Function.code, Code.lines_block, Code.lines_ofLines]

theorem isItem_of_isWordName {name : String} (h : IsWordName name) : IsItem name.toList :=
  .of_plain fun c hc => isPlain_of_isWord (h c hc)

theorem isItem_append {front name : String} (hf : front.toList.all isPlain = true)
    (h : IsWordName name) : IsItem (front ++ name).toList := by
  refine .of_plain fun c hc => ?_
  rw [String.toList_append, List.mem_append] at hc
  exact hc.elim (List.all_eq_true.1 hf c) fun hm => isPlain_of_isWord (h c hm)

theorem Param.text_value (name : String) : (value name).text = "Value " ++ name := rfl

theorem Param.text_list (name : String) :
    (list name).text = "const std::initializer_list<Value> &" ++ name := rfl

theorem isItem_param {p : Param} (h : IsWordName p.name) : p.text ≠ "" ∧ IsItem p.text.toList := by
  cases p with
  | value name =>
    rw [Param.text_value]
    exact ⟨by simp, isItem_append (by decide) h⟩
  | list name =>
    rw [Param.text_list]
    exact ⟨by simp, isItem_append (by decide) h⟩

theorem links_function {known : List Prototype} {f : Function} (hn : IsWordName f.name)
    (hp : ∀ p ∈ f.params, IsWordName p.name) (hbody : Links known (f.body.map Statement.text) []) :
    Links known f.code.lines [f.prototype] := by
  have hdef : definition? (f.header ++ " \x7b") = some f.prototype := by
    have h := @definition?_eq "static Value " f.name (f.params.map Param.text) (by decide)
      (hn.not_mem (by decide)) (List.forall_mem_map.2 fun p hm => (isItem_param (hp p hm)).1)
      (List.forall_mem_map.2 fun p hm => (isItem_param (hp p hm)).2)
    rw [List.length_map] at h
    exact h
  rw [lines_function]
  refine .function hdef ?_ hbody
  simp [Function.header]

theorem fixedParams_spec (m : Member) : ∀ name ∈ m.fixedParams, name ≠ "" ∧ IsWordName name := by
  intro name hm
  rw [Member.fixedParams, List.mem_append] at hm
  rcases hm with hm | hm
  · split at hm
    · rw [List.mem_singleton.1 hm]
      decide
    · cases hm
  · obtain ⟨a, -, rfl⟩ := List.mem_map.1 hm
    have harg : IsWordName "arg" := by decide
    exact ⟨by simp [Header.Argument.rawName], harg.append (isWordName_toString _)⟩

theorem isWordName_numbered {front : String} (h : IsWordName front) (n : Nat) :
    ∀ name ∈ numbered front n, IsWordName name := by
  intro name hm
  obtain ⟨i, -, rfl⟩ := List.mem_map.1 hm
  exact h.append (isWordName_toString i)

theorem inert_collectFirst (options : Options) (roots : List String) :
    ∀ s ∈ collectFirst options roots, Inert s.text := by
  intro s hs
  rw [collectFirst] at hs
  split at hs
  · rw [List.mem_singleton.1 hs]
    exact inert_collect roots
  · cases hs

end WrenGlue.Bindings

namespace WrenGlue

open WrenGlue.Bindings WrenGlue.Cpp WrenGlue.Text
open WrenGlue.Header (ClassDecl)
open WrenGlue.Wren (CallForm)

/-- The names of a class and its methods are nothing but word characters. -/
structure Header.ClassDecl.HasWordNames (c : ClassDecl) : Prop where
  name : IsWordName c.name
  methods : ∀ m ∈ c.methods, IsWordName m.name

/-- The names of a method and its class are nothing but word characters. -/
structure Member.HasWordNames (m : Member) : Prop where
  owner : IsWordName m.owner.name
  method : IsWordName m.method.name

namespace Member.IsBinding

variable {m : Member} {options : Options} {form : CallForm} {arity : Nat} {b : MethodBinding}

theorem isWordName_trampolineName (hm : m.HasWordNames) (arity : Nat) :
    IsWordName (m.trampolineName arity) := by
  have hunder : IsWordName "_" := by decide
  have hfront : IsWordName "binding_" := by decide
  exact ((((hfront.append hm.owner).append hunder).append hm.method).append hunder).append
    (isWordName_toString arity)

theorem isWordName_forwarderName {target : String} (h : IsWordName target) (count : Nat) :
    IsWordName (forwarderName target count) := by
  have hva : IsWordName "_va" := by decide
  exact (h.append hva).append (isWordName_toString count)

theorem isWordName_params (m : Member) : ∀ p ∈ m.params, IsWordName p.name := by
  intro p hp
  rw [Member.params, List.mem_append] at hp
  rcases hp with hp | hp
  · obtain ⟨name, hname, rfl⟩ := List.mem_map.1 hp
    exact (fixedParams_spec m name hname).2
  · split at hp
    · rw [List.mem_singleton.1 hp]
      decide
    · cases hp

theorem links_trampoline (h : m.IsBinding options form arity b) (hm : m.HasWordNames)
    (known : List Prototype) : Links known b.trampoline.code.lines [b.trampoline.prototype] := by
  obtain ⟨shown, unboxings, boxing, -, hunboxings, hboxing, hbody⟩ := h.body
  have hinert : ∀ s ∈ b.trampoline.body, Inert s.text := by
    intro s hs
    simp only [hbody, List.mem_append, List.mem_map] at hs
    rcases hs with ((hs | hs) | ⟨u, hu, rfl⟩) | hs
    · exact inert_collectFirst options m.fixedParams s hs
    · split at hs
      · rw [List.mem_singleton.1 hs]
        exact inert_receive hm.owner shown
      · cases hs
    · obtain ⟨a, -, ha⟩ := mem_of_mapM_eq_ok hunboxings hu
      exact inert_unbox ha
    · exact inert_boxing hm.owner hboxing hs
  refine links_function ?_ ?_ (.of_inert (List.forall_mem_map.2 hinert))
  · rw [h.name]
    exact isWordName_trampolineName hm arity
  · rw [h.params]
    exact isWordName_params m

/-- A forwarder gives the trampoline the fixed arguments and one list. -/
theorem call?_forward {target : String} {fixed : List String} (hne : target ≠ "")
    (ht : IsWordName target) (hf : ∀ name ∈ fixed, name ≠ "" ∧ IsWordName name) (count : Nat) :
    call? (Statement.forward target fixed (numbered "va" count)).text =
      some ⟨target, fixed.length + 1⟩ := by
  have hva : ∀ name ∈ numbered "va" count, IsWordName name :=
    isWordName_numbered (by decide) count
  have hargs : ∀ a ∈ fixed ++ [braced (numbered "va" count)], a ≠ "" ∧ IsItem a.toList := by
    rw [List.forall_mem_append, List.forall_mem_singleton]
    exact ⟨fun a ha => ⟨(hf a ha).1, isItem_of_isWordName (hf a ha).2⟩, by simp [braced],
      .braced fun a ha c hc => isPlain_of_isWord (hva a ha c hc)⟩
  have h := call?_eq (.inr rfl) hne ht (fun a ha => (hargs a ha).1) fun a ha => (hargs a ha).2
  rw [List.length_append, List.length_singleton] at h
  exact h

theorem links_forwarder (hm : m.HasWordNames) {known : List Prototype}
    (hk : ⟨m.trampolineName arity, m.fixedParams.length + 1⟩ ∈ known) (count : Nat) :
    Links known (forwarder options (m.trampolineName arity) m.fixedParams count).code.lines
      [(forwarder options (m.trampolineName arity) m.fixedParams count).prototype] := by
  have htarget := isWordName_trampolineName hm arity
  have hvalues : ∀ name ∈ m.fixedParams ++ numbered "va" count, IsWordName name := by
    rw [List.forall_mem_append]
    exact ⟨fun name hn => (fixedParams_spec m name hn).2, isWordName_numbered (by decide) count⟩
  have hcall := call?_forward (by simp [trampolineName]) htarget (fixedParams_spec m) count
  have hlast : (Statement.forward (m.trampolineName arity) m.fixedParams
      (numbered "va" count)).text.toList.getLast? = some ';' := getLast?_toList_append _ rfl
  have hhead : (Statement.forward (m.trampolineName arity) m.fixedParams
      (numbered "va" count)).text.toList.head? = some 'r' := by
    rw [Statement.text_forward]
    simp
  refine links_function (isWordName_forwarderName htarget count) ?_ ?_
  · rw [forwarder, List.forall_mem_map]
    exact hvalues
  · have hcollect : Links known ((collectFirst options (m.fixedParams ++
        numbered "va" count)).map Statement.text) [] :=
      .of_inert (List.forall_mem_map.2 (inert_collectFirst options _))
    have hforward : Links (known ++ []) ([Statement.forward (m.trampolineName arity) m.fixedParams
        (numbered "va" count)].map Statement.text) [] := by
      rw [List.map_singleton]
      refine .of_resolves (List.forall_mem_singleton.2 ⟨?_, ?_⟩)
        (List.forall_mem_singleton.2 (definition?_eq_none_of_last (by simp [hlast])))
      · simp [address?_eq_none_of_head, hhead]
      · rw [hcall]
        rintro p ⟨⟩
        exact .inr (List.mem_append_left _ hk)
    rw [forwarder, List.map_append]
    exact hcollect.append hforward

/-- The functions of a method need no others, and all that is registered are among them. -/
theorem links (h : m.IsBinding options form arity b) (hm : m.HasWordNames)
    (known : List Prototype) :
    Links known b.code.lines (b.functions.map Function.prototype) := by
  have hforwarders : Links (known ++ [b.trampoline.prototype])
      (b.forwarders.flatMap fun f => f.code.lines)
      (b.forwarders.flatMap fun f => [f.prototype]) := by
    refine .flatMap fun f hf known' hsub => ?_
    rw [h.forwarders] at hf
    split at hf
    · obtain ⟨count, -, rfl⟩ := List.mem_map.1 hf
      refine links_forwarder hm (hsub (List.mem_append_right _ ?_)) count
      have hv : m.method.isVariadic = true := ‹_›
      simp [Function.prototype, h.name, h.params, Member.params, hv]
    · cases hf
  have hlines : b.code.lines = b.trampoline.code.lines ++
      b.forwarders.flatMap fun f => f.code.lines := by
    rw [MethodBinding.code, Code.lines_flatMap, MethodBinding.functions, List.flatMap_cons]
  have hdefs : b.functions.map Function.prototype = [b.trampoline.prototype] ++
      b.forwarders.flatMap fun f => [f.prototype] := by
    rw [MethodBinding.functions, List.map_cons, List.map_eq_flatMap]
    rfl
  rw [hlines, hdefs]
  exact (h.links_trampoline hm known).append hforwarders

theorem symbol_mem (h : m.IsBinding options form arity b) {r : Registration}
    (hr : r ∈ b.registrations) : r.symbol ∈ b.functions.map (·.name) := by
  rw [h.registrations] at hr
  rw [MethodBinding.functions, List.map_cons, h.name, h.forwarders]
  split at hr
  · have hv : m.method.isVariadic = true := ‹_›
    obtain ⟨count, hcount, rfl⟩ := List.mem_map.1 hr
    rw [if_pos hv, List.map_map]
    exact List.mem_cons_of_mem _ (List.mem_map.2 ⟨count, hcount, rfl⟩)
  · rw [List.mem_singleton.1 hr]
    exact List.mem_cons_self

theorem isWordName_functions (h : m.IsBinding options form arity b) (hm : m.HasWordNames) :
    ∀ name ∈ b.functions.map (·.name), IsWordName name := by
  have htarget := isWordName_trampolineName hm arity
  rw [MethodBinding.functions, List.map_cons, List.forall_mem_cons, h.name, h.forwarders]
  refine ⟨htarget, fun name hn => ?_⟩
  split at hn
  · rw [List.map_map] at hn
    obtain ⟨count, -, rfl⟩ := List.mem_map.1 hn
    exact isWordName_forwarderName htarget count
  · cases hn

end Member.IsBinding

namespace Bindings

/-! ### Registration -/

theorem Registration.text_eq (r : Registration) :
    r.text = "cls->AddFunction(" ++ quoted (escape r.signature) ++ ", (void *)" ++ r.symbol ++
      ");" := rfl

theorem address?_registration {r : Registration} (h : IsWordName r.symbol) :
    address? r.text = some r.symbol := by
  have htext : r.text.toList = "cls->AddFunction(".toList ++ ((quoted (escape r.signature) ++
      ", (void *)").toList ++ r.symbol.toList ++ ");".toList) := by
    rw [Registration.text_eq]
    simp
  have hlast : (quoted (escape r.signature) ++ ", (void *)").toList.getLast?.any isWord =
      false := by
    rw [@getLast?_toList_append _ ", (void *)" ')' rfl]
    decide
  rw [address?, htext, isPrefixOf?_append]
  simp only [Option.bind_eq_bind, Option.bind_some, isSuffixOf?_append, splitTail_eq hlast h,
    String.ofList_toList, Option.pure_def]

theorem registration_spec {known : List Prototype} {r : Registration} (h : IsWordName r.symbol)
    (hk : r.symbol ∈ known.map (·.name)) :
    Resolves known r.text ∧ definition? r.text = none := by
  have hlast : r.text.toList.getLast? = some ';' := getLast?_toList_append _ rfl
  have hfront : "cls-".toList <+: r.text.toList := by
    rw [Registration.text_eq]
    simp
  have hcall : call? r.text = none :=
    call?_eq_none hfront (by decide) (c := '-') (by decide) (by decide) (by decide)
  refine ⟨⟨?_, by simp [hcall]⟩, definition?_eq_none_of_last (by simp [hlast])⟩
  rw [address?_registration h]
  rintro name ⟨⟩
  exact hk

theorem inert_guard (r : Registration) : Inert r.guard ∧ Inert (r.guard ++ " \x7b") := by
  rw [Registration.guard]
  split
  · exact ⟨by decide, by decide⟩
  · exact ⟨by decide, by decide⟩

theorem inert_close : Inert "\x7d" := by decide

/-- The lines of a run: the condition, with a brace or without, the calls, and the last brace. -/
theorem mem_lines_runCode {run : List Registration} {line : String}
    (h : line ∈ Code.lines (runCode run)) : line = "\x7d" ∨
      ∃ r ∈ run, line = r.guard ∨ line = r.guard ++ " \x7b" ∨ line = r.text := by
  match run with
  | [] => cases h
  | [r] =>
    simp only [runCode, Code.lines_line, Code.lines_indented, Code.lines_nil, List.mem_cons,
      List.not_mem_nil, or_false] at h
    rcases h with rfl | rfl
    · exact .inr ⟨r, List.mem_cons_self, .inl rfl⟩
    · exact .inr ⟨r, List.mem_cons_self, .inr (.inr rfl)⟩
  | r :: next :: rest =>
    rw [runCode, Code.lines_block, Code.lines_ofLines, List.mem_cons, List.mem_append,
      List.mem_map, List.mem_singleton] at h
    rcases h with rfl | ⟨r', hr, rfl⟩ | rfl
    · exact .inr ⟨r, List.mem_cons_self, .inr (.inl rfl)⟩
    · exact .inr ⟨r', hr, .inr (.inr rfl)⟩
    · exact .inl rfl
    · simp

theorem flatten_levelRuns (rs : List Registration) : (levelRuns rs).flatten = rs :=
  List.flatten_splitBy _ _

theorem mem_lines_runs {rs : List Registration} {line : String}
    (h : line ∈ Code.lines ((levelRuns rs).flatMap runCode)) : line = "\x7d" ∨
      ∃ r ∈ rs, line = r.guard ∨ line = r.guard ++ " \x7b" ∨ line = r.text := by
  rw [Code.lines_flatMap, List.mem_flatMap] at h
  obtain ⟨run, hrun, hline⟩ := h
  refine (mem_lines_runCode hline).imp_right fun ⟨r, hr, he⟩ => ⟨r, ?_, he⟩
  rw [← flatten_levelRuns rs]
  exact List.mem_flatten_of_mem hrun hr

/-- Registering code uses and defines nothing but for the functions that it registers. -/
theorem inert_or_text {rs : List Registration} {line : String}
    (h : line ∈ Code.lines ((levelRuns rs).flatMap runCode)) :
    Inert line ∨ ∃ r ∈ rs, line = r.text := by
  rcases mem_lines_runs h with rfl | ⟨r, hr, rfl | rfl | rfl⟩
  · exact .inl inert_close
  · exact .inl (inert_guard r).1
  · exact .inl (inert_guard r).2
  · exact .inr ⟨r, hr, rfl⟩

/-- The line that begins the register function of a class. -/
def registerHead (className : String) : String :=
  "static void " ++ registerName className ++ "(ObjClass *cls, bool isMeta)" ++ " \x7b"

theorem definition?_registerHead {className : String} (hn : IsWordName className) :
    definition? (registerHead className) = some ⟨registerName className, 2⟩ := by
  have hparen : '(' ∉ (registerName className).toList := by
    simp [registerName, hn.not_mem (show isWord '(' = false by decide)]
  have h := @definition?_eq "static void " (registerName className)
    ["ObjClass *cls", "bool isMeta"] (by decide) hparen (by decide)
    (List.forall_mem_cons.2 ⟨.of_plain (by decide), List.forall_mem_singleton.2
      (.of_plain (by decide))⟩)
  have hparams : commaList ["ObjClass *cls", "bool isMeta"] = "ObjClass *cls, bool isMeta" := by
    decide
  rw [hparams] at h
  simpa [registerHead, String.append_assoc] using h

theorem lines_registerCode (className : String) (rs : List Registration) :
    (registerCode className rs).lines =
      registerHead className :: (Code.lines ((levelRuns rs).flatMap runCode) ++ ["\x7d"]) := by
  rw [registerCode, Code.lines_block, registerHead]

theorem links_registerCode {known : List Prototype} {className : String}
    {rs : List Registration} (hn : IsWordName className)
    (hr : ∀ r ∈ rs, IsWordName r.symbol ∧ r.symbol ∈ known.map (·.name)) :
    Links known (registerCode className rs).lines [⟨registerName className, 2⟩] := by
  have hspec : ∀ line ∈ Code.lines ((levelRuns rs).flatMap runCode),
      Resolves known line ∧ definition? line = none := by
    intro line hline
    rcases inert_or_text hline with hi | ⟨r, hm, rfl⟩
    · exact ⟨hi.resolves known, hi.definition⟩
    · exact registration_spec (hr r hm).1 (hr r hm).2
  rw [lines_registerCode]
  exact .function (definition?_registerHead hn) (by simp)
    (.of_resolves (fun line hl => (hspec line hl).1) fun line hl => (hspec line hl).2)

/-! ### Classes -/

theorem hasWordNames_of_mem_members {c : ClassDecl} (hc : c.HasWordNames) {m : Member}
    (hm : m ∈ c.members) : m.HasWordNames := by
  obtain ⟨method, hmethod, rfl⟩ := List.mem_map.1 hm
  exact ⟨hc.name, hc.methods method hmethod⟩

theorem inert_blank : Inert "" := by decide

namespace ClassBinding

/-- The functions that the code of a class defines. -/
def prototypes (b : ClassBinding) : List Prototype :=
  b.methods.flatMap (·.functions.map Function.prototype) ++ [⟨registerName b.name, 2⟩]

theorem lines_code (b : ClassBinding) : b.code.lines = ["// Methods of " ++ b.name] ++
    (b.methods.flatMap fun mb => mb.code.lines) ++ (registerCode b.name b.registrations).lines ++
    [""] := by
  rw [ClassBinding.code, Code.lines_append, Code.lines_append]
  simp [Code.lines_flatMap]

theorem inert_title (b : ClassBinding) : Inert ("// Methods of " ++ b.name) :=
  .of_head (c := '/') (by simp) (by decide) (by decide)

theorem links {options : Options} {c : ClassDecl} {b : ClassBinding}
    (h : ClassTable.BindsClass options c b) (hc : c.HasWordNames) (known : List Prototype) :
    Links known b.code.lines b.prototypes := by
  have htitle : Links known ["// Methods of " ++ b.name] [] :=
    .of_inert (List.forall_mem_singleton.2 b.inert_title)
  have hmethods : Links (known ++ []) (b.methods.flatMap fun mb => mb.code.lines)
      (b.methods.flatMap fun mb => mb.functions.map Function.prototype) := by
    refine .flatMap fun mb hmb known' _ => ?_
    obtain ⟨m, hmem, form, arity, hbinding⟩ := h.exists_isBinding hmb
    exact hbinding.links (hasWordNames_of_mem_members hc hmem) known'
  have hregistrations : ∀ r ∈ b.registrations, IsWordName r.symbol ∧ r.symbol ∈
      (known ++ b.methods.flatMap (·.functions.map Function.prototype)).map (·.name) := by
    intro r hr
    obtain ⟨mb, hmb, hr⟩ := List.mem_flatMap.1 hr
    obtain ⟨m, hmem, form, arity, hbinding⟩ := h.exists_isBinding hmb
    have hsymbol := hbinding.symbol_mem hr
    have hword := hbinding.isWordName_functions (hasWordNames_of_mem_members hc hmem) _ hsymbol
    refine ⟨hword, ?_⟩
    obtain ⟨f, hf, hname⟩ := List.mem_map.1 hsymbol
    refine List.mem_map.2 ⟨f.prototype, List.mem_append_right _ ?_, hname⟩
    exact List.mem_flatMap.2 ⟨mb, hmb, List.mem_map_of_mem hf⟩
  have hname : IsWordName b.name := h.1 ▸ hc.name
  have hregister : Links (known ++ ([] ++ b.methods.flatMap (·.functions.map Function.prototype)))
      (registerCode b.name b.registrations).lines [⟨registerName b.name, 2⟩] :=
    links_registerCode hname hregistrations
  have hblank : Links (known ++ b.prototypes) [""] [] :=
    .of_inert (List.forall_mem_singleton.2 inert_blank)
  have hall := ((htitle.append hmethods).append hregister).append hblank
  rw [List.append_nil] at hall
  rw [lines_code]
  exact hall

end ClassBinding

end Bindings

end WrenGlue
