import WrenGlue.Proofs.Bindings.Emission
import WrenGlue.Proofs.Bindings.MethodQuotations
import WrenGlue.Proofs.Bindings.Quotations
import WrenGlue.Proofs.Cpp.Relocation
import WrenGlue.Proofs.Cpp.Writer

/-! Generated code at any place. The functions of a method, register functions, `ObjClass::Bind` and
`FunctionDispatch` close just what they open, and none of their lines is broken by a line feed, so
they stand at every depth as they stand at the left margin, only further in. -/

namespace WrenGlue

open WrenGlue.Bindings WrenGlue.Cpp WrenGlue.Cpp.Code WrenGlue.Text
open WrenGlue.Header (Argument MethodKind)

/-! ### Signatures -/

theorem IsQuotable.isSingleLine {text : String} (h : IsQuotable text) : IsSingleLine text :=
  fun hc => h _ hc (by decide)

theorem Cpp.IsSingleLine.of_neutral {text : String} (h : IsNeutral text) : IsSingleLine text :=
  fun hc => absurd (h _ hc) (by decide)

namespace Wren

theorem isSingleLine_methodName {native : String} (h : IsSingleLine native) :
    IsSingleLine (methodName native) := by
  intro hc
  rw [methodName, String.toList_ofList] at hc
  exact h (mem_of_mem_lowerFirst hc (by decide) (by decide))

namespace CallForm

theorem isSingleLine_call {name : String} (h : IsSingleLine name) (kind : MethodKind) (n : Nat) :
    IsSingleLine (call name kind n) := by
  have hplaceholders := (isQuotable_placeholders n).isSingleLine
  cases kind with
  | getter => exact h
  | plain | variadic =>
    rw [call_of_ne_getter (by decide)]
    simp +decide [h, hplaceholders]

theorem isSingleLine_render {native : String} (h : IsSingleLine native) {form : CallForm}
    (hf : ofNative native = .ok form) (kind : MethodKind) (n : Nat) :
    IsSingleLine (form.render kind n) := by
  cases form with
  | subscriptGet =>
    rw [render_subscriptGet]
    simp +decide [(isQuotable_placeholders n).isSingleLine]
  | subscriptSet =>
    rw [render_subscriptSet]
    simp +decide [(isQuotable_placeholders (n - 1)).isSingleLine]
  | operator op =>
    have hsymbol : IsSingleLine op.symbol := by cases op <;> decide
    exact isSingleLine_call hsymbol kind n
  | named name =>
    have hname : name = methodName native := by
      rw [ofNative] at hf
      repeat' split at hf
      all_goals cases hf
      rfl
    rw [hname]
    exact isSingleLine_call (isSingleLine_methodName h) kind n

end CallForm

end Wren

/-! ### Functions of methods -/

/-- The names of a method and its class, and what its arguments are called, are single lines. -/
structure Member.HasSingleLines (m : Member) : Prop where
  owner : IsSingleLine m.owner.name
  method : IsSingleLine m.method.name
  labels : ∀ a ∈ m.method.args, IsSingleLine a.shownName

namespace Bindings

theorem isSingleLine_param {p : Param} (h : IsSingleLine p.name) : IsSingleLine p.text := by
  cases p with
  | value name =>
    rw [Param.text_value]
    exact isSingleLine_append.2 ⟨by decide, h⟩
  | list name =>
    rw [Param.text_list]
    exact isSingleLine_append.2 ⟨by decide, h⟩

theorem Function.hasSingleLines_code {f : Function} (hn : IsSingleLine f.name)
    (hp : ∀ p ∈ f.params, IsSingleLine p.name) (hb : ∀ s ∈ f.body, IsSingleLine s.text) :
    f.code.HasSingleLines := by
  have hparams : IsSingleLine (commaList (f.params.map Param.text)) :=
    .commaList (List.forall_mem_map.2 fun p hm => isSingleLine_param (hp p hm))
  have hheader : IsSingleLine f.header := by
    unfold header
    simp +decide [hn, hparams]
  exact .block hheader (.ofLines (List.forall_mem_map.2 hb))

theorem isSingleLine_fixedParams (m : Member) : ∀ name ∈ m.fixedParams, IsSingleLine name :=
  fun name hname => .of_wordName (fixedParams_spec m name hname).2

theorem isSingleLine_collectFirst (options : Options) {roots : List String}
    (h : ∀ root ∈ roots, IsSingleLine root) :
    ∀ s ∈ collectFirst options roots, IsSingleLine s.text := by
  intro s hs
  unfold collectFirst at hs
  split at hs
  · rw [List.mem_singleton.1 hs, Statement.text_collect]
    simp +decide [IsSingleLine.braced h]
  · cases hs

theorem isSingleLine_unbox {m : Member} {shown : String} {a : Argument} {u : Unboxing}
    (h : m.unboxing shown a = .ok u) (hs : IsSingleLine shown) (hl : IsSingleLine a.shownName) :
    IsSingleLine (Statement.unbox u).text := by
  have htype : IsNeutral a.declaredType.text := isNeutral_ofText (Member.supported_of_unboxing h)
  have hdeclare : IsSingleLine (a.declaredType.declare a.typedName) :=
    .of_neutral (isNeutral_declare htype (.of_wordName (isWordName_typedName a)))
  have hraw : IsSingleLine a.rawName := .of_wordName (isWordName_rawName a)
  rcases text_unbox_eq h with ⟨-, htext⟩ | ⟨checker, more, hsome, hmore, htext⟩
  · rw [htext]
    simp +decide [hdeclare, hraw]
  · rw [htext, checkTail]
    simp +decide [hdeclare, hraw, hs.quoted, hl.escape.quoted,
      IsSingleLine.of_neutral (isNeutral_checker hsome), IsSingleLine.of_neutral hmore]

theorem isSingleLine_nativeCall {m : Member} (h : m.HasSingleLines) :
    IsSingleLine m.nativeCall.text := by
  have hcallee : IsSingleLine m.callee.text := by
    unfold Member.callee
    split
    · simp +decide [Callee.text, h.owner]
    · cases m.owner.role <;> simp +decide [Callee.text, h.owner]
  have hargs : ∀ arg ∈ m.nativeCall.args, IsSingleLine arg := by
    refine List.forall_mem_append.2 ⟨List.forall_mem_map.2 fun a _ => ?_, ?_⟩
    · exact .of_wordName (isWordName_typedName a)
    · split <;> decide
  have htext : m.nativeCall.text =
      m.callee.text ++ m.method.name ++ "(" ++ commaList m.nativeCall.args ++ ")" := rfl
  rw [htext]
  simp +decide [hcallee, h.method, IsSingleLine.commaList hargs]

theorem isSingleLine_boxing {m : Member} (h : m.HasSingleLines) {b : Boxing}
    (hb : m.boxing = .ok b) : ∀ s ∈ b.statements m.nativeCall, IsSingleLine s.text := by
  have hcall := isSingleLine_nativeCall h
  intro s hs
  rcases Member.eq_of_boxing hb with rfl | ⟨⟨rule, rfl⟩, hu⟩
  · rcases List.mem_pair.1 hs with rfl | rfl
    · rw [Statement.text_perform]
      simp +decide [hcall]
    · decide
  · rcases List.mem_pair.1 hs with rfl | rfl
    · have hname : IsNeutral "ret" := by decide
      have hdeclare := IsSingleLine.of_neutral (isNeutral_declare (isNeutral_ofText hu) hname)
      rw [Statement.text_store]
      simp +decide [hdeclare, hcall]
    · cases rule <;> decide

theorem isSingleLine_receive {className shown : String} (hc : IsSingleLine className)
    (hs : IsSingleLine shown) : IsSingleLine (Statement.receive className shown).text := by
  rw [Statement.text_receive]
  simp +decide [hc, hs.quoted]

theorem isSingleLine_forwarderName {target : String} (h : IsSingleLine target) (count : Nat) :
    IsSingleLine (Member.forwarderName target count) := by
  unfold Member.forwarderName
  simp +decide [h]

theorem hasSingleLines_forwarder (options : Options) {target : String} {fixed : List String}
    (ht : IsSingleLine target) (hf : ∀ name ∈ fixed, IsSingleLine name) (count : Nat) :
    (forwarder options target fixed count).code.HasSingleLines := by
  have hvalues : ∀ name ∈ numbered "va" count, IsSingleLine name := fun name hname =>
    .of_wordName (isWordName_numbered (by decide) count name hname)
  have hall := List.forall_mem_append.2 ⟨hf, hvalues⟩
  refine Function.hasSingleLines_code (isSingleLine_forwarderName ht count) ?_ ?_
  · exact List.forall_mem_map.2 hall
  · refine List.forall_mem_append.2 ⟨isSingleLine_collectFirst options hall, ?_⟩
    have hargs := IsSingleLine.commaList (List.forall_mem_append.2
      ⟨hf, List.forall_mem_singleton.2 (IsSingleLine.braced hvalues)⟩)
    rw [List.forall_mem_singleton, Statement.text_forward]
    simp +decide [ht, hargs]

end Bindings

namespace Member

variable {m : Member} {options : Options} {b : MethodBinding}

theorem HasSingleLines.shownSignature (hm : m.HasSingleLines) {shown : String}
    (h : m.shownSignature = .ok shown) : IsSingleLine shown := by
  obtain ⟨signature, hsignature, h⟩ := bind_eq_ok.1 h
  obtain ⟨form, arity, hshape, rfl⟩ := signatureWith_eq_ok.1 hsignature
  cases h
  have hform := callForm_eq_ok.1 (callShape_eq_ok.1 hshape).1
  simp +decide [hm.owner, Wren.CallForm.isSingleLine_render hm.method hform]

theorem HasSingleLines.trampolineName (hm : m.HasSingleLines) (arity : Nat) :
    IsSingleLine (m.trampolineName arity) := by
  unfold Member.trampolineName
  simp +decide [hm.owner, hm.method]

/-- What is written when nothing fails is the code of the binding. -/
theorem exists_binding_of_run {rs : List Registration} {p p' : Page}
    (h : (m.emit options).run p = .ok rs p') :
    ∃ b, m.binding options = .ok b ∧ rs = b.registrations ∧ p' = p.write b.code := by
  have hwrites := m.writes_emit options
  cases hb : m.binding options with
  | error e =>
    rw [hwrites.error e hb] at h
    cases h
  | ok b =>
    rw [hwrites.ok b hb] at h
    cases h
    exact ⟨b, rfl, rfl, rfl⟩

theorem IsBinding.hasSingleLines_trampoline {form : Wren.CallForm} {arity : Nat}
    (h : m.IsBinding options form arity b) (hm : m.HasSingleLines) :
    b.trampoline.code.HasSingleLines := by
  obtain ⟨shown, unboxings, boxing, hshown, hunboxings, hboxing, hbody⟩ := h.body
  have hs := hm.shownSignature hshown
  refine Function.hasSingleLines_code ?_ ?_ ?_
  · rw [h.name]
    exact hm.trampolineName arity
  · rw [h.params]
    exact fun p hp => .of_wordName (IsBinding.isWordName_params m p hp)
  · simp only [hbody, List.forall_mem_append, List.forall_mem_map]
    refine ⟨⟨⟨isSingleLine_collectFirst options (isSingleLine_fixedParams m), ?_⟩, fun u hu => ?_⟩,
      isSingleLine_boxing hm hboxing⟩
    · split
      · exact List.forall_mem_singleton.2 (isSingleLine_receive hm.owner hs)
      · simp
    · obtain ⟨a, ha, hunboxing⟩ := mem_of_mapM_eq_ok hunboxings hu
      exact isSingleLine_unbox hunboxing hs (hm.labels a ha)

/-- A method whose names are single lines has code of single lines, whatever its types are. -/
theorem hasSingleLines_binding (h : m.binding options = .ok b) (hm : m.HasSingleLines) :
    b.code.HasSingleLines := by
  obtain ⟨form, arity, hbinding⟩ := exists_isBinding h
  refine .flatMap fun f hf => ?_
  rcases List.mem_cons.1 hf with rfl | hf
  · exact hbinding.hasSingleLines_trampoline hm
  · rw [hbinding.forwarders] at hf
    split at hf
    · obtain ⟨count, -, rfl⟩ := List.mem_map.1 hf
      exact hasSingleLines_forwarder options (hm.trampolineName arity) (isSingleLine_fixedParams m)
        count
    · cases hf

end Member

namespace Bindings

/-! ### Functions that are not for one method -/

/-- The signature and the symbol are single lines. -/
structure Registration.HasSingleLines (r : Registration) : Prop where
  signature : IsSingleLine r.signature
  symbol : IsSingleLine r.symbol

theorem Registration.isSingleLine_text {r : Registration} (h : r.HasSingleLines) :
    IsSingleLine r.text := by
  rw [Registration.text_eq]
  simp +decide [h.signature.escape.quoted, h.symbol]

theorem Registration.isSingleLine_guard (r : Registration) : IsSingleLine r.guard := by
  unfold guard
  split <;> decide

theorem hasSingleLines_runCode {run : List Registration} (h : ∀ r ∈ run, r.HasSingleLines) :
    (runCode run).HasSingleLines := by
  have htexts : ∀ text ∈ run.map Registration.text, IsSingleLine text :=
    List.forall_mem_map.2 fun r hr => Registration.isSingleLine_text (h r hr)
  match run with
  | [] => exact .nil
  | [r] => exact .cons r.isSingleLine_guard (.indented (.ofLines htexts))
  | r :: next :: run => exact .block r.isSingleLine_guard (.ofLines htexts)

theorem hasSingleLines_runs {rs : List Registration} (h : ∀ r ∈ rs, r.HasSingleLines) :
    Code.HasSingleLines ((levelRuns rs).flatMap runCode) := by
  refine .flatMap fun run hrun => hasSingleLines_runCode fun r hr => h r ?_
  rw [← flatten_levelRuns rs]
  exact List.mem_flatten.2 ⟨run, hrun, hr⟩

theorem hasSingleLines_registerCode {className : String} (hc : IsSingleLine className)
    {rs : List Registration} (h : ∀ r ∈ rs, r.HasSingleLines) :
    (registerCode className rs).HasSingleLines := by
  refine .block ?_ (hasSingleLines_runs h)
  unfold registerName
  simp +decide [hc]

theorem hasSingleLines_bindCode {classes : List String}
    (h : ∀ name ∈ classes, IsSingleLine name) : (bindCode classes).HasSingleLines := by
  have hend : Code.HasSingleLines
      [.line "fprintf(stderr, \"Unknown bindings class '%s'\\n\", type.c_str());",
        .line "abort();"] := by
    unfold Code.HasSingleLines
    decide +kernel
  refine .block (by decide +kernel) (.append (.flatMap fun name hname => ?_) hend)
  have hcall : IsSingleLine (registerName name ++ "(cls, isMeta);") := by
    unfold registerName
    simp +decide [h name hname]
  have hreturn : IsSingleLine "return;" := by decide
  refine .block ?_ (.cons hcall (.cons hreturn .nil))
  simp +decide [(h name hname).quoted]

theorem isBalanced_dispatchCode (arity : Nat) : (dispatchCode arity).IsBalanced :=
  .block _ (.append (.block _ fun _ => rfl) fun _ => rfl)

theorem isBalanced_functionDispatch : functionDispatch.IsBalanced := by
  have hcases : Code.IsBalanced ((List.range (maxDispatchArity + 1)).flatMap dispatchCase) :=
    .flatMap fun arity _ => .cons _ (.indented (.line _))
  have hdefault : ∀ texts : List String, Code.IsBalanced
      (.line "default:" :: Code.indented (Code.ofLines texts)) := fun texts =>
    .cons _ (.indented (.ofLines texts))
  refine .append (.flatMap fun arity _ => .append (isBalanced_dispatchCode arity) .blank) ?_
  exact .block _ (.append (.append (.append (fun _ => rfl) hcases) (hdefault [_, _])) (.line _))

theorem hasSingleLines_functionDispatch : functionDispatch.HasSingleLines :=
  readsLines_functionDispatch.not_mem_line

/-- What is generated for a method, the register function of a class, `ObjClass::Bind` and
`FunctionDispatch` are added to a page as they are written on an empty one, moved to its depth, and
so are all calls of a writer that close just what they opened. The text of the page stays, its depth
comes back, and the level that it is on is never closed. -/
theorem emitters_relocate (p : Page) :
    (∀ (m : Member) (options : Options) (rs : List Registration) (p' : Page), m.HasSingleLines →
      (m.emit options).run p = .ok rs p' → ∃ b, m.binding options = .ok b ∧
        rs = b.registrations ∧ p' = p.write b.code ∧
        (m.emit options).run {} = .ok rs (({} : Page).write b.code) ∧ b.code.Relocates p) ∧
    (∀ (className : String) (rs : List Registration), IsSingleLine className →
      (∀ r ∈ rs, r.HasSingleLines) → (registerCode className rs).Relocates p) ∧
    (∀ t : ClassTable, (∀ name ∈ t.classes, IsSingleLine name) →
      (bindCode t.classes).Relocates p) ∧
    functionDispatch.Relocates p ∧
    ∀ cs : List WriterCall, (WriterCall.codes cs).IsWellNested →
      (∀ page : Page, page.calls cs = page.write (WriterCall.codes cs)) ∧
      (WriterCall.codes cs).StaysWithin p ∧
      ((WriterCall.codes cs).HasSingleLines → (WriterCall.codes cs).Relocates p) := by
  refine ⟨fun m options rs p' hm hrun => ?_, fun className rs hc hrs => ?_, fun t ht => ?_, ?_,
    fun cs hcs => ?_⟩
  · obtain ⟨b, hb, rfl, rfl⟩ := Member.exists_binding_of_run hrun
    exact ⟨b, hb, rfl, rfl, (m.writes_emit options).ok b hb {},
      b.isBalanced_code.relocates (Member.hasSingleLines_binding hb hm) p⟩
  · exact (isBalanced_registerCode className rs).relocates (hasSingleLines_registerCode hc hrs) p
  · exact (isBalanced_bindCode t.classes).relocates (hasSingleLines_bindCode ht) p
  · exact isBalanced_functionDispatch.relocates hasSingleLines_functionDispatch p
  · exact ⟨fun page => page.calls_eq_write cs, hcs.staysWithin p, fun hlines =>
      hcs.relocates hlines p⟩

/-- In a block three levels deep. The calls close the block they opened in an indented body, and
open another one there. -/
theorem emitters_relocate_nested :
    (∃ b, Member.binding ⟨{ name := "ObjList" },
        { name := "Count", returnType := "int", kind := .getter }⟩ {} = .ok b ∧
      (Member.emit ⟨{ name := "ObjList" },
        { name := "Count", returnType := "int", kind := .getter }⟩ {}).run ⟨"if (x)\n", 3⟩ =
          .ok b.registrations ((⟨"if (x)\n", 3⟩ : Page).write b.code) ∧
      b.code.Relocates ⟨"if (x)\n", 3⟩) ∧
    (registerCode "ObjA" [⟨"foo()", "f", true⟩, ⟨"bar", "g", false⟩]).Relocates
      ⟨"if (x)\n", 3⟩ ∧
    (bindCode ["ObjA", "ObjB"]).Relocates ⟨"if (x)\n", 3⟩ ∧
    functionDispatch.Relocates ⟨"if (x)\n", 3⟩ ∧
    Code.Relocates (WriterCall.codes [.opening "\x7b", .indented [.closing "\x7d", .opening "\x7b"],
      .line "a;", .blank, .closing "\x7d"]) ⟨"if (x)\n", 3⟩ := by
  obtain ⟨hmethod, hregister, hbind, hdispatch, hcalls⟩ := emitters_relocate ⟨"if (x)\n", 3⟩
  refine ⟨?_, ?_, ?_, hdispatch, ?_⟩
  · obtain ⟨b, hb⟩ := exists_eq_ok (x := Member.binding ⟨{ name := "ObjList" },
      { name := "Count", returnType := "int", kind := .getter }⟩ {}) (by decide +kernel)
    have hrun := (Member.writes_emit _ {}).ok b hb ⟨"if (x)\n", 3⟩
    obtain ⟨b', hb', -, -, -, hrelocates⟩ :=
      hmethod _ {} _ _ ⟨by decide, by decide, by simp⟩ hrun
    obtain rfl := Except.ok.inj (hb'.symm.trans hb)
    exact ⟨b', hb, hrun, hrelocates⟩
  · refine hregister _ _ (by decide) ?_
    rw [List.forall_mem_cons, List.forall_mem_singleton]
    exact ⟨⟨by decide, by decide⟩, ⟨by decide, by decide⟩⟩
  · exact hbind { classes := ["ObjA", "ObjB"] } (by decide)
  · refine (hcalls _ (by decide)).2.2 ?_
    unfold HasSingleLines
    decide

end Bindings

end WrenGlue
