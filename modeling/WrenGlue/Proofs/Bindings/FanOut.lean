import WrenGlue.Proofs.Bindings.CallingConvention
import WrenGlue.Proofs.Bindings.Emission
import WrenGlue.Proofs.Bindings.Names

/-! What is written and registered for a variadic method: behind its trampoline one forwarder for
each number of values that the runtime can pass, and for each forwarder the signature of a call with
as many values. -/

namespace WrenGlue

open WrenGlue.Bindings WrenGlue.Cpp
open WrenGlue.Wren (CallForm)

namespace Bindings

/-- The function `f` takes the values that `trampoline` takes, lists aside, and `count` values more. It
calls `trampoline` with the former and the list of the latter. -/
structure Forwards (options : Options) (trampoline : Function) (count : Nat) (f : Function) :
    Prop where
  params : f.params = (trampoline.values ++ numbered "va" count).map .value
  body : f.body = collectFirst options (trampoline.values ++ numbered "va" count) ++
    [.forward trampoline.name trampoline.values (numbered "va" count)]

end Bindings

namespace Member

variable {m : Member} {options : Options}

/-- The forwarder `f` for `count` values is registered as `r`, for calls in the form `form` with as
many arguments more than `arity`. -/
structure Registers (m : Member) (form : CallForm) (arity count : Nat) (f : Function)
    (r : Registration) : Prop where
  name : m.forwarderSymbol count = .ok f.name
  symbol : r.symbol = f.name
  signature : m.signatureWith count = .ok r.signature
  render : r.signature = form.render .variadic (arity + count)
  level : r.isStatic = m.method.isStatic

/-- The functions and registrations of a variadic method, which is called in the form `form` with
`arity` arguments and up to 16 values behind them. -/
structure FansOut (m : Member) (options : Options) (form : CallForm) (arity : Nat)
    (trampoline : Function) (forwarders : List Function) (rs : List Registration) : Prop where
  callShape : m.callShape = .ok (form, arity)
  symbol : m.symbol = .ok trampoline.name
  params : trampoline.params = m.fixedParams.map .value ++ [.list valuesParam]
  length_forwarders : forwarders.length = 17
  length_registrations : rs.length = 17
  entry : ∀ count < 17, ∃ f r, forwarders[count]? = some f ∧ rs[count]? = some r ∧
    Forwards options trampoline count f ∧ m.Registers form arity count f r
  nodup_symbols : (rs.map (·.symbol)).Nodup
  nodup_signatures : (rs.map (·.signature)).Nodup
  not_registered : trampoline.name ∉ rs.map (·.symbol)

theorem values_of_params {f : Function} {names : List String} {list : String}
    (h : f.params = names.map .value ++ [.list list]) : f.values = names := by
  rw [Function.values, h, List.filterMap_append, filterMap_value?_map]
  exact List.append_nil names

theorem IsBinding.fansOut {form : CallForm} {arity : Nat} {b : MethodBinding}
    (h : m.IsBinding options form arity b) (hv : m.method.isVariadic = true) :
    m.FansOut options form arity b.trampoline b.forwarders b.registrations := by
  have hparams : b.trampoline.params = m.fixedParams.map .value ++ [.list valuesParam] := by
    rw [h.params, Member.params, if_pos hv]
  have hkind : m.method.kind = .variadic := eq_of_beq hv
  have hforwarders := h.forwarders
  have hregistrations := h.registrations
  rw [if_pos hv, ← h.name] at hforwarders hregistrations
  have hsymbol : m.symbol = .ok b.trampoline.name :=
    symbol_eq_ok.2 ⟨arity, (callShape_eq_ok.1 h.callShape).2.1, h.name⟩
  have hsymbols : b.registrations.map (·.symbol) = b.forwarders.map (·.name) := by
    rw [hforwarders, hregistrations, List.map_map, List.map_map]
    rfl
  have hnames := h.nodup_names
  rw [MethodBinding.functions, List.map_cons, List.nodup_cons] at hnames
  refine ⟨h.callShape, hsymbol, hparams, ?_, ?_, fun count hcount => ?_, ?_, ?_, ?_⟩
  · rw [hforwarders, List.length_map, List.length_range]
    rfl
  · rw [hregistrations, List.length_map, List.length_range]
    rfl
  · have hrange : (List.range (maxDispatchArity + 1))[count]? = some count :=
      List.getElem?_range hcount
    refine ⟨_, _, by rw [hforwarders, List.getElem?_map, hrange]; rfl,
      by rw [hregistrations, List.getElem?_map, hrange]; rfl, ?_, ?_⟩
    · have hvalues := values_of_params hparams
      exact ⟨by rw [hvalues]; rfl, by rw [hvalues]; rfl⟩
    · refine ⟨?_, rfl, signatureWith_eq_ok.2 ⟨form, arity, h.callShape, rfl⟩, by rw [hkind], rfl⟩
      rw [forwarderSymbol, hsymbol]
      rfl
  · rw [hsymbols]
    exact hnames.2
  · rw [h.map_signature]
    exact m.nodup_signatures
  · rw [hsymbols]
    exact hnames.1

/-- Writing a variadic method fans it out over the numbers of values that the runtime can pass. -/
theorem emit_variadic {p p' : Page} {rs : List Registration} (hv : m.method.isVariadic = true)
    (h : (m.emit options).run p = .ok rs p') :
    ∃ form arity trampoline forwarders,
      p' = p.write (trampoline.code ++ forwarders.flatMap Function.code) ∧
      m.FansOut options form arity trampoline forwarders rs := by
  have hwrites := m.writes_emit options
  cases hb : m.binding options with
  | error e =>
    rw [hwrites.error e hb p] at h
    cases h
  | ok b =>
    rw [hwrites.ok b hb p] at h
    cases h
    obtain ⟨form, arity, hbinding⟩ := exists_isBinding hb
    exact ⟨form, arity, b.trampoline, b.forwarders, rfl, hbinding.fansOut hv⟩

/-- A variadic subscript setter, for which the value that is assigned is the only argument. -/
def setAll : Member :=
  ⟨{ name := "ObjList" }, { name := "OperatorSubscriptSet", returnType := "void"
                            kind := .variadic
                            args := [{ type := "Value", name := "value", position := 0 }] }⟩

/-- The signature with two values more than the one that is assigned. -/
theorem emit_variadic_setter : ∃ rs p', (setAll.emit { debugGc := true }).run {} = .ok rs p' ∧
    rs.length = 17 ∧ (rs.map (·.symbol)).Nodup ∧ (rs.map (·.signature)).Nodup ∧
    rs[2]? = some ⟨"[_,_]=(_)", "binding_ObjList_OperatorSubscriptSet_1_va2", false⟩ := by
  obtain ⟨b, hb⟩ := exists_eq_ok
    (show (setAll.binding { debugGc := true }).isOk = true by decide +kernel)
  have hrun := (setAll.writes_emit { debugGc := true }).ok b hb {}
  obtain ⟨form, arity, trampoline, forwarders, -, hfan⟩ := emit_variadic rfl hrun
  obtain ⟨rfl, rfl⟩ : CallForm.subscriptSet = form ∧ 1 = arity := by
    have hshape : setAll.callShape = .ok (.subscriptSet, 1) := by decide +kernel
    simpa using hshape.symm.trans hfan.callShape
  obtain ⟨f, r, -, hr, -, hregisters⟩ := hfan.entry 2 (by decide)
  refine ⟨_, _, hrun, hfan.length_registrations, hfan.nodup_symbols, hfan.nodup_signatures, ?_⟩
  have hname : setAll.forwarderSymbol 2 = .ok "binding_ObjList_OperatorSubscriptSet_1_va2" := by
    decide +kernel
  have hsignature : CallForm.subscriptSet.render .variadic (1 + 2) = "[_,_]=(_)" := by
    decide +kernel
  obtain ⟨signature, symbol, isStatic⟩ := r
  obtain rfl := hregisters.symbol
  obtain rfl := hregisters.level
  obtain rfl := hregisters.render
  rw [hr, hsignature, Except.ok.inj (hregisters.name.symm.trans hname)]
  rfl

end Member

end WrenGlue
