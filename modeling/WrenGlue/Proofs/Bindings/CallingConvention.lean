import WrenGlue.Proofs.Bindings.Faults
import WrenGlue.Proofs.Bindings.Signatures

/-! Signatures and calling conventions. The runtime passes a function its receiver and as many
values as the signature has placeholders, so a function has to take that many. All do but those of
getters that have arguments: the signature of a getter has no room for them. -/

namespace WrenGlue

open WrenGlue.Bindings WrenGlue.Cpp
open WrenGlue.Header (MethodKind)
open WrenGlue.Wren

namespace Wren.CallForm

/-- The underscores in the name of a call, which are no placeholders. -/
def underscores (form : CallForm) : Nat := (form.word?.getD "").toList.count '_'

theorem count_call (word : String) (kind : MethodKind) (n : Nat) :
    (call word kind n).toList.count '_' =
      word.toList.count '_' + if kind ≠ .getter then n else 0 := by
  by_cases hk : kind = .getter
  · rw [hk, call_getter]
    rfl
  · have hparens : "(".toList.count '_' = 0 ∧ ")".toList.count '_' = 0 := by decide
    rw [call_of_ne_getter hk, String.toList_append, String.toList_append, String.toList_append,
      List.count_append, List.count_append, List.count_append, count_placeholders, if_pos hk,
      hparens.1, hparens.2]
    rfl

/-- A signature has a placeholder for each argument if it shows their number, and none if not. -/
theorem count_render {form : CallForm} {n : Nat} (h : form.Admits n) (kind : MethodKind) :
    (form.render kind n).toList.count '_' =
      form.underscores + if form.ShowsCount kind then n else 0 := by
  cases form with
  | subscriptGet =>
    have hbrackets : "[".toList.count '_' = 0 ∧ "]".toList.count '_' = 0 := by decide
    rw [render_subscriptGet, String.toList_append, String.toList_append, List.count_append,
      List.count_append, count_placeholders, hbrackets.1, hbrackets.2]
    simp [underscores, word?, ShowsCount]
  | subscriptSet =>
    have hbrackets : "[".toList.count '_' = 0 ∧ "]=(_)".toList.count '_' = 1 := by decide
    have hpos : 0 < n := h
    rw [render_subscriptSet, String.toList_append, String.toList_append, List.count_append,
      List.count_append, count_placeholders, hbrackets.1, hbrackets.2]
    simp [underscores, word?, ShowsCount]
    omega
  | operator op => exact count_call op.symbol kind n
  | named name => exact count_call name kind n

end Wren.CallForm

/-- The value that a parameter carries, if it carries a single one. -/
def Bindings.Param.value? : Param → Option String
  | value name => some name
  | list _ => none

/-- The values that a function takes, lists aside. -/
def Bindings.Function.values (f : Function) : List String := f.params.filterMap Param.value?

theorem Bindings.filterMap_value?_map (names : List String) :
    (names.map Param.value).filterMap Param.value? = names := by
  rw [List.filterMap_map]
  exact List.filterMap_some

namespace Member

variable {m : Member} {options : Options} {form : CallForm} {arity : Nat} {b : MethodBinding}

/-- The value that carries the receiver, if one is passed. -/
def receiverValue (m : Member) : List String :=
  if m.takesReceiver then ["receiver"]
  else if m.foldsReceiver then (m.method.args.map (·.rawName)).take 1
  else []

/-- The method is called by its name alone, and yet has arguments to be passed. -/
structure DropsArguments (m : Member) : Prop where
  getter : m.method.kind = .getter
  name : m.method.name ≠ subscriptGetName ∧ m.method.name ≠ subscriptSetName
  args : m.passedArgs ≠ []

/-- The receiver comes before the arguments that Wren code passes. -/
theorem fixedParams_eq (m : Member) :
    m.fixedParams = m.receiverValue ++ m.passedArgs.map (·.rawName) := by
  rw [fixedParams, receiverValue, passedArgs]
  by_cases ht : m.takesReceiver = true
  · have hf : m.foldsReceiver = false := by
      cases hr : m.owner.role <;> simp [takesReceiver, foldsReceiver, hr] at ht ⊢
    simp [ht, hf]
  · by_cases hf : m.foldsReceiver = true
    · cases m.method.args <;> simp [ht, hf]
    · simp [ht, hf]

theorem dropsArguments_iff (h : m.callShape = .ok (form, arity)) :
    m.DropsArguments ↔ ¬ form.ShowsCount m.method.kind ∧ arity ≠ 0 := by
  obtain ⟨hform, harity, -⟩ := callShape_eq_ok.1 h
  obtain ⟨hget, hset⟩ := CallForm.eq_subscript_iff (callForm_eq_ok.1 hform)
  have hcount : ¬ form.ShowsCount m.method.kind ↔ m.method.kind = .getter ∧
      m.method.name ≠ subscriptGetName ∧ m.method.name ≠ subscriptSetName := by
    rw [Ne, Ne, ← hget, ← hset]
    cases form <;> simp [CallForm.ShowsCount]
  have hargs : arity ≠ 0 ↔ m.passedArgs ≠ [] := by
    rw [← length_passedArgs harity]
    exact not_congr List.length_eq_zero_iff
  rw [hcount, hargs]
  constructor
  · rintro ⟨hk, hname, hargs⟩
    exact ⟨⟨hk, hname⟩, hargs⟩
  · rintro ⟨⟨hk, hname⟩, hargs⟩
    exact ⟨hk, hname, hargs⟩

/-- A function that is registered takes the receiver, the arguments, and the values that its
signature has room for. -/
theorem IsBinding.exists_function (h : m.IsBinding options form arity b) {r : Registration}
    (hr : r ∈ b.registrations) : ∃ f ∈ b.functions, f.name = r.symbol ∧ ∃ extra ≤ m.extraMax,
      r.signature = form.render m.method.kind (arity + extra) ∧
      ∃ passed, f.values = m.receiverValue ++ passed ∧ passed.length = arity + extra := by
  have harity := (callShape_eq_ok.1 h.callShape).2.1
  rw [h.registrations] at hr
  by_cases hv : m.method.isVariadic = true
  · rw [if_pos hv] at hr
    obtain ⟨extra, hextra, rfl⟩ := List.mem_map.1 hr
    refine ⟨forwarder options (m.trampolineName arity) m.fixedParams extra, ?_, rfl, extra, ?_,
      rfl, m.passedArgs.map (·.rawName) ++ numbered "va" extra, ?_, ?_⟩
    · rw [MethodBinding.functions, h.forwarders, if_pos hv]
      exact List.mem_cons_of_mem _ (List.mem_map_of_mem hextra)
    · rw [extraMax, if_pos hv]
      exact Nat.le_of_lt_succ (List.mem_range.1 hextra)
    · rw [Function.values, forwarder, filterMap_value?_map, fixedParams_eq, List.append_assoc]
    · simp [length_passedArgs harity, numbered]
  · rw [if_neg hv] at hr
    rw [List.mem_singleton.1 hr]
    refine ⟨b.trampoline, List.mem_cons_self, h.name, 0, Nat.zero_le _, rfl,
      m.passedArgs.map (·.rawName), ?_, ?_⟩
    · rw [Function.values, h.params, Member.params, if_neg hv, List.append_nil,
        filterMap_value?_map, fixedParams_eq]
    · rw [List.length_map, length_passedArgs harity]
      rfl

end Member

/-- A function that is registered takes as many values behind its receiver as its signature has
placeholders, except for a getter that drops its arguments. No two functions of a method share a
name. -/
theorem Bindings.MethodBinding.placeholders_eq_passed_iff {m : Member} {options : Options}
    {b : MethodBinding} (h : m.binding options = .ok b) :
    (b.functions.map (·.name)).Nodup ∧ ∃ form, m.callForm = .ok form ∧ ∀ r ∈ b.registrations,
      ∃ f ∈ b.functions, f.name = r.symbol ∧ ∃ passed, f.values = m.receiverValue ++ passed ∧
        (r.signature.toList.count '_' = form.underscores + passed.length ↔
          ¬ m.DropsArguments) := by
  obtain ⟨form, arity, hbinding⟩ := Member.exists_isBinding h
  obtain ⟨hform, -, hset⟩ := Member.callShape_eq_ok.1 hbinding.callShape
  refine ⟨hbinding.nodup_names, form, hform, fun r hr => ?_⟩
  obtain ⟨f, hf, hname, extra, hextra, hsignature, passed, hvalues, hpassed⟩ :=
    hbinding.exists_function hr
  refine ⟨f, hf, hname, passed, hvalues, ?_⟩
  have hadmits : form.Admits (arity + extra) := by
    cases form with
    | subscriptSet =>
      have hne : arity ≠ 0 := fun hzero => hset ⟨rfl, hzero⟩
      show 0 < arity + extra
      omega
    | subscriptGet | operator op | named name => trivial
  rw [hsignature, CallForm.count_render hadmits, hpassed,
    Member.dropsArguments_iff hbinding.callShape]
  by_cases hshows : form.ShowsCount m.method.kind
  · simp [hshows]
  · -- A getter is not variadic, so its function takes the declared arguments alone.
    have hzero := Member.extraMax_eq_zero_of_not_showsCount hshows
    obtain rfl : extra = 0 := by omega
    simp [hshows]

/-- A variadic setter of subscripts, where two values stand in front of the assigned one. -/
theorem Bindings.MethodBinding.placeholders_eq_passed_iff_setter : ∃ b,
    ({ owner := { name := "ObjList" }
       method := {
         name := "OperatorSubscriptSet"
         returnType := "void"
         kind := .variadic
         args := [{ type := "int", name := "index", position := 0 }] } } : Member).binding {} =
      .ok b ∧
    ⟨"[_,_]=(_)", "binding_ObjList_OperatorSubscriptSet_1_va2", false⟩ ∈ b.registrations ∧
    ∃ f ∈ b.functions, f.name = "binding_ObjList_OperatorSubscriptSet_1_va2" ∧
      f.values.length = 4 := by
  have hrun : (match ({ owner := { name := "ObjList" }
                        method := {
                          name := "OperatorSubscriptSet"
                          returnType := "void"
                          kind := .variadic
                          args := [{ type := "int", name := "index", position := 0 }] } } :
          Member).binding {} with
      | .ok b => decide (⟨"[_,_]=(_)", "binding_ObjList_OperatorSubscriptSet_1_va2", false⟩ ∈
          b.registrations)
      | .error _ => false) = true := by
    decide +kernel
  split at hrun
  · rename_i b hb
    have hr := of_decide_eq_true hrun
    obtain ⟨-, form, hform, hall⟩ := placeholders_eq_passed_iff hb
    obtain ⟨f, hf, hname, passed, hvalues, hcount⟩ := hall _ hr
    obtain rfl : .subscriptSet = form := Except.ok.inj hform
    have hpassed : 3 = 0 + passed.length := hcount.2 fun hdrops => nomatch hdrops.getter
    refine ⟨b, hb, hr, f, hf, hname, ?_⟩
    rw [hvalues, List.length_append, ← Nat.zero_add passed.length, ← hpassed]
    rfl
  · cases hrun

/-- A getter with an argument. Its signature has no placeholder, and the function that is registered
takes a value behind its receiver. -/
theorem getter_drops_argument : ∃ m b,
    (collectClasses [⟨"a.h", "class ObjFoo \x7b\nWREN_METHOD(getter) int Bar(int x);\n"⟩]).map
      (·.flatMap (·.members)) = .ok [m] ∧
    m.binding {} = .ok b ∧ m.receiverValue = ["receiver"] ∧
    b.registrations = [⟨"bar", "binding_ObjFoo_Bar_1", false⟩] ∧
    b.functions.map (fun f => (f.name, f.values)) =
      [("binding_ObjFoo_Bar_1", ["receiver", "arg0"])] ∧
    ∀ r ∈ b.registrations, ∀ f ∈ b.functions,
      f.values.length ≠ m.receiverValue.length + r.signature.toList.count '_' := by
  have hmembers : (collectClasses [⟨"a.h",
      "class ObjFoo \x7b\nWREN_METHOD(getter) int Bar(int x);\n"⟩]).map (·.flatMap (·.members)) =
        .ok [{
          owner := { name := "ObjFoo", line := 1, methods := [
            { name := "Bar", returnType := "int", kind := .getter, line := 2, args := [
              { type := "int", name := "x", position := 0 }] }] }
          method := { name := "Bar", returnType := "int", kind := .getter, line := 2, args := [
            { type := "int", name := "x", position := 0 }] } }] := by
    decide +kernel
  have hrun : (do
      let b ← ({
          owner := { name := "ObjFoo", line := 1, methods := [
            { name := "Bar", returnType := "int", kind := .getter, line := 2, args := [
              { type := "int", name := "x", position := 0 }] }] }
          method := { name := "Bar", returnType := "int", kind := .getter, line := 2, args := [
            { type := "int", name := "x", position := 0 }] } } : Member).binding {}
      return (b.registrations, b.functions.map fun f => (f.name, f.values))) =
        (.ok ([⟨"bar", "binding_ObjFoo_Bar_1", false⟩],
          [("binding_ObjFoo_Bar_1", ["receiver", "arg0"])]) : Except BindError _) := by
    decide +kernel
  obtain ⟨b, hb, hparts⟩ := bind_eq_ok.1 hrun
  obtain ⟨hregistrations, hfunctions⟩ := Prod.mk.inj (Except.ok.inj hparts)
  refine ⟨_, b, hmembers, hb, rfl, hregistrations, hfunctions, fun r hr f hf => ?_⟩
  rw [hregistrations, List.mem_singleton] at hr
  have hvalues := @List.mem_map_of_mem _ _ _ _ (fun f : Function => (f.name, f.values)) hf
  rw [hfunctions, List.mem_singleton] at hvalues
  rw [hr, (Prod.mk.inj hvalues).2]
  decide

end WrenGlue
