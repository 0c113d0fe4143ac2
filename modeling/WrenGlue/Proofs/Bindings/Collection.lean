import WrenGlue.Proofs.Bindings.CallingConvention
import WrenGlue.Proofs.Bindings.Execution

/-! The garbage collections that functions run for debugging. Each function runs one, first of all,
and it spares the values that the function was passed in parameters of their own. The values in the
list of a variadic trampoline are spared by the forwarder only, before they are packed. -/

namespace WrenGlue

open WrenGlue.Bindings WrenGlue.Cpp
open WrenGlue.Wren (CallForm)

namespace Bindings

/-- The values that a garbage collection spares. -/
def Instruction.roots? : Instruction → Option (List String)
  | collect roots => some roots
  | declare .. | perform _ | returnNull | returnBoxed _ | forward .. => none

/-- The function runs one collection, before all else, which spares the values `roots`. -/
def Program.CollectsFirst (p : Program) (roots : List String) (rest : List Instruction) : Prop :=
  p.body = .collect roots :: rest ∧ ∀ i ∈ rest, i.roots? = none

end Bindings

namespace Member

variable {m : Member} {options : Options} {form : CallForm} {arity : Nat} {b : MethodBinding}

theorem values_params (m : Member) : m.params.filterMap Param.value? = m.fixedParams := by
  rw [params, List.filterMap_append, filterMap_value?_map]
  split <;> simp [Param.value?]

theorem IsBinding.collectsFirst_trampoline (h : m.IsBinding options form arity b)
    (hd : options.debugGc = true) :
    ∃ rest, b.trampoline.program.CollectsFirst m.fixedParams rest := by
  obtain ⟨shown, unboxings, boxing, -, -, -, hbody⟩ := h.body
  refine ⟨((if m.takesReceiver then [Statement.receive m.owner.name shown] else [])
    ++ unboxings.map Statement.unbox ++ boxing.statements m.nativeCall).map Statement.instruction, ?_, ?_⟩
  · rw [Function.program, hbody, collectFirst, if_pos hd]
    simp [Statement.instruction]
  · rw [List.forall_mem_map, List.forall_mem_append, List.forall_mem_append, List.forall_mem_map]
    refine ⟨⟨?_, fun _ _ => rfl⟩, ?_⟩
    · split
      · exact List.forall_mem_singleton.2 rfl
      · exact List.forall_mem_nil _
    · cases boxing <;> exact List.forall_mem_cons.2 ⟨rfl, List.forall_mem_singleton.2 rfl⟩

theorem body_forwarder (hd : options.debugGc = true) (target : String) (fixed : List String)
    (count : Nat) : (forwarder options target fixed count).program.body =
      [.collect (fixed ++ numbered "va" count), .forward target fixed (numbered "va" count)] := by
  rw [Function.program, forwarder, collectFirst, if_pos hd]
  rfl

/-- Every function of a method collects garbage once, before all else, if that is wanted. It spares
the values of all parameters but the list that a variadic trampoline passes on. The values in that
list are among those that the forwarder spares before it packs them. -/
theorem collects_first (h : m.binding options = .ok b) (hd : options.debugGc = true) :
    (∀ f ∈ b.functions, (∃ rest, f.program.CollectsFirst f.values rest ∧
        ∀ i ∈ rest, ∀ name ∈ i.uses, name ∈ f.params.map Param.name →
          name ∈ f.values ∨ f = b.trampoline ∧ m.method.isVariadic = true ∧ name = valuesParam) ∧
      (m.HasWordNames → program? f.code.lines = some f.program)) ∧
    ∀ f ∈ b.forwarders, ∃ packed, f.values = m.fixedParams ++ packed ∧
      f.program.body = [.collect f.values, .forward b.trampoline.name m.fixedParams packed] := by
  obtain ⟨form, arity, hbinding⟩ := exists_isBinding h
  have hforwarders : ∀ f ∈ b.forwarders, ∃ packed, f.params = f.values.map .value ∧
      f.values = m.fixedParams ++ packed ∧
      f.program.body = [.collect f.values, .forward b.trampoline.name m.fixedParams packed] := by
    intro f hf
    rw [hbinding.forwarders] at hf
    split at hf
    · obtain ⟨count, -, rfl⟩ := List.mem_map.1 hf
      have hvalues : (forwarder options (m.trampolineName arity) m.fixedParams count).values =
          m.fixedParams ++ numbered "va" count := filterMap_value?_map _
      refine ⟨numbered "va" count, ?_, hvalues, ?_⟩
      · rw [hvalues]
        rfl
      · rw [hvalues, hbinding.name, body_forwarder hd]
    · cases hf
  refine ⟨fun f hf => ⟨?_, fun hm => hbinding.program?_functions hm f hf⟩, fun f hf => ?_⟩
  · rcases List.mem_cons.1 hf with rfl | hf
    · obtain ⟨rest, hrest⟩ := hbinding.collectsFirst_trampoline hd
      have hvalues : b.trampoline.values = m.fixedParams := by
        rw [Function.values, hbinding.params, values_params]
      refine ⟨rest, hvalues ▸ hrest, fun i _ name _ hname => ?_⟩
      rw [hbinding.params, params, List.map_append, List.mem_append] at hname
      rw [hvalues]
      refine hname.imp (fun hfixed => ?_) fun hlist => ⟨rfl, ?_⟩
      · simpa [Function.comp_def, Param.name] using hfixed
      · split at hlist
        · next hv => exact ⟨hv, List.mem_singleton.1 hlist⟩
        · cases hlist
    · obtain ⟨packed, hparams, hvalues, hbody⟩ := hforwarders f hf
      refine ⟨_, ⟨hbody, List.forall_mem_singleton.2 rfl⟩, fun i _ name _ hname => .inl ?_⟩
      rw [hparams] at hname
      simpa [Function.comp_def, Param.name] using hname
  · obtain ⟨packed, -, hvalues, hbody⟩ := hforwarders f hf
    exact ⟨packed, hvalues, hbody⟩

/-- A variadic method, which can be passed two values to be packed. -/
theorem collects_first_variadic : ∃ b,
    ({ owner := { name := "ObjFn" }
       method := { name := "Call", returnType := "Value", kind := .variadic } } : Member).binding
      { debugGc := true } = .ok b ∧
    ∃ f ∈ b.forwarders, f.values = ["receiver", "va0", "va1"] ∧ f.program.body =
      [.collect f.values, .forward "binding_ObjFn_Call_0" ["receiver"] ["va0", "va1"]] := by
  have hrun : (do
      let b ← ({ owner := { name := "ObjFn" }
                 method := { name := "Call", returnType := "Value", kind := .variadic } } :
        Member).binding { debugGc := true }
      return (b.trampoline.name, b.forwarders[2]?.map Function.values)) =
        (.ok ("binding_ObjFn_Call_0", some ["receiver", "va0", "va1"]) : Except BindError _) := by
    decide +kernel
  obtain ⟨b, hb, hparts⟩ := bind_eq_ok.1 hrun
  obtain ⟨hname, hvalues⟩ := Prod.mk.inj (Except.ok.inj hparts)
  obtain ⟨f, hf, hvalues⟩ := Option.map_eq_some_iff.1 hvalues
  obtain ⟨packed, hall, hbody⟩ := (collects_first hb rfl).2 f (List.mem_of_getElem? hf)
  have hpacked : ["receiver"] ++ packed = ["receiver", "va0", "va1"] := hall.symm.trans hvalues
  refine ⟨b, hb, f, List.mem_of_getElem? hf, hvalues, ?_⟩
  rw [hbody, hname, List.append_cancel_left hpacked]
  rfl

/-- A variadic trampoline passes its list on, and its collection spares nothing in the list. -/
theorem collect_misses_list : ∃ m b,
    (collectClasses [⟨"a.h", "class ObjFn \x7b\nWREN_METHOD(variadic) Value Call(" ++
      "const std::initializer_list<Value> &values);\n"⟩]).map (·.flatMap (·.members)) = .ok [m] ∧
    m.binding { debugGc := true } = .ok b ∧
    b.trampoline.program = {
      name := "binding_ObjFn_Call_0"
      params := [.value "receiver", .list "varargs"]
      body := [
        .collect ["receiver"],
        .declare (.object "ObjFn") "obj" (.receiver "ObjFn" "ObjFn.call()" "receiver"),
        .declare .value "ret" (.native ⟨.receiver, "Call", ["varargs"]⟩),
        .returnBoxed .itself] } ∧
    ∀ roots rest, b.trampoline.program.CollectsFirst roots rest →
      "varargs" ∉ roots ∧ ∃ i ∈ rest, "varargs" ∈ i.uses := by
  have hmembers : (collectClasses [⟨"a.h", "class ObjFn \x7b\nWREN_METHOD(variadic) Value Call(" ++
      "const std::initializer_list<Value> &values);\n"⟩]).map (·.flatMap (·.members)) = .ok [{
        owner := { name := "ObjFn", line := 1, methods := [
            { name := "Call", returnType := "Value", kind := .variadic, line := 2 }] }
        method := { name := "Call", returnType := "Value", kind := .variadic, line := 2 } }] := by
    decide +kernel
  have hrun : (do
      let b ← ({
        owner := { name := "ObjFn", line := 1, methods := [
            { name := "Call", returnType := "Value", kind := .variadic, line := 2 }] }
        method := { name := "Call", returnType := "Value", kind := .variadic, line := 2 } } :
          Member).binding { debugGc := true }
      return b.trampoline.program) = (.ok {
        name := "binding_ObjFn_Call_0"
        params := [.value "receiver", .list "varargs"]
        body := [
          .collect ["receiver"],
          .declare (.object "ObjFn") "obj" (.receiver "ObjFn" "ObjFn.call()" "receiver"),
          .declare .value "ret" (.native ⟨.receiver, "Call", ["varargs"]⟩),
          .returnBoxed .itself] } : Except BindError _) := by
    decide +kernel
  obtain ⟨b, hb, hprogram⟩ := bind_eq_ok.1 hrun
  obtain hprogram := Except.ok.inj hprogram
  refine ⟨_, b, hmembers, hb, hprogram, fun roots rest hfirst => ?_⟩
  have hbody := hfirst.1
  rw [hprogram] at hbody
  obtain ⟨hroots, rfl⟩ := List.cons.inj hbody
  obtain rfl := Instruction.collect.inj hroots
  decide

end Member

end WrenGlue
