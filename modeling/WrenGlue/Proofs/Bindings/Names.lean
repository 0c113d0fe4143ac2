import WrenGlue.Proofs.Bindings.Binding
import WrenGlue.Proofs.Text.Name
import WrenGlue.Bindings.Dispatch
import Mathlib.Data.List.Perm.Basic

/-! The names of generated functions. Only trampolines are checked for duplicates. All other names
are told apart by how they are made: a trampoline ends with an underscore and a number, a forwarder
with `_va` and a number. -/

namespace WrenGlue

open WrenGlue.Bindings WrenGlue.Cpp WrenGlue.Text
open WrenGlue.Header (ClassDecl)
open WrenGlue.Wren (CallForm)

namespace Member

theorem forwarderName_inj {target target' : String} {count count' : Nat}
    (h : forwarderName target count = forwarderName target' count') :
    target = target' ∧ count = count' := by
  have hva : ∀ t : String, (t ++ "_va").toList.getLast?.any Char.isDigit = false := by
    intro t
    rw [@getLast?_toList_append t "_va" 'a' rfl]
    decide
  obtain ⟨hfront, hcount⟩ := append_toString_inj (hva target) (hva target') h
  rw [← String.toList_inj, String.toList_append, String.toList_append] at hfront
  exact ⟨String.toList_inj.1 (List.append_cancel_right hfront), hcount⟩

theorem trampolineName_ne_forwarderName (m : Member) (arity : Nat) (target : String)
    (count : Nat) : m.trampolineName arity ≠ forwarderName target count := by
  intro h
  have hunder : ("binding_" ++ m.owner.name ++ "_" ++ m.method.name ++ "_").toList.getLast? =
      some '_' := getLast?_toList_append _ rfl
  have hva : (target ++ "_va").toList.getLast? = some 'a' := getLast?_toList_append _ rfl
  obtain ⟨hfront, -⟩ := append_toString_inj (by rw [hunder]; decide) (by rw [hva]; decide) h
  rw [hfront, hva] at hunder
  cases hunder

namespace IsBinding

variable {m m' : Member} {options options' : Options} {form form' : CallForm} {arity arity' : Nat}
  {b b' : MethodBinding}

theorem mem_names (h : m.IsBinding options form arity b) {name : String}
    (hn : name ∈ b.functions.map (·.name)) :
    name = b.trampoline.name ∨ ∃ count, name = forwarderName b.trampoline.name count := by
  rw [MethodBinding.functions, List.map_cons, List.mem_cons] at hn
  refine hn.imp_right fun hn => ?_
  rw [h.forwarders] at hn
  split at hn
  · rw [List.map_map] at hn
    obtain ⟨count, -, rfl⟩ := List.mem_map.1 hn
    exact ⟨count, by rw [h.name]; rfl⟩
  · cases hn

/-- A name belongs to the functions of one trampoline only. -/
theorem trampoline_eq (h : m.IsBinding options form arity b)
    (h' : m'.IsBinding options' form' arity' b') {name : String}
    (hn : name ∈ b.functions.map (·.name)) (hn' : name ∈ b'.functions.map (·.name)) :
    b.trampoline.name = b'.trampoline.name := by
  rcases h.mem_names hn with rfl | ⟨count, rfl⟩
  · rcases h'.mem_names hn' with he | ⟨count', he⟩
    · exact he
    · rw [h.name] at he
      exact absurd he (trampolineName_ne_forwarderName m arity _ count')
  · rcases h'.mem_names hn' with he | ⟨count', he⟩
    · rw [h'.name] at he
      exact absurd he.symm (trampolineName_ne_forwarderName m' arity' _ count)
    · exact (forwarderName_inj he).1

theorem nodup_names (h : m.IsBinding options form arity b) :
    (b.functions.map (·.name)).Nodup := by
  rw [MethodBinding.functions, List.map_cons, List.nodup_cons, h.forwarders, h.name]
  split
  · have hmap : ((List.range (maxDispatchArity + 1)).map
        (forwarder options (m.trampolineName arity) m.fixedParams)).map (·.name) =
        (List.range (maxDispatchArity + 1)).map (forwarderName (m.trampolineName arity)) := by
      rw [List.map_map]
      rfl
    rw [hmap]
    refine ⟨fun hm => ?_, List.nodup_range.map fun count count' he => (forwarderName_inj he).2⟩
    obtain ⟨count, -, he⟩ := List.mem_map.1 hm
    exact trampolineName_ne_forwarderName m arity _ count he.symm
  · exact ⟨List.not_mem_nil, List.nodup_nil⟩

theorem head_names (h : m.IsBinding options form arity b) :
    ∀ name ∈ b.functions.map (·.name), name.toList.head? = some 'b' := by
  intro name hn
  rcases h.mem_names hn with rfl | ⟨count, rfl⟩
  · simp [h.name, trampolineName]
  · simp [h.name, trampolineName, forwarderName]

end IsBinding

end Member

namespace Bindings

theorem nodup_dispatchNames (n : Nat) : ((List.range n).map dispatchName).Nodup := by
  refine List.nodup_range.map fun i j h => ?_
  have hdigits : ("functionDispatch".toList).getLast?.any Char.isDigit = false := by decide
  exact (append_toString_inj hdigits hdigits h).2

theorem registerName_injective : Function.Injective registerName := by
  intro a b h
  rw [← String.toList_inj, registerName, registerName, String.toList_append,
    String.toList_append] at h
  exact String.toList_inj.1 (List.append_cancel_left h)

/-- Names of different beginnings are different. -/
theorem nodup_append_of_head {a b : List String} {c : Char} (ha : a.Nodup) (hb : b.Nodup)
    (hac : ∀ name ∈ a, name.toList.head? ≠ some c) (hbc : ∀ name ∈ b, name.toList.head? = some c) :
    (a ++ b).Nodup := by
  rw [List.nodup_append]
  refine ⟨ha, hb, fun name hname other hother he => ?_⟩
  exact hac name hname (he ▸ hbc other hother)

namespace BindingFile.IsFor

variable {u : BindingFile} {classes : List ClassDecl}

theorem exists_isBinding (h : u.IsFor classes) {mb : MethodBinding}
    (hmb : mb ∈ u.classes.flatMap (·.methods)) :
    ∃ (m : Member) (form : CallForm) (arity : Nat), m.IsBinding u.options form arity mb := by
  obtain ⟨b, hb, hmb⟩ := List.mem_flatMap.1 hmb
  obtain ⟨c, -, hbinds⟩ := exists_mem_of_forall₂ h.bindings hb
  obtain ⟨m, -, form, arity, hbinding⟩ := hbinds.exists_isBinding hmb
  exact ⟨m, form, arity, hbinding⟩

/-- The trampolines and forwarders of all methods have different names. -/
theorem nodup_functionNames (h : u.IsFor classes) :
    ((u.classes.flatMap (·.methods)).flatMap fun mb => mb.functions.map (·.name)).Nodup := by
  rw [List.nodup_flatMap]
  constructor
  · intro mb hmb
    obtain ⟨m, form, arity, hbinding⟩ := h.exists_isBinding hmb
    exact hbinding.nodup_names
  · have hpairs := List.pairwise_map.1 h.nodup_symbols
    refine hpairs.imp_of_mem fun {mb mb'} hmb hmb' hne => ?_
    obtain ⟨m, form, arity, hbinding⟩ := h.exists_isBinding hmb
    obtain ⟨m', form', arity', hbinding'⟩ := h.exists_isBinding hmb'
    exact fun name hn hn' => hne (hbinding.trampoline_eq hbinding' hn hn')

theorem nodup_registerNames (h : u.IsFor classes) :
    (u.classes.map fun b => registerName b.name).Nodup := by
  have hmap : (u.classes.map fun b => registerName b.name) =
      (u.classes.map (·.name)).map registerName := by
    rw [List.map_map]
    rfl
  rw [hmap]
  exact h.nodup_classes.map registerName_injective

/-- The functions of all classes have different names. -/
theorem nodup_classNames (h : u.IsFor classes) :
    (u.classes.flatMap fun b => b.methods.flatMap (fun mb => mb.functions.map (·.name)) ++
      [registerName b.name]).Nodup := by
  have hperm := List.flatMap_append_perm u.classes
    (fun b => b.methods.flatMap fun mb => mb.functions.map (·.name)) fun b => [registerName b.name]
  rw [← List.map_eq_flatMap, ← List.flatMap_assoc] at hperm
  refine hperm.nodup (nodup_append_of_head (c := 'r') h.nodup_functionNames h.nodup_registerNames
    (fun name hn => ?_) fun name hn => ?_)
  · obtain ⟨mb, hmb, hn⟩ := List.mem_flatMap.1 hn
    obtain ⟨m, form, arity, hbinding⟩ := h.exists_isBinding hmb
    rw [hbinding.head_names name hn]
    decide
  · obtain ⟨b, -, rfl⟩ := List.mem_map.1 hn
    simp [registerName]

theorem head_classNames (h : u.IsFor classes) : ∀ name ∈ (u.classes.flatMap fun b =>
    b.methods.flatMap (fun mb => mb.functions.map (·.name)) ++ [registerName b.name]),
    name.toList.head? = some 'b' ∨ name.toList.head? = some 'r' := by
  intro name hn
  obtain ⟨b, hb, hn⟩ := List.mem_flatMap.1 hn
  rcases List.mem_append.1 hn with hn | hn
  · obtain ⟨mb, hmb, hn⟩ := List.mem_flatMap.1 hn
    obtain ⟨m, form, arity, hbinding⟩ := h.exists_isBinding (List.mem_flatMap.2 ⟨b, hb, hmb⟩)
    exact .inl (hbinding.head_names name hn)
  · rw [List.mem_singleton.1 hn]
    simp [registerName]

end BindingFile.IsFor

end Bindings

end WrenGlue
