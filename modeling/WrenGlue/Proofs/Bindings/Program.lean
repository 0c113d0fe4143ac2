import WrenGlue.Proofs.Bindings.Instruction

/-! The functions of a method, read back from their lines as lists of instructions. -/

namespace WrenGlue.Bindings

open WrenGlue.Cpp WrenGlue.Text

/-- A function by its instructions. -/
structure Program where
  name : String
  params : List Param
  body : List Instruction
deriving DecidableEq, Repr

def Function.program (f : Function) : Program :=
  ⟨f.name, f.params, f.body.map Statement.instruction⟩

def param? (text : String) : Option Param :=
  match "Value ".toList.isPrefixOf? text.toList with
  | some name => some (.value (String.ofList name))
  | none => do
    let name ← "const std::initializer_list<Value> &".toList.isPrefixOf? text.toList
    return .list (String.ofList name)

/-- The function that lines define. -/
def program? : List String → Option Program
  | [] => none
  | head :: rest => do
    let text ← "static Value ".toList.isPrefixOf? head.toList
    let text ← ") \x7b".toList.isSuffixOf? text
    let (name, params) ← cut? '(' text
    let params ← (nameList params).mapM param?
    guard (rest.getLast? = some "\x7d")
    let body ← rest.dropLast.mapM instruction?
    return ⟨String.ofList name, params, body⟩

theorem param?_text (p : Param) : param? p.text = some p := by
  cases p with
  | value name =>
    rw [param?, Param.text_value, String.toList_append, isPrefixOf?_append]
    simp only [String.ofList_toList]
  | list name =>
    have hvalue : "Value ".toList.isPrefixOf?
        ("const std::initializer_list<Value> &".toList ++ name.toList) = none := by
      simp [List.isPrefixOf?]
    rw [param?, Param.text_list, String.toList_append, hvalue]
    simp only [isPrefixOf?_append, Option.bind_eq_bind, Option.bind_some, String.ofList_toList,
      Option.pure_def]

theorem isListed_param {p : Param} (h : IsWordName p.name) : IsListed p.text := by
  have hcomma := h.not_mem (show isWord ',' = false by decide)
  cases p with
  | value name =>
    rw [Param.text_value]
    exact ⟨by simpa [Param.name] using hcomma, 'V', by simp, by decide⟩
  | list name =>
    rw [Param.text_list]
    exact ⟨by simpa [Param.name] using hcomma, 'c', by simp, by decide⟩

/-- A function is read from its lines, if that holds of every statement. -/
theorem program?_lines {f : Function} (hn : IsWordName f.name)
    (hp : ∀ p ∈ f.params, IsWordName p.name)
    (hb : ∀ s ∈ f.body, instruction? s.text = some s.instruction) :
    program? f.code.lines = some f.program := by
  have hhead : (f.header ++ " \x7b").toList = "static Value ".toList ++ ((f.name.toList ++
      '(' :: (commaList (f.params.map Param.text)).toList) ++ ") \x7b".toList) := by
    simp [Function.header]
  have hparams : (f.params.map Param.text).mapM param? = some f.params := by
    refine mapM_eq_pure (List.forall₂_map_left_iff.2 ?_)
    exact List.forall₂_same.2 fun p _ => param?_text p
  have hbody : (f.body.map Statement.text).mapM instruction? =
      some (f.body.map Statement.instruction) := by
    refine mapM_eq_pure (List.forall₂_map_left_iff.2 (List.forall₂_map_right_iff.2 ?_))
    exact List.forall₂_same.2 hb
  have hlisted : ∀ text ∈ f.params.map Param.text, IsListed text :=
    List.forall_mem_map.2 fun p hm => isListed_param (hp p hm)
  rw [lines_function, program?, hhead]
  simp only [isPrefixOf?_append, isSuffixOf?_append, Option.bind_eq_bind, Option.bind_some,
    cut?_append (hn.not_mem (show isWord '(' = false by decide)), nameList_commaList hlisted,
    hparams, List.getLast?_concat, guard, if_true, Option.pure_def, List.dropLast_concat, hbody,
    String.ofList_toList]
  rfl

end WrenGlue.Bindings

namespace WrenGlue.Member

open WrenGlue.Bindings WrenGlue.Cpp WrenGlue.Text
open WrenGlue.Wren (CallForm)

variable {m : Member} {options : Options} {form : CallForm} {arity : Nat} {b : MethodBinding}

theorem areNames_numbered {front : String} (hne : front ≠ "") (h : IsWordName front) (n : Nat) :
    AreNames (numbered front n) := by
  intro name hname
  refine ⟨?_, isWordName_numbered h n name hname⟩
  obtain ⟨i, -, rfl⟩ := List.mem_map.1 hname
  simp [hne]

theorem instruction?_collectFirst (options : Options) {roots : List String} (h : AreNames roots) :
    ∀ s ∈ collectFirst options roots, instruction? s.text = some s.instruction := by
  intro s hs
  rw [collectFirst] at hs
  split at hs
  · rw [List.mem_singleton.1 hs]
    exact instruction?_collect h
  · cases hs

theorem IsBinding.program?_trampoline (h : m.IsBinding options form arity b)
    (hm : m.HasWordNames) : program? b.trampoline.code.lines = some b.trampoline.program := by
  obtain ⟨shown, unboxings, boxing, hshown, hunboxings, hboxing, hbody⟩ := h.body
  have hs := isQuotable_shownSignature hm hshown
  refine program?_lines ?_ ?_ fun s hmem => ?_
  · rw [h.name]
    exact isWordName_trampolineName hm arity
  · rw [h.params]
    exact isWordName_params m
  · simp only [hbody, List.mem_append, List.mem_map] at hmem
    rcases hmem with ((hmem | hmem) | ⟨u, hu, rfl⟩) | hmem
    · exact instruction?_collectFirst options (fixedParams_spec m) s hmem
    · split at hmem
      · rw [List.mem_singleton.1 hmem]
        exact instruction?_receive hm.owner hs
      · cases hmem
    · obtain ⟨a, -, ha⟩ := mem_of_mapM_eq_ok hunboxings hu
      exact instruction?_unbox ha hs
    · exact instruction?_boxing hm hboxing hmem

theorem program?_forwarder (options : Options) {target : String} (ht : IsWordName target)
    (m : Member) (count : Nat) :
    program? (forwarder options target m.fixedParams count).code.lines =
      some (forwarder options target m.fixedParams count).program := by
  have hvalues : AreNames (numbered "va" count) := areNames_numbered (by decide) (by decide) count
  have hall : AreNames (m.fixedParams ++ numbered "va" count) :=
    List.forall_mem_append.2 ⟨fixedParams_spec m, hvalues⟩
  refine program?_lines (IsBinding.isWordName_forwarderName ht count) ?_ fun s hmem => ?_
  · rw [forwarder, List.forall_mem_map]
    exact fun name hname => (hall name hname).2
  · rw [forwarder, List.mem_append, List.mem_singleton] at hmem
    rcases hmem with hmem | rfl
    · exact instruction?_collectFirst options hall s hmem
    · exact instruction?_forward ht (fixedParams_spec m) hvalues

/-- The functions of a method are read back from their lines. -/
theorem IsBinding.program?_functions (h : m.IsBinding options form arity b)
    (hm : m.HasWordNames) : ∀ f ∈ b.functions, program? f.code.lines = some f.program := by
  rw [MethodBinding.functions, List.forall_mem_cons]
  refine ⟨h.program?_trampoline hm, fun f hf => ?_⟩
  rw [h.forwarders] at hf
  split at hf
  · obtain ⟨count, -, rfl⟩ := List.mem_map.1 hf
    exact program?_forwarder options (isWordName_trampolineName hm arity) m count
  · cases hf

end WrenGlue.Member
