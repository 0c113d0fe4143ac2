import WrenGlue.Proofs.Bindings.Execution

/-! What a trampoline does: it makes one native call, with each argument converted from the parameter
of its number by the check of its declared type. -/

namespace WrenGlue

open WrenGlue.Bindings WrenGlue.Cpp
open WrenGlue.Header (Argument MethodDecl)
open WrenGlue.Wren (CallForm)

/-! ### What is expected -/

/-- A passed value as the native method gets it, for a declared type that arguments can have. Errors
show the method as `shown`, and the argument as `label` with the number `index`. -/
def Cpp.DeclaredType.converted? (type : DeclaredType) (shown label : String) (index : Nat)
    (value : Term) : Option Term :=
  match type with
  | .value => some value
  | .object name => some (.checked (.object name) shown label index value)
  | .string => some (.checked .string shown label index value)
  | .double => some (.checked .double shown label index value)
  | .int => some (.checked .int shown label index value)
  | .void | .bool | .unsupported _ => none

/-- What goes back to the runtime, for a type that native methods can return. -/
def Cpp.DeclaredType.returned? (type : DeclaredType) : Option Returned :=
  match type with
  | .void => some .null
  | .value => some (.boxed .itself (.ofType type .result))
  | .string => some (.boxed .newString (.ofType type .result))
  | .bool => some (.boxed .boolObject (.ofType type .result))
  | .int | .double => some (.boxed .number (.ofType type .result))
  | .object _ => some (.boxed .nullable (.ofType type .result))
  | .unsupported _ => none

namespace Member

/-- The number of the argument at `i` among those that Wren code passes, from 1. It is 0 for an
argument that carries the receiver. -/
def ordinal (m : Member) (i : Nat) : Nat := if m.foldsReceiver then i else i + 1

/-- The argument at `i` as the native method gets it. -/
def converted? (m : Member) (shown : String) (i : Nat) (a : Argument) : Option Term :=
  (a.declaredType.converted? shown a.shownName (m.ordinal i) (.passed ("arg" ++ toString i))).map
    (.ofType a.declaredType)

/-- The checked receiver. -/
def receiverObject (m : Member) (shown : String) : Term :=
  .ofType (.object m.owner.name) (.receiver m.owner.name shown (.passed "receiver"))

/-- What the native method is called on. -/
def target (m : Member) (shown : String) : Target :=
  if m.method.isStatic then .static m.owner.name
  else match m.owner.role with
    | .ordinary => .object (m.receiverObject shown)
    | .number => .singleton m.owner.name
    | .null => .nullPointer m.owner.name

end Member

/-! ### Names -/

namespace Bindings

theorem nodup_numbered {front : String} (h : front.toList.getLast?.any Char.isDigit = false)
    (n : Nat) : (numbered front n).Nodup :=
  List.nodup_range.map fun _ _ he => (Text.append_toString_inj h h he).2

theorem head_numbered {front : String} {c : Char} (h : front.toList.head? = some c) {n : Nat}
    {name : String} (hn : name ∈ numbered front n) : name.toList.head? = some c := by
  obtain ⟨i, -, rfl⟩ := List.mem_map.1 hn
  rw [String.toList_append, List.head?_append, h]
  rfl

end Bindings

namespace Header.MethodDecl.IsPositioned

variable {d : MethodDecl}

theorem map_eq (h : d.IsPositioned) {β : Type} (f : Nat → β) :
    d.args.map (f ·.position) = (List.range d.args.length).map f := by
  refine List.ext_getElem (by simp) fun i hi _ => ?_
  rw [List.length_map] at hi
  simp [h i hi]

theorem zipIdx_eq (h : d.IsPositioned) : d.args.zipIdx = d.args.map fun a => (a, a.position) := by
  refine List.ext_getElem (by simp) fun i hi _ => ?_
  rw [List.length_zipIdx] at hi
  simp [h i hi]

end Header.MethodDecl.IsPositioned

namespace Member

variable {m : Member}

/-- All names that a trampoline of `n` arguments can have. -/
theorem nodup_allLocals (n : Nat) : (["receiver"] ++ numbered "arg" n ++ ["varargs"] ++
    (["obj"] ++ numbered "typedArg" n ++ ["ret"])).Nodup := by
  have hother : ∀ name ∈ ["receiver", "varargs", "obj", "ret"],
      name.toList.head? ≠ some 'a' ∧ name.toList.head? ≠ some 't' := by decide
  have hargs : (["receiver", "varargs", "obj", "ret"] ++ numbered "arg" n).Nodup :=
    nodup_append_of_head (c := 'a') (by decide) (nodup_numbered (by decide) n)
      (fun name hn => (hother name hn).1) fun _ hn => head_numbered rfl hn
  have hall : (["receiver", "varargs", "obj", "ret"] ++ numbered "arg" n ++
      numbered "typedArg" n).Nodup := by
    refine nodup_append_of_head (c := 't') hargs (nodup_numbered (by decide) n) (fun name hn => ?_)
      fun _ hn => head_numbered rfl hn
    rcases List.mem_append.1 hn with hn | hn
    · exact (hother name hn).2
    · rw [head_numbered (c := 'a') rfl hn]
      decide
  refine (List.Perm.nodup_iff ?_).1 hall
  rw [List.perm_iff_count]
  intro name
  simp only [List.count_append, List.count_cons, List.count_nil]
  omega

/-- The parameters of a trampoline and the variables that it declares have different names. -/
theorem nodup_locals (h : m.method.IsPositioned) :
    (m.params.map Param.name ++ ((if m.takesReceiver then ["obj"] else []) ++
      m.method.args.map (·.typedName) ++ ["ret"])).Nodup := by
  have hraw : m.method.args.map (·.rawName) = numbered "arg" m.method.args.length :=
    h.map_eq fun i => "arg" ++ toString i
  have htyped : m.method.args.map (·.typedName) = numbered "typedArg" m.method.args.length :=
    h.map_eq fun i => "typedArg" ++ toString i
  have hparams : m.params.map Param.name = (if m.takesReceiver then ["receiver"] else []) ++
      numbered "arg" m.method.args.length ++ if m.method.isVariadic then ["varargs"] else [] := by
    rw [params, fixedParams, hraw]
    split <;> split <;> simp [Param.name, valuesParam, Function.comp_def]
  refine List.Nodup.sublist ?_ (nodup_allLocals m.method.args.length)
  rw [hparams, htyped]
  have hsingle : ∀ (p : Bool) (name : String), (if p then [name] else []).Sublist [name] := by
    intro p name
    cases p <;> simp
  exact (((hsingle _ _).append_right _).append (hsingle _ _)).append
    (((hsingle _ _).append_right _).append_right _)

end Member

/-! ### Runs -/

namespace Bindings.Frame

variable {m : Member} {s : Frame}

theorem value?_define_of_some {name : String} {value : Term} (h : s.value? name = some value)
    (vars : List (String × Term)) : (s.define vars).value? name = some value := by
  rw [value?_define, h]
  rfl

/-- Variables that are defined have their values. -/
theorem mapM_value?_define {names : List String} {values : List Term}
    (hlen : names.length = values.length) (hn : (s.names ++ names).Nodup) :
    names.mapM (s.define (names.zip values)).value? = some values := by
  induction names generalizing s values with
  | nil =>
    cases values with
    | nil => rfl
    | cons => cases hlen
  | cons name names ih =>
    cases values with
    | nil => cases hlen
    | cons value values =>
      have hnew : s.value? name = none := by
        rw [value?_eq_none]
        intro hold
        exact (List.nodup_append.1 hn).2.2 name hold name List.mem_cons_self rfl
      have hfirst : (s.define ((name :: names).zip (value :: values))).value? name = some value := by
        rw [value?_define, hnew, List.zip_cons_cons, List.lookup_cons_self]
        rfl
      have hrest := ih (s := s.define [(name, value)]) (Nat.succ.inj hlen) (by simpa using hn)
      rw [define_define] at hrest
      rw [List.mapM_cons, hfirst]
      exact congrArg (·.bind fun rest => some (value :: rest)) hrest

theorem value?_start {params : List Param} {name : String} (h : name ∈ params.map Param.name) :
    (start params).value? name = some (.passed name) := by
  induction params with
  | nil => cases h
  | cons p params ih =>
    rw [value?, start, List.map_cons, List.lookup_cons]
    by_cases hp : name = p.name
    · simp [hp]
    · rw [beq_false_of_ne hp]
      exact ih ((List.mem_cons.1 h).resolve_left hp)

theorem run_cons {i : Instruction} {rest : List Instruction} (h : s.returned = none) :
    s.run (i :: rest) = (s.step i).bind (run · rest) := by
  rw [run, guard, if_pos h]
  rfl

theorem run_collectFirst (options : Options) {roots : List String} {values : List Term}
    (h : roots.mapM s.value? = some values) (hr : s.returned = none) :
    s.run ((collectFirst options roots).map Statement.instruction) =
      some (s.emit (if options.debugGc then [.collected values] else [])) := by
  rw [collectFirst]
  split
  · rw [List.map_singleton, run_cons hr, Statement.instruction, step, h]
    rfl
  · rw [emit_nil]
    rfl

/-- The check of an argument finds what is expected of its declared type. -/
theorem eval_value {shown : String} {a : Argument} {u : Unboxing} (hu : m.unboxing shown a = .ok u)
    (h : s.value? a.rawName = some (.passed a.rawName)) :
    u.type = a.declaredType ∧ u.target = a.typedName ∧ ∃ value,
      a.declaredType.converted? shown a.shownName (m.errorIndex a) (.passed a.rawName) =
        some value ∧ s.eval u.value = some (value, s) := by
  rw [Member.unboxing] at hu
  cases ht : a.declaredType with
  | void | bool | unsupported => simp [ht, Check.ofType?, Member.fail] at hu
  | value | int | double | string | object =>
    simp only [ht, Check.ofType?, Except.ok.injEq] at hu
    subst hu
    refine ⟨rfl, rfl, _, rfl, ?_⟩
    rw [Unboxing.value, eval, h]
    rfl

/-- Each argument is converted and kept in a variable of its own. -/
theorem run_unboxings {shown : String} {args : List Argument} {us : List Unboxing}
    (hus : List.Forall₂ (fun a u => m.unboxing shown a = .ok u) args us)
    (h : ∀ a ∈ args, s.value? a.rawName = some (.passed a.rawName))
    (hn : (s.names ++ args.map (·.typedName)).Nodup) (hr : s.returned = none) : ∃ values,
      List.Forall₂ (fun a value => (a.declaredType.converted? shown a.shownName (m.errorIndex a)
        (.passed a.rawName)).map (.ofType a.declaredType) = some value) args values ∧
      s.run ((us.map Statement.unbox).map Statement.instruction) =
        some (s.define ((args.map (·.typedName)).zip values)) := by
  induction hus generalizing s with
  | nil => exact ⟨[], .nil, by simp [run]⟩
  | @cons a u args us hu _ ih =>
    rw [List.forall_mem_cons] at h
    obtain ⟨htype, htarget, value, hvalue, heval⟩ := eval_value hu h.1
    have hnew : s.value? a.typedName = none := by
      rw [value?_eq_none]
      intro hold
      exact (List.nodup_append.1 hn).2.2 _ hold _ List.mem_cons_self rfl
    obtain ⟨values, hvalues, hrun⟩ := ih (s := s.define [(a.typedName, .ofType a.declaredType value)])
      (fun a ha => value?_define_of_some (h.2 a ha) _) (by simpa using hn) hr
    refine ⟨.ofType a.declaredType value :: values, .cons (by rw [hvalue]; rfl) hvalues, ?_⟩
    have hstep : s.step (Statement.unbox u).instruction =
        some (s.define [(a.typedName, .ofType a.declaredType value)]) := by
      rw [Statement.instruction, step, htype, htarget, hnew, heval]
      rfl
    rw [List.map_cons, List.map_cons, run_cons hr, hstep, Option.bind_some, hrun, define_define]
    rfl

/-- What the native call returns is kept as a variable of its type, and goes back boxed. -/
theorem run_boxed {type : DeclaredType} {rule : BoxRule} {call : NativeCall} {event : Event}
    (h : s.call call = some (s.emit [event])) (hnew : "ret" ∉ s.names) (hr : s.returned = none) :
    ∃ s', s.run (((Boxing.boxed type rule).statements call).map Statement.instruction) = some s' ∧
      s'.events = s.events ++ [event] ∧
      s'.returned = some (.boxed rule (.ofType type .result)) := by
  have hguard : s.value? "ret" = none := value?_eq_none.2 hnew
  have hstore : s.step (Statement.store type call).instruction =
      some ((s.emit [event]).define [("ret", .ofType type .result)]) := by
    rw [Statement.instruction, step, hguard, eval, h]
    rfl
  have hret : ((s.emit [event]).define [("ret", .ofType type .result)]).value? "ret" =
      some (.ofType type .result) := by
    rw [value?_define, value?_emit, hguard]
    rfl
  refine ⟨{ (s.emit [event]).define [("ret", .ofType type .result)] with
    returned := some (.boxed rule (.ofType type .result)) }, ?_, rfl, rfl⟩
  rw [Boxing.statements, List.map_cons, run_cons hr, hstore, Option.bind_some, List.map_singleton,
    run_cons (by simpa using hr), Statement.instruction, step, hret]
  rfl

/-- The native call is made once, and what it returns goes back as the declared type asks. -/
theorem run_boxing {boxing : Boxing} (hb : m.boxing = .ok boxing) {call : NativeCall}
    {event : Event} (h : s.call call = some (s.emit [event])) (hnew : "ret" ∉ s.names)
    (hr : s.returned = none) : ∃ returned s',
      (DeclaredType.ofText m.method.returnType).returned? = some returned ∧
      s.run ((boxing.statements call).map Statement.instruction) = some s' ∧
      s'.events = s.events ++ [event] ∧ s'.returned = some returned := by
  rw [Member.boxing] at hb
  cases ht : DeclaredType.ofText m.method.returnType with
  | unsupported => simp [ht, Boxing.ofType?, Member.fail] at hb
  | void =>
    simp only [ht, Boxing.ofType?, Except.ok.injEq] at hb
    subst hb
    refine ⟨.null, { s.emit [event] with returned := some .null }, rfl, ?_, rfl, rfl⟩
    rw [Boxing.statements, List.map_cons, run_cons hr, Statement.instruction, step, h,
      Option.bind_some, List.map_singleton, run_cons (by simpa using hr)]
    rfl
  | value | bool | int | double | string | object =>
    simp only [ht, Boxing.ofType?, Except.ok.injEq] at hb
    subst hb
    obtain ⟨s', hrun, hevents, hreturned⟩ := run_boxed h hnew hr
    exact ⟨_, s', rfl, hrun, hevents, hreturned⟩

end Bindings.Frame

namespace Member

/-- The state at the start of a trampoline: each parameter holds what was passed in it, and the
variables to be declared are new. -/
structure Enters (m : Member) (s : Frame) : Prop where
  params : ∀ name ∈ m.params.map Param.name, s.value? name = some (.passed name)
  locals : (s.names ++ ((if m.takesReceiver then ["obj"] else []) ++
    m.method.args.map (·.typedName) ++ ["ret"])).Nodup
  returned : s.returned = none

/-- The state in front of the native call: what it looks at has been checked. -/
structure IsReady (m : Member) (shown : String) (args : List Term) (s : Frame) : Prop where
  object : m.takesReceiver = true → s.value? "obj" = some (m.receiverObject shown)
  args : (m.method.args.map (·.typedName)).mapM s.value? = some args
  rest : m.method.isVariadic = true → s.value? valuesParam = some (.passed valuesParam)
  fresh : "ret" ∉ s.names
  returned : s.returned = none

variable {m : Member} {s : Frame} {shown : String} {options : Options} {form : CallForm}
  {arity : Nat} {b : MethodBinding}

theorem enters_start (h : m.method.IsPositioned) : m.Enters (Frame.start m.params) where
  params _ := Frame.value?_start
  locals := by
    rw [Frame.names_start]
    exact nodup_locals h
  returned := rfl

theorem Enters.emit (h : m.Enters s) (events : List Event) : m.Enters (s.emit events) :=
  ⟨h.params, h.locals, h.returned⟩

theorem Enters.fixedParams (h : m.Enters s) :
    ∀ name ∈ m.fixedParams, s.value? name = some (.passed name) := by
  intro name hname
  refine h.params name ?_
  rw [Member.params, List.map_append, List.map_map]
  exact List.mem_append_left _ (List.mem_map_of_mem hname)

theorem Enters.run_collect (h : m.Enters s) (options : Options) :
    s.run ((collectFirst options m.fixedParams).map Statement.instruction) = some (s.emit
      (if options.debugGc then [.collected (m.fixedParams.map .passed)] else [])) :=
  Frame.run_collectFirst options
    (mapM_eq_pure (List.forall₂_map_right_iff.2 (List.forall₂_same.2 h.fixedParams))) h.returned

/-- The receiver as the variable that is declared for it. -/
def receiverVars (m : Member) (shown : String) : List (String × Term) :=
  if m.takesReceiver then [("obj", m.receiverObject shown)] else []

theorem map_fst_receiverVars (m : Member) (shown : String) :
    (m.receiverVars shown).map Prod.fst = if m.takesReceiver then ["obj"] else [] := by
  rw [receiverVars]
  split <;> rfl

theorem Enters.obj_not_mem (h : m.Enters s) (ht : m.takesReceiver = true) : "obj" ∉ s.names :=
  fun hold => (List.nodup_append.1 h.locals).2.2 _ hold "obj" (by simp [ht]) rfl

theorem Enters.run_receive (h : m.Enters s) (shown : String) :
    s.run ((if m.takesReceiver then [.receive m.owner.name shown] else []).map
      Statement.instruction) = some (s.define (m.receiverVars shown)) := by
  rw [receiverVars]
  split
  · next ht =>
    have hreceiver : s.value? "receiver" = some (.passed "receiver") :=
      h.fixedParams _ (by simp [Member.fixedParams, ht])
    have hguard : s.value? "obj" = none := Frame.value?_eq_none.2 (h.obj_not_mem ht)
    rw [List.map_singleton, Frame.run_cons h.returned, Statement.instruction, Frame.step, Frame.eval,
      hreceiver, hguard]
    rfl
  · rw [Frame.define_nil]
    rfl

/-- The arguments are checked, and then all is ready for the native call. -/
theorem Enters.exists_ready (h : m.Enters s) {unboxings : List Unboxing}
    (hu : m.method.args.mapM (m.unboxing shown) = .ok unboxings) : ∃ args s',
      List.Forall₂ (fun a value => (a.declaredType.converted? shown a.shownName (m.errorIndex a)
        (.passed a.rawName)).map (.ofType a.declaredType) = some value) m.method.args args ∧
      (s.define (m.receiverVars shown)).run ((unboxings.map .unbox).map Statement.instruction) =
        some s' ∧ m.IsReady shown args s' ∧ s'.events = s.events := by
  have hlocals := h.locals
  rw [← map_fst_receiverVars m shown, ← List.append_assoc, ← List.append_assoc,
    ← Frame.names_define] at hlocals
  obtain ⟨hchecked, -, hfresh⟩ := List.nodup_append.1 hlocals
  have hraw : ∀ a ∈ m.method.args,
      (s.define (m.receiverVars shown)).value? a.rawName = some (.passed a.rawName) := fun a ha =>
    Frame.value?_define_of_some
      (h.fixedParams _ (List.mem_append_right _ (List.mem_map_of_mem ha))) _
  obtain ⟨values, hvalues, hrun⟩ :=
    Frame.run_unboxings (forall₂_of_mapM_eq_ok hu) hraw hchecked h.returned
  have hlen : (m.method.args.map (·.typedName)).length = values.length := by
    rw [List.length_map, hvalues.length_eq]
  refine ⟨values, _, hvalues, hrun, ⟨fun ht => ?_, Frame.mapM_value?_define hlen hchecked,
    fun hv => ?_, ?_, h.returned⟩, rfl⟩
  · refine Frame.value?_define_of_some ?_ _
    rw [Frame.value?_define, Frame.value?_eq_none.2 (h.obj_not_mem ht), receiverVars, if_pos ht]
    rfl
  · have hvalue : s.value? valuesParam = some (.passed valuesParam) :=
      h.params _ (by simp [Member.params, hv, Param.name])
    exact Frame.value?_define_of_some (Frame.value?_define_of_some hvalue _) _
  · intro hold
    rw [Frame.names_define, List.map_fst_zip hlen.le] at hold
    exact hfresh _ hold "ret" List.mem_cons_self rfl

theorem IsReady.call {values : List Term} (h : m.IsReady shown values s) :
    s.call m.nativeCall = some (s.emit [.invoked (m.target shown) m.method.name
      (values ++ if m.method.isVariadic then [.passed valuesParam] else [])]) := by
  have htarget : s.target? m.callee = some (m.target shown) := by
    rw [Member.callee, Member.target]
    cases hs : m.method.isStatic with
    | true => rfl
    | false =>
      cases hrole : m.owner.role with
      | number | null => rfl
      | ordinary =>
        have ht : m.takesReceiver = true := by simp [Member.takesReceiver, hs, hrole]
        simp [Frame.target?, h.object ht]
  have hall : m.nativeCall.args.mapM s.value? =
      some (values ++ if m.method.isVariadic then [.passed valuesParam] else []) := by
    rw [Member.nativeCall, List.mapM_append, h.args]
    split
    · next hv => simp [h.rest hv]
    · simp
  have hcallee : m.nativeCall.callee = m.callee := rfl
  rw [Frame.call, hcallee, htarget, hall]
  rfl

/-- The trampoline runs to its end. -/
theorem IsBinding.exists_execute (hpos : m.method.IsPositioned)
    (h : m.IsBinding options form arity b) :
    ∃ shown args returned, m.shownSignature = .ok shown ∧
      m.method.args.zipIdx.mapM (fun (a, i) => m.converted? shown i a) = some args ∧
      (DeclaredType.ofText m.method.returnType).returned? = some returned ∧
      b.trampoline.program.execute = some {
        events := (if options.debugGc then [.collected (m.fixedParams.map .passed)] else []) ++
          [.invoked (m.target shown) m.method.name
            (args ++ if m.method.isVariadic then [.passed valuesParam] else [])]
        returned } := by
  obtain ⟨shown, unboxings, boxing, hshown, hunboxings, hboxing, hbody⟩ := h.body
  have hstart := enters_start hpos
  have hcollect := hstart.run_collect options
  have hentered := hstart.emit
    (if options.debugGc then [.collected (m.fixedParams.map .passed)] else [])
  have hreceive := hentered.run_receive shown
  obtain ⟨args, s, hargs, hunbox, hready, hevents⟩ := hentered.exists_ready hunboxings
  obtain ⟨returned, s', hreturned, hrun, hevents', hend⟩ :=
    Frame.run_boxing hboxing hready.call hready.fresh hready.returned
  have hparams : (b.trampoline.params.map Param.name).Nodup := by
    rw [h.params]
    exact (List.nodup_append.1 (nodup_locals hpos)).1
  have hall : (Frame.start b.trampoline.params).run b.trampoline.program.body = some s' := by
    rw [h.params, Function.program, hbody]
    simp only [List.map_append, Frame.run_append, hcollect, hreceive, hunbox, hrun, Option.bind_some]
  have hexecute : b.trampoline.program.execute = some ⟨s'.events, returned⟩ :=
    Program.execute_of_run hparams hall hend
  refine ⟨shown, args, returned, hshown, ?_, hreturned, ?_⟩
  · rw [hpos.zipIdx_eq, List.mapM_map]
    exact mapM_eq_pure hargs
  · rw [hexecute, hevents', hevents]
    rfl

/-- A trampoline calls the native method once, on the target that its class asks for, with each
argument converted as its declared type asks from the parameter of its number, and returns what is
made of the result. No name is declared twice or used before it is declared. -/
theorem execute_trampoline (hpos : m.method.IsPositioned) (h : m.binding options = .ok b) :
    ∃ shown args returned, m.shownSignature = .ok shown ∧
      m.method.args.zipIdx.mapM (fun (a, i) => m.converted? shown i a) = some args ∧
      (DeclaredType.ofText m.method.returnType).returned? = some returned ∧
      b.trampoline.program.names.Nodup ∧ b.trampoline.program.IsScoped ∧
      b.trampoline.program.execute = some {
        events := (if options.debugGc then [.collected (m.fixedParams.map .passed)] else []) ++
          [.invoked (m.target shown) m.method.name
            (args ++ if m.method.isVariadic then [.passed valuesParam] else [])]
        returned } ∧
      (m.HasWordNames → program? b.trampoline.code.lines = some b.trampoline.program) := by
  obtain ⟨form, arity, hbinding⟩ := exists_isBinding h
  obtain ⟨shown, args, returned, hshown, hargs, hreturned, hexecute⟩ :=
    hbinding.exists_execute hpos
  obtain ⟨hnodup, hscoped⟩ := Program.wellScoped_of_execute hexecute
  exact ⟨shown, args, returned, hshown, hargs, hreturned, hnodup, hscoped, hexecute,
    hbinding.program?_trampoline⟩

/-- A variadic method of numbers, whose first argument is the receiver. -/
theorem execute_trampoline_folded : ∃ m : Member,
    m = { owner := { name := "ObjNumClass" }
          method := {
            name := "Clamp"
            returnType := "double"
            kind := .variadic
            args := [{ type := "double", name := "self", position := 0 },
              { type := "int", name := "top", position := 1, label := some "upper bound" }] } } ∧
    m.method.IsPositioned ∧ ∃ b, m.binding { debugGc := true } = .ok b ∧
    b.trampoline.program.execute = some {
      events := [
        .collected [.passed "arg0", .passed "arg1"],
        .invoked (.singleton "ObjNumClass") "Clamp" [
          .ofType .double (.checked .double "ObjNumClass.clamp(_)" "self" 0 (.passed "arg0")),
          .ofType .int (.checked .int "ObjNumClass.clamp(_)" "upper bound" 1 (.passed "arg1")),
          .passed "varargs"]]
      returned := .boxed .number (.ofType .double .result) } := by
  have hpos : Header.MethodDecl.IsPositioned {
      name := "Clamp"
      returnType := "double"
      kind := .variadic
      args := [{ type := "double", name := "self", position := 0 },
        { type := "int", name := "top", position := 1, label := some "upper bound" }] } := by
    intro i hi
    match i with
    | 0 | 1 => rfl
  refine ⟨_, rfl, hpos, ?_⟩
  refine (exists_eq_ok (by decide +kernel)).imp fun b hb => ⟨hb, ?_⟩
  obtain ⟨shown, args, returned, hshown, hargs, hreturned, -, -, hexecute, -⟩ :=
    execute_trampoline hpos hb
  obtain rfl : shown = "ObjNumClass.clamp(_)" := by
    refine Except.ok.inj (hshown.symm.trans ?_)
    decide +kernel
  cases hargs
  cases hreturned
  exact hexecute

end Member

/-- Whatever the sources of a generated text are, each of their methods has a trampoline that can be
executed: the scanner gives the arguments the positions that this takes. -/
theorem exists_execute_of_generate {options : Options} {sources : List Source} {text : String}
    (h : generate options sources = .ok text) : ∃ classes, collectClasses sources = .ok classes ∧
      ∀ c ∈ classes, ∀ m ∈ c.members, ∃ b, m.binding options = .ok b ∧
        program? b.trampoline.code.lines = some b.trampoline.program ∧
        ∃ e, b.trampoline.program.execute = some e := by
  obtain ⟨classes, u, hclasses, hu, -⟩ := generate_eq_ok_iff.1 h
  obtain ⟨rfl, -⟩ := BindingFile.eq_of_ofClasses hu
  refine ⟨classes, hclasses, fun c hc m hm => ?_⟩
  obtain ⟨bound, -, hbinds⟩ :=
    exists_mem_of_forall₂ (BindingFile.isFor hu).bindings.flip hc
  obtain ⟨b, -, hb⟩ := exists_mem_of_forall₂ hbinds.2.flip hm
  obtain ⟨form, arity, hbinding⟩ := Member.exists_isBinding hb
  have hwords := hasWordNames_of_mem_members (hasWordNames_of_collectClasses hclasses c hc) hm
  obtain ⟨d, hd, rfl⟩ := List.mem_map.1 hm
  obtain ⟨_, _, _, -, -, -, hexecute⟩ :=
    hbinding.exists_execute (isPositioned_of_collectClasses hclasses c hc d hd)
  exact ⟨b, hb, hbinding.program?_trampoline hwords, _, hexecute⟩

end WrenGlue
