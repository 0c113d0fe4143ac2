import WrenGlue.Proofs.Bindings.Binding

/-! Which classes can be bound, and what is reported of the others. The faults of a list of classes
are listed from the declarations alone, in the order in which they are looked for. Without faults
there are bindings, and else the first fault is the error. -/

namespace WrenGlue

open WrenGlue.Bindings
open WrenGlue.Cpp (DeclaredType)
open WrenGlue.Header (Argument ClassDecl)
open WrenGlue.Wren

/-- Of the faults `faults`, a computation reports the first, and it succeeds if there are none. -/
def Reports {ε α : Type} : Except ε α → List ε → Prop
  | .ok _, faults => faults = []
  | .error e, faults => faults.head? = some e

namespace Reports

variable {ε α β : Type}

theorem pure (a : α) : Reports (ε := ε) (.ok a) [] := rfl

/-- Faults of the first step come before those of the second. -/
theorem bind {x : Except ε α} {f : α → Except ε β} {xs ys : List ε} (hx : Reports x xs)
    (hf : ∀ a, x = .ok a → Reports (f a) ys) : Reports (x >>= f) (xs ++ ys) := by
  cases x with
  | error e =>
    have he : xs.head? = some e := hx
    show (xs ++ ys).head? = some e
    rw [List.head?_append, he, Option.some_or]
  | ok a =>
    obtain rfl : xs = [] := hx
    exact hf a rfl

theorem mapM {l : List α} {f : α → Except ε β} {faults : α → List ε}
    (h : ∀ a, Reports (f a) (faults a)) : Reports (l.mapM f) (l.flatMap faults) := by
  induction l with
  | nil => exact pure []
  | cons a l ih =>
    rw [List.mapM_cons, List.flatMap_cons]
    refine (h a).bind fun b _ => ?_
    rw [← List.append_nil (l.flatMap faults)]
    exact ih.bind fun bs _ => pure (b :: bs)

theorem exists_eq_ok_iff {x : Except ε α} {faults : List ε} (h : Reports x faults) :
    (∃ a, x = .ok a) ↔ faults = [] := by
  cases x with
  | error e =>
    have he : faults.head? = some e := h
    refine ⟨fun ⟨_, hok⟩ => (nomatch hok), fun hnil => ?_⟩
    rw [hnil] at he
    cases he
  | ok a => exact ⟨fun _ => h, fun _ => ⟨a, rfl⟩⟩

theorem eq_error_iff {x : Except ε α} {faults : List ε} (h : Reports x faults) {e : ε} :
    x = .error e ↔ faults.head? = some e := by
  cases x with
  | error e' =>
    have he : faults.head? = some e' := h
    rw [he, Except.error.injEq, Option.some.injEq]
  | ok a =>
    have hnil : faults = [] := h
    simp [hnil]

theorem eq_nil_of_eq_ok {x : Except ε α} {faults : List ε} (h : Reports x faults) {a : α}
    (hx : x = .ok a) : faults = [] :=
  h.exists_eq_ok_iff.1 ⟨a, hx⟩

/-- Two computations that report the same faults have the same outcome, results aside. -/
theorem map_eq_map {x : Except ε α} {y : Except ε β} {faults : List ε} (hx : Reports x faults)
    (hy : Reports y faults) : x.map (fun _ => ()) = y.map fun _ => () := by
  cases hx' : x with
  | error e => rw [hy.eq_error_iff.2 (hx.eq_error_iff.1 hx')]; rfl
  | ok a =>
    obtain ⟨b, rfl⟩ := hy.exists_eq_ok_iff.2 (hx.eq_nil_of_eq_ok hx')
    rfl

end Reports

/-! ### Methods -/

theorem Wren.Operator.suffix_of_ofSuffix? {text : String} {op : Operator}
    (h : Operator.ofSuffix? text = some op) : op.suffix = text := by
  rw [Operator.ofSuffix?] at h
  exact eq_of_beq (@List.find?_some _ (fun op : Operator => op.suffix == text) _ _ h)

/-- Only names in the table of operators, and those of subscripts, begin like the names of
operators. -/
theorem Wren.CallForm.exists_ofNative_iff {native : String} :
    (∃ form, ofNative native = .ok form) ↔ ∀ suffix, native = operatorPrefix ++ suffix →
      native = subscriptGetName ∨ native = subscriptSetName ∨
        ∃ op : Operator, op.suffix = suffix := by
  by_cases hget : native = subscriptGetName
  · exact ⟨fun _ _ _ => .inl hget, fun _ => ⟨.subscriptGet, by subst hget; rfl⟩⟩
  by_cases hset : native = subscriptSetName
  · exact ⟨fun _ _ _ => .inr (.inl hset), fun _ => ⟨.subscriptSet, by subst hset; rfl⟩⟩
  simp only [ofNative, hget, hset, if_false, false_or]
  cases hp : operatorPrefix.toList.isPrefixOf? native.toList with
  | none =>
    refine ⟨fun _ suffix hs => ?_, fun _ => ⟨_, rfl⟩⟩
    rw [hs, String.toList_append, List.isPrefixOf?_eq_some_iff_append_eq.2 rfl] at hp
    cases hp
  | some rest =>
    have hnative : native = operatorPrefix ++ String.ofList rest := by
      rw [← String.toList_inj, String.toList_append, String.toList_ofList]
      exact (List.isPrefixOf?_eq_some_iff_append_eq.1 hp).symm
    cases hop : Operator.ofSuffix? (String.ofList rest) with
    | none =>
      simp only [hop]
      refine ⟨fun ⟨_, h⟩ => (nomatch h), fun h => ?_⟩
      obtain ⟨op, hsuffix⟩ := h _ hnative
      rw [← hsuffix, Operator.ofSuffix?_suffix] at hop
      cases hop
    | some op =>
      simp only [hop]
      refine ⟨fun _ suffix hs => ⟨op, ?_⟩, fun _ => ⟨_, rfl⟩⟩
      have hsuffix : suffix = String.ofList rest := by
        rw [hnative, ← String.toList_inj, String.toList_append, String.toList_append] at hs
        exact (String.toList_inj.1 (List.append_cancel_left hs)).symm
      rw [hsuffix]
      exact Operator.suffix_of_ofSuffix? hop

/-- The two forms with brackets are those of two names. -/
theorem Wren.CallForm.eq_subscript_iff {native : String} {form : CallForm}
    (h : ofNative native = .ok form) :
    (form = .subscriptGet ↔ native = subscriptGetName) ∧
      (form = .subscriptSet ↔ native = subscriptSetName) := by
  have hapart : subscriptGetName ≠ subscriptSetName := by decide
  by_cases hget : native = subscriptGetName
  · subst hget
    obtain rfl : .subscriptGet = form := Except.ok.inj h
    simp [hapart]
  by_cases hset : native = subscriptSetName
  · subst hset
    obtain rfl : .subscriptSet = form := Except.ok.inj h
    simp [hapart.symm]
  · simp only [ofNative, hget, hset, if_false] at h
    repeat' split at h
    all_goals cases h
    all_goals simp [hget, hset]

namespace Member

variable {m : Member}

theorem callForm_eq_ok {form : CallForm} :
    m.callForm = .ok form ↔ CallForm.ofNative m.method.name = .ok form := by
  rw [callForm]
  cases CallForm.ofNative m.method.name with
  | ok found => simp
  | error suffix => simp [fail]

/-- The declared arguments that Wren code passes. -/
def passedArgs (m : Member) : List Argument :=
  if m.foldsReceiver then m.method.args.tail else m.method.args

/-- What a method has to declare to be bound. -/
structure Bindable (m : Member) : Prop where
  /-- A method of numbers has an argument for its receiver. -/
  receiver : m.foldsReceiver = true → m.method.args ≠ []
  /-- A name that begins like that of an operator is one. -/
  operator : ∀ suffix, m.method.name = operatorPrefix ++ suffix →
    m.method.name = subscriptGetName ∨ m.method.name = subscriptSetName ∨
      ∃ op : Operator, op.suffix = suffix
  /-- A subscript setter has an argument for the assigned value. -/
  assigned : m.method.name = subscriptSetName → m.passedArgs ≠ []
  args : ∀ a ∈ m.method.args, a.declaredType.isArgument = true
  result : (DeclaredType.ofText m.method.returnType).isReturn = true

/-- The faults as errors, which name the method and its class. -/
def located (m : Member) (faults : List MethodFault) : List BindError :=
  faults.map (.method m.owner.name m.method.name)

theorem located_append (a b : List MethodFault) :
    m.located (a ++ b) = m.located a ++ m.located b := List.map_append

theorem located_eq_nil {faults : List MethodFault} : m.located faults = [] ↔ faults = [] :=
  List.map_eq_nil_iff

def arityFaults (m : Member) : List MethodFault :=
  if m.foldsReceiver ∧ m.method.args = [] then [.arityUnderflow] else []

/-- The trampoline is one of those recorded. -/
def symbolFaults (m : Member) (recorded : List String) : List MethodFault :=
  match m.symbol with
  | .ok symbol => if symbol ∈ recorded then [.duplicateSymbol symbol] else []
  | .error _ => []

def formFaults (m : Member) : List MethodFault :=
  match CallForm.ofNative m.method.name with
  | .ok _ => []
  | .error suffix => [.unknownOperator suffix]

def assignedFaults (m : Member) : List MethodFault :=
  if m.method.name = subscriptSetName ∧ m.passedArgs = [] then [.subscriptSetterArity] else []

def argumentFaults (a : Argument) : List MethodFault :=
  if a.declaredType.isArgument then []
  else [.unknownArgumentType (a.position + 1) a.shownName a.type]

def resultFaults (m : Member) : List MethodFault :=
  if (DeclaredType.ofText m.method.returnType).isReturn then []
  else [.unknownReturnType m.method.returnType]

/-- The faults of a method apart from its number of arguments and its trampoline. -/
def bindingFaults (m : Member) : List MethodFault :=
  m.formFaults ++ m.assignedFaults ++ m.method.args.flatMap argumentFaults ++ m.resultFaults

/-- The faults of a method where the trampolines `recorded` are taken, in the order in which they
are looked for. -/
def faults (m : Member) (recorded : List String) : List BindError :=
  m.located (m.arityFaults ++ m.symbolFaults recorded ++ m.bindingFaults)

theorem faults_eq_nil_iff {recorded : List String} :
    m.faults recorded = [] ↔ m.Bindable ∧ m.symbol.toOption.toList.Disjoint recorded := by
  have harity : m.arityFaults = [] ↔ (m.foldsReceiver = true → m.method.args ≠ []) := by
    simp [arityFaults]
  have hsymbol : m.symbolFaults recorded = [] ↔ m.symbol.toOption.toList.Disjoint recorded := by
    rw [symbolFaults]
    cases m.symbol with
    | ok symbol => simp [Except.toOption]
    | error e => simp [Except.toOption]
  have hform : m.formFaults = [] ↔ ∃ form, CallForm.ofNative m.method.name = .ok form := by
    rw [formFaults]
    cases CallForm.ofNative m.method.name with
    | ok form => simp
    | error suffix => simp
  have hassigned : m.assignedFaults = [] ↔
      (m.method.name = subscriptSetName → m.passedArgs ≠ []) := by
    simp [assignedFaults]
  have hargs : m.method.args.flatMap argumentFaults = [] ↔
      ∀ a ∈ m.method.args, a.declaredType.isArgument = true := by
    simp [List.flatMap_eq_nil_iff, argumentFaults]
  have hresult : m.resultFaults = [] ↔
      (DeclaredType.ofText m.method.returnType).isReturn = true := by
    simp [resultFaults]
  rw [CallForm.exists_ofNative_iff] at hform
  rw [faults, located_eq_nil, bindingFaults]
  simp only [List.append_eq_nil_iff, harity, hsymbol, hform, hassigned, hargs, hresult]
  constructor
  · rintro ⟨⟨h1, h2⟩, ⟨⟨h3, h4⟩, h5⟩, h6⟩
    exact ⟨⟨h1, h3, h4, h5, h6⟩, h2⟩
  · rintro ⟨⟨h1, h3, h4, h5, h6⟩, h2⟩
    exact ⟨⟨h1, h2⟩, ⟨⟨h3, h4⟩, h5⟩, h6⟩

theorem reports_arity : Reports m.arity (m.located m.arityFaults) := by
  rw [arity, arityFaults]
  by_cases hf : m.foldsReceiver = true
  · cases ha : m.method.args with
    | nil => simp [hf, fail, located, Reports]
    | cons a args => simp [hf, located, Reports]
  · simp [hf, located, Reports]

theorem length_passedArgs {arity : Nat} (h : m.arity = .ok arity) :
    m.passedArgs.length = arity := by
  rw [Member.arity] at h
  rw [passedArgs]
  by_cases hf : m.foldsReceiver = true
  · cases ha : m.method.args with
    | nil => simp [hf, ha, fail] at h
    | cons a args => simpa [hf, ha] using h
  · simpa [hf] using h

theorem reports_symbol : Reports m.symbol (m.located m.arityFaults) := by
  rw [symbol, ← List.append_nil (m.located _)]
  exact reports_arity.bind fun arity _ => .pure _

theorem reports_addSymbol {t : ClassTable} {recorded : List String} {symbol : String}
    (ht : ∀ s, s ∈ t.symbols ↔ s ∈ recorded) (h : m.symbol = .ok symbol) :
    Reports (t.addSymbol m.owner.name m.method.name symbol)
      (m.located (m.symbolFaults recorded)) := by
  rw [ClassTable.addSymbol, symbolFaults, h]
  by_cases hs : symbol ∈ recorded
  · simp [ht, hs, located, Reports]
  · simp [ht, hs, located, Reports]

theorem reports_callForm : Reports m.callForm (m.located m.formFaults) := by
  rw [callForm, formFaults]
  cases CallForm.ofNative m.method.name with
  | ok form => rfl
  | error suffix => rfl

theorem reports_callShape {arity : Nat} (h : m.arity = .ok arity) :
    Reports m.callShape (m.located (m.formFaults ++ m.assignedFaults)) := by
  rw [callShape, located_append]
  refine reports_callForm.bind fun form hform => ?_
  have hcheck : (form = .subscriptSet ∧ arity = 0) ↔
      (m.method.name = subscriptSetName ∧ m.passedArgs = []) := by
    rw [(CallForm.eq_subscript_iff (callForm_eq_ok.1 hform)).2, ← length_passedArgs h,
      List.length_eq_zero_iff]
  rw [h, assignedFaults]
  show Reports (if form = .subscriptSet ∧ arity = 0 then _ else _) _
  by_cases hs : form = .subscriptSet ∧ arity = 0
  · rw [if_pos hs, if_pos (hcheck.1 hs)]
    rfl
  · rw [if_neg hs, if_neg (mt hcheck.2 hs)]
    rfl

theorem reports_unboxing (shown : String) (a : Argument) :
    Reports (m.unboxing shown a) (m.located (argumentFaults a)) := by
  rw [unboxing, argumentFaults, ← Check.ofType?_isSome]
  cases Check.ofType? a.declaredType with
  | some check => rfl
  | none => rfl

theorem reports_boxing : Reports m.boxing (m.located m.resultFaults) := by
  rw [boxing, resultFaults, ← Boxing.ofType?_isSome]
  cases Boxing.ofType? (DeclaredType.ofText m.method.returnType) with
  | some boxing => rfl
  | none => rfl

theorem located_flatMap {α : Type} (l : List α) (faults : α → List MethodFault) :
    m.located (l.flatMap faults) = l.flatMap fun a => m.located (faults a) := List.map_flatMap

theorem reports_signature {arity : Nat} (h : m.arity = .ok arity) :
    Reports m.signature (m.located (m.formFaults ++ m.assignedFaults)) := by
  rw [signature, signatureWith, ← List.append_nil (m.located _)]
  exact (reports_callShape h).bind fun shape _ => .pure _

theorem reports_shownSignature {arity : Nat} (h : m.arity = .ok arity) :
    Reports m.shownSignature (m.located (m.formFaults ++ m.assignedFaults)) := by
  rw [shownSignature, ← List.append_nil (m.located _)]
  exact (reports_signature h).bind fun signature _ => .pure _

theorem exists_callShape_of_shownSignature {shown : String} (h : m.shownSignature = .ok shown) :
    ∃ form arity, m.callShape = .ok (form, arity) := by
  obtain ⟨signature, hsignature, -⟩ := bind_eq_ok.1 h
  obtain ⟨form, arity, hshape, -⟩ := signatureWith_eq_ok.1 hsignature
  exact ⟨form, arity, hshape⟩

/-- The binding of a method whose trampoline has a name. -/
theorem reports_binding {symbol : String} (h : m.symbol = .ok symbol) (options : Options) :
    Reports (m.binding options) (m.located m.bindingFaults) := by
  obtain ⟨arity, harity, -⟩ := symbol_eq_ok.1 h
  rw [binding, h, bindingFaults, located_append, located_append, located_flatMap,
    List.append_assoc, ← List.append_nil (m.located m.resultFaults)]
  refine (reports_shownSignature harity).bind fun shown hshown => ?_
  refine (Reports.mapM (reports_unboxing shown)).bind fun unboxings _ => ?_
  refine reports_boxing.bind fun boxing _ => ?_
  -- What is left cannot fail: the form of the method is known by now.
  obtain ⟨form, arity, hshape⟩ := exists_callShape_of_shownSignature hshown
  have hsignature : m.signature = .ok (form.render m.method.kind (arity + 0)) :=
    signatureWith_eq_ok.2 ⟨form, arity, hshape, rfl⟩
  by_cases hv : m.method.isVariadic = true
  · simp only [hv, if_true, variadicSignatures, hshape]
    rfl
  · simp only [hv, hsignature]
    rfl

end Member

/-! ### Classes -/

/-- The faults of methods where the trampolines `recorded` are taken. -/
def memberFaults (recorded : List String) : List Member → List BindError
  | [] => []
  | m :: rest => m.faults recorded ++ memberFaults (recorded ++ m.symbol.toOption.toList) rest

/-- The trampolines of methods, of those whose arity is known. -/
def symbols (ms : List Member) : List String := ms.filterMap (·.symbol.toOption)

/-- The faults of classes where the classes `names` and the trampolines `recorded` are taken. -/
def classFaults (names recorded : List String) : List ClassDecl → List BindError
  | [] => []
  | c :: rest =>
    (if c.name ∈ names then [.duplicateClass c.name] else []) ++ memberFaults recorded c.members ++
      classFaults (names ++ [c.name]) (recorded ++ symbols c.members) rest

/-- All faults of a list of classes, in the order in which they are looked for. -/
def faults (classes : List ClassDecl) : List BindError := classFaults [] [] classes

namespace Bindings

variable {options : Options}

theorem reports_bindMembers {t : ClassTable} {recorded : List String} (ms : List Member)
    (ht : ∀ s, s ∈ t.symbols ↔ s ∈ recorded) :
    Reports (t.bindMembers options ms) (memberFaults recorded ms) := by
  induction ms generalizing t recorded with
  | nil => rfl
  | cons m ms ih =>
    rw [ClassTable.bindMembers, memberFaults, Member.faults, Member.located_append,
      Member.located_append, List.append_assoc, List.append_assoc]
    refine Member.reports_symbol.bind fun symbol hsymbol => ?_
    refine (Member.reports_addSymbol ht hsymbol).bind fun added hadded => ?_
    refine (Member.reports_binding hsymbol options).bind fun b _ => ?_
    rw [← List.append_nil (memberFaults _ ms)]
    refine (ih fun s => ?_).bind fun _ _ => .pure _
    obtain ⟨-, rfl⟩ := ClassTable.addSymbol_eq_ok.1 hadded
    have hrecorded : m.symbol.toOption.toList = [symbol] := by rw [hsymbol]; rfl
    rw [hrecorded, List.mem_append, ← ht, List.mem_cons, List.mem_singleton, or_comm]

theorem symbols_eq_map {ms : List Member} {bs : List MethodBinding}
    (h : List.Forall₂ (fun m b => m.binding options = .ok b) ms bs) :
    symbols ms = bs.map (·.trampoline.name) := by
  induction h with
  | nil => rfl
  | @cons m b ms bs hb _ ih =>
    obtain ⟨form, arity, hbinding⟩ := Member.exists_isBinding hb
    have hsymbol : m.symbol = .ok b.trampoline.name := Member.symbol_eq_ok.2
      ⟨arity, (Member.callShape_eq_ok.1 hbinding.callShape).2.1, hbinding.name⟩
    rw [List.map_cons, ← ih]
    simp [symbols, hsymbol, Except.toOption]

/-- Once methods are bound, their trampolines are in the table. -/
theorem mem_symbols_of_boundMembers {t t' : ClassTable} {recorded : List String}
    {ms : List Member} {bs : List MethodBinding} (h : ClassTable.BoundMembers options t ms bs t')
    (ht : ∀ s, s ∈ t.symbols ↔ s ∈ recorded) (s : String) :
    s ∈ t'.symbols ↔ s ∈ recorded ++ symbols ms := by
  rw [h.symbols, symbols_eq_map h.bindings, List.mem_append, List.mem_append, List.mem_reverse,
    ht, or_comm]

theorem reports_bindClasses {t : ClassTable} {recorded : List String} (cs : List ClassDecl)
    (ht : ∀ s, s ∈ t.symbols ↔ s ∈ recorded) :
    Reports (t.bindClasses options cs) (classFaults t.classes recorded cs) := by
  induction cs generalizing t recorded with
  | nil => rfl
  | cons c cs ih =>
    rw [ClassTable.bindClasses, classFaults, List.append_assoc]
    have hclass : Reports (t.addClass c.name)
        (if c.name ∈ t.classes then [BindError.duplicateClass c.name] else []) := by
      rw [ClassTable.addClass]
      by_cases hc : c.name ∈ t.classes <;> simp [hc, Reports]
    refine hclass.bind fun added hadded => ?_
    obtain ⟨-, rfl⟩ := ClassTable.addClass_eq_ok.1 hadded
    have hms : Reports (({ t with classes := t.classes ++ [c.name] } : ClassTable).bindMembers
        options c.members) (memberFaults recorded c.members) := reports_bindMembers c.members ht
    refine hms.bind fun bound hmembers => ?_
    obtain ⟨bs, between⟩ := bound
    have hbound := ClassTable.boundMembers hmembers
    rw [← List.append_nil (classFaults _ _ cs)]
    have hclasses : between.classes = t.classes ++ [c.name] := hbound.classes
    rw [← hclasses]
    exact (ih (mem_symbols_of_boundMembers hbound ht)).bind fun _ _ => .pure _

theorem BindingFile.reports_ofClasses (options : Options) (sources : List String)
    (classes : List ClassDecl) : Reports (ofClasses options sources classes) (faults classes) := by
  rw [ofClasses, ← List.append_nil (faults classes)]
  exact (@reports_bindClasses options {} [] classes fun _ => Iff.rfl).bind fun _ _ => .pure _

/-! ### Classes without faults -/

theorem symbols_cons (m : Member) (ms : List Member) :
    symbols (m :: ms) = m.symbol.toOption.toList ++ symbols ms := by
  cases hs : m.symbol.toOption <;> simp [symbols, hs]

theorem symbols_append (ms ms' : List Member) :
    symbols (ms ++ ms') = symbols ms ++ symbols ms' := List.filterMap_append

theorem memberFaults_eq_nil_iff {recorded : List String} {ms : List Member} :
    memberFaults recorded ms = [] ↔ (∀ m ∈ ms, m.Bindable) ∧ (symbols ms).Nodup ∧
      (symbols ms).Disjoint recorded := by
  induction ms generalizing recorded with
  | nil => simp [memberFaults, symbols]
  | cons m ms ih =>
    have hown : m.symbol.toOption.toList.Nodup := by
      cases m.symbol.toOption <;> simp
    rw [memberFaults, List.append_eq_nil_iff, Member.faults_eq_nil_iff, ih, List.forall_mem_cons,
      symbols_cons, List.nodup_append', List.disjoint_append_left, List.disjoint_append_right]
    constructor
    · rintro ⟨⟨hm, hnew⟩, hms, hnodup, hold, hother⟩
      exact ⟨⟨hm, hms⟩, ⟨hown, hnodup, List.disjoint_comm.1 hother⟩, hnew, hold⟩
    · rintro ⟨⟨hm, hms⟩, ⟨-, hnodup, hother⟩, hnew, hold⟩
      exact ⟨⟨hm, hnew⟩, hms, hnodup, hold, List.disjoint_comm.1 hother⟩

theorem classFaults_eq_nil_iff {names recorded : List String} {cs : List ClassDecl} :
    classFaults names recorded cs = [] ↔ (∀ m ∈ cs.flatMap (·.members), m.Bindable) ∧
      ((cs.map (·.name)).Nodup ∧ (cs.map (·.name)).Disjoint names) ∧
      (symbols (cs.flatMap (·.members))).Nodup ∧
      (symbols (cs.flatMap (·.members))).Disjoint recorded := by
  induction cs generalizing names recorded with
  | nil => simp [classFaults, symbols]
  | cons c cs ih =>
    have hname : (if c.name ∈ names then [BindError.duplicateClass c.name] else []) = [] ↔
        c.name ∉ names := by
      split <;> simp [*]
    rw [classFaults, List.append_eq_nil_iff, List.append_eq_nil_iff, hname,
      memberFaults_eq_nil_iff, ih, List.flatMap_cons, List.forall_mem_append, symbols_append,
      List.map_cons, List.nodup_cons, List.nodup_append', List.disjoint_append_left,
      List.disjoint_append_right, List.disjoint_cons_left, List.disjoint_append_right,
      List.disjoint_singleton]
    constructor
    · rintro ⟨⟨hnew, hc, hcn, hco⟩, hcs, ⟨hnn, hno, hnc⟩, hsn, hso, hsc⟩
      exact ⟨⟨hc, hcs⟩, ⟨⟨hnc, hnn⟩, hnew, hno⟩, ⟨hcn, hsn, List.disjoint_comm.1 hsc⟩, hco, hso⟩
    · rintro ⟨⟨hc, hcs⟩, ⟨⟨hnc, hnn⟩, hnew, hno⟩, ⟨hcn, hsn, hsc⟩, hco, hso⟩
      exact ⟨⟨hnew, hc, hcn, hco⟩, hcs, ⟨hnn, hno, hnc⟩, hsn, hso, List.disjoint_comm.1 hsc⟩

/-- Classes can be bound exactly if they have different names, their trampolines have different
names, and each method is bindable. Otherwise the error is the first fault, in the order of classes
and methods. Neither depends on the options or the sources. -/
theorem BindingFile.ofClasses_outcome (options : Options) (sources : List String)
    (classes : List ClassDecl) :
    ((∃ u, ofClasses options sources classes = .ok u) ↔
      (classes.map (·.name)).Nodup ∧ (symbols (classes.flatMap (·.members))).Nodup ∧
        ∀ m ∈ classes.flatMap (·.members), m.Bindable) ∧
    (∀ e, ofClasses options sources classes = .error e ↔ (faults classes).head? = some e) ∧
    ∀ (options' : Options) (sources' : List String),
      (ofClasses options' sources' classes).map (fun _ => ()) =
        (ofClasses options sources classes).map fun _ => () := by
  have hreports := reports_ofClasses options sources classes
  refine ⟨?_, fun e => hreports.eq_error_iff, fun options' sources' => ?_⟩
  · rw [hreports.exists_eq_ok_iff, faults, classFaults_eq_nil_iff]
    simp only [List.disjoint_nil_right, and_true]
    constructor
    · rintro ⟨hbindable, hnames, hsymbols⟩
      exact ⟨hnames, hsymbols, hbindable⟩
    · rintro ⟨hnames, hsymbols, hbindable⟩
      exact ⟨hbindable, hnames, hsymbols⟩
  · exact (reports_ofClasses options' sources' classes).map_eq_map hreports

end Bindings

end WrenGlue
