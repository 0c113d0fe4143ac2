import WrenGlue.Proofs.Bindings.Program

/-! Symbolic execution of the functions of a method. A value is known by where it comes from: the
parameter that it was passed in, and the checks that it went through. What happens outside of the
function (collections, native calls, calls of the trampoline) is recorded in order. -/

namespace WrenGlue.Bindings

open WrenGlue.Cpp

/-! ### Names -/

/-- The variable that an instruction declares. -/
def Instruction.declared? : Instruction → Option String
  | declare _ name _ => some name
  | collect _ | perform _ | returnNull | returnBoxed _ | forward .. => none

/-- The variables that a native call looks at. -/
def NativeCall.uses (c : NativeCall) : List String :=
  (match c.callee with
    | .receiver => ["obj"]
    | .static _ | .singleton _ | .nullPointer _ => []) ++ c.args

def Expression.uses : Expression → List String
  | named name => [name]
  | receiver _ _ source => [source]
  | checked _ _ _ _ source => [source]
  | native call => call.uses

/-- The parameters and variables that an instruction looks at. -/
def Instruction.uses : Instruction → List String
  | collect roots => roots
  | declare _ _ value => value.uses
  | perform call => call.uses
  | returnNull => []
  | returnBoxed _ => ["ret"]
  | forward _ args packed => args ++ packed

namespace Program

/-- The parameters and variables of a function. -/
def names (p : Program) : List String :=
  p.params.map Param.name ++ p.body.filterMap Instruction.declared?

/-- What an instruction looks at is a parameter, or was declared before it. -/
def IsScoped (p : Program) : Prop :=
  ∀ before i after, p.body = before ++ i :: after → ∀ name ∈ i.uses,
    name ∈ p.params.map Param.name ++ before.filterMap Instruction.declared?

end Program

/-! ### Execution -/

/-- A value by where it comes from. -/
inductive Term where
  /-- What was passed in a parameter. -/
  | passed (param : String)
  /-- The object of the class that `checkReceiver` finds in a value. -/
  | receiver (className signature : String) (value : Term)
  /-- What a check makes of a value. -/
  | checked (check : Check) (signature label : String) (index : Nat) (value : Term)
  /-- What the native method returns. -/
  | result
  /-- A value as a variable of the type holds it. -/
  | ofType (type : DeclaredType) (value : Term)
deriving DecidableEq, Repr

/-- What a native method is called on. -/
inductive Target where
  | static (className : String)
  | singleton (className : String)
  | nullPointer (className : String)
  | object (value : Term)
deriving DecidableEq, Repr

inductive Event where
  /-- A garbage collection that spares the values in `roots`. -/
  | collected (roots : List Term)
  | invoked (target : Target) (method : String) (args : List Term)
  /-- A call of the trampoline `target`, with `packed` in a list. -/
  | forwarded (target : String) (args packed : List Term)
deriving DecidableEq, Repr

inductive Returned where
  | null
  | boxed (rule : BoxRule) (value : Term)
  /-- What the trampoline returns. -/
  | passedOn
deriving DecidableEq, Repr

/-- The state of a function that runs. -/
structure Frame where
  vars : List (String × Term)
  events : List Event := []
  returned : Option Returned := none
deriving DecidableEq, Repr

namespace Frame

/-- The names of the parameters and variables so far. -/
def names (s : Frame) : List String := s.vars.map Prod.fst

def value? (s : Frame) (name : String) : Option Term := s.vars.lookup name

def define (s : Frame) (vars : List (String × Term)) : Frame := { s with vars := s.vars ++ vars }

def emit (s : Frame) (events : List Event) : Frame := { s with events := s.events ++ events }

def target? (s : Frame) : Callee → Option Target
  | .static name => some (.static name)
  | .singleton name => some (.singleton name)
  | .nullPointer name => some (.nullPointer name)
  | .receiver => (s.value? "obj").map .object

def call (s : Frame) (c : NativeCall) : Option Frame := do
  let target ← s.target? c.callee
  let args ← c.args.mapM s.value?
  return s.emit [.invoked target c.method args]

/-- The value of an expression, and the state behind it. -/
def eval (s : Frame) : Expression → Option (Term × Frame)
  | .named name => do return (← s.value? name, s)
  | .receiver className signature source => do
    return (.receiver className signature (← s.value? source), s)
  | .checked check signature label index source => do
    return (.checked check signature label index (← s.value? source), s)
  | .native c => do return (.result, ← s.call c)

/-- Executes an instruction. That fails if it looks at a name that is not known, or declares one that
is. -/
def step (s : Frame) : Instruction → Option Frame
  | .collect roots => do return s.emit [.collected (← roots.mapM s.value?)]
  | .declare type name value => do
    guard (s.value? name = none)
    let (term, s) ← s.eval value
    return s.define [(name, .ofType type term)]
  | .perform c => s.call c
  | .returnNull => some { s with returned := some .null }
  | .returnBoxed rule => do
    return { s with returned := some (.boxed rule (← s.value? "ret")) }
  | .forward target args packed => do
    let args ← args.mapM s.value?
    let packed ← packed.mapM s.value?
    return { s.emit [.forwarded target args packed] with returned := some .passedOn }

/-- Executes instructions in order. None may stand behind one that returns. -/
def run (s : Frame) : List Instruction → Option Frame
  | [] => some s
  | i :: rest => do
    guard (s.returned = none)
    (← s.step i).run rest

end Frame

/-- What a function does, and what it returns. -/
structure Execution where
  events : List Event := []
  returned : Returned
deriving DecidableEq, Repr

/-- A function at its start, where each parameter holds what is passed in it. -/
def Frame.start (params : List Param) : Frame where
  vars := params.map fun p => (p.name, .passed p.name)

/-- The execution of a function whose parameters have different names. -/
def Program.execute (p : Program) : Option Execution := do
  guard (p.params.map Param.name).Nodup
  let s ← (Frame.start p.params).run p.body
  return { events := s.events, returned := ← s.returned }

/-! ### Names that an execution looks at -/

namespace Frame

variable {s s' : Frame}

@[simp] theorem names_define (s : Frame) (vars : List (String × Term)) :
    (s.define vars).names = s.names ++ vars.map Prod.fst := List.map_append

@[simp] theorem names_emit (s : Frame) (events : List Event) : (s.emit events).names = s.names := rfl

@[simp] theorem returned_define (s : Frame) (vars : List (String × Term)) :
    (s.define vars).returned = s.returned := rfl

@[simp] theorem returned_emit (s : Frame) (events : List Event) :
    (s.emit events).returned = s.returned := rfl

@[simp] theorem emit_nil (s : Frame) : s.emit [] = s := by simp [emit]

@[simp] theorem define_nil (s : Frame) : s.define [] = s := by simp [define]

@[simp] theorem define_define (s : Frame) (vars more : List (String × Term)) :
    (s.define vars).define more = s.define (vars ++ more) := by simp [define]

@[simp] theorem value?_emit (s : Frame) (events : List Event) (name : String) :
    (s.emit events).value? name = s.value? name := rfl

theorem value?_define (s : Frame) (vars : List (String × Term)) (name : String) :
    (s.define vars).value? name = (s.value? name).or (vars.lookup name) := List.lookup_append

theorem names_start (params : List Param) :
    (start params).names = params.map Param.name := by simp [names, start]

theorem isSome_value? {name : String} : (s.value? name).isSome = true ↔ name ∈ s.names := by
  rw [← not_iff_not, Bool.not_eq_true, Option.isSome_eq_false_iff, Option.isNone_iff_eq_none,
    value?, List.lookup_eq_none_iff]
  simp only [bne_iff_ne, names, List.mem_map, not_exists, not_and]
  exact forall₂_congr fun pair _ => ne_comm

theorem value?_eq_none {name : String} : s.value? name = none ↔ name ∉ s.names := by
  rw [← isSome_value?, Option.not_isSome_iff_eq_none]

theorem mem_names_of_value? {name : String} {value : Term} (h : s.value? name = some value) :
    name ∈ s.names :=
  isSome_value?.1 (by rw [h]; rfl)

theorem mem_names_of_mapM {names : List String} {values : List Term}
    (h : names.mapM s.value? = some values) : ∀ name ∈ names, name ∈ s.names := by
  intro name hname
  obtain ⟨value, -, hvalue⟩ := exists_mem_of_forall₂ (forall₂_of_mapM_eq_some h).flip hname
  exact mem_names_of_value? hvalue

theorem call_inv {c : NativeCall} (h : s.call c = some s') :
    (∀ name ∈ c.uses, name ∈ s.names) ∧ s'.names = s.names := by
  rw [call] at h
  obtain ⟨target, htarget, h⟩ := Option.bind_eq_some_iff.1 h
  obtain ⟨args, hargs, h⟩ := Option.bind_eq_some_iff.1 h
  cases h
  refine ⟨List.forall_mem_append.2 ⟨?_, mem_names_of_mapM hargs⟩, rfl⟩
  cases hc : c.callee with
  | receiver =>
    rw [hc] at htarget
    obtain ⟨value, hvalue, -⟩ := Option.map_eq_some_iff.1 htarget
    exact List.forall_mem_singleton.2 (mem_names_of_value? hvalue)
  | static name | singleton name | nullPointer name => exact List.forall_mem_nil _

theorem eval_inv {e : Expression} {value : Term} (h : s.eval e = some (value, s')) :
    (∀ name ∈ e.uses, name ∈ s.names) ∧ s'.names = s.names := by
  cases e with
  | native c =>
    obtain ⟨_, hcall, h⟩ := Option.bind_eq_some_iff.1 h
    cases h
    exact call_inv hcall
  | named source | receiver className signature source
  | checked check signature label index source =>
    obtain ⟨_, hvalue, h⟩ := Option.bind_eq_some_iff.1 h
    cases h
    exact ⟨List.forall_mem_singleton.2 (mem_names_of_value? hvalue), rfl⟩

/-- An instruction looks at known names, and adds the one that it declares, which is new. -/
theorem step_inv {i : Instruction} (h : s.step i = some s') :
    (∀ name ∈ i.uses, name ∈ s.names) ∧ s'.names = s.names ++ i.declared?.toList ∧
      ∀ name ∈ i.declared?, name ∉ s.names := by
  cases i with
  | collect roots =>
    obtain ⟨values, hvalues, h⟩ := Option.bind_eq_some_iff.1 h
    cases h
    exact ⟨mem_names_of_mapM hvalues, by simp [Instruction.declared?], nofun⟩
  | declare type name value =>
    obtain ⟨_, hguard, h⟩ := Option.bind_eq_some_iff.1 h
    obtain ⟨⟨term, s''⟩, hvalue, h⟩ := Option.bind_eq_some_iff.1 h
    cases h
    obtain ⟨huses, hnames⟩ := eval_inv hvalue
    refine ⟨huses, by simp [Instruction.declared?, hnames], ?_⟩
    rintro _ ⟨⟩
    exact value?_eq_none.1 ((Option.guard_eq_some' _).1 hguard)
  | perform c =>
    obtain ⟨huses, hnames⟩ := call_inv h
    exact ⟨huses, by simp [Instruction.declared?, hnames], nofun⟩
  | returnNull =>
    cases h
    exact ⟨List.forall_mem_nil _, by simp [Instruction.declared?, names], nofun⟩
  | returnBoxed rule =>
    obtain ⟨value, hvalue, h⟩ := Option.bind_eq_some_iff.1 h
    cases h
    exact ⟨List.forall_mem_singleton.2 (mem_names_of_value? hvalue),
      by simp [Instruction.declared?, names], nofun⟩
  | forward target args packed =>
    obtain ⟨args', hargs, h⟩ := Option.bind_eq_some_iff.1 h
    obtain ⟨packed', hpacked, h⟩ := Option.bind_eq_some_iff.1 h
    cases h
    exact ⟨List.forall_mem_append.2 ⟨mem_names_of_mapM hargs, mem_names_of_mapM hpacked⟩,
      by simp [Instruction.declared?, names, emit], nofun⟩

theorem run_append (s : Frame) (body more : List Instruction) :
    s.run (body ++ more) = (s.run body).bind (run · more) := by
  induction body generalizing s with
  | nil => rfl
  | cons i body ih =>
    simp only [List.cons_append, run, ih, Option.bind_eq_bind, Option.bind_assoc]

/-- Instructions add the names that they declare. None is declared twice. -/
theorem run_inv {body : List Instruction} (h : s.run body = some s') :
    s'.names = s.names ++ body.filterMap Instruction.declared? ∧
      (s.names.Nodup → s'.names.Nodup) := by
  induction body generalizing s with
  | nil =>
    cases h
    simp
  | cons i body ih =>
    obtain ⟨-, -, h⟩ := Option.bind_eq_some_iff.1 h
    obtain ⟨next, hstep, hrun⟩ := Option.bind_eq_some_iff.1 h
    obtain ⟨-, hnames, hnew⟩ := step_inv hstep
    obtain ⟨hrest, hnodup⟩ := ih hrun
    refine ⟨?_, fun hn => hnodup ?_⟩
    · rw [hrest, hnames, List.append_assoc]
      cases hi : i.declared? <;> simp [hi]
    · rw [hnames, List.nodup_append]
      refine ⟨hn, by cases i.declared? <;> simp, ?_⟩
      rintro _ hold name hdeclared rfl
      exact hnew _ (Option.mem_toList.1 hdeclared) hold

theorem uses_of_run {before after : List Instruction} {i : Instruction}
    (h : s.run (before ++ i :: after) = some s') :
    ∀ name ∈ i.uses, name ∈ s.names ++ before.filterMap Instruction.declared? := by
  rw [run_append] at h
  obtain ⟨s₁, hbefore, h⟩ := Option.bind_eq_some_iff.1 h
  obtain ⟨-, -, h⟩ := Option.bind_eq_some_iff.1 h
  obtain ⟨s₂, hstep, -⟩ := Option.bind_eq_some_iff.1 h
  rw [← (run_inv hbefore).1]
  exact (step_inv hstep).1

end Frame

theorem Program.execute_of_run {p : Program} {s : Frame} {returned : Returned}
    (hn : (p.params.map Param.name).Nodup) (hrun : (Frame.start p.params).run p.body = some s)
    (hr : s.returned = some returned) : p.execute = some ⟨s.events, returned⟩ := by
  have hguard : guard (p.params.map Param.name).Nodup = some () := if_pos hn
  simp only [execute, hguard, hrun, hr, Option.bind_eq_bind, Option.bind_some, Option.pure_def]

/-- A function that can be executed declares each name once, and looks at none before that. -/
theorem Program.wellScoped_of_execute {p : Program} {e : Execution} (h : p.execute = some e) :
    p.names.Nodup ∧ p.IsScoped := by
  obtain ⟨_, hguard, h⟩ := Option.bind_eq_some_iff.1 h
  obtain ⟨s, hrun, -⟩ := Option.bind_eq_some_iff.1 h
  have hparams : (p.params.map Param.name).Nodup := (Option.guard_eq_some' _).1 hguard
  rw [← Frame.names_start] at hparams
  obtain ⟨hnames, hnodup⟩ := Frame.run_inv hrun
  refine ⟨?_, fun before i after hbody => ?_⟩
  · rw [names, ← Frame.names_start, ← hnames]
    exact hnodup hparams
  · rw [hbody] at hrun
    rw [← Frame.names_start]
    exact Frame.uses_of_run hrun

end WrenGlue.Bindings
