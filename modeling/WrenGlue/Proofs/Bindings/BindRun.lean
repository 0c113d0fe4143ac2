import WrenGlue.Proofs.Bindings.Register

/-! What `ObjClass::Bind` does when it runs. It and the register functions are read as a program,
one statement a line. A run adds the functions of the class asked for, on the level asked for, and
returns. It aborts if no class has the name. -/

namespace WrenGlue.Bindings

open WrenGlue.Cpp WrenGlue.Text
open WrenGlue.Header (ClassDecl)

/-! ### Programs -/

inductive Outcome where
  /-- What stands behind the code is executed next. -/
  | done
  | returned
  | aborted
deriving DecidableEq, Repr

/-- What the execution of code does. -/
structure Run where
  /-- The functions that are added to the class, in order. -/
  added : List Entry := []
  outcome : Outcome := .done
deriving DecidableEq, Repr

namespace Run

/-- Goes on with `rest`, if the run gets there. -/
def andThen (first : Run) (rest : Option Run) : Option Run :=
  match first.outcome with
  | .done => rest.map fun r => { r with added := first.added ++ r.added }
  | .returned | .aborted => some first

/-- The run of a function, as a statement that calls the function. -/
def asCall (r : Run) : Run :=
  match r.outcome with
  | .aborted => r
  | .done | .returned => { r with outcome := .done }

end Run

/-- What a statement does. -/
inductive Action where
  | add (e : Entry)
  /-- Calls a function with the class and with `isMeta`. -/
  | call (name : String)
  | print
  | ret
  | abort
deriving DecidableEq, Repr

/-- The function that a line calls with the class and with `isMeta`. -/
def called? (line : String) : Option String := do
  let name ← ("(cls, isMeta);".toList).isSuffixOf? line.toList
  guard (name.all isWord)
  return String.ofList name

/-- The line prints to the standard error. -/
def isPrint (line : String) : Bool :=
  "fprintf(stderr, \"".toList.isPrefixOf line.toList && ");".toList.isSuffixOf line.toList

/-- The statement on a line. -/
def action? (line : String) : Option Action :=
  if line = "return;" then some .ret
  else if line = "abort();" then some .abort
  else if isPrint line then some .print
  else ((added? line).map .add).or ((called? line).map .call)

/-- Executes a statement, where `callee` runs the functions that it calls. -/
def Action.run (callee : String → Option Run) : Action → Option Run
  | add e => some { added := [e] }
  | call name => (callee name).map Run.asCall
  | print => some {}
  | ret => some { outcome := .returned }
  | abort => some { outcome := .aborted }

/-- The parameters of a function that tests look at. A register function has no `type`. -/
structure Inputs where
  isMeta : Bool
  type? : Option String := none
deriving DecidableEq, Repr

/-- The name that a line compares `type` with, in front of a block. -/
def comparedName? (line : String) : Option String := do
  let rest ← ("if (type == \"".toList).isPrefixOf? line.toList
  let (name, rest) ← literal? rest
  guard (rest = ") \x7b".toList)
  return String.ofList name

/-- What follows a test. -/
def Inputs.scope? (i : Inputs) (line : String) : Option Scope :=
  (testScope? i.isMeta line).or <| do
    let name ← comparedName? line
    let type ← i.type?
    return .block (type == name)

/-- Executes the statement on a line if it is `taken`, and then `rest`. -/
def execLine (callee : String → Option Run) (taken : Bool) (line : String) (rest : Option Run) :
    Option Run := do
  let action ← action? line
  if taken then (← action.run callee).andThen rest else rest

/-- Executes the lines of a function up to its closing brace. There is no run if one of the lines
that it looks at is of no kind known here, or if the brace is missing. -/
def exec (callee : String → Option Run) (i : Inputs) : Scope → List String → Option Run
  | _, [] => none
  | .function, line :: rest =>
    if line = "\x7d" then some { outcome := .returned }
    else match i.scope? line with
      | some scope => exec callee i scope rest
      | none => execLine callee true line (exec callee i .function rest)
  | .branch taken, line :: rest => execLine callee taken line (exec callee i .function rest)
  | .block taken, line :: rest =>
    if line = "\x7d" then exec callee i .function rest
    else execLine callee taken line (exec callee i (.block taken) rest)

/-- The lines behind the line `head`, which has to stand exactly once. -/
def behind? (head : String) (lines : List String) : Option (List String) :=
  if lines.count head = 1 then some (lines.dropWhile (· != head)).tail else none

/-- Runs the function `name` of a program on the class and `isMeta`. It may call no others. -/
def runRegister (program : List String) (isMeta : Bool) (name : String) : Option Run := do
  let body ← behind? ("static void " ++ name ++ "(ObjClass *cls, bool isMeta)" ++ " \x7b") program
  exec (fun _ => none) { isMeta } .function body

/-- The line that begins `ObjClass::Bind`. -/
def bindHead : String :=
  "void ObjClass::Bind(ObjClass *cls, const std::string &type, bool isMeta) \x7b"

/-- Runs `ObjClass::Bind` of a program on a class, `type` and `isMeta`. -/
def runBind (program : List String) (type : String) (isMeta : Bool) : Option Run := do
  let body ← behind? bindHead program
  exec (runRegister program isMeta) { isMeta, type? := some type } .function body

/-! ### Runs -/

theorem Run.andThen_nil (rest : Option Run) : ({} : Run).andThen rest = rest := by
  cases rest <;> rfl

theorem Run.andThen_andThen (a b : List Entry) (rest : Option Run) :
    ({ added := a } : Run).andThen (({ added := b } : Run).andThen rest) =
      ({ added := a ++ b } : Run).andThen rest := by
  cases rest with
  | none => rfl
  | some r => simp [andThen]

variable {callee : String → Option Run} {i : Inputs} {rest : List String}

theorem isPrint_eq_false {line : String} (h : line.toList.head? ≠ some 'f') :
    isPrint line = false := by
  refine Bool.eq_false_iff.2 fun hprint => h ?_
  obtain ⟨rest, hrest⟩ := List.isPrefixOf_iff_prefix.1 (Bool.and_eq_true_iff.1 hprint).1
  rw [← hrest]
  rfl

theorem action?_text (r : Registration) : action? r.text = some (.add r.entry) := by
  have hprint : isPrint r.text = false := isPrint_eq_false (by simp [Registration.text_eq])
  rw [action?, if_neg (text_ne_of_head r (by decide)), if_neg (text_ne_of_head r (by decide)),
    hprint, added?_text]
  rfl

theorem execLine_text (taken : Bool) (r : Registration) (next : Option Run) :
    execLine callee taken r.text next =
      ({ added := if taken then [r.entry] else [] } : Run).andThen next := by
  rw [execLine, action?_text]
  cases taken
  · exact (Run.andThen_nil next).symm
  · rfl

theorem scope?_guard (r : Registration) :
    i.scope? r.guard = some (.branch (r.isStatic == i.isMeta)) ∧
      i.scope? (r.guard ++ " \x7b") = some (.block (r.isStatic == i.isMeta)) := by
  constructor
  · rw [Inputs.scope?, testScope?_guard, Option.some_or]
  · rw [Inputs.scope?, testScope?_guard_block, Option.some_or]

theorem exec_block (taken : Bool) (run : List Registration) :
    exec callee i (.block taken) (run.map Registration.text ++ "\x7d" :: rest) =
      ({ added := if taken then run.map Registration.entry else [] } : Run).andThen
        (exec callee i .function rest) := by
  induction run with
  | nil =>
    rw [List.map_nil, List.nil_append, exec, if_pos rfl]
    cases taken <;> exact (Run.andThen_nil _).symm
  | cons r run ih =>
    rw [List.map_cons, List.cons_append, exec, if_neg (text_ne_of_head r (by decide)), ih,
      execLine_text, Run.andThen_andThen]
    cases taken <;> rfl

/-- A run of registrations of one level adds its functions if `isMeta` is that level. -/
theorem exec_runCode {level : Bool} {run : List Registration}
    (h : ∀ r ∈ run, r.isStatic = level) :
    exec callee i .function (Code.lines (runCode run) ++ rest) =
      ({ added := if level == i.isMeta then run.map Registration.entry else [] } : Run).andThen
        (exec callee i .function rest) := by
  match run with
  | [] =>
    have hnone : (if level == i.isMeta then ([] : List Registration).map Registration.entry
        else []) = [] := ite_self _
    rw [hnone, Run.andThen_nil]
    rfl
  | [r] =>
    obtain rfl : r.isStatic = level := h r List.mem_cons_self
    have hlines : Code.lines (runCode [r]) = [r.guard, r.text] := by simp [runCode]
    rw [hlines, List.cons_append, List.cons_append, exec, if_neg (guard_ne_close r).1,
      (scope?_guard r).1]
    show execLine callee _ r.text _ = _
    rw [execLine_text]
    rfl
  | r :: next :: run =>
    obtain rfl : r.isStatic = level := h r List.mem_cons_self
    have hlines : Code.lines (runCode (r :: next :: run)) =
        (r.guard ++ " \x7b") :: ((r :: next :: run).map Registration.text ++ ["\x7d"]) := by
      rw [runCode, Code.lines_block, Code.lines_ofLines]
      simp
    rw [hlines, List.cons_append, exec, if_neg (guard_ne_close r).2, (scope?_guard r).2,
      List.append_assoc]
    exact exec_block _ _

theorem exec_levelRuns (runs : List (List Registration))
    (h : ∀ run ∈ runs, ∃ level, ∀ r ∈ run, r.isStatic = level) :
    exec callee i .function (Code.lines (runs.flatMap runCode) ++ rest) =
      ({ added := ((runs.flatten).filter (·.isStatic == i.isMeta)).map Registration.entry } :
        Run).andThen (exec callee i .function rest) := by
  induction runs with
  | nil => exact (Run.andThen_nil _).symm
  | cons run runs ih =>
    rw [List.forall_mem_cons] at h
    obtain ⟨⟨level, hlevel⟩, hruns⟩ := h
    rw [List.flatMap_cons, Code.lines_append, List.append_assoc, exec_runCode hlevel, ih hruns,
      Run.andThen_andThen, List.flatten_cons, List.filter_append, List.map_append,
      filter_level hlevel]
    split
    · rfl
    · rfl

theorem exec_registerCode (rs : List Registration) (after : List String) :
    exec callee i .function (Code.lines ((levelRuns rs).flatMap runCode) ++ "\x7d" :: after) =
      some { added := (rs.filter (·.isStatic == i.isMeta)).map Registration.entry,
             outcome := .returned } := by
  rw [exec_levelRuns _ fun run => isStatic_of_mem_levelRuns, flatten_levelRuns, exec, if_pos rfl]
  simp [Run.andThen]

/-! ### Branches of `ObjClass::Bind` -/

/-- The line that begins the branch of a class. -/
def branchHead (className : String) : String :=
  "if (type == " ++ quoted className ++ ")" ++ " \x7b"

theorem lines_bindBranch (className : String) : (bindBranch className).lines =
    [branchHead className, registerName className ++ "(cls, isMeta);", "return;", "\x7d"] := by
  rw [bindBranch, Code.lines_block, branchHead]
  rfl

theorem scope?_branchHead {className : String} (h : IsWordName className) (isMeta : Bool)
    (type : String) : ({ isMeta, type? := some type } : Inputs).scope? (branchHead className) =
      some (.block (type == className)) := by
  have hescape : escapeChars className.toList = className.toList :=
    escapeChars_eq_self (h.not_mem (by decide)) (h.not_mem (by decide))
  have htext : (branchHead className).toList = "if (type == \"".toList ++
      (escapeChars className.toList ++ '"' :: ") \x7b".toList) := by
    simp [branchHead, quoted, hescape]
  have hname : comparedName? (branchHead className) = some className := by
    rw [comparedName?, htext, isPrefixOf?_append]
    simp only [Option.bind_eq_bind, Option.bind_some, literal?_escapeChars, guard, if_true,
      String.ofList_toList, Option.pure_def]
  have hne : ∀ line : String, '"' ∉ line.toList → branchHead className ≠ line := by
    rintro line hline rfl
    exact hline (by simp [branchHead, quoted])
  have hmeta : testScope? isMeta (branchHead className) = none := by
    rw [testScope?, if_neg (hne _ (by decide)), if_neg (hne _ (by decide)),
      if_neg (hne _ (by decide)), if_neg (hne _ (by decide))]
  rw [Inputs.scope?, hmeta, hname]
  rfl

theorem added?_eq_none {line : String} (h : line.toList.head? ≠ some 'c') : added? line = none := by
  cases hs : ("cls->AddFunction(\"".toList).isPrefixOf? line.toList with
  | none => rw [added?, hs, Option.bind_eq_bind, Option.bind_none]
  | some rest =>
    rw [List.isPrefixOf?_eq_some_iff_append_eq] at hs
    rw [← hs] at h
    exact absurd rfl h

theorem action?_registerCall {className : String} (h : IsWordName className) :
    action? (registerName className ++ "(cls, isMeta);") =
      some (.call (registerName className)) := by
  have hhead : (registerName className ++ "(cls, isMeta);").toList.head? = some 'r' := by
    simp [registerName]
  have hne : ∀ line : String, '(' ∉ line.toList ∨ line.toList.head? ≠ some 'r' →
      registerName className ++ "(cls, isMeta);" ≠ line := by
    rintro line hline rfl
    rcases hline with hline | hline
    · exact hline (by simp)
    · exact hline hhead
  have hprint : isPrint (registerName className ++ "(cls, isMeta);") = false :=
    isPrint_eq_false (by rw [hhead]; decide)
  have hadded : added? (registerName className ++ "(cls, isMeta);") = none :=
    added?_eq_none (by rw [hhead]; decide)
  have hcalled : called? (registerName className ++ "(cls, isMeta);") =
      some (registerName className) := by
    have hfront : IsWordName "register_" := by decide
    have hword : (registerName className).toList.all isWord = true :=
      List.all_eq_true.2 (hfront.append h)
    rw [called?, String.toList_append, isSuffixOf?_append]
    simp only [Option.bind_eq_bind, Option.bind_some, hword, guard, if_true,
      String.ofList_toList, Option.pure_def]
  rw [action?, if_neg (hne _ (.inl (by decide))), if_neg (hne _ (.inr (by decide))), hprint,
    hadded, hcalled]
  rfl

theorem action?_return : action? "return;" = some .ret := by decide

/-- A branch is passed over for any other `type`, and for the name of the class it runs the register
function and returns. -/
theorem exec_branch {className : String} (h : IsWordName className) {isMeta : Bool}
    {type : String} : exec callee { isMeta, type? := some type } .function
        ((bindBranch className).lines ++ rest) =
      if type = className then (callee (registerName className)).bind fun r =>
        r.asCall.andThen (some { outcome := .returned })
      else exec callee { isMeta, type? := some type } .function rest := by
  have hne : ∀ line : String, line.toList.head? ≠ some '\x7d' → line ≠ "\x7d" := by
    rintro line hline rfl
    exact hline rfl
  have hhead : branchHead className ≠ "\x7d" := hne _ (by simp [branchHead])
  have hcall : registerName className ++ "(cls, isMeta);" ≠ "\x7d" :=
    hne _ (by simp [registerName])
  have hreturn : "return;" ≠ "\x7d" := by decide
  rw [lines_bindBranch]
  simp only [List.cons_append, List.nil_append]
  rw [exec, if_neg hhead, scope?_branchHead h]
  show exec callee _ (.block (type == className)) _ = _
  rw [exec, if_neg hcall, exec, if_neg hreturn, exec, if_pos rfl, execLine,
    action?_registerCall h, execLine, action?_return]
  by_cases ht : type = className
  · rw [if_pos ht, beq_iff_eq.2 ht]
    show ((callee (registerName className)).map Run.asCall).bind _ = _
    rw [Option.bind_map]
    rfl
  · rw [if_neg ht, beq_eq_false_iff_ne.2 ht]
    rfl

theorem exec_branches {names : List String} (h : ∀ name ∈ names, IsWordName name) {isMeta : Bool}
    {type : String} : exec callee { isMeta, type? := some type } .function
        ((names.flatMap fun name => (bindBranch name).lines) ++ rest) =
      if type ∈ names then (callee (registerName type)).bind fun r =>
        r.asCall.andThen (some { outcome := .returned })
      else exec callee { isMeta, type? := some type } .function rest := by
  induction names with
  | nil => rfl
  | cons name names ih =>
    rw [List.forall_mem_cons] at h
    rw [List.flatMap_cons, List.append_assoc, exec_branch h.1, ih h.2]
    by_cases ht : type = name
    · subst ht
      rw [if_pos rfl, if_pos List.mem_cons_self]
    · simp only [List.mem_cons, ht, if_false, false_or]

/-- A line that is no test is executed. -/
theorem exec_action {line : String} {action : Action} (hclose : line ≠ "\x7d")
    (htest : (∀ isMeta, testScope? isMeta line = none) ∧ comparedName? line = none)
    (haction : action? line = some action) : exec callee i .function (line :: rest) =
      (action.run callee).bind fun r => r.andThen (exec callee i .function rest) := by
  have hscope : i.scope? line = none := by
    rw [Inputs.scope?, htest.1, htest.2]
    rfl
  rw [exec, if_neg hclose, hscope]
  show execLine callee true line _ = _
  rw [execLine, haction]
  rfl

/-- What stands behind the branches aborts. -/
theorem exec_unknown : exec callee i .function
      ("fprintf(stderr, \"Unknown bindings class '%s'\\n\", type.c_str());" :: "abort();" :: rest) =
    some { outcome := .aborted } := by
  have hprint : action? "fprintf(stderr, \"Unknown bindings class '%s'\\n\", type.c_str());" =
      some .print := by
    decide +kernel
  have habort : action? "abort();" = some .abort := by decide
  rw [exec_action (by decide) ⟨by decide, by decide⟩ hprint,
    exec_action (by decide) ⟨by decide, by decide⟩ habort]
  rfl

/-! ### Whole files -/

/-- A line that begins a function without a result. -/
def isVoidHead (line : String) : Bool :=
  (["static void ", "void "].any fun start => start.toList.isPrefixOf line.toList) &&
    (definition? line).isSome

theorem isVoidHead_eq_false {line : String} (h : definition? line = none) :
    isVoidHead line = false := by
  rw [isVoidHead, h]
  exact Bool.and_false _

/-- The lines that begin functions without a result. -/
def voidHeads (lines : List String) : List String := lines.filter isVoidHead

theorem voidHeads_append (a b : List String) : voidHeads (a ++ b) = voidHeads a ++ voidHeads b :=
  List.filter_append a b

theorem voidHeads_eq_nil {lines : List String} (h : ∀ line ∈ lines, isVoidHead line = false) :
    voidHeads lines = [] :=
  List.filter_eq_nil_iff.2 fun line hline => by rw [h line hline]; decide

theorem voidHeads_block {head : String} {body : List String} (hhead : isVoidHead head = true)
    (hbody : ∀ line ∈ body, definition? line = none) :
    voidHeads (head :: (body ++ ["\x7d"])) = [head] := by
  have hrest : voidHeads (body ++ ["\x7d"]) = [] :=
    voidHeads_eq_nil (List.forall_mem_append.2
      ⟨fun line hline => isVoidHead_eq_false (hbody line hline),
        List.forall_mem_singleton.2 (by decide)⟩)
  rw [voidHeads, List.filter_cons_of_pos hhead, ← voidHeads, hrest]

theorem getLast?_statement (s : Statement) : s.text.toList.getLast? = some ';' := by
  cases s with
  | returnNull => decide
  | returnBoxed rule => cases rule <;> decide +kernel
  | collect roots =>
    rw [Statement.text_collect]
    exact getLast?_toList_append _ rfl
  | receive name signature =>
    rw [Statement.text_receive]
    exact getLast?_toList_append _ rfl
  | unbox u =>
    rw [Statement.text_unbox]
    exact getLast?_toList_append _ rfl
  | perform call =>
    rw [Statement.text_perform]
    exact getLast?_toList_append _ rfl
  | store type call =>
    rw [Statement.text_store]
    exact getLast?_toList_append _ rfl
  | forward target args packed =>
    rw [Statement.text_forward]
    exact getLast?_toList_append _ rfl

theorem voidHeads_function (f : Function) : voidHeads f.code.lines = [] := by
  have hheader : isVoidHead (f.header ++ " \x7b") = false := by
    simp [isVoidHead, Function.header, List.isPrefixOf]
  refine voidHeads_eq_nil fun line hline => ?_
  rw [lines_function, List.mem_cons, List.mem_append, List.mem_map, List.mem_singleton] at hline
  rcases hline with rfl | ⟨s, -, rfl⟩ | rfl
  · exact hheader
  · exact isVoidHead_eq_false
      (definition?_eq_none_of_last (by rw [getLast?_statement]; decide))
  · decide

theorem definition?_text (r : Registration) : definition? r.text = none :=
  definition?_eq_none_of_head (by simp [Registration.text_eq])

theorem isVoidHead_registerHead {className : String} (h : IsWordName className) :
    isVoidHead (registerHead className) = true := by
  have hfront : "static void ".toList <+: (registerHead className).toList := by
    simp [registerHead]
  rw [isVoidHead, definition?_registerHead h, List.any_cons, List.isPrefixOf_iff_prefix.2 hfront]
  rfl

theorem voidHeads_registerCode {className : String} (h : IsWordName className)
    (rs : List Registration) :
    voidHeads (registerCode className rs).lines = [registerHead className] := by
  rw [lines_registerCode]
  refine voidHeads_block (isVoidHead_registerHead h) fun line hline => ?_
  rcases inert_or_text hline with hinert | ⟨r, -, rfl⟩
  · exact hinert.definition
  · exact definition?_text r

theorem lines_bindCode (names : List String) : (bindCode names).lines =
    bindHead :: ((names.flatMap fun name => (bindBranch name).lines) ++
      ["fprintf(stderr, \"Unknown bindings class '%s'\\n\", type.c_str());", "abort();"] ++
      ["\x7d"]) := by
  rw [bindCode, Code.lines_block, Code.lines_append, Code.lines_flatMap]
  rfl

theorem definition?_bindBranch (className : String) :
    ∀ line ∈ (bindBranch className).lines, definition? line = none := by
  have hlast : (registerName className ++ "(cls, isMeta);").toList.getLast? = some ';' :=
    getLast?_toList_append _ rfl
  rw [lines_bindBranch]
  simp only [List.forall_mem_cons]
  exact ⟨(inert_bindTest className).definition, definition?_eq_none_of_last (by rw [hlast]; decide),
    by decide, by decide, by simp⟩

theorem voidHeads_bindCode (names : List String) :
    voidHeads (bindCode names).lines = [bindHead] := by
  have hend : ∀ line ∈ ["fprintf(stderr, \"Unknown bindings class '%s'\\n\", type.c_str());",
      "abort();"], definition? line = none := by
    decide +kernel
  rw [lines_bindCode]
  refine voidHeads_block (by decide +kernel) (List.forall_mem_append.2 ⟨fun line hline => ?_, hend⟩)
  obtain ⟨name, -, hline⟩ := List.mem_flatMap.1 hline
  exact definition?_bindBranch name line hline

theorem voidHeads_flatMap {α : Type} (f : α → List String) (l : List α) :
    voidHeads (l.flatMap f) = l.flatMap fun a => voidHeads (f a) := List.filter_flatMap

theorem voidHeads_classCode {b : ClassBinding} (h : IsWordName b.name) :
    voidHeads b.code.lines = [registerHead b.name] := by
  have hmethods : voidHeads (b.methods.flatMap fun mb => mb.code.lines) = [] := by
    simp only [MethodBinding.code, Code.lines_flatMap, voidHeads_flatMap, voidHeads_function,
      List.flatMap_eq_nil_iff, implies_true]
  rw [b.lines_code, voidHeads_append, voidHeads_append, voidHeads_append,
    voidHeads_registerCode h, hmethods, voidHeads_eq_nil (List.forall_mem_singleton.2
      (isVoidHead_eq_false b.inert_title.definition))]
  rfl

theorem isVoidHead_eq_false_of_start {line : String}
    (h : ∀ start ∈ ["static void ", "void "], start.toList.isPrefixOf line.toList = false) :
    isVoidHead line = false := by
  rw [isVoidHead, List.any_eq_false.2 fun start hstart => by rw [h start hstart]; decide,
    Bool.false_and]

theorem voidHeads_dispatchCode (arity : Nat) : voidHeads (dispatchCode arity).lines = [] := by
  refine voidHeads_eq_nil fun line hline => isVoidHead_eq_false_of_start ?_
  rw [dispatchCode, Code.lines_block, Code.lines_append, Code.lines_block] at hline
  simp only [Code.lines_line, Code.lines_nil, List.mem_cons, List.mem_append, List.not_mem_nil,
    or_false] at hline
  rcases hline with rfl | ((rfl | (rfl | rfl) | rfl) | rfl | rfl) | rfl <;> simp [List.isPrefixOf]

theorem voidHeads_dispatchEntry : voidHeads dispatchEntry.lines = [] := by
  refine voidHeads_eq_nil fun line hline => isVoidHead_eq_false_of_start ?_
  rw [dispatchEntry, Code.lines_block, Code.lines_append, Code.lines_append, Code.lines_append,
    Code.lines_flatMap] at hline
  simp only [dispatchCase, Code.lines_line, Code.lines_nil, Code.lines_indented, List.mem_cons,
    List.mem_append, List.mem_flatMap, List.not_mem_nil, or_false] at hline
  rcases hline with
    rfl | ((((rfl | rfl) | ⟨arity, -, rfl | rfl⟩) | rfl | rfl | rfl) | rfl) | rfl <;>
    simp [List.isPrefixOf]

theorem voidHeads_functionDispatch : voidHeads functionDispatch.lines = [] := by
  have hfunctions : voidHeads ((List.range (maxDispatchArity + 1)).flatMap fun arity =>
      Code.lines (dispatchCode arity ++ Code.blank)) = [] := by
    rw [voidHeads_flatMap, List.flatMap_eq_nil_iff]
    intro arity _
    rw [Code.lines_append, voidHeads_append, voidHeads_dispatchCode]
    decide
  rw [functionDispatch, Code.lines_append, Code.lines_flatMap, voidHeads_append, hfunctions,
    voidHeads_dispatchEntry]
  rfl

theorem BindingFile.lines_code (u : BindingFile) : u.code.lines =
    (preludeCode u.options u.sources).lines ++ (u.classes.flatMap fun b => b.code.lines) ++
      ["// Binding setup method, called by hand-written C++ classes"] ++
      (bindCode (u.classes.map (·.name))).lines ++ [""] ++ ["// Generic closure dispatch"] ++
      functionDispatch.lines := by
  rw [BindingFile.code, Code.lines_append, Code.lines_append, Code.lines_append,
    Code.lines_append, Code.lines_append, Code.lines_append, Code.lines_flatMap]
  rfl

theorem voidHeads_code {u : BindingFile} (h : ∀ b ∈ u.classes, IsWordName b.name) :
    voidHeads u.code.lines = u.classes.map (fun b => registerHead b.name) ++ [bindHead] := by
  have hprelude : voidHeads (preludeCode u.options u.sources).lines = [] :=
    voidHeads_eq_nil fun line hline =>
      isVoidHead_eq_false (inert_preludeCode u.options u.sources line hline).definition
  have hclasses : voidHeads (u.classes.flatMap fun b => b.code.lines) =
      u.classes.map fun b => registerHead b.name := by
    rw [voidHeads_flatMap, List.map_eq_flatMap]
    exact List.flatMap_congr fun b hb => voidHeads_classCode (h b hb)
  have htitles : voidHeads ["// Binding setup method, called by hand-written C++ classes"] = [] ∧
      voidHeads [""] = [] ∧ voidHeads ["// Generic closure dispatch"] = [] := by
    decide +kernel
  rw [u.lines_code, voidHeads_append, voidHeads_append, voidHeads_append, voidHeads_append,
    voidHeads_append, voidHeads_append, hprelude, hclasses, htitles.1, voidHeads_bindCode,
    htitles.2.1, htitles.2.2, voidHeads_functionDispatch]
  simp

theorem behind?_eq {head : String} {before after : List String}
    (h : (before ++ head :: after).count head = 1) :
    behind? head (before ++ head :: after) = some after := by
  have hbefore : head ∉ before := by
    rw [List.count_append, List.count_cons_self] at h
    exact List.count_eq_zero.1 (by omega)
  have hskip : ∀ line ∈ before, (line != head) = true := by
    intro line hline
    rw [bne_iff_ne]
    rintro rfl
    exact hbefore hline
  rw [behind?, if_pos h, List.dropWhile_append_of_pos hskip, List.dropWhile_cons_of_neg (by simp),
    List.tail_cons]

theorem registerHead_injective : Function.Injective registerHead := by
  intro a b h
  simpa [registerHead, registerName] using h

/-- The register function of each class and `ObjClass::Bind` begin only once. -/
theorem nodup_voidHeads {u : BindingFile} {classes : List ClassDecl} (h : u.IsFor classes) :
    (u.classes.map (fun b => registerHead b.name) ++ [bindHead]).Nodup := by
  have hmap : u.classes.map (fun b => registerHead b.name) =
      (u.classes.map (·.name)).map registerHead := by
    rw [List.map_map]
    rfl
  rw [hmap, List.nodup_append]
  refine ⟨h.nodup_classes.map registerHead_injective, List.nodup_singleton _, ?_⟩
  intro head hhead other hother
  obtain ⟨name, -, rfl⟩ := List.mem_map.1 hhead
  rw [List.mem_singleton.1 hother]
  intro he
  have hstart := congrArg (fun line : String => line.toList.head?) he
  simp [registerHead, bindHead] at hstart

theorem count_lines_eq_one {u : BindingFile} {classes : List ClassDecl} (h : u.IsFor classes)
    (hw : ∀ b ∈ u.classes, IsWordName b.name) {head : String}
    (hhead : head ∈ u.classes.map (fun b => registerHead b.name) ++ [bindHead]) :
    u.code.lines.count head = 1 := by
  have hvoid : isVoidHead head = true := by
    rw [← voidHeads_code hw] at hhead
    exact (List.mem_filter.1 hhead).2
  rw [← List.count_filter hvoid, ← voidHeads, voidHeads_code hw]
  exact List.count_eq_one_of_mem (nodup_voidHeads h) hhead

/-- The names of the classes that are bound are those of the declared ones. -/
theorem BindingFile.IsFor.isWordName_classes {u : BindingFile} {classes : List ClassDecl}
    (h : u.IsFor classes) (hc : ∀ c ∈ classes, IsWordName c.name) :
    ∀ b ∈ u.classes, IsWordName b.name := by
  intro b hb
  obtain ⟨c, hmem, hbinds⟩ := exists_mem_of_forall₂ h.bindings hb
  rw [hbinds.1]
  exact hc c hmem

theorem runRegister_eq {u : BindingFile} {classes : List ClassDecl} (h : u.IsFor classes)
    (hw : ∀ b ∈ u.classes, IsWordName b.name) (isMeta : Bool) {b : ClassBinding}
    (hb : b ∈ u.classes) : runRegister u.code.lines isMeta (registerName b.name) =
      some { added := (b.registrations.filter (·.isStatic == isMeta)).map Registration.entry,
             outcome := .returned } := by
  obtain ⟨before, after, hlines⟩ := u.exists_lines_eq hb
  have hcount := count_lines_eq_one h hw (List.mem_append_left _ (List.mem_map_of_mem hb))
  rw [hlines, lines_registerCode, List.cons_append] at hcount
  rw [runRegister, ← registerHead, hlines, lines_registerCode, List.cons_append, behind?_eq hcount,
    Option.bind_eq_bind, Option.bind_some, List.append_assoc]
  exact exec_registerCode _ _

/-- A run of `ObjClass::Bind` ends with the run of one register function, or aborts. -/
theorem runBind_eq {u : BindingFile} {classes : List ClassDecl} (h : u.IsFor classes)
    (hw : ∀ b ∈ u.classes, IsWordName b.name) (type : String) (isMeta : Bool) :
    runBind u.code.lines type isMeta =
      if type ∈ u.classes.map (·.name) then
        (runRegister u.code.lines isMeta (registerName type)).bind fun r =>
          r.asCall.andThen (some { outcome := .returned })
      else some { outcome := .aborted } := by
  have hcount : u.code.lines.count bindHead = 1 :=
    count_lines_eq_one h hw (List.mem_append_right _ List.mem_cons_self)
  have hnames : ∀ name ∈ u.classes.map (·.name), IsWordName name := List.forall_mem_map.2 hw
  obtain ⟨before, after, hlines⟩ : ∃ before after, u.code.lines =
      before ++ ((bindCode (u.classes.map (·.name))).lines ++ after) := by
    rw [u.lines_code, List.append_assoc, List.append_assoc, List.append_assoc]
    exact ⟨_, _, rfl⟩
  have hbody : behind? bindHead u.code.lines = some
      (((u.classes.map (·.name)).flatMap fun name => (bindBranch name).lines) ++
        ("fprintf(stderr, \"Unknown bindings class '%s'\\n\", type.c_str());" :: "abort();" ::
          "\x7d" :: after)) := by
    rw [hlines, lines_bindCode, List.cons_append] at hcount ⊢
    rw [behind?_eq hcount]
    simp
  rw [runBind, hbody, Option.bind_eq_bind, Option.bind_some, exec_branches hnames, exec_unknown]

end WrenGlue.Bindings

namespace WrenGlue.Member

open WrenGlue.Bindings

/-- The forwarder of a variadic method that takes `extra` more values. -/
def forwarderEntry (m : Member) (extra : Nat) : Except BindError Bindings.Entry := do
  return ⟨← m.signatureWith extra, ← m.forwarderSymbol extra⟩

/-- The functions that are to be added for a method. -/
def entries (m : Member) : Except BindError (List Bindings.Entry) :=
  if m.method.isVariadic then (List.range (maxDispatchArity + 1)).mapM m.forwarderEntry
  else do return [⟨← m.signature, ← m.symbol⟩]

theorem IsBinding.entries_eq {m : Member} {options : Options} {form : Wren.CallForm} {arity : Nat}
    {b : MethodBinding} (h : m.IsBinding options form arity b) :
    m.entries = .ok (b.registrations.map Registration.entry) := by
  have harity := (callShape_eq_ok.1 h.callShape).2.1
  have hsymbol : m.symbol = .ok (m.trampolineName arity) := symbol_eq_ok.2 ⟨arity, harity, rfl⟩
  have hsignature : ∀ extra, m.signatureWith extra =
      .ok (form.render m.method.kind (arity + extra)) := fun extra =>
    signatureWith_eq_ok.2 ⟨form, arity, h.callShape, rfl⟩
  rw [entries, h.registrations]
  by_cases hv : m.method.isVariadic = true
  · have hforwarder : m.forwarderEntry = fun extra => pure
        ⟨form.render m.method.kind (arity + extra),
          forwarderName (m.trampolineName arity) extra⟩ := by
      funext extra
      rw [forwarderEntry, hsignature, forwarderSymbol, hsymbol]
      rfl
    rw [if_pos hv, if_pos hv, hforwarder, List.mapM_pure, List.map_map]
    rfl
  · rw [if_neg hv, if_neg hv, signature, hsignature, hsymbol]
    rfl

end WrenGlue.Member

namespace WrenGlue.Bindings

open WrenGlue.Text
open WrenGlue.Header (ClassDecl)

theorem exists_entries {options : Options} {ms : List Member} {bs : List MethodBinding}
    (h : List.Forall₂ (fun m b => m.binding options = .ok b) ms bs) (isMeta : Bool) :
    ∃ calls, (ms.filter (·.method.isStatic == isMeta)).mapM Member.entries = .ok calls ∧
      ((bs.flatMap (·.registrations)).filter (·.isStatic == isMeta)).map Registration.entry =
        calls.flatten := by
  induction h with
  | nil => exact ⟨[], rfl, rfl⟩
  | @cons m b ms bs hb _ ih =>
    obtain ⟨form, arity, hbinding⟩ := Member.exists_isBinding hb
    obtain ⟨calls, hcalls, hflatten⟩ := ih
    rw [List.flatMap_cons, List.filter_append, List.map_append, hflatten,
      filter_level hbinding.isStatic_registrations, List.filter_cons]
    by_cases hlevel : (m.method.isStatic == isMeta) = true
    · refine ⟨b.registrations.map Registration.entry :: calls, ?_, ?_⟩
      · rw [if_pos hlevel, List.mapM_cons, hbinding.entries_eq, hcalls]
        rfl
      · rw [if_pos hlevel, List.flatten_cons]
    · refine ⟨calls, ?_, ?_⟩
      · rw [if_neg hlevel, hcalls]
      · rw [if_neg hlevel]
        rfl

end WrenGlue.Bindings
