import WrenGlue.Proofs.Bindings.BindRun
import WrenGlue.Proofs.Bindings.Independence
import Mathlib.Data.Finset.Insert

/-! A class table over any sequence of calls, of which some fail and the others go on. The table is
kept in place: what a call adds is in a set before the call knows whether it is new there. Still the
table is the one that the accepted calls make, and a call that fails changes nothing. -/

namespace WrenGlue.Bindings

open WrenGlue.Cpp

inductive TableCall where
  | addClass (name : String)
  | addSymbol (className method symbol : String)
  | emitBind
deriving DecidableEq, Repr

namespace TableCall

/-- The name of the class that the call adds. -/
def className? : TableCall → Option String
  | addClass name => some name
  | addSymbol .. | emitBind => none

/-- The trampoline that the call adds. -/
def symbol? : TableCall → Option String
  | addSymbol _ _ symbol => some symbol
  | addClass _ | emitBind => none

theorem className?_eq_some_iff {call : TableCall} {name : String} :
    call.className? = some name ↔ call = addClass name := by
  cases call <;> simp [className?]

theorem symbol?_eq_some_iff {call : TableCall} {symbol : String} :
    call.symbol? = some symbol ↔ ∃ className method, addSymbol className method symbol = call := by
  cases call <;> simp [symbol?, eq_comm]

/-- The table behind a call that does not fail. -/
def apply (t : ClassTable) : TableCall → Except BindError ClassTable
  | addClass name => t.addClass name
  | addSymbol className method symbol => t.addSymbol className method symbol
  | emitBind => .ok t

end TableCall

namespace ClassTable

/-- Whether the call does not fail. -/
def accepts (t : ClassTable) (call : TableCall) : Bool := (call.apply t).isOk

/-- The table behind a call, which may fail. -/
def afterCall (t : ClassTable) (call : TableCall) : ClassTable :=
  match call.apply t with
  | .ok t' => t'
  | .error _ => t

/-- The table behind calls, each of which may fail. -/
def after (t : ClassTable) (calls : List TableCall) : ClassTable := calls.foldl afterCall t

/-- The table that calls make from an empty one. -/
def ofCalls (calls : List TableCall) : ClassTable := after {} calls

/-- Those of the calls that do not fail, one behind the other. -/
def accepted : (t : ClassTable) → List TableCall → List TableCall
  | _, [] => []
  | t, call :: calls =>
    if t.accepts call then call :: (t.afterCall call).accepted calls
    else (t.afterCall call).accepted calls

theorem ofCalls_append_singleton (calls : List TableCall) (call : TableCall) :
    ofCalls (calls ++ [call]) = (ofCalls calls).afterCall call := by
  rw [ofCalls, after, List.foldl_append]
  rfl

/-! ### Calls -/

variable (t : ClassTable)

theorem accepts_addClass (name : String) :
    t.accepts (.addClass name) = decide (name ∉ t.classes) := by
  by_cases h : name ∈ t.classes <;> simp [accepts, TableCall.apply, addClass, h] <;> rfl

theorem afterCall_addClass (name : String) : t.afterCall (.addClass name) =
    if name ∈ t.classes then t else { t with classes := t.classes ++ [name] } := by
  by_cases h : name ∈ t.classes <;> simp [afterCall, TableCall.apply, addClass, h]

theorem afterCall_addSymbol (className method symbol : String) :
    t.afterCall (.addSymbol className method symbol) =
      if symbol ∈ t.symbols then t else { t with symbols := symbol :: t.symbols } := by
  by_cases h : symbol ∈ t.symbols <;> simp [afterCall, TableCall.apply, addSymbol, h]

theorem afterCall_emitBind : t.afterCall .emitBind = t := rfl

/-- A call adds the name of its class, unless it is there. -/
theorem classes_afterCall (call : TableCall) : (t.afterCall call).classes =
    t.classes ++ call.className?.toList.filter (· ∉ t.classes) := by
  cases call with
  | addClass name =>
    rw [afterCall_addClass]
    by_cases h : name ∈ t.classes <;> simp [h, TableCall.className?]
  | addSymbol className method symbol =>
    rw [afterCall_addSymbol]
    split <;> simp [TableCall.className?]
  | emitBind => simp [afterCall_emitBind, TableCall.className?]

theorem nodup_classes_afterCall (h : t.classes.Nodup) (call : TableCall) :
    (t.afterCall call).classes.Nodup := by
  rw [classes_afterCall]
  cases call.className? with
  | none => simpa using h
  | some name =>
    by_cases hname : name ∈ t.classes
    · simpa [hname] using h
    · simpa [hname, List.nodup_append, h] using fun other ho (he : other = name) => hname (he ▸ ho)

theorem mem_symbols_afterCall (call : TableCall) {symbol : String} :
    symbol ∈ (t.afterCall call).symbols ↔ symbol ∈ t.symbols ∨ call.symbol? = some symbol := by
  cases call with
  | addClass name =>
    rw [afterCall_addClass]
    split <;> simp [TableCall.symbol?]
  | addSymbol className method other =>
    rw [afterCall_addSymbol, TableCall.symbol?, Option.some_inj]
    split
    · next h => exact ⟨.inl, fun hm => hm.elim id fun he => he ▸ h⟩
    · simp [or_comm, eq_comm]
  | emitBind => simp [afterCall_emitBind, TableCall.symbol?]

/-! ### Histories -/

/-- The classes of the table are those of the accepted calls, in order. -/
theorem classes_after (calls : List TableCall) :
    (t.after calls).classes = t.classes ++ (t.accepted calls).filterMap (·.className?) := by
  induction calls generalizing t with
  | nil => simp [after, accepted]
  | cons call calls ih =>
    have hafter : t.after (call :: calls) = (t.afterCall call).after calls := rfl
    have hnew : call.className?.toList.filter (· ∉ t.classes) =
        if t.accepts call then call.className?.toList else [] := by
      cases call with
      | addClass name =>
        by_cases h : name ∈ t.classes <;> simp [accepts_addClass, h, TableCall.className?]
      | addSymbol | emitBind => simp [TableCall.className?]
    rw [hafter, ih, classes_afterCall, hnew, accepted]
    cases t.accepts call <;> cases hname : call.className? <;> simp [hname]

/-- Each class that was added is in the table once, in the order of the first calls. -/
theorem classes_ofCalls (calls : List TableCall) :
    (ofCalls calls).classes = (calls.filterMap (·.className?)).eraseDups := by
  induction calls using List.reverseRecOn with
  | nil => rfl
  | append_singleton calls call ih =>
    rw [ofCalls_append_singleton, classes_afterCall, ih, List.filterMap_append,
      List.eraseDups_append]
    generalize calls.filterMap (·.className?) = names
    cases hname : call.className? with
    | none => simp [hname]
    | some name =>
      by_cases h : name ∈ names <;> simp [hname, List.removeAll, List.eraseDups_cons, h]

theorem mem_classes_ofCalls {calls : List TableCall} {name : String} :
    name ∈ (ofCalls calls).classes ↔ .addClass name ∈ calls := by
  simp [classes_ofCalls, TableCall.className?_eq_some_iff]

theorem mem_symbols_ofCalls {calls : List TableCall} {symbol : String} :
    symbol ∈ (ofCalls calls).symbols ↔
      ∃ className method, .addSymbol className method symbol ∈ calls := by
  induction calls using List.reverseRecOn with
  | nil => simp [ofCalls, after]
  | append_singleton calls call ih =>
    simp only [ofCalls_append_singleton, mem_symbols_afterCall, ih, TableCall.symbol?_eq_some_iff,
      List.mem_append, List.mem_singleton, exists_or]

theorem nodup_classes_ofCalls (calls : List TableCall) : (ofCalls calls).classes.Nodup := by
  induction calls using List.reverseRecOn with
  | nil => exact List.nodup_nil
  | append_singleton calls call ih =>
    rw [ofCalls_append_singleton]
    exact nodup_classes_afterCall _ ih call

end ClassTable

/-! ### In place -/

/-- A table that is kept in place, and the page that it is written to. -/
structure Registry where
  classes : List String := []
  /-- The names of the classes. -/
  names : Finset String := ∅
  symbols : Finset String := ∅
  page : Page := {}

/-- A computation that changes a table. What was changed before a failure stays so. -/
abbrev TableRun := EStateM BindError Registry

/-- Puts `name` into the set of names, and tells whether it is new there. -/
def insertName (name : String) : TableRun Bool :=
  modifyGet fun s => (decide (name ∉ s.names), { s with names := insert name s.names })

/-- Puts `symbol` into the set of trampolines, and tells whether it is new there. -/
def insertSymbol (symbol : String) : TableRun Bool :=
  modifyGet fun s => (decide (symbol ∉ s.symbols), { s with symbols := insert symbol s.symbols })

/-- Makes the call on the table in place. -/
def TableCall.perform : TableCall → TableRun Unit
  | addClass name => do
    unless ← insertName name do throw (.duplicateClass name)
    modify fun s => { s with classes := s.classes ++ [name] }
  | addSymbol className method symbol => do
    unless ← insertSymbol symbol do throw (.method className method (.duplicateSymbol symbol))
  | emitBind => modify fun s => { s with page := s.page.write (bindCode s.classes) }

namespace Registry

/-- What there is behind calls, each of which may fail. -/
def after (s : Registry) (calls : List TableCall) : Registry :=
  calls.foldl (fun s call => match call.perform.run s with | .ok _ s' | .error _ s' => s') s

/-- What calls make from an empty table and a page. -/
def ofCalls (p : Page) (calls : List TableCall) : Registry := after { page := p } calls

/-- The table in place holds what `t` does. -/
structure Represents (s : Registry) (t : ClassTable) : Prop where
  classes : s.classes = t.classes
  names : ∀ name, name ∈ s.names ↔ name ∈ t.classes
  symbols : ∀ symbol, symbol ∈ s.symbols ↔ symbol ∈ t.symbols

theorem run_bind_insertName {α : Type} (name : String) (f : Bool → TableRun α) (s : Registry) :
    (insertName name >>= f).run s =
      (f (decide (name ∉ s.names))).run { s with names := insert name s.names } := rfl

theorem run_bind_insertSymbol {α : Type} (symbol : String) (f : Bool → TableRun α) (s : Registry) :
    (insertSymbol symbol >>= f).run s =
      (f (decide (symbol ∉ s.symbols))).run { s with symbols := insert symbol s.symbols } := rfl

variable (s : Registry)

theorem perform_addClass (name : String) : (TableCall.addClass name).perform.run s =
    if name ∈ s.names then .error (.duplicateClass name) s
    else .ok () { s with classes := s.classes ++ [name], names := insert name s.names } := by
  rw [TableCall.perform, run_bind_insertName]
  by_cases h : name ∈ s.names
  · -- The set was changed before the call fails, but only to what it was.
    rw [if_pos h, Finset.insert_eq_of_mem h]
    simp only [h, not_true_eq_false, decide_false]
    rfl
  · rw [if_neg h]
    simp only [h, not_false_eq_true, decide_true]
    rfl

theorem perform_addSymbol (className method symbol : String) :
    (TableCall.addSymbol className method symbol).perform.run s =
      if symbol ∈ s.symbols then .error (.method className method (.duplicateSymbol symbol)) s
      else .ok () { s with symbols := insert symbol s.symbols } := by
  rw [TableCall.perform, run_bind_insertSymbol]
  by_cases h : symbol ∈ s.symbols
  · rw [if_pos h, Finset.insert_eq_of_mem h]
    simp only [h, not_true_eq_false, decide_false]
    rfl
  · rw [if_neg h]
    simp only [h, not_false_eq_true, decide_true]
    rfl

theorem perform_emitBind : TableCall.emitBind.perform.run s =
    .ok () { s with page := s.page.write (bindCode s.classes) } := rfl

variable {s} {t : ClassTable}

/-- A call does in place what it does to the table, or it fails like there and changes nothing. -/
theorem Represents.perform (h : s.Represents t) (call : TableCall) :
    match call.apply t with
    | .ok t' => ∃ s', call.perform.run s = .ok () s' ∧ s'.Represents t'
    | .error e => call.perform.run s = .error e s := by
  cases call with
  | addClass name =>
    rw [TableCall.apply, ClassTable.addClass, perform_addClass]
    by_cases hname : name ∈ t.classes
    · rw [if_pos hname, if_pos ((h.names name).2 hname)]
    · have hnew : name ∉ s.names := fun hm => hname ((h.names name).1 hm)
      rw [if_neg hname, if_neg hnew]
      exact ⟨_, rfl, by simp [h.classes], by simp [h.names, or_comm], h.symbols⟩
  | addSymbol className method symbol =>
    rw [TableCall.apply, ClassTable.addSymbol, perform_addSymbol]
    by_cases hsymbol : symbol ∈ t.symbols
    · rw [if_pos hsymbol, if_pos ((h.symbols symbol).2 hsymbol)]
    · have hnew : symbol ∉ s.symbols := fun hm => hsymbol ((h.symbols symbol).1 hm)
      rw [if_neg hsymbol, if_neg hnew]
      exact ⟨_, rfl, h.classes, h.names, by simp [h.symbols]⟩
  | emitBind => exact ⟨_, perform_emitBind s, h.classes, h.names, h.symbols⟩

/-- The table in place holds what the table does, whatever calls were made. -/
theorem Represents.after (h : s.Represents t) (calls : List TableCall) :
    (s.after calls).Represents (t.after calls) := by
  induction calls generalizing s t with
  | nil => exact h
  | cons call calls ih =>
    have hstep := h.perform call
    rw [Registry.after, ClassTable.after, List.foldl_cons, List.foldl_cons, ← Registry.after,
      ← ClassTable.after, ClassTable.afterCall]
    cases hcall : call.apply t with
    | ok t' =>
      rw [hcall] at hstep
      obtain ⟨s', hrun, hs'⟩ := hstep
      simp only [hrun]
      exact ih hs'
    | error e =>
      rw [hcall] at hstep
      simp only [hstep]
      exact ih h

theorem represents_ofCalls (p : Page) (calls : List TableCall) :
    (ofCalls p calls).Represents (.ofCalls calls) :=
  Represents.after ⟨rfl, by simp, by simp⟩ calls

end Registry

/-! ### The page -/

/-- The lines of the branch for a class, at depth `depth`. -/
def branchLines (depth : Nat) (name : String) : List String :=
  [Page.lineAt depth (branchHead name),
    Page.lineAt (depth + 1) (registerName name ++ "(cls, isMeta);"),
    Page.lineAt (depth + 1) "return;", Page.lineAt depth "\x7d"]

/-- The lines of `ObjClass::Bind` for classes: a branch for each of them, and the end, which
aborts. -/
def bindLines (depth : Nat) (names : List String) : List String :=
  Page.lineAt depth bindHead :: names.flatMap (branchLines (depth + 1)) ++
    [Page.lineAt (depth + 1)
      "fprintf(stderr, \"Unknown bindings class '%s'\\n\", type.c_str());",
      Page.lineAt (depth + 1) "abort();", Page.lineAt depth "\x7d"]

theorem linesFrom_bindBranch (depth : Nat) (name : String) :
    (bindBranch name).linesFrom depth = branchLines depth name := by
  rw [bindBranch, Code.linesFrom_block _ _ fun _ => rfl]
  rfl

theorem linesFrom_bindCode (depth : Nat) (names : List String) :
    (bindCode names).linesFrom depth = bindLines depth names := by
  have hbranches : Code.IsBalanced (names.flatMap bindBranch) :=
    .flatMap fun name _ => isBalanced_bindBranch name
  rw [bindCode, Code.linesFrom_block _ _ (hbranches.append fun _ => rfl),
    hbranches.linesFrom_append,
    Code.IsBalanced.linesFrom_flatMap fun name _ => isBalanced_bindBranch name]
  simp only [linesFrom_bindBranch, bindLines, List.append_assoc, List.cons_append]
  rfl

namespace ClassTable

/-- Whatever calls were made of a table, a class fails if it was added before, and so does a
trampoline, and a call that fails changes nothing. The table has the accepted classes, each of them
once. `ObjClass::Bind` is written with their branches, in order, and leaves the table as it is. -/
theorem ofCalls_outcome (p : Page) (calls : List TableCall) :
    (Registry.ofCalls p calls).Represents (ofCalls calls) ∧
    (∀ call : TableCall, match call.apply (ofCalls calls) with
      | .ok t => ∃ s, call.perform.run (.ofCalls p calls) = .ok () s ∧ s.Represents t
      | .error e => call.perform.run (.ofCalls p calls) = .error e (.ofCalls p calls)) ∧
    (∀ name, (∃ e, (ofCalls calls).addClass name = .error e) ↔ .addClass name ∈ calls) ∧
    (∀ className method symbol,
      (∃ e, (ofCalls calls).addSymbol className method symbol = .error e) ↔
        ∃ c m, .addSymbol c m symbol ∈ calls) ∧
    (ofCalls calls).classes = (accepted {} calls).filterMap (·.className?) ∧
    (ofCalls calls).classes = (calls.filterMap (·.className?)).eraseDups ∧
    (ofCalls calls).classes.Nodup ∧
    (ofCalls calls).size = ((accepted {} calls).filterMap (·.className?)).length ∧
    ((ofCalls calls).isEmpty = true ↔ (ofCalls calls).size = 0) ∧
    TableCall.emitBind.perform.run (.ofCalls p calls) = .ok () { Registry.ofCalls p calls with
      page := ⟨(Registry.ofCalls p calls).page.text ++ String.join
          (bindLines (Registry.ofCalls p calls).page.depth (ofCalls calls).classes),
        (Registry.ofCalls p calls).page.depth⟩ } := by
  have hrepresents := Registry.represents_ofCalls p calls
  have hclasses : (ofCalls calls).classes = (accepted {} calls).filterMap (·.className?) :=
    classes_after {} calls
  refine ⟨hrepresents, hrepresents.perform, fun name => ?_, fun className method symbol => ?_,
    hclasses, classes_ofCalls calls, nodup_classes_ofCalls calls, congrArg List.length hclasses,
    by simp [isEmpty, size], ?_⟩
  · rw [← mem_classes_ofCalls]
    by_cases h : name ∈ (ofCalls calls).classes <;> simp [addClass, h]
  · rw [← mem_symbols_ofCalls]
    by_cases h : symbol ∈ (ofCalls calls).symbols <;> simp [addSymbol, h]
  · rw [Registry.perform_emitBind, Page.write_eq, isBalanced_bindCode, linesFrom_bindCode,
      ← hrepresents.classes]

example : (ofCalls [.addClass "ObjZ", .addSymbol "ObjZ" "F" "ObjA", .addClass "ObjA", .emitBind,
    .addClass "ObjZ"]).classes = ["ObjZ", "ObjA"] := by decide

end ClassTable

end WrenGlue.Bindings
