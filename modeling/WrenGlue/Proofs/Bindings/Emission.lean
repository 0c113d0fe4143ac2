import WrenGlue.Proofs.Bindings.Faults
import WrenGlue.Proofs.Bindings.Independence

/-! Writing the code of a method while its parts are still derived: the trampoline is on the page
before the signatures and the forwarders of a variadic method are known. Each of the later steps can
fail by itself. None of them does, for what it needs was derived before the trampoline: a method is
written as a whole or not at all. -/

namespace WrenGlue

open WrenGlue.Bindings WrenGlue.Cpp

/-- A computation that writes to a page. What was written before a failure stays there. -/
abbrev Emission := EStateM BindError Page

namespace Emission

variable {α β : Type}

def write (code : Code) : Emission Unit := fun p => .ok () (p.write code)

/-- A step that writes nothing. -/
def derive (x : Except BindError α) : Emission α := fun p =>
  match x with
  | .ok a => .ok a p
  | .error e => .error e p

theorem run_bind_of_ok {x : Emission α} {p p' : Page} {a : α} (h : x.run p = .ok a p')
    (f : α → Emission β) : (x >>= f).run p = (f a).run p' := by
  show EStateM.bind x f p = _
  rw [EStateM.bind, show x p = .ok a p' from h]
  rfl

theorem run_bind_write (code : Code) (f : Unit → Emission β) (p : Page) :
    (write code >>= f).run p = (f ()).run (p.write code) := rfl

theorem run_bind_derive (x : Except BindError α) (f : α → Emission β) (p : Page) :
    (derive x >>= f).run p = match x with
      | .ok a => (f a).run p
      | .error e => .error e p := by
  cases x <;> rfl

/-- The emission writes the code of the binding as a whole and gives what is to be registered, or it
fails as `bound` does and writes nothing. -/
structure Writes (x : Emission (List Registration)) (bound : Except BindError MethodBinding) :
    Prop where
  ok : ∀ b, bound = .ok b → ∀ p, x.run p = .ok b.registrations (p.write b.code)
  error : ∀ e, bound = .error e → ∀ p, x.run p = .error e p

/-- A step that writes nothing may come first. -/
theorem Writes.derive {x : Except BindError α} {f : α → Emission (List Registration)}
    {g : α → Except BindError MethodBinding} (h : ∀ a, x = .ok a → Writes (f a) (g a)) :
    Writes (Emission.derive x >>= f) (x >>= g) := by
  cases x with
  | error e =>
    refine ⟨fun b hb => ?_, fun e' he p => ?_⟩
    · cases hb
    · cases he
      rfl
  | ok a =>
    have ha := h a rfl
    exact ⟨fun b hb p => (run_bind_derive (.ok a) f p).trans (ha.ok b hb p),
      fun e he p => (run_bind_derive (.ok a) f p).trans (ha.error e he p)⟩

/-- Once nothing can fail, the emission of the whole is what the binding says. -/
theorem Writes.of_ok {x : Emission (List Registration)} {b : MethodBinding}
    (h : ∀ p, x.run p = .ok b.registrations (p.write b.code)) : Writes x (.ok b) := by
  refine ⟨fun b' hb p => ?_, fun e he => ?_⟩
  · cases hb
    exact h p
  · cases he

end Emission

namespace Member

open Emission

/-- Writes the forwarder for the number of values in `entry`. It is registered under the signature
there. -/
def emitForwarder (m : Member) (options : Options) (symbol : String) (entry : String × Nat) :
    Emission Registration := do
  let name ← derive (m.forwarderSymbol entry.2)
  write { forwarder options symbol m.fixedParams entry.2 with name }.code
  return ⟨entry.1, name, m.method.isStatic⟩

/-- Writes what the method needs in generated code, and gives what is to be registered for it. -/
def emit (m : Member) (options : Options) : Emission (List Registration) := do
  let symbol ← derive m.symbol
  let shown ← derive m.shownSignature
  let unboxings ← derive (m.method.args.mapM (m.unboxing shown))
  let boxing ← derive m.boxing
  write (m.trampoline options symbol shown unboxings boxing).code
  if m.method.isVariadic then
    let signatures ← derive m.variadicSignatures
    signatures.zipIdx.mapM (m.emitForwarder options symbol)
  else
    let signature ← derive m.signature
    return [⟨signature, symbol, m.method.isStatic⟩]

variable {m : Member} {options : Options}

theorem run_emitForwarder {symbol : String} (h : m.symbol = .ok symbol) (entry : String × Nat)
    (p : Page) : (m.emitForwarder options symbol entry).run p =
      .ok ⟨entry.1, forwarderName symbol entry.2, m.method.isStatic⟩
        (p.write (forwarder options symbol m.fixedParams entry.2).code) := by
  have hname : m.forwarderSymbol entry.2 = .ok (forwarderName symbol entry.2) := by
    rw [forwarderSymbol, h]
    rfl
  rw [emitForwarder, hname, run_bind_derive]
  rfl

theorem zipIdx_map_range {α : Type} (f : Nat → α) (n : Nat) :
    ((List.range n).map f).zipIdx = (List.range n).map fun k => (f k, k) :=
  List.ext_getElem (by simp) fun i _ _ => by simp

/-- The forwarders of a method whose trampoline has a name can all be written. -/
theorem run_mapM_emitForwarder {symbol : String} (h : m.symbol = .ok symbol)
    (entries : List (String × Nat)) (p : Page) :
    (entries.mapM (m.emitForwarder options symbol)).run p =
      .ok (entries.map fun entry =>
          ⟨entry.1, forwarderName symbol entry.2, m.method.isStatic⟩)
        (p.write (entries.flatMap fun entry =>
          (forwarder options symbol m.fixedParams entry.2).code)) := by
  induction entries generalizing p with
  | nil => rfl
  | cons entry entries ih =>
    rw [List.mapM_cons, run_bind_of_ok (run_emitForwarder h entry p), run_bind_of_ok (ih _),
      List.map_cons, List.flatMap_cons, Page.write_append]
    rfl

/-- Step by step, a method is written as its binding says, and nothing is written without one. -/
theorem writes_emit (m : Member) (options : Options) :
    Writes (m.emit options) (m.binding options) := by
  refine .derive fun symbol hsymbol => ?_
  refine .derive fun shown hshown => ?_
  refine .derive fun unboxings _ => ?_
  refine .derive fun boxing _ => ?_
  -- What comes behind the trampoline cannot fail: all that it derives is known by now.
  obtain ⟨form, arity, hshape⟩ := exists_callShape_of_shownSignature hshown
  by_cases hv : m.method.isVariadic = true
  · have hsignatures : m.variadicSignatures = .ok ((List.range (maxDispatchArity + 1)).map
        fun extra => form.render m.method.kind (arity + extra)) := by
      rw [variadicSignatures, hshape]
      rfl
    rw [if_pos hv, if_pos hv, hsignatures]
    refine .of_ok fun p => ?_
    rw [run_bind_write, run_bind_derive]
    dsimp only
    rw [run_mapM_emitForwarder hsymbol, zipIdx_map_range, List.map_map, List.flatMap_map,
      ← Page.write_append]
    simp only [MethodBinding.code, MethodBinding.functions, List.flatMap_cons, List.flatMap_map,
      List.zipWith_map, List.zipWith_self]
    rfl
  · have hsignature : m.signature = .ok (form.render m.method.kind (arity + 0)) :=
      signatureWith_eq_ok.2 ⟨form, arity, hshape, rfl⟩
    rw [if_neg hv, if_neg hv, hsignature]
    refine .of_ok fun p => ?_
    rw [run_bind_write, run_bind_derive]
    simp only [MethodBinding.code, MethodBinding.functions, List.flatMap_cons, List.flatMap_nil,
      List.append_nil]
    rfl

/-- A method has a binding exactly if the name of its trampoline, its signature and each of its
conversions can be derived on their own. -/
theorem exists_binding_iff (m : Member) (options : Options) :
    (∃ b, m.binding options = .ok b) ↔
      (∃ symbol, m.symbol = .ok symbol) ∧ (∃ signature, m.signature = .ok signature) ∧
      (∀ a ∈ m.method.args, ∀ shown, ∃ u, m.unboxing shown a = .ok u) ∧
      ∃ boxing, m.boxing = .ok boxing := by
  cases hsymbol : m.symbol with
  | error e =>
    have hbinding : m.binding options = .error e := by
      rw [binding, hsymbol]
      rfl
    simp [hbinding]
  | ok symbol =>
    obtain ⟨arity, harity, -⟩ := symbol_eq_ok.1 hsymbol
    simp only [(reports_binding hsymbol options).exists_eq_ok_iff,
      (reports_signature harity).exists_eq_ok_iff, reports_boxing.exists_eq_ok_iff,
      (reports_unboxing _ _).exists_eq_ok_iff, bindingFaults, located_append, located_flatMap,
      List.append_eq_nil_iff, List.flatMap_eq_nil_iff, Except.ok.injEq, exists_eq', true_and,
      forall_const, and_assoc]

/-- A method is written as a whole or not at all, whatever stands on the page. -/
theorem emit_all_or_nothing (m : Member) (options : Options) (p : Page) :
    (∀ b, m.binding options = .ok b →
      (m.emit options).run p = .ok b.registrations (p.write b.code)) ∧
    (∀ e, m.binding options = .error e → (m.emit options).run p = .error e p) ∧
    (∀ e p', (m.emit options).run p = .error e p' → p' = p) ∧
    (∀ rs p', (m.emit options).run p = .ok rs p' →
      (∃ written, p'.text = p.text ++ written) ∧ p'.depth = p.depth ∧
      rs.length = if m.method.isVariadic then 17 else 1) ∧
    ((∃ rs p', (m.emit options).run p = .ok rs p') ↔
      (∃ symbol, m.symbol = .ok symbol) ∧ (∃ signature, m.signature = .ok signature) ∧
      (∀ a ∈ m.method.args, ∀ shown, ∃ u, m.unboxing shown a = .ok u) ∧
      ∃ boxing, m.boxing = .ok boxing) := by
  have hwrites := m.writes_emit options
  rw [← exists_binding_iff m options]
  refine ⟨fun b hb => hwrites.ok b hb p, fun e he => hwrites.error e he p, ?_⟩
  cases hb : m.binding options with
  | error e =>
    rw [hwrites.error e hb p]
    refine ⟨fun e' p' h => ?_, fun rs p' h => ?_, ?_⟩
    · cases h
      rfl
    · cases h
    · simp
  | ok b =>
    rw [hwrites.ok b hb p]
    refine ⟨fun e p' h => ?_, fun rs p' h => ?_, fun _ => ⟨b, rfl⟩, fun _ => ⟨_, _, rfl⟩⟩
    · cases h
    · cases h
      obtain ⟨form, arity, hbinding⟩ := exists_isBinding hb
      rw [Page.write_eq, hbinding.registrations]
      refine ⟨⟨_, rfl⟩, b.isBalanced_code p.depth, ?_⟩
      split <;> simp [maxDispatchArity]

/-- A variadic method of numbers with the given return type. -/
def addAll (returnType : String) : Member :=
  ⟨{ name := "ObjNumClass" }, { name := "AddAll", returnType, kind := .variadic, args := [
    { type := "double", name := "x", position := 0 }] }⟩

/-- A type that cannot be returned keeps all of a method from a page that is written to. -/
theorem emit_all_or_nothing_variadic :
    (∃ rs p', ((addAll "double").emit {}).run ⟨"if (x)\n", 3⟩ = .ok rs p' ∧
      (∃ written, p'.text = "if (x)\n" ++ written) ∧ p'.depth = 3 ∧ rs.length = 17) ∧
    ((addAll "long").emit {}).run ⟨"if (x)\n", 3⟩ =
      .error (.method "ObjNumClass" "AddAll" (.unknownReturnType "long")) ⟨"if (x)\n", 3⟩ := by
  constructor
  · obtain ⟨-, -, -, hok, hiff⟩ := emit_all_or_nothing (addAll "double") {} ⟨"if (x)\n", 3⟩
    have hargs : ∀ a ∈ (addAll "double").method.args, ∀ shown,
        ∃ u, (addAll "double").unboxing shown a = .ok u := by
      intro a ha shown
      obtain rfl := List.mem_singleton.1 ha
      exact (reports_unboxing shown _).exists_eq_ok_iff.2 (by decide +kernel)
    obtain ⟨rs, p', hrun⟩ := hiff.2 ⟨exists_eq_ok (by decide +kernel),
      exists_eq_ok (by decide +kernel), hargs, exists_eq_ok (by decide +kernel)⟩
    exact ⟨rs, p', hrun, hok rs p' hrun⟩
  · obtain ⟨-, herror, -⟩ := emit_all_or_nothing (addAll "long") {} ⟨"if (x)\n", 3⟩
    exact herror _ (by decide +kernel)

end Member

end WrenGlue
