import WrenGlue.Bindings.BindingFile
import Mathlib.Data.List.Forall2
import Mathlib.Data.List.Nodup

/-! What a successful binding is made of: the parts of one method, those of each class, and the
names that the table keeps apart. -/

namespace WrenGlue

open WrenGlue.Bindings
open WrenGlue.Cpp (DeclaredType)
open WrenGlue.Header (Argument ClassDecl)
open WrenGlue.Wren (CallForm)

theorem bind_eq_ok {ε α β : Type} {x : Except ε α} {f : α → Except ε β} {b : β} :
    (x >>= f) = .ok b ↔ ∃ a, x = .ok a ∧ f a = .ok b := by
  cases x <;> simp [bind, Except.bind]

theorem exists_eq_ok {ε α : Type} {x : Except ε α} (h : x.isOk = true) : ∃ a, x = .ok a := by
  cases x with
  | error => cases h
  | ok a => exact ⟨a, rfl⟩

theorem forall₂_of_mapM_eq_ok {ε α β : Type} {f : α → Except ε β} {l : List α} {out : List β}
    (h : l.mapM f = .ok out) : List.Forall₂ (fun a b => f a = .ok b) l out := by
  induction l generalizing out with
  | nil =>
    cases h
    exact .nil
  | cons a l ih =>
    rw [List.mapM_cons] at h
    obtain ⟨first, hfirst, h⟩ := bind_eq_ok.1 h
    obtain ⟨rest, hrest, h⟩ := bind_eq_ok.1 h
    cases h
    exact .cons hfirst (ih hrest)

theorem mapM_eq_ok_iff {ε α β : Type} {f : α → Except ε β} {l : List α} {out : List β} :
    l.mapM f = .ok out ↔ List.Forall₂ (fun a b => f a = .ok b) l out := by
  refine ⟨forall₂_of_mapM_eq_ok, fun h => ?_⟩
  induction h with
  | nil => rfl
  | cons hab _ ih =>
    rw [List.mapM_cons, hab, ih]
    rfl

/-- A traversal fails as its first step that fails. -/
theorem mapM_eq_error_iff {ε α β : Type} {f : α → Except ε β} {l : List α} {e : ε} :
    l.mapM f = .error e ↔ ∃ before a after, l = before ++ a :: after ∧
      (∀ b ∈ before, ∃ out, f b = .ok out) ∧ f a = .error e := by
  induction l with
  | nil =>
    constructor
    · rintro ⟨⟩
    · rintro ⟨before, a, after, h, -⟩
      cases before <;> cases h
  | cons first rest ih =>
    rw [List.mapM_cons]
    cases hfirst : f first with
    | error found =>
      constructor
      · intro h
        cases h
        exact ⟨[], first, rest, rfl, by simp, hfirst⟩
      · rintro ⟨before, a, after, h, hbefore, ha⟩
        cases before with
        | nil =>
          obtain ⟨rfl, rfl⟩ := List.cons.inj h
          rw [hfirst] at ha
          cases ha
          rfl
        | cons b before =>
          obtain ⟨rfl, rfl⟩ := List.cons.inj h
          obtain ⟨out, hout⟩ := hbefore _ List.mem_cons_self
          rw [hfirst] at hout
          cases hout
    | ok out =>
      have hstep : (Except.ok out >>= fun b => do return b :: (← rest.mapM f)) = .error e ↔
          rest.mapM f = .error e := by
        cases rest.mapM f <;> simp [bind, Except.bind, pure, Except.pure]
      rw [hstep, ih]
      constructor
      · rintro ⟨before, a, after, rfl, hbefore, ha⟩
        exact ⟨first :: before, a, after, rfl, List.forall_mem_cons.2 ⟨⟨out, hfirst⟩, hbefore⟩, ha⟩
      · rintro ⟨before, a, after, h, hbefore, ha⟩
        cases before with
        | nil =>
          obtain ⟨rfl, rfl⟩ := List.cons.inj h
          rw [hfirst] at ha
          cases ha
        | cons b before =>
          obtain ⟨rfl, rfl⟩ := List.cons.inj h
          exact ⟨before, a, after, rfl, fun b hb => hbefore b (List.mem_cons_of_mem _ hb), ha⟩

theorem exists_mem_of_forall₂ {α β : Type} {R : α → β → Prop} {l : List α} {out : List β}
    (h : List.Forall₂ R l out) {b : β} (hb : b ∈ out) : ∃ a ∈ l, R a b := by
  induction h with
  | nil => cases hb
  | @cons a b' l out hab _ ih =>
    rcases List.mem_cons.1 hb with rfl | hb
    · exact ⟨a, List.mem_cons_self, hab⟩
    · obtain ⟨a', ha', hr⟩ := ih hb
      exact ⟨a', List.mem_cons_of_mem _ ha', hr⟩

theorem mem_of_mapM_eq_ok {ε α β : Type} {f : α → Except ε β} {l : List α} {out : List β}
    (h : l.mapM f = .ok out) {b : β} (hb : b ∈ out) : ∃ a ∈ l, f a = .ok b :=
  exists_mem_of_forall₂ (forall₂_of_mapM_eq_ok h) hb

namespace Member

variable {m : Member} {options : Options}

/-- The name of the trampoline of a method to which Wren code passes `arity` arguments. -/
def trampolineName (m : Member) (arity : Nat) : String :=
  "binding_" ++ m.owner.name ++ "_" ++ m.method.name ++ "_" ++ toString arity

theorem symbol_eq_ok {symbol : String} :
    m.symbol = .ok symbol ↔ ∃ arity, m.arity = .ok arity ∧ symbol = m.trampolineName arity := by
  rw [Member.symbol, bind_eq_ok]
  refine exists_congr fun arity => and_congr_right fun _ => ?_
  simp [trampolineName, pure, Except.pure, eq_comm]

theorem callShape_eq_ok {form : CallForm} {arity : Nat} :
    m.callShape = .ok (form, arity) ↔
      m.callForm = .ok form ∧ m.arity = .ok arity ∧ ¬(form = .subscriptSet ∧ arity = 0) := by
  constructor
  · intro h
    obtain ⟨form', hform, h⟩ := bind_eq_ok.1 h
    obtain ⟨arity', harity, h⟩ := bind_eq_ok.1 h
    split at h
    · cases h
    · obtain ⟨rfl, rfl⟩ : form' = form ∧ arity' = arity := by
        simpa [pure, Except.pure] using h
      exact ⟨hform, harity, ‹_›⟩
  · rintro ⟨hform, harity, hset⟩
    simp [callShape, hform, harity, hset, bind, Except.bind, pure, Except.pure]

theorem signatureWith_eq_ok {extra : Nat} {signature : String} :
    m.signatureWith extra = .ok signature ↔ ∃ form arity, m.callShape = .ok (form, arity) ∧
      signature = form.render m.method.kind (arity + extra) := by
  rw [signatureWith, bind_eq_ok, Prod.exists]
  refine exists_congr fun form => exists_congr fun arity => and_congr_right fun _ => ?_
  simp [pure, Except.pure, eq_comm]

/-- An argument that is converted has a type that can be passed. -/
theorem supported_of_unboxing {shown : String} {a : Argument} {u : Unboxing}
    (h : m.unboxing shown a = .ok u) (other : String) :
    DeclaredType.ofText a.type ≠ .unsupported other := by
  intro ht
  rw [unboxing, Argument.declaredType, ht] at h
  cases h

/-- A result is dropped, or it is kept in its declared type, which can be passed. -/
theorem eq_of_boxing {b : Boxing} (h : m.boxing = .ok b) : b = .discard ∨
    (∃ rule, b = .boxed (.ofText m.method.returnType) rule) ∧
      ∀ other, DeclaredType.ofText m.method.returnType ≠ .unsupported other := by
  rw [boxing] at h
  cases ht : DeclaredType.ofText m.method.returnType with
  | void =>
    rw [ht] at h
    exact .inl (Except.ok.inj h).symm
  | unsupported other =>
    rw [ht] at h
    cases h
  | value | bool | int | double | string | object =>
    rw [ht] at h
    exact .inr ⟨⟨_, (Except.ok.inj h).symm⟩, fun _ => nofun⟩

/-- The parts of the binding of `m`, which is called as `form` with `arity` arguments. -/
structure IsBinding (m : Member) (options : Options) (form : CallForm) (arity : Nat)
    (b : MethodBinding) : Prop where
  callShape : m.callShape = .ok (form, arity)
  name : b.trampoline.name = m.trampolineName arity
  params : b.trampoline.params = m.params
  body : ∃ shown unboxings boxing, m.shownSignature = .ok shown ∧
    m.method.args.mapM (m.unboxing shown) = .ok unboxings ∧ m.boxing = .ok boxing ∧
    b.trampoline.body = collectFirst options m.fixedParams
      ++ (if m.takesReceiver then [.receive m.owner.name shown] else [])
      ++ unboxings.map .unbox ++ boxing.statements m.nativeCall
  forwarders : b.forwarders = if m.method.isVariadic then
    (List.range (maxDispatchArity + 1)).map
      (forwarder options (m.trampolineName arity) m.fixedParams) else []
  registrations : b.registrations = if m.method.isVariadic then
      (List.range (maxDispatchArity + 1)).map fun extra =>
        ⟨form.render m.method.kind (arity + extra),
          forwarderName (m.trampolineName arity) extra, m.method.isStatic⟩
    else [⟨form.render m.method.kind arity, m.trampolineName arity, m.method.isStatic⟩]

theorem exists_isBinding {b : MethodBinding} (h : m.binding options = .ok b) :
    ∃ form arity, m.IsBinding options form arity b := by
  obtain ⟨symbol, hsymbol, h⟩ := bind_eq_ok.1 h
  obtain ⟨shown, hshown, h⟩ := bind_eq_ok.1 h
  obtain ⟨unboxings, hunboxings, h⟩ := bind_eq_ok.1 h
  obtain ⟨boxing, hboxing, h⟩ := bind_eq_ok.1 h
  obtain ⟨arity, harity, rfl⟩ := symbol_eq_ok.1 hsymbol
  by_cases hv : m.method.isVariadic = true
  · simp only [hv, if_true] at h
    obtain ⟨signatures, hsignatures, h⟩ := bind_eq_ok.1 h
    obtain ⟨⟨form, arity'⟩, hshape, hs⟩ := bind_eq_ok.1 hsignatures
    obtain rfl : arity' = arity := by
      rw [(callShape_eq_ok.1 hshape).2.1] at harity
      exact Except.ok.inj harity
    cases hs
    cases h
    refine ⟨form, arity', hshape, rfl, rfl, ⟨shown, unboxings, boxing, hshown, hunboxings, hboxing,
      rfl⟩, by simp [hv], ?_⟩
    simp [hv, List.zipWith_map, forwarder]
  · simp only [hv] at h
    obtain ⟨signature, hsignature, h⟩ := bind_eq_ok.1 h
    obtain ⟨form, arity', hshape, rfl⟩ := signatureWith_eq_ok.1 hsignature
    obtain rfl : arity' = arity := by
      rw [(callShape_eq_ok.1 hshape).2.1] at harity
      exact Except.ok.inj harity
    cases h
    exact ⟨form, arity', hshape, rfl, rfl, ⟨shown, unboxings, boxing, hshown, hunboxings, hboxing,
      rfl⟩, by simp [hv], by simp [hv]⟩

theorem IsBinding.isStatic_registrations {form : CallForm} {arity : Nat} {b : MethodBinding}
    (h : m.IsBinding options form arity b) :
    ∀ r ∈ b.registrations, r.isStatic = m.method.isStatic := by
  intro r hr
  rw [h.registrations] at hr
  split at hr
  · obtain ⟨extra, -, rfl⟩ := List.mem_map.1 hr
    rfl
  · rw [List.mem_singleton.1 hr]

end Member

namespace Bindings

namespace ClassTable

variable {options : Options} {t t' : ClassTable}

theorem addClass_eq_ok {name : String} :
    t.addClass name = .ok t' ↔
      name ∉ t.classes ∧ t' = { t with classes := t.classes ++ [name] } := by
  by_cases h : name ∈ t.classes <;> simp [addClass, h, eq_comm]

theorem addSymbol_eq_ok {className method symbol : String} :
    t.addSymbol className method symbol = .ok t' ↔
      symbol ∉ t.symbols ∧ t' = { t with symbols := symbol :: t.symbols } := by
  by_cases h : symbol ∈ t.symbols <;> simp [addSymbol, h, eq_comm]

/-- Binding methods adds their trampolines to the table, each of them new. -/
structure BoundMembers (options : Options) (t : ClassTable) (ms : List Member)
    (bs : List MethodBinding) (t' : ClassTable) : Prop where
  bindings : List.Forall₂ (fun m b => m.binding options = .ok b) ms bs
  classes : t'.classes = t.classes
  symbols : t'.symbols = (bs.map (·.trampoline.name)).reverse ++ t.symbols
  nodup : t.symbols.Nodup → t'.symbols.Nodup

theorem boundMembers {ms : List Member} {bs : List MethodBinding}
    (h : t.bindMembers options ms = .ok (bs, t')) : BoundMembers options t ms bs t' := by
  induction ms generalizing t bs with
  | nil =>
    cases h
    exact ⟨.nil, rfl, rfl, id⟩
  | cons m ms ih =>
    obtain ⟨symbol, hsymbol, h⟩ := bind_eq_ok.1 h
    obtain ⟨added, hadded, h⟩ := bind_eq_ok.1 h
    obtain ⟨b, hb, h⟩ := bind_eq_ok.1 h
    obtain ⟨⟨bs, last⟩, hrest, h⟩ := bind_eq_ok.1 h
    cases h
    obtain ⟨hnew, rfl⟩ := addSymbol_eq_ok.1 hadded
    have hr := ih hrest
    obtain ⟨form, arity, hbinding⟩ := Member.exists_isBinding hb
    obtain ⟨arity', harity, rfl⟩ := Member.symbol_eq_ok.1 hsymbol
    have hname : b.trampoline.name = m.trampolineName arity' := by
      rw [(Member.callShape_eq_ok.1 hbinding.callShape).2.1] at harity
      rw [hbinding.name, Except.ok.inj harity]
    refine ⟨.cons hb hr.bindings, hr.classes, ?_, fun hn => hr.nodup (List.nodup_cons.2 ⟨hnew, hn⟩)⟩
    rw [hr.symbols, List.map_cons, List.reverse_cons, List.append_assoc, hname]
    rfl

/-- A class binding has the name of its class, and a binding for each method of it. -/
def BindsClass (options : Options) (c : ClassDecl) (b : ClassBinding) : Prop :=
  b.name = c.name ∧ List.Forall₂ (fun m b => m.binding options = .ok b) c.members b.methods

theorem BindsClass.exists_isBinding {c : ClassDecl} {b : ClassBinding}
    (h : BindsClass options c b) {mb : MethodBinding} (hmb : mb ∈ b.methods) :
    ∃ m ∈ c.members, ∃ (form : CallForm) (arity : Nat), m.IsBinding options form arity mb := by
  obtain ⟨m, hm, hbinding⟩ := exists_mem_of_forall₂ h.2 hmb
  exact ⟨m, hm, Member.exists_isBinding hbinding⟩

/-- Binding classes adds them to the table with their trampolines, all of them new. -/
structure BoundClasses (options : Options) (t : ClassTable) (cs : List ClassDecl)
    (bs : List ClassBinding) (t' : ClassTable) : Prop where
  bindings : List.Forall₂ (BindsClass options) cs bs
  classes : t'.classes = t.classes ++ bs.map (·.name)
  symbols : t'.symbols = ((bs.flatMap (·.methods)).map (·.trampoline.name)).reverse ++ t.symbols
  nodup_classes : t.classes.Nodup → t'.classes.Nodup
  nodup_symbols : t.symbols.Nodup → t'.symbols.Nodup

theorem boundClasses {cs : List ClassDecl} {bs : List ClassBinding}
    (h : t.bindClasses options cs = .ok (bs, t')) : BoundClasses options t cs bs t' := by
  induction cs generalizing t bs with
  | nil =>
    cases h
    exact ⟨.nil, by simp, by simp, id, id⟩
  | cons c cs ih =>
    obtain ⟨added, hadded, h⟩ := bind_eq_ok.1 h
    obtain ⟨⟨methods, between⟩, hmembers, h⟩ := bind_eq_ok.1 h
    obtain ⟨⟨bs, last⟩, hrest, h⟩ := bind_eq_ok.1 h
    cases h
    obtain ⟨hnew, rfl⟩ := addClass_eq_ok.1 hadded
    have hm := boundMembers hmembers
    have hr := ih hrest
    refine ⟨.cons ⟨rfl, hm.bindings⟩ hr.bindings, ?_, ?_, fun hn => ?_, fun hn => ?_⟩
    · rw [hr.classes, hm.classes, List.append_assoc]
      rfl
    · simp [hr.symbols, hm.symbols]
    · refine hr.nodup_classes ?_
      rw [hm.classes, List.nodup_append]
      exact ⟨hn, List.nodup_singleton _, fun a ha b hb => by
        rw [List.mem_singleton.1 hb]
        exact fun hab => hnew (hab ▸ ha)⟩
    · exact hr.nodup_symbols (hm.nodup hn)

end ClassTable

/-- The parts of a file generated for `classes`. -/
structure BindingFile.IsFor (u : BindingFile) (classes : List ClassDecl) : Prop where
  bindings : List.Forall₂ (ClassTable.BindsClass u.options) classes u.classes
  nodup_classes : (u.classes.map (·.name)).Nodup
  nodup_symbols : ((u.classes.flatMap (·.methods)).map (·.trampoline.name)).Nodup

theorem BindingFile.eq_of_ofClasses {options : Options} {sources : List String}
    {classes : List ClassDecl} {u : BindingFile} (h : ofClasses options sources classes = .ok u) :
    u.options = options ∧ u.sources = sources := by
  obtain ⟨⟨bs, t⟩, -, h⟩ := bind_eq_ok.1 h
  cases h
  exact ⟨rfl, rfl⟩

theorem BindingFile.isFor {options : Options} {sources : List String} {classes : List ClassDecl}
    {u : BindingFile} (h : ofClasses options sources classes = .ok u) : u.IsFor classes := by
  obtain ⟨⟨bs, t'⟩, hbs, h⟩ := bind_eq_ok.1 h
  cases h
  have hb := ClassTable.boundClasses hbs
  have hclasses := hb.nodup_classes List.nodup_nil
  have hsymbols := hb.nodup_symbols List.nodup_nil
  rw [hb.classes, List.nil_append] at hclasses
  rw [hb.symbols, List.append_nil, List.nodup_reverse] at hsymbols
  exact ⟨hb.bindings, hclasses, hsymbols⟩

end Bindings

end WrenGlue
