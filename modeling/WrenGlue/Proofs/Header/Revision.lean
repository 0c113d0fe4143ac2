import WrenGlue.Header.ClassStream
import Mathlib.Data.List.Forall2

/-! What becomes of the classes of a header when its lines change. Where each line stands for a line
of another header that says the same but for one fixed change, both headers are read side by side.
Lines that say nothing may come and go. -/

namespace WrenGlue

/-- Two outcomes that both are results or both are errors, related as `R` and `E` say. -/
inductive ExceptRel {ε ε' α α' : Type} (E : ε → ε' → Prop) (R : α → α' → Prop) :
    Except ε α → Except ε' α' → Prop
  | ok {a : α} {a' : α'} : R a a' → ExceptRel E R (.ok a) (.ok a')
  | error {e : ε} {e' : ε'} : E e e' → ExceptRel E R (.error e) (.error e')

namespace ExceptRel

variable {ε ε' α α' β β' γ γ' : Type} {E : ε → ε' → Prop} {R : α → α' → Prop} {S : β → β' → Prop}

theorem bind {x : Except ε α} {x' : Except ε' α'} {f : α → Except ε β} {f' : α' → Except ε' β'}
    (hx : ExceptRel E R x x') (hf : ∀ a a', R a a' → ExceptRel E S (f a) (f' a')) :
    ExceptRel E S (x >>= f) (x' >>= f') := by
  cases hx with
  | ok ha => exact hf _ _ ha
  | error he => exact .error he

theorem mapM {f : γ → Except ε α} {f' : γ' → Except ε' α'} {cs : List γ} {cs' : List γ'}
    (h : List.Forall₂ (fun c c' => ExceptRel E R (f c) (f' c')) cs cs') :
    ExceptRel E (List.Forall₂ R) (cs.mapM f) (cs'.mapM f') := by
  induction h with
  | nil => exact .ok .nil
  | cons hc _ ih =>
    rw [List.mapM_cons, List.mapM_cons]
    exact hc.bind fun a a' ha => ih.bind fun rest rest' hrest => .ok (.cons ha hrest)

theorem imp {F : ε → ε' → Prop} {S : α → α' → Prop} {x : Except ε α} {x' : Except ε' α'}
    (h : ExceptRel E R x x') (hE : ∀ e e', E e e' → F e e') (hR : ∀ a a', R a a' → S a a') :
    ExceptRel F S x x' := by
  cases h with
  | ok ha => exact .ok (hR _ _ ha)
  | error he => exact .error (hE _ _ he)

end ExceptRel

theorem eq_map_of_forall₂ {α β : Type} {f : α → β} {l : List α} {l' : List β}
    (h : List.Forall₂ (fun a b => b = f a) l l') : l' = l.map f := by
  induction h with
  | nil => rfl
  | cons ha _ ih => rw [ha, ih, List.map_cons]

end WrenGlue

namespace WrenGlue.Header

/-- A change of what the lines of a header say. -/
structure Revision where
  /-- The number of the line that stands for the line with a number. -/
  number : Nat → Nat
  method : MethodDecl → MethodDecl
  /-- What may become of an error. -/
  Error : DeclarationError → DeclarationError → Prop

namespace Revision

variable {r : Revision}

def ofClass (r : Revision) (c : ClassDecl) : ClassDecl :=
  { c with methods := c.methods.map r.method, line := r.number c.line }

theorem ofClass_add (r : Revision) (c : ClassDecl) (m : MethodDecl) :
    r.ofClass (c.add m) = (r.ofClass c).add (r.method m) := by
  simp [ofClass, ClassDecl.add]

/-- What the one line says, the other says with the change. A method may be in the wrong place. -/
inductive OnLine (r : Revision) (l l' : Line) : Prop
  | other : l.read = .other → l'.read = .other → r.OnLine l l'
  | heading {name : String} :
      l.read = .heading name → l'.read = .heading name → l'.number = r.number l.number →
      r.OnLine l l'
  | method {m : MethodDecl} :
      l.read = .method m → l'.read = .method (r.method m) →
      r.Error (l.error .methodOutsideClass) (l'.error .methodOutsideClass) → r.OnLine l l'
  | fault {what what' : LineFault} :
      l.read = .fault what → l'.read = .fault what' → r.Error (l.error what) (l'.error what') →
      r.OnLine l l'

/-- The same for the lines of two headers. -/
inductive OnLines (r : Revision) : List Line → List Line → Prop
  | nil : r.OnLines [] []
  | cons {l l' : Line} {rest rest' : List Line} :
      r.OnLine l l' → r.OnLines rest rest' → r.OnLines (l :: rest) (l' :: rest')
  | removed {l : Line} {rest rest' : List Line} :
      l.read = .other → r.OnLines rest rest' → r.OnLines (l :: rest) rest'
  | added {l' : Line} {rest rest' : List Line} :
      l'.read = .other → r.OnLines rest rest' → r.OnLines rest (l' :: rest')

theorem OnLines.append {a a' b b' : List Line} (ha : r.OnLines a a') (hb : r.OnLines b b') :
    r.OnLines (a ++ b) (a' ++ b') := by
  induction ha with
  | nil => exact hb
  | cons hl _ ih => exact .cons hl ih
  | removed hl _ ih => exact .removed hl ih
  | added hl _ ih => exact .added hl ih

/-- The items of both headers come in pairs, from states that are related. -/
theorem OnLines.itemsFrom {lines lines' : List Line} (h : r.OnLines lines lines')
    (current : Option ClassDecl) :
    List.Forall₂ (ExceptRel r.Error fun c c' => c' = r.ofClass c)
      (ClassStream.itemsFrom current lines)
      (ClassStream.itemsFrom (current.map r.ofClass) lines') := by
  -- The class that is open is carried along: methods are added on both sides until it closes.
  induction h generalizing current with
  | nil =>
    cases current with
    | none => exact .nil
    | some c => exact .cons (.ok rfl) .nil
  | removed hl _ ih =>
    simp only [ClassStream.itemsFrom, hl]
    exact ih current
  | added hl _ ih =>
    simp only [ClassStream.itemsFrom, hl]
    exact ih current
  | cons hl _ ih =>
    cases hl with
    | other hl hl' =>
      simp only [ClassStream.itemsFrom, hl, hl']
      exact ih current
    | @heading name hl hl' hn =>
      cases current with
      | none =>
        simp only [ClassStream.itemsFrom, hl, hl', hn, Option.map_none]
        exact ih (some _)
      | some c =>
        simp only [ClassStream.itemsFrom, hl, hl', hn, Option.map_some]
        exact .cons (.ok rfl) (ih (some _))
    | @method m hl hl' he =>
      cases current with
      | none =>
        simp only [ClassStream.itemsFrom, hl, hl', Option.map_none]
        exact .cons (.error he) .nil
      | some c =>
        simp only [ClassStream.itemsFrom, hl, hl', Option.map_some, ← ofClass_add]
        exact ih (some _)
    | fault hl hl' he =>
      simp only [ClassStream.itemsFrom, hl, hl']
      exact .cons (.error he) .nil

/-- Two headers whose lines are related give related classes or errors. -/
theorem OnLines.readClasses_rel {text text' : String}
    (h : r.OnLines (Line.ofText text) (Line.ofText text')) :
    ExceptRel r.Error (fun cs cs' => cs' = cs.map r.ofClass) (readClasses text)
      (readClasses text') :=
  (ExceptRel.mapM (h.itemsFrom none)).imp (fun _ _ he => he) fun _ _ => eq_map_of_forall₂

end Revision

end WrenGlue.Header
