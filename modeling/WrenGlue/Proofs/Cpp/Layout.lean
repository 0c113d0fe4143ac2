import WrenGlue.Cpp.Code

/-! Where the lines of code stand. Code that is balanced comes back to the depth that it starts from,
so whatever is written behind it stands where it would stand without it. -/

namespace WrenGlue.Cpp

namespace Code

/-- The lines of code as they are written from depth `depth` on, with their line feeds. -/
def linesFrom : (depth : Nat) → Code → List String
  | _, [] => []
  | depth, .line text :: rest => Page.lineAt depth text :: linesFrom depth rest
  | depth, .indent :: rest => linesFrom (depth + 1) rest
  | depth, .dedent :: rest => linesFrom (depth - 1) rest

/-- The depth behind code that starts at depth `depth`. -/
def depthFrom : (depth : Nat) → Code → Nat
  | depth, [] => depth
  | depth, .line _ :: rest => depthFrom depth rest
  | depth, .indent :: rest => depthFrom (depth + 1) rest
  | depth, .dedent :: rest => depthFrom (depth - 1) rest

end Code

theorem Page.write_eq (p : Page) (code : Code) : p.write code =
    { text := p.text ++ String.join (code.linesFrom p.depth), depth := code.depthFrom p.depth } := by
  induction code generalizing p with
  | nil => simp [write, Code.linesFrom, Code.depthFrom]
  | cons step code ih =>
    have hwrite : p.write (step :: code) = (p.put step).write code := rfl
    cases step with
    | line text =>
      rw [hwrite, ih, Code.linesFrom, Code.depthFrom, String.join_cons, ← String.append_assoc]
      rfl
    | indent | dedent =>
      rw [hwrite, ih]
      rfl

theorem join_flatMap {α : Type} (f : α → List String) (l : List α) :
    String.join (l.flatMap f) = String.join (l.map fun x => String.join (f x)) := by
  induction l with
  | nil => rfl
  | cons x l ih => rw [List.flatMap_cons, String.join_append, ih, List.map_cons, String.join_cons]

namespace Code

theorem text_eq (code : Code) : code.text = String.join (code.linesFrom 0) := by
  rw [text, Page.write_eq, String.empty_append]

theorem linesFrom_append (depth : Nat) (a b : Code) :
    linesFrom depth (a ++ b) = linesFrom depth a ++ linesFrom (depthFrom depth a) b := by
  induction a generalizing depth with
  | nil => rfl
  | cons step a ih => cases step <;> simp [linesFrom, depthFrom, ih]

theorem depthFrom_append (depth : Nat) (a b : Code) :
    depthFrom depth (a ++ b) = depthFrom (depthFrom depth a) b := by
  induction a generalizing depth with
  | nil => rfl
  | cons step a ih => cases step <;> simp [depthFrom, ih]

/-! ### Balanced code -/

/-- The code comes back to the depth that it starts from. -/
def IsBalanced (code : Code) : Prop := ∀ depth, depthFrom depth code = depth

namespace IsBalanced

variable {a b : Code}

theorem nil : IsBalanced [] := fun _ => rfl

theorem append (ha : IsBalanced a) (hb : IsBalanced b) : IsBalanced (a ++ b) := fun depth => by
  rw [depthFrom_append, ha, hb]

theorem cons (text : String) (h : IsBalanced a) : IsBalanced (.line text :: a) := h

theorem line (text : String) : IsBalanced [.line text] := nil.cons text

theorem blank : IsBalanced blank := line ""

theorem ofLines (texts : List String) : IsBalanced (ofLines texts) := by
  induction texts with
  | nil => exact nil
  | cons text texts ih => exact ih.cons text

theorem indented (h : IsBalanced a) : IsBalanced (indented a) := fun depth => by
  rw [Code.indented, List.cons_append, depthFrom, depthFrom_append, h]
  rfl

theorem block (head : String) (h : IsBalanced a) : IsBalanced (block head a) := fun depth => by
  rw [Code.block, opening, closing, depthFrom_append, depthFrom_append]
  simp [depthFrom, h (depth + 1)]

theorem flatMap {α : Type} {l : List α} {f : α → Code} (h : ∀ x ∈ l, IsBalanced (f x)) :
    IsBalanced (l.flatMap f) := by
  induction l with
  | nil => exact nil
  | cons x l ih =>
    rw [List.forall_mem_cons] at h
    exact h.1.append (ih h.2)

/-- Balanced code does not move what follows it. -/
theorem linesFrom_append (h : IsBalanced a) (depth : Nat) (b : Code) :
    linesFrom depth (a ++ b) = linesFrom depth a ++ linesFrom depth b := by
  rw [Code.linesFrom_append, h]

theorem text_append (h : IsBalanced a) (b : Code) : text (a ++ b) = text a ++ text b := by
  rw [text_eq, h.linesFrom_append, String.join_append, text_eq, text_eq]

theorem linesFrom_flatMap {α : Type} {l : List α} {f : α → Code} (h : ∀ x ∈ l, IsBalanced (f x))
    (depth : Nat) : linesFrom depth (l.flatMap f) = l.flatMap fun x => linesFrom depth (f x) := by
  induction l with
  | nil => rfl
  | cons x l ih =>
    rw [List.forall_mem_cons] at h
    rw [List.flatMap_cons, h.1.linesFrom_append, ih h.2, List.flatMap_cons]

theorem text_flatMap {α : Type} {l : List α} {f : α → Code} (h : ∀ x ∈ l, IsBalanced (f x)) :
    text (l.flatMap f) = String.join (l.map fun x => text (f x)) := by
  simp only [text_eq]
  rw [linesFrom_flatMap h, join_flatMap]

end IsBalanced

theorem linesFrom_ofLines (depth : Nat) (texts : List String) :
    linesFrom depth (ofLines texts) = texts.map (Page.lineAt depth) := by
  induction texts with
  | nil => rfl
  | cons text texts ih => exact congrArg (Page.lineAt depth text :: ·) ih

theorem linesFrom_block (depth : Nat) (head : String) {body : Code} (h : IsBalanced body) :
    linesFrom depth (block head body) = Page.lineAt depth (head ++ " \x7b") ::
      (linesFrom (depth + 1) body ++ [Page.lineAt depth "\x7d"]) := by
  rw [block, opening, closing, List.append_assoc, List.cons_append, linesFrom, List.cons_append,
    linesFrom, List.nil_append, h.linesFrom_append]
  rfl

end Code

end WrenGlue.Cpp
