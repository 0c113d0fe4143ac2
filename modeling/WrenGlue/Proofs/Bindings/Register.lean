import WrenGlue.Proofs.Bindings.Integrity

/-! The lines of a register function: which function a line adds to the class, under which signature,
and which level it tests for. -/

namespace WrenGlue.Cpp

/-- The text of a literal whose opening quote has been read, and what follows its closing quote. -/
def literal? : List Char → Option (List Char × List Char)
  | [] => none
  | '"' :: rest => some ([], rest)
  | '\\' :: c :: rest => (literal? rest).map fun (text, rest) => (c :: text, rest)
  | c :: rest => (literal? rest).map fun (text, rest) => (c :: text, rest)

theorem literal?_cons_escaped (c : Char) (rest : List Char) :
    literal? ('\\' :: c :: rest) = (literal? rest).map fun (text, rest) => (c :: text, rest) := by
  rw [literal?]

theorem literal?_cons {c : Char} (hslash : c ≠ '\\') (hquote : c ≠ '"') (rest : List Char) :
    literal? (c :: rest) = (literal? rest).map fun (text, rest) => (c :: text, rest) := by
  rw [literal?]
  · exact hquote
  · intro d tail hc
    exact absurd hc hslash

theorem literal?_escapeChars (text rest : List Char) :
    literal? (escapeChars text ++ '"' :: rest) = some (text, rest) := by
  induction text with
  | nil => rfl
  | cons c text ih =>
    rw [escapeChars]
    split
    · rw [List.cons_append, List.cons_append, literal?_cons_escaped, ih]
      rfl
    · next h =>
      rw [not_or] at h
      rw [List.cons_append, literal?_cons h.1 h.2, ih]
      rfl

end WrenGlue.Cpp

namespace WrenGlue.Bindings

open WrenGlue.Cpp WrenGlue.Text

/-- A function that is added to a class. -/
structure Entry where
  signature : String
  symbol : String
deriving DecidableEq, Repr

/-- The function that a line adds. -/
def added? (line : String) : Option Entry := do
  let rest ← ("cls->AddFunction(\"".toList).isPrefixOf? line.toList
  let (signature, rest) ← literal? rest
  let rest ← (", (void *)".toList).isPrefixOf? rest
  let symbol ← (");".toList).isSuffixOf? rest
  return ⟨String.ofList signature, String.ofList symbol⟩

/-- What the next line belongs to. -/
inductive Scope where
  | function
  /-- One statement, which is executed if `taken`. -/
  | branch (taken : Bool)
  /-- Statements up to a closing brace, which are executed if `taken`. -/
  | block (taken : Bool)
deriving DecidableEq, Repr

/-- What follows a test of `isMeta`. -/
def testScope? (isMeta : Bool) (line : String) : Option Scope :=
  if line = "if (isMeta)" then some (.branch isMeta)
  else if line = "if (!isMeta)" then some (.branch !isMeta)
  else if line = "if (isMeta) \x7b" then some (.block isMeta)
  else if line = "if (!isMeta) \x7b" then some (.block !isMeta)
  else none

/-! ### Single lines -/

def Registration.entry (r : Registration) : Entry := ⟨r.signature, r.symbol⟩

theorem added?_text (r : Registration) : added? r.text = some r.entry := by
  have htext : r.text.toList = "cls->AddFunction(\"".toList ++
      (escapeChars r.signature.toList ++ '"' :: (", (void *)".toList ++
        (r.symbol.toList ++ ");".toList))) := by
    rw [Registration.text_eq]
    simp [quoted, escape]
  rw [added?, htext, isPrefixOf?_append]
  simp only [Option.bind_eq_bind, Option.bind_some, literal?_escapeChars, isPrefixOf?_append,
    isSuffixOf?_append, String.ofList_toList, Option.pure_def]
  rfl

/-- A registration is no line that begins with another character. -/
theorem text_ne_of_head (r : Registration) {line : String} (h : line.toList.head? ≠ some 'c') :
    r.text ≠ line := by
  rintro rfl
  rw [Registration.text_eq] at h
  simp at h

theorem testScope?_guard (isMeta : Bool) (r : Registration) :
    testScope? isMeta r.guard = some (.branch (r.isStatic == isMeta)) := by
  rw [Registration.guard]
  cases r.isStatic <;> cases isMeta <;> decide

theorem testScope?_guard_block (isMeta : Bool) (r : Registration) :
    testScope? isMeta (r.guard ++ " \x7b") = some (.block (r.isStatic == isMeta)) := by
  rw [Registration.guard]
  cases r.isStatic <;> cases isMeta <;> decide

theorem guard_ne_close (r : Registration) : r.guard ≠ "\x7d" ∧ r.guard ++ " \x7b" ≠ "\x7d" := by
  rw [Registration.guard]
  cases r.isStatic <;> decide

/-! ### Runs -/

theorem isStatic_of_mem_levelRuns {rs run : List Registration} (h : run ∈ levelRuns rs) :
    ∃ level, ∀ r ∈ run, r.isStatic = level := by
  have hchain := List.isChain_of_mem_splitBy h
  clear h
  induction run with
  | nil => exact ⟨false, fun r hr => absurd hr List.not_mem_nil⟩
  | cons first run ih =>
    cases run with
    | nil => exact ⟨first.isStatic, List.forall_mem_singleton.2 rfl⟩
    | cons second run =>
      obtain ⟨hsame, htail⟩ := List.isChain_cons_cons.1 hchain
      obtain ⟨level, hlevel⟩ := ih htail
      refine ⟨level, List.forall_mem_cons.2 ⟨?_, hlevel⟩⟩
      rw [eq_of_beq hsame]
      exact hlevel second List.mem_cons_self

theorem filter_level {level isMeta : Bool} {run : List Registration}
    (h : ∀ r ∈ run, r.isStatic = level) :
    run.filter (·.isStatic == isMeta) = if level == isMeta then run else [] := by
  split
  · exact List.filter_eq_self.2 fun r hr => by rwa [h r hr]
  · exact List.filter_eq_nil_iff.2 fun r hr => by rwa [h r hr]

/-! ### Whole files -/

/-- The register function of a class stands in the file. -/
theorem BindingFile.exists_lines_eq (u : BindingFile) {b : ClassBinding} (hb : b ∈ u.classes) :
    ∃ before after, u.code.lines =
      before ++ ((registerCode b.name b.registrations).lines ++ after) := by
  obtain ⟨front, back, hclasses⟩ := List.append_of_mem hb
  rw [BindingFile.code, hclasses]
  simp only [Code.lines_append, List.flatMap_append, List.flatMap_cons, b.lines_code,
    List.append_assoc]
  rw [← List.append_assoc, ← List.append_assoc, ← List.append_assoc]
  exact ⟨_, _, rfl⟩

end WrenGlue.Bindings
