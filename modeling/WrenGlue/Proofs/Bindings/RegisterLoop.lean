import WrenGlue.Proofs.Bindings.BindRun
import WrenGlue.Proofs.Bindings.Relocation
import WrenGlue.Proofs.Cpp.StatementLines

/-! The loop behind a register function. Each round cuts the longest run of one level off the
registrations that are left, and writes it under one test of `isMeta`. The loop ends with every
registration written once. Read line by line and executed, the function that it writes adds those of
the level asked for, in their order. -/

namespace WrenGlue.Bindings

open WrenGlue.Cpp WrenGlue.Text

/-! ### The loop -/

/-- The page so far, and the registrations that are left. -/
structure RegisterLoop where
  page : Page
  rest : List Registration

namespace RegisterLoop

/-- The loop as it begins, behind the head of the function. -/
def start (p : Page) (className : String) (rs : List Registration) : RegisterLoop where
  page := p.call (.opening (registerHead className))
  rest := rs

/-- The calls that write a group. There are no braces around a single registration. -/
def groupCalls (guard : String) : List Registration → List WriterCall
  | [single] => [.line guard, .indented [.line single.text]]
  | group => .opening (guard ++ " \x7b") :: (group.map fun r => .line r.text) ++ [.closing "\x7d"]

/-- One round and the group that it writes. The loop is over when no registration is left. -/
def round? (s : RegisterLoop) : Option (List Registration × RegisterLoop) :=
  s.rest.head?.map fun first =>
    let run := (s.rest.takeWhile (·.isStatic == first.isStatic)).length
    let (group, rest) := s.rest.splitAt run
    (group, ⟨s.page.calls (groupCalls first.guard group), rest⟩)

/-- The loop ends on the page, after it has written the groups. -/
inductive Ends : RegisterLoop → List (List Registration) → Page → Prop
  | done {s : RegisterLoop} : s.round? = none → Ends s [] s.page
  | round {s next : RegisterLoop} {group : List Registration} {groups : List (List Registration)}
      {page : Page} : s.round? = some (group, next) → Ends next groups page →
        Ends s (group :: groups) page

/-- There is one way for the loop to end. -/
theorem Ends.unique {s : RegisterLoop} {groups groups' : List (List Registration)}
    {page page' : Page} (h : s.Ends groups page) (h' : s.Ends groups' page') :
    groups' = groups ∧ page' = page := by
  induction h generalizing groups' page' with
  | done hdone =>
    cases h' with
    | done _ => exact ⟨rfl, rfl⟩
    | round hround _ =>
      rw [hdone] at hround
      cases hround
  | round hround _ ih =>
    cases h' with
    | done hdone =>
      rw [hround] at hdone
      cases hdone
    | round hround' hrest =>
      rw [hround] at hround'
      cases hround'
      obtain ⟨rfl, rfl⟩ := ih hrest
      exact ⟨rfl, rfl⟩

/-! ### One round -/

/-- The calls for a group write the code of its run. -/
theorem calls_groupCalls (p : Page) (first : Registration) (group : List Registration) :
    p.calls (groupCalls first.guard (first :: group)) = p.write (runCode (first :: group)) := by
  rw [Page.calls_eq_write]
  congr 1
  cases group with
  | nil => rfl
  | cons next group =>
    have hcalls : groupCalls first.guard (first :: next :: group) =
        .opening (first.guard ++ " \x7b") ::
          (((first :: next :: group).map Registration.text).map .line ++ [.closing "\x7d"]) := by
      rw [List.map_map]
      rfl
    rw [hcalls, WriterCall.codes, WriterCall.codes_append,
      WriterCall.codes_map_line]
    show _ = Code.block _ _
    rw [Code.block, List.append_assoc]
    rfl

/-- The run in front of registrations is the longest of one level. -/
theorem levelRuns_cons (first : Registration) (rest : List Registration) :
    levelRuns (first :: rest) =
      (first :: rest.takeWhile (·.isStatic == first.isStatic)) ::
        levelRuns (rest.dropWhile (·.isStatic == first.isStatic)) := by
  have hlevel : ∀ r ∈ first :: rest.takeWhile (·.isStatic == first.isStatic),
      r.isStatic = first.isStatic := by
    rw [List.forall_mem_cons]
    refine ⟨rfl, fun r hr => ?_⟩
    have hr := List.mem_takeWhile_imp hr
    exact eq_of_beq hr
  have hchain : (first :: rest.takeWhile (·.isStatic == first.isStatic)).IsChain
      fun a b => (a.isStatic == b.isStatic) = true := by
    refine List.Pairwise.isChain (List.pairwise_of_forall_mem_list fun a ha b hb => ?_)
    rw [hlevel a ha, hlevel b hb]
    exact beq_self_eq_true _
  have hend : ∀ a ∈ (first :: rest.takeWhile (·.isStatic == first.isStatic)).getLast?,
      ∀ b ∈ (rest.dropWhile (·.isStatic == first.isStatic)).head?,
        (a.isStatic == b.isStatic) = false := by
    intro a ha b hb
    have hother := List.head?_dropWhile_not (·.isStatic == first.isStatic) rest
    rw [hlevel a (List.mem_of_getLast? ha)]
    rw [Option.mem_def.1 hb] at hother
    simpa [Bool.beq_comm] using hother
  have hsplit : first :: rest = (first :: rest.takeWhile (·.isStatic == first.isStatic)) ++
      rest.dropWhile (·.isStatic == first.isStatic) := by
    rw [List.cons_append, List.takeWhile_append_dropWhile]
  unfold levelRuns
  conv_lhs => rw [hsplit]
  rw [List.splitBy_append hend, List.splitBy_of_isChain (List.cons_ne_nil _ _) hchain]
  rfl

theorem splitAt_length_takeWhile {α : Type} (q : α → Bool) (l : List α) :
    l.splitAt (l.takeWhile q).length = (l.takeWhile q, l.dropWhile q) := by
  rw [List.splitAt_eq]
  induction l with
  | nil => rfl
  | cons a l ih =>
    rw [Prod.mk.injEq] at ih
    cases hq : q a with
    | true => simp [hq, ih.1, ih.2]
    | false => simp [hq]

/-- A round takes the run in front and writes its code. -/
theorem round?_cons (p : Page) (first : Registration) (rest : List Registration) :
    round? ⟨p, first :: rest⟩ = some
      (first :: rest.takeWhile (·.isStatic == first.isStatic),
        ⟨p.write (runCode (first :: rest.takeWhile (·.isStatic == first.isStatic))),
          rest.dropWhile (·.isStatic == first.isStatic)⟩) := by
  have hsplit := splitAt_length_takeWhile (·.isStatic == first.isStatic) (first :: rest)
  rw [List.takeWhile_cons_of_pos (by simp), List.dropWhile_cons_of_pos (by simp)] at hsplit
  rw [← calls_groupCalls, round?, List.head?_cons, Option.map_some,
    List.takeWhile_cons_of_pos (by simp)]
  dsimp only
  rw [hsplit]

/-! ### All rounds -/

/-- Whatever the page and the registrations are, the loop ends, with a group for each run. -/
theorem ends (p : Page) (rs : List Registration) :
    Ends ⟨p, rs⟩ (levelRuns rs) (p.write ((levelRuns rs).flatMap runCode)) := by
  -- Each round leaves fewer registrations than there were.
  induction hlength : rs.length using Nat.strong_induction_on generalizing p rs with
  | _ n ih =>
    cases rs with
    | nil => exact .done rfl
    | cons first rest =>
      have hless : (rest.dropWhile (·.isStatic == first.isStatic)).length < n := by
        have hle := (List.dropWhile_sublist (·.isStatic == first.isStatic) (l := rest)).length_le
        rw [List.length_cons] at hlength
        omega
      rw [levelRuns_cons, List.flatMap_cons, Page.write_append]
      exact .round (round?_cons p first rest) (ih _ hless _ _ rfl)

end RegisterLoop

/-! ### The groups -/

/-- The registrations cut into runs of one level, each as long as it can be. -/
structure AreLevelRuns (groups : List (List Registration)) (rs : List Registration) : Prop where
  flatten : groups.flatten = rs
  nonempty : [] ∉ groups
  level : ∀ group ∈ groups, ∀ a ∈ group, ∀ b ∈ group, a.isStatic = b.isStatic
  /-- Neighbouring groups are under opposite tests. -/
  opposite : groups.IsChain fun group next => ∀ a ∈ group, ∀ b ∈ next, a.isStatic = !b.isStatic

theorem areLevelRuns_levelRuns (rs : List Registration) : AreLevelRuns (levelRuns rs) rs := by
  have hlevel : ∀ group ∈ levelRuns rs, ∀ a ∈ group, ∀ b ∈ group, a.isStatic = b.isStatic := by
    intro group hgroup a ha b hb
    obtain ⟨level, h⟩ := isStatic_of_mem_levelRuns hgroup
    rw [h a ha, h b hb]
  refine ⟨flatten_levelRuns rs, List.nil_notMem_splitBy _ _, hlevel, ?_⟩
  have hchain := List.isChain_getLast_head_splitBy (fun a b => a.isStatic == b.isStatic) rs
  refine hchain.imp_of_mem_imp fun group next hgroup hnext h a ha b hb => ?_
  obtain ⟨hg, hn, hother⟩ := h
  rw [hlevel group hgroup a ha _ (List.getLast_mem hg), hlevel next hnext b hb _ (List.head_mem hn)]
  exact Bool.eq_not_of_ne (beq_eq_false_iff_ne.1 hother)

/-! ### The text -/

/-- The lines of a group: a test and one line further in, or a test and a block in braces. -/
def groupLines (depth : Nat) : List Registration → List String
  | [] => []
  | [single] => [Page.lineAt depth single.guard, Page.lineAt (depth + 1) single.text]
  | first :: group =>
    Page.lineAt depth (first.guard ++ " \x7b") ::
      ((first :: group).map (fun r => Page.lineAt (depth + 1) r.text) ++ [Page.lineAt depth "\x7d"])

/-- What stands behind the head of a register function at depth `depth`. -/
def registerBody (depth : Nat) (groups : List (List Registration)) : String :=
  String.join (groups.flatMap (groupLines (depth + 1)) ++ [Page.lineAt depth "\x7d"])

theorem linesFrom_runCode (depth : Nat) (run : List Registration) :
    Code.linesFrom depth (runCode run) = groupLines depth run := by
  match run with
  | [] => rfl
  | [single] => rfl
  | first :: next :: run =>
    show Code.linesFrom depth (Code.block _ _) = _
    rw [Code.linesFrom_block _ _ (.ofLines _), Code.linesFrom_ofLines, List.map_map]
    rfl

/-- The body is the code of the runs and the closing brace. -/
theorem registerBody_levelRuns (depth : Nat) (rs : List Registration) :
    registerBody depth (levelRuns rs) = String.join (Code.linesFrom (depth + 1)
      ((levelRuns rs).flatMap runCode ++ Code.closing "\x7d")) := by
  have hruns := Code.IsBalanced.flatMap (l := levelRuns rs) fun run _ => isBalanced_runCode run
  rw [hruns.linesFrom_append, Code.IsBalanced.linesFrom_flatMap fun run _ => isBalanced_runCode run]
  simp only [linesFrom_runCode]
  rfl

theorem text_write_registerCode (p : Page) (className : String) (rs : List Registration) :
    (p.write (registerCode className rs)).text =
      p.text ++ Page.lineAt p.depth (registerHead className) ++
        registerBody p.depth (levelRuns rs) := by
  have hcode : registerCode className rs = .line (registerHead className) :: .indent ::
      ((levelRuns rs).flatMap runCode ++ Code.closing "\x7d") := by
    unfold registerCode Code.block registerHead Code.opening
    simp
  rw [hcode, Page.write_eq, registerBody_levelRuns, Code.linesFrom, Code.linesFrom,
    String.join_cons, String.append_assoc]

/-! ### The run -/

/-- The body of a register function adds the functions of the level asked for. -/
theorem exec_registerBody {rs : List Registration} (h : ∀ r ∈ rs, r.HasSingleLines) (depth : Nat)
    (isMeta : Bool) : exec (fun _ => none) { isMeta } .function
      (statementLines (registerBody depth (levelRuns rs))) =
        some { added := (rs.filter (·.isStatic == isMeta)).map Registration.entry,
               outcome := .returned } := by
  have hclose : Code.HasSingleLines (Code.closing "\x7d") := by
    unfold Code.HasSingleLines
    decide
  have hlines : Code.lines ((levelRuns rs).flatMap runCode ++ Code.closing "\x7d") =
      Code.lines ((levelRuns rs).flatMap runCode) ++ ["\x7d"] := by
    rw [Code.lines_append]
    rfl
  have htab : ∀ line ∈ Code.lines ((levelRuns rs).flatMap runCode ++ Code.closing "\x7d"),
      IsUnindented line := by
    rw [hlines, List.forall_mem_append, List.forall_mem_singleton]
    refine ⟨fun line hline => ?_, by decide⟩
    rcases mem_lines_runs hline with rfl | ⟨r, -, rfl | rfl | rfl⟩
    · decide
    · unfold Registration.guard
      split <;> decide
    · unfold Registration.guard
      split <;> decide
    · simp [IsUnindented, Registration.text_eq]
  rw [registerBody_levelRuns, statementLines_linesFrom ((hasSingleLines_runs h).append hclose) htab,
    hlines]
  exact exec_registerCode rs []

/-- The loop ends, in one way only, and what it leaves with the closing brace is the register
function. Its groups are the runs of one level. Executed with `isMeta`, the function adds the
registrations of that level and no others, in their order, each under the signature that its literal
stands for. -/
theorem RegisterLoop.ends_with_runs (p : Page) (className : String) {rs : List Registration}
    (h : ∀ r ∈ rs, r.HasSingleLines) : ∃ groups page,
      (start p className rs).Ends groups page ∧
      (∀ groups' page', (start p className rs).Ends groups' page' →
        groups' = groups ∧ page' = page) ∧
      page.call (.closing "\x7d") = p.write (registerCode className rs) ∧
      AreLevelRuns groups rs ∧
      (p.write (registerCode className rs)).text =
        p.text ++ Page.lineAt p.depth (registerHead className) ++ registerBody p.depth groups ∧
      (∀ isMeta, exec (fun _ => none) { isMeta } .function
        (statementLines (registerBody p.depth groups)) =
          some { added := (rs.filter (·.isStatic == isMeta)).map Registration.entry,
                 outcome := .returned }) ∧
      ∀ r ∈ rs, lexLine (quoted (escape r.signature)).toList = some [.literal r.signature] := by
  have hends := ends (p.call (.opening (registerHead className))) rs
  refine ⟨levelRuns rs, _, hends, fun groups' page' => hends.unique, ?_, areLevelRuns_levelRuns rs,
    text_write_registerCode p className rs, exec_registerBody h p.depth, fun r hr => ?_⟩
  · rw [Page.call_eq_write, Page.call_eq_write, ← Page.write_append, ← Page.write_append]
    rfl
  · have hlex := (Reads.quoted_escape (h r hr).signature []).lexes []
    rwa [List.append_nil] at hlex

/-- Runs of two, of one and of one again, at an indented place, with a signature that is escaped. -/
theorem RegisterLoop.ends_with_runs_alternating : ∃ groups page,
    (start ⟨"// ObjA\n", 1⟩ "ObjA" [⟨"a()", "f", true⟩, ⟨"b", "g", true⟩, ⟨"\"\\(_)", "h", false⟩,
      ⟨"c(_)", "k", true⟩]).Ends groups page ∧
    AreLevelRuns groups [⟨"a()", "f", true⟩, ⟨"b", "g", true⟩, ⟨"\"\\(_)", "h", false⟩,
      ⟨"c(_)", "k", true⟩] ∧
    exec (fun _ => none) { isMeta := true } .function (statementLines (registerBody 1 groups)) =
      some { added := [⟨"a()", "f"⟩, ⟨"b", "g"⟩, ⟨"c(_)", "k"⟩], outcome := .returned } ∧
    exec (fun _ => none) { isMeta := false } .function (statementLines (registerBody 1 groups)) =
      some { added := [⟨"\"\\(_)", "h"⟩], outcome := .returned } := by
  have hlines : ∀ r ∈ [(⟨"a()", "f", true⟩ : Registration), ⟨"b", "g", true⟩,
      ⟨"\"\\(_)", "h", false⟩, ⟨"c(_)", "k", true⟩], r.HasSingleLines := by
    simp only [List.forall_mem_cons, List.not_mem_nil, false_implies, implies_true, and_true]
    exact ⟨⟨by decide, by decide⟩, ⟨by decide, by decide⟩, ⟨by decide, by decide⟩,
      ⟨by decide, by decide⟩⟩
  obtain ⟨groups, page, hends, -, -, hruns, -, hexec, -⟩ :=
    RegisterLoop.ends_with_runs ⟨"// ObjA\n", 1⟩ "ObjA" hlines
  exact ⟨groups, page, hends, hruns, hexec true, hexec false⟩

end WrenGlue.Bindings
