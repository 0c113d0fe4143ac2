import WrenGlue.Proofs.Bindings.BindRun
import WrenGlue.Proofs.Bindings.MethodQuotations

/-! The literals of a generated file: what the functions of its methods quote, the signatures that
are registered, and what the rest of the file quotes whatever the methods are. -/

namespace WrenGlue

open WrenGlue.Bindings WrenGlue.Cpp WrenGlue.Text
open WrenGlue.Header (Argument ClassDecl)

/-! ### What is quoted -/

/-- The line that adds a function to a class. -/
def Bindings.Entry.quotation (e : Bindings.Entry) : Quotation :=
  ⟨"cls->AddFunction(", [e.signature]⟩

/-- The lines with literals in the code of a class. -/
def Header.ClassDecl.quotations (c : ClassDecl) : Except BindError (List Quotation) := do
  let checks ← c.members.mapM Member.checkQuotations
  let added ← c.members.mapM Member.entries
  return checks.flatten ++ added.flatten.map Bindings.Entry.quotation

/-- The line that compares a name with that of a class. -/
def Header.ClassDecl.typeQuotation (c : ClassDecl) : Quotation := ⟨"if (type == ", [c.name]⟩

/-- The lines that include headers by their paths. -/
def Bindings.includeQuotations (options : Options) (paths : List String) : List Quotation :=
  (["binding_utils.h"] ++ (if options.debugGc then ["WrenRuntime.h"] else []) ++
    (if options.includeSources then paths.map includePath else [])).map fun path =>
      ⟨"#include ", [path]⟩

/-- The lines with messages. -/
def Bindings.messageQuotations : List Quotation :=
  ["Unknown bindings class '%s'\n",
    "Cannot dispatch a function with %d arguments, at most 16 are supported\n"].map fun message =>
      ⟨"fprintf(stderr, ", [message]⟩

namespace Bindings

/-! ### Classes -/

theorem readsLines_registration {r : Registration} (hs : IsQuotable r.signature)
    (hn : IsWordName r.symbol) : ReadsLines [r.text] [r.entry.quotation] [] [] := by
  have hadd : Reads "cls->AddFunction(" (marks "cls->AddFunction(") [] [')'] :=
    .of_marks (by decide)
  have hvoid : Reads ", (void *)" (marks ", (void *)") [')'] [')'] := .of_marks (by decide)
  have hsignature : '\n' ∉ r.signature.toList := fun hc => hs _ hc (by decide)
  have hline := (((hadd.append (.quoted_escape hsignature [')'])).append hvoid).append
    (.of_neutral (.of_wordName hn) [')'])).append .endCall
  rw [List.append_assoc, List.append_assoc, List.append_assoc, List.singleton_append] at hline
  have hquotes := ReadsLines.of_quotes hline
  rw [literals_append, literals_append, literals_marks, literals_marks, literals_marks] at hquotes
  exact hquotes

theorem readsLines_guard (r : Registration) : ReadsLines [r.guard] [] [] [] ∧
    Reads (r.guard ++ " \x7b") (marks (r.guard ++ " \x7b")) [] ['\x7d'] := by
  rw [Registration.guard]
  split
  · exact ⟨.of_marks (.of_marks (by decide)), .of_marks (by decide)⟩
  · exact ⟨.of_marks (.of_marks (by decide)), .of_marks (by decide)⟩

theorem readsLines_texts {run : List Registration}
    (h : ∀ r ∈ run, IsQuotable r.signature ∧ IsWordName r.symbol) :
    ReadsLines (run.map Registration.text) (run.map (·.entry.quotation)) [] [] := by
  induction run with
  | nil => exact .nil []
  | cons r run ih =>
    rw [List.forall_mem_cons] at h
    exact (readsLines_registration h.1.1 h.1.2).append (ih h.2)

theorem readsLines_runCode {run : List Registration}
    (h : ∀ r ∈ run, IsQuotable r.signature ∧ IsWordName r.symbol) :
    ReadsLines (Code.lines (runCode run)) (run.map (·.entry.quotation)) [] [] := by
  match run with
  | [] => exact .nil []
  | [r] =>
    have hlines : Code.lines (runCode [r]) = [r.guard] ++ [r].map Registration.text := by
      simp [runCode]
    rw [hlines]
    exact (readsLines_guard r).1.append (readsLines_texts h)
  | r :: next :: run =>
    rw [runCode, Code.lines_block, Code.lines_ofLines]
    · exact .block_marks (readsLines_guard r).2 (readsLines_texts h)
    · simp

theorem readsLines_registerCode {className : String} (hn : IsWordName className)
    {rs : List Registration} (h : ∀ r ∈ rs, IsQuotable r.signature ∧ IsWordName r.symbol) :
    ReadsLines (registerCode className rs).lines (rs.map (·.entry.quotation)) [] [] := by
  have hregister : IsNeutral ("static void " ++ registerName className) := by
    have hfront : IsNeutral ("static void " ++ "register_") := by decide
    rw [registerName, ← String.append_assoc]
    exact hfront.append (.of_wordName hn)
  have hparams : Reads "(ObjClass *cls, bool isMeta)" (marks "(ObjClass *cls, bool isMeta)") []
      [] := .of_marks (by decide)
  have hruns : ReadsLines (Code.lines ((levelRuns rs).flatMap runCode))
      ((levelRuns rs).flatMap fun run => run.map (·.entry.quotation)) [] [] := by
    rw [Code.lines_flatMap]
    refine .flatMap fun run hrun => readsLines_runCode fun r hr => h r ?_
    rw [← flatten_levelRuns rs]
    exact List.mem_flatten_of_mem hrun hr
  have hquotes : ((levelRuns rs).flatMap fun run => run.map (·.entry.quotation)) =
      rs.map (·.entry.quotation) := by
    rw [List.flatMap_def, ← List.map_flatten, flatten_levelRuns]
  rw [hquotes] at hruns
  rw [lines_registerCode]
  exact .block_marks (((Reads.of_neutral hregister []).append_marks hparams).append_marks .openBody)
    hruns

theorem readsLines_blank : ReadsLines [""] [] [] [] := .of_marks (.of_marks (by decide))

theorem readsLines_title {name : String} (h : IsWordName name) :
    ReadsLines ["// Methods of " ++ name] [] [] [] := by
  have htitle : "// Methods of " ++ name = "//" ++ (" Methods of " ++ name) := by
    rw [← String.append_assoc]
    rfl
  have hline : '\n' ∉ (" Methods of " ++ name).toList := by
    rw [String.toList_append, List.mem_append, not_or]
    exact ⟨by decide, h.not_mem (by decide)⟩
  rw [htitle]
  exact .comment hline []

theorem exists_memberQuotations {options : Options} {ms : List Member} {bs : List MethodBinding}
    (h : List.Forall₂ (fun m b => m.binding options = .ok b) ms bs)
    (hm : ∀ m ∈ ms, m.HasWordNames ∧ ∀ a ∈ m.method.args, '\n' ∉ a.shownName.toList) :
    ∃ checks, ms.mapM Member.checkQuotations = .ok checks ∧
      ReadsLines (bs.flatMap fun mb => mb.code.lines) checks.flatten [] [] := by
  induction h with
  | nil => exact ⟨[], rfl, .nil []⟩
  | @cons m b ms bs hb _ ih =>
    rw [List.forall_mem_cons] at hm
    obtain ⟨quotes, hquotes, hreads⟩ := Member.exists_checkQuotations hb hm.1.1 hm.1.2
    obtain ⟨checks, hchecks, hrest⟩ := ih hm.2
    refine ⟨quotes :: checks, ?_, hreads.append hrest⟩
    rw [List.mapM_cons, hquotes, hchecks]
    rfl

/-- The code of a class quotes what its checks and additions should, and nothing else. -/
theorem exists_classQuotations {options : Options} {c : ClassDecl} {b : ClassBinding}
    (h : ClassTable.BindsClass options c b) (hc : c.HasWordNames)
    (hl : ∀ m ∈ c.methods, ∀ a ∈ m.args, '\n' ∉ a.shownName.toList) :
    ∃ quotes, c.quotations = .ok quotes ∧ ReadsLines b.code.lines quotes [] [] := by
  have hmembers : ∀ m ∈ c.members, m.HasWordNames ∧
      ∀ a ∈ m.method.args, '\n' ∉ a.shownName.toList := by
    intro m hm
    obtain ⟨method, hmethod, rfl⟩ := List.mem_map.1 hm
    exact ⟨hasWordNames_of_mem_members hc hm, hl method hmethod⟩
  obtain ⟨checks, hchecks, hmethods⟩ := exists_memberQuotations h.2 hmembers
  have hadded : c.members.mapM Member.entries =
      .ok (b.methods.map fun mb => mb.registrations.map Registration.entry) := by
    refine mapM_eq_pure (List.forall₂_map_right_iff.2 (h.2.imp fun m mb hb => ?_))
    obtain ⟨form, arity, hbinding⟩ := Member.exists_isBinding hb
    exact hbinding.entries_eq
  have hregistrations : ∀ r ∈ b.registrations, IsQuotable r.signature ∧ IsWordName r.symbol := by
    intro r hr
    obtain ⟨mb, hmb, hr⟩ := List.mem_flatMap.1 hr
    obtain ⟨m, hm, form, arity, hbinding⟩ := h.exists_isBinding hmb
    have hword := (hmembers m hm).1
    exact ⟨hbinding.isQuotable_signature hword hr,
      hbinding.isWordName_functions hword _ (hbinding.symbol_mem hr)⟩
  have hname : IsWordName b.name := h.1 ▸ hc.name
  have hquotes : (b.methods.map fun mb =>
      mb.registrations.map Registration.entry).flatten.map Entry.quotation =
      b.registrations.map (·.entry.quotation) := by
    rw [← List.flatMap_def, ClassBinding.registrations, List.map_flatMap, List.map_flatMap]
    simp [Function.comp_def]
  refine ⟨checks.flatten ++ b.registrations.map (·.entry.quotation), ?_, ?_⟩
  · rw [ClassDecl.quotations, hchecks, hadded, ← hquotes]
    rfl
  · have hall := (((readsLines_title hname).append hmethods).append
      (readsLines_registerCode hname hregistrations)).append readsLines_blank
    rw [List.append_nil] at hall
    rw [b.lines_code]
    exact hall

/-! ### The rest of a file -/

theorem readsLines_bindBranch {name : String} (h : IsWordName name) :
    ReadsLines (bindBranch name).lines [⟨"if (type == ", [name]⟩] [] [] := by
  have htest : Reads "if (type == " (marks "if (type == ") [] [')'] := .of_marks (by decide)
  have hend : Reads ") \x7b" (marks ") \x7b") [')'] ['\x7d'] := .of_marks (by decide)
  have hhead := (htest.append (.of_isQuotable (isQuotable_of_isWordName h) [')'])).append hend
  have hline : "if (type == " ++ quoted name ++ ") \x7b" =
      "if (type == " ++ quoted name ++ ")" ++ " \x7b" := by
    rw [@String.append_assoc _ ")" " \x7b"]
    rfl
  rw [List.append_assoc, List.singleton_append, hline] at hhead
  have hregister : IsNeutral "register_" := by decide
  have hargs : Reads "(cls, isMeta);" (marks "(cls, isMeta);") [] [] := .of_marks (by decide)
  have hcall : ReadsLines [registerName name ++ "(cls, isMeta);"] [] [] [] :=
    .of_marks ((Reads.of_neutral (hregister.append (.of_wordName h)) []).append_marks hargs)
  have hreturn : ReadsLines ["return;"] [] [] [] := .of_marks (.of_marks (by decide))
  have hblock := ReadsLines.block hhead (hcall.append hreturn)
  rw [quotation?_literal, literals_marks] at hblock
  rw [bindBranch, Code.lines_block]
  exact hblock

theorem readsLines_bindCode {names : List String} (h : ∀ name ∈ names, IsWordName name) :
    ReadsLines (bindCode names).lines ((names.map fun name => ⟨"if (type == ", [name]⟩) ++
      [⟨"fprintf(stderr, ", ["Unknown bindings class '%s'\n"]⟩]) [] [] := by
  have hbranches : ReadsLines (names.flatMap fun name => (bindBranch name).lines)
      (names.map fun name => ⟨"if (type == ", [name]⟩) [] [] := by
    rw [List.map_eq_flatMap]
    exact .flatMap fun name hname => readsLines_bindBranch (h name hname)
  have hunknown : ReadsLines
      ["fprintf(stderr, \"Unknown bindings class '%s'\\n\", type.c_str());", "abort();"]
      [⟨"fprintf(stderr, ", ["Unknown bindings class '%s'\n"]⟩] [] [] :=
    .of_closed (by decide +kernel)
  rw [bindCode, Code.lines_block, Code.lines_append, Code.lines_flatMap]
  exact .block_marks (.of_marks (by decide +kernel)) (hbranches.append hunknown)

/-- A line that ends with a list in round brackets. -/
theorem readsLines_list {front : String} (hf : Reads front (marks front) [] [')'])
    {items : List String} (h : ∀ item ∈ items, IsNeutral item) :
    ReadsLines [front ++ commaList items ++ ");"] [] [] [] :=
  .of_marks ((hf.append_marks (.neutralList h [')'])).append_marks .endCall)

theorem isNeutral_dispatchName (arity : Nat) : IsNeutral (dispatchName arity) :=
  .of_wordName (isWordName_dispatchName arity)

theorem readsLines_dispatchCode (arity : Nat) :
    ReadsLines (dispatchCode arity).lines [] [] [] := by
  have hnames : ∀ name ∈ numbered "arg" arity, IsNeutral name := fun name hname =>
    .of_wordName (isWordName_numbered (by decide) arity name hname)
  have htypes : ∀ type ∈ List.replicate arity "Value", IsNeutral type := by
    intro type htype
    rw [(List.mem_replicate.1 htype).2]
    decide
  have hparams : ∀ param ∈ dispatchParams arity, IsNeutral param := by
    refine List.forall_mem_append.2 ⟨by decide, List.forall_mem_map.2 fun name hname => ?_⟩
    have hvalue : IsNeutral "Value " := by decide
    exact hvalue.append (hnames name hname)
  have htest : Reads ("if (upvalues)" ++ " \x7b") (marks ("if (upvalues)" ++ " \x7b")) []
      ['\x7d'] := .of_marks (by decide)
  have hcapturing : Reads "typedef Value (*WithUpvalues)("
      (marks "typedef Value (*WithUpvalues)(") [] [')'] := .of_marks (by decide)
  have hreturnCapturing : Reads "return ((WithUpvalues)func)("
      (marks "return ((WithUpvalues)func)(") [] [')'] := .of_marks (by decide)
  have hplain : Reads "typedef Value (*Plain)(" (marks "typedef Value (*Plain)(") [] [')'] :=
    .of_marks (by decide)
  have hreturnPlain : Reads "return ((Plain)func)(" (marks "return ((Plain)func)(") [] [')'] :=
    .of_marks (by decide)
  have hpointer : IsNeutral "void *" := by decide
  have hupvalues : IsNeutral "upvalues" := by decide
  have hclosure := ReadsLines.block_marks htest
    ((readsLines_list hcapturing (List.forall_mem_cons.2 ⟨hpointer, htypes⟩)).append
      (readsLines_list hreturnCapturing (List.forall_mem_cons.2 ⟨hupvalues, hnames⟩)))
  rw [dispatchCode, Code.lines_block, Code.lines_append, Code.lines_block]
  exact .block_marks (reads_functionHead (isNeutral_dispatchName arity) hparams) (hclosure.append
    ((readsLines_list hplain htypes).append (readsLines_list hreturnPlain hnames)))

theorem readsLines_dispatchCase (arity : Nat) :
    ReadsLines (Code.lines (dispatchCase arity)) [] [] [] := by
  have hargs : ∀ arg ∈ dispatchArgs arity, IsNeutral arg := by
    refine List.forall_mem_append.2 ⟨by decide, List.forall_mem_map.2 fun i _ => ?_⟩
    have hfront : IsNeutral "args[" := by decide
    have hback : IsNeutral "]" := by decide
    exact (hfront.append (.of_wordName (isWordName_toString i))).append hback
  have hcase : IsNeutral "case " := by decide
  have hcolon : IsNeutral ":" := by decide
  have hlabel : ReadsLines ["case " ++ toString arity ++ ":"] [] [] [] :=
    .of_marks (.of_neutral ((hcase.append (.of_wordName (isWordName_toString arity))).append
      hcolon) [])
  have hreturn : IsNeutral "return " := by decide
  rw [dispatchCase, Code.lines_line, Code.lines_indented]
  exact hlabel.append (readsLines_list ((Reads.of_neutral (hreturn.append
    (isNeutral_dispatchName arity)) []).append_marks (.openRound [])) hargs)

theorem readsLines_functionDispatch : ReadsLines functionDispatch.lines
    [⟨"fprintf(stderr, ",
      ["Cannot dispatch a function with %d arguments, at most 16 are supported\n"]⟩] [] [] := by
  have hfunctions : ReadsLines ((List.range (maxDispatchArity + 1)).flatMap fun arity =>
      Code.lines (dispatchCode arity ++ Code.blank)) [] [] [] := by
    refine .flatMap_nil fun arity _ => ?_
    rw [Code.lines_append]
    exact (readsLines_dispatchCode arity).append readsLines_blank
  have hswitch : ReadsLines
      ["const Value *args = values.begin();", "switch (values.size()) \x7b"] [] [] ['\x7d'] :=
    .of_closed (by decide +kernel)
  have hcases : ReadsLines ((List.range (maxDispatchArity + 1)).flatMap fun arity =>
      Code.lines (dispatchCase arity)) [] [] [] :=
    .flatMap_nil fun arity _ => readsLines_dispatchCase arity
  have hdefault : ReadsLines ["default:",
      "fprintf(stderr, \"Cannot dispatch a function with %d arguments, at most " ++
        toString maxDispatchArity ++ " are supported\\n\", (int)values.size());", "abort();"]
      [⟨"fprintf(stderr, ",
        ["Cannot dispatch a function with %d arguments, at most 16 are supported\n"]⟩] ['\x7d']
      ['\x7d'] := .of_closed (by decide +kernel)
  have hhead : Reads ("Value FunctionDispatch(void *func, void *upvalues, " ++
      "const std::initializer_list<Value> &values)" ++ " \x7b")
      (marks ("Value FunctionDispatch(void *func, void *upvalues, " ++
        "const std::initializer_list<Value> &values)" ++ " \x7b")) [] ['\x7d'] :=
    .of_marks (by decide +kernel)
  -- The brace of the switch is open around the cases, so they are framed.
  have hentry := ReadsLines.block_marks hhead
    (((hswitch.append (hcases.frame ['\x7d'])).append hdefault).append
      (.of_marks (.closeBrace [])))
  rw [functionDispatch, Code.lines_append, Code.lines_flatMap, dispatchEntry, Code.lines_block,
    Code.lines_append, Code.lines_append, Code.lines_append, Code.lines_flatMap]
  exact hfunctions.append hentry

theorem readsLines_includeLine {path : String} (h : IsQuotable path) :
    ReadsLines [includeLine path] [⟨"#include ", [path]⟩] [] [] := by
  have hinclude : Reads "#include " (marks "#include ") [] [] := .of_marks (by decide)
  exact .of_quotes (hinclude.append (.of_isQuotable h []))

theorem mem_of_mem_includePath {path : String} {c : Char} (h : c ∈ (includePath path).toList) :
    c ∈ path.toList ∨ c ∈ ".h".toList := by
  rw [includePath] at h
  split at h
  · next stem hstem =>
    rw [List.isSuffixOf?_eq_some_iff_append_eq] at hstem
    rw [String.toList_append, String.toList_ofList, List.mem_append] at h
    exact h.imp_left fun hc => hstem ▸ List.mem_append_left _ hc
  · exact .inl h

theorem isQuotable_includePath {path : String} (h : IsQuotable path) :
    IsQuotable (includePath path) := by
  have hheader : IsQuotable ".h" := by decide
  exact fun c hc => (mem_of_mem_includePath hc).elim (h c) (hheader c)

theorem readsLines_includeLines {paths : List String} (h : ∀ path ∈ paths, IsQuotable path) :
    ReadsLines (paths.map includeLine) (paths.map fun path => ⟨"#include ", [path]⟩) [] [] := by
  rw [List.map_eq_flatMap, List.map_eq_flatMap]
  exact .flatMap fun path hpath => readsLines_includeLine (h path hpath)

theorem readsLines_sourceIncludes (options : Options) {paths : List String}
    (h : ∀ path ∈ paths, IsQuotable path) : ReadsLines (sourceIncludes options paths).lines
      ((if options.includeSources then paths.map includePath else []).map fun path =>
        ⟨"#include ", [path]⟩) [] [] := by
  by_cases hs : options.includeSources ∧ paths ≠ []
  · have htitle := @ReadsLines.comment " Includes for the declaration sources" (by decide) []
    have hincludes := readsLines_includeLines
      (List.forall_mem_map.2 fun path hpath => isQuotable_includePath (h path hpath))
    have hall := (htitle.append hincludes).append readsLines_blank
    rw [List.append_nil, List.map_map] at hall
    rw [sourceIncludes, if_pos hs, if_pos hs.1, Code.lines_append, Code.lines_line,
      Code.lines_ofLines]
    exact hall
  · have hnone : (if options.includeSources then paths.map includePath else []) = [] := by
      split
      · next hi => rw [not_not.1 (not_and.1 hs hi), List.map_nil]
      · rfl
    rw [sourceIncludes, if_neg hs, hnone]
    exact .nil []

theorem readsLines_preludeCode (options : Options) {paths : List String}
    (h : ∀ path ∈ paths, IsQuotable path) :
    ReadsLines (preludeCode options paths).lines (includeQuotations options paths) [] [] := by
  have hfront : ReadsLines [banner, "", "#define BINDINGS_GEN"] [] [] [] :=
    .of_closed (by decide +kernel)
  have hutils : IsQuotable "binding_utils.h" := by decide
  have hruntime : IsQuotable "WrenRuntime.h" := by decide
  have hdebug : ReadsLines
      (Code.lines (if options.debugGc then [.line (includeLine "WrenRuntime.h")] else []))
      ((if options.debugGc then ["WrenRuntime.h"] else []).map fun path =>
        ⟨"#include ", [path]⟩) [] [] := by
    split
    · exact readsLines_includeLine hruntime
    · exact .nil []
  have hlibrary : ReadsLines ["", "#include <initializer_list>", "#include <stdio.h>",
      "#include <stdlib.h>", ""] [] [] [] :=
    .of_closed (by decide +kernel)
  have hall := (((hfront.append (readsLines_includeLine hutils)).append hdebug).append
    hlibrary).append (readsLines_sourceIncludes options h)
  rw [preludeCode, Code.lines_append, Code.lines_append, Code.lines_append, includeQuotations,
    List.map_append, List.map_append]
  simpa using hall

theorem exists_classesQuotations {options : Options} {classes : List ClassDecl}
    {bs : List ClassBinding} (h : List.Forall₂ (ClassTable.BindsClass options) classes bs)
    (hc : ∀ c ∈ classes, c.HasWordNames ∧
      ∀ m ∈ c.methods, ∀ a ∈ m.args, '\n' ∉ a.shownName.toList) : ∃ quotes,
      classes.mapM ClassDecl.quotations = .ok quotes ∧
      ReadsLines (bs.flatMap fun b => b.code.lines) quotes.flatten [] [] := by
  induction h with
  | nil => exact ⟨[], rfl, .nil []⟩
  | @cons c b classes bs hb _ ih =>
    rw [List.forall_mem_cons] at hc
    obtain ⟨quotes, hquotes, hreads⟩ := exists_classQuotations hb hc.1.1 hc.1.2
    obtain ⟨all, hall, hrest⟩ := ih hc.2
    refine ⟨quotes :: all, ?_, hreads.append hrest⟩
    rw [List.mapM_cons, hquotes, hall]
    rfl

/-- A generated file quotes the paths of its includes, then class by class what its checks and
additions should, the names of the classes, and two messages. -/
theorem exists_fileQuotations {u : BindingFile} {classes : List ClassDecl} (h : u.IsFor classes)
    (hc : ∀ c ∈ classes, c.HasWordNames ∧
      ∀ m ∈ c.methods, ∀ a ∈ m.args, '\n' ∉ a.shownName.toList)
    (hp : ∀ path ∈ u.sources, IsQuotable path) : ∃ quotes,
      classes.mapM ClassDecl.quotations = .ok quotes ∧
      ReadsLines u.code.lines (includeQuotations u.options u.sources ++ quotes.flatten ++
        classes.map ClassDecl.typeQuotation ++ messageQuotations) [] [] := by
  obtain ⟨quotes, hquotes, hclasses⟩ := exists_classesQuotations h.bindings hc
  have hnames : u.classes.map (·.name) = classes.map (·.name) := by
    have hsame : List.Forall₂ (· = ·) (u.classes.map (·.name)) (classes.map (·.name)) :=
      List.forall₂_map_left_iff.2 (List.forall₂_map_right_iff.2 (h.bindings.flip.imp
        fun _ _ hb => hb.1))
    rwa [List.forall₂_eq_eq_eq] at hsame
  have hwords : ∀ name ∈ u.classes.map (·.name), IsWordName name := by
    rw [hnames, List.forall_mem_map]
    exact fun c hmem => (hc c hmem).1.name
  have hbindTitle := @ReadsLines.comment " Binding setup method, called by hand-written C++ classes"
    (by decide) []
  have hdispatchTitle := @ReadsLines.comment " Generic closure dispatch" (by decide) []
  have hall := ((((((readsLines_preludeCode u.options hp).append hclasses).append
    hbindTitle).append (readsLines_bindCode hwords)).append readsLines_blank).append
      hdispatchTitle).append readsLines_functionDispatch
  refine ⟨quotes, hquotes, ?_⟩
  rw [u.lines_code, hnames]
  rw [hnames, List.map_map] at hall
  simp only [List.append_assoc, List.append_nil] at hall ⊢
  exact hall

end Bindings

/-- Every line of a generated file gives tokens, so its literals are closed on the line, and the
round brackets and braces outside literals and comments are nested and all of them closed. The lines
with literals are those that include headers, check receivers and arguments, add functions, compare
names of classes and print messages, and the literals are the paths, the methods and arguments as
run-time errors show them, the signatures and the names. -/
theorem generate_quotations {options : Options} {sources : List Source} {text : String}
    (hp : ∀ source ∈ sources, IsQuotable source.path)
    (h : generate options sources = .ok text) : ∃ classes tokens quotes,
      collectClasses sources = .ok classes ∧ lexLines text = some tokens ∧ IsNested tokens ∧
      classes.mapM ClassDecl.quotations = .ok quotes ∧
      quotations tokens = includeQuotations options (sources.map (·.path)) ++ quotes.flatten ++
        classes.map ClassDecl.typeQuotation ++ messageQuotations := by
  obtain ⟨classes, u, hclasses, hu, rfl⟩ := generate_eq_ok_iff.1 h
  have hsources := BindingFile.eq_of_ofClasses hu
  have hread : ∀ c ∈ classes, c.HasWordNames ∧
      ∀ m ∈ c.methods, ∀ a ∈ m.args, '\n' ∉ a.shownName.toList := fun c hc =>
    ⟨hasWordNames_of_collectClasses hclasses c hc,
      not_mem_shownName_of_collectClasses hclasses c hc⟩
  have hpaths : ∀ path ∈ u.sources, IsQuotable path := by
    rw [hsources.2, List.forall_mem_map]
    exact hp
  obtain ⟨quotes, hquotes, hreads⟩ := exists_fileQuotations (BindingFile.isFor hu) hread hpaths
  obtain ⟨tokens, hlex, hnested, hall⟩ := hreads.lexLines_text
  rw [hsources.1, hsources.2] at hall
  exact ⟨classes, tokens, quotes, hclasses, hlex, hnested, hquotes, hall⟩

/-- The label `a\b{(` has a backslash in it and brackets that nothing closes. -/
theorem generate_quotations_label : ∃ text tokens,
    generate {} [⟨"a.h",
      "class ObjA \x7b\nWREN_METHOD() int Foo(ARG(\"a\\b\x7b(\") int x);\n"⟩] = .ok text ∧
    lexLines text = some tokens ∧ IsNested tokens ∧
    quotations tokens = [
      ⟨"#include ", ["binding_utils.h"]⟩,
      ⟨"#include ", ["a.h"]⟩,
      ⟨"ObjA *obj = checkReceiver<ObjA>(", ["ObjA.foo(_)"]⟩,
      ⟨"int typedArg0 = checkInt(", ["ObjA.foo(_)", "a\\b\x7b("]⟩,
      ⟨"cls->AddFunction(", ["foo(_)"]⟩,
      ⟨"if (type == ", ["ObjA"]⟩] ++ messageQuotations := by
  have hclasses : collectClasses [⟨"a.h",
      "class ObjA \x7b\nWREN_METHOD() int Foo(ARG(\"a\\b\x7b(\") int x);\n"⟩] =
        .ok [{ name := "ObjA", line := 1, methods := [
          { name := "Foo", returnType := "int", line := 2, args := [
            { type := "int", name := "x", position := 0, label := some "a\\b\x7b(" }] }] }] := by
    decide +kernel
  cases hfile : BindingFile.ofClasses {} ["a.h"] [{ name := "ObjA", line := 1, methods := [
      { name := "Foo", returnType := "int", line := 2, args := [
        { type := "int", name := "x", position := 0, label := some "a\\b\x7b(" }] }] }] with
  | error e =>
    have hok : (BindingFile.ofClasses {} ["a.h"] [{ name := "ObjA", line := 1, methods := [
        { name := "Foo", returnType := "int", line := 2, args := [
          { type := "int", name := "x", position := 0, label := some "a\\b\x7b(" }] }] }]).isOk =
        true := by
      decide +kernel
    rw [hfile] at hok
    cases hok
  | ok u =>
    have hgenerate := generate_eq_ok_iff.2 ⟨_, u, hclasses, hfile, rfl⟩
    obtain ⟨classes, tokens, quotes, hread, hlex, hnested, hquotes, hall⟩ :=
      generate_quotations (List.forall_mem_singleton.2 (by decide)) hgenerate
    obtain rfl := Except.ok.inj (hclasses.symm.trans hread)
    have hexpected : quotes = [[
        ⟨"ObjA *obj = checkReceiver<ObjA>(", ["ObjA.foo(_)"]⟩,
        ⟨"int typedArg0 = checkInt(", ["ObjA.foo(_)", "a\\b\x7b("]⟩,
        ⟨"cls->AddFunction(", ["foo(_)"]⟩]] := by
      refine Except.ok.inj (hquotes.symm.trans ?_)
      decide +kernel
    rw [hexpected] at hall
    exact ⟨u.text, tokens, hgenerate, hlex, hnested, hall⟩

end WrenGlue
