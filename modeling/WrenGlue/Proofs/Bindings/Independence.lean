import WrenGlue.Proofs.Bindings.Faults
import WrenGlue.Proofs.Cpp.Layout
import WrenGlue.Proofs.Cpp.Token
import Mathlib.Data.List.Flatten
import Mathlib.Data.List.Perm.Subperm

/-! Classes in a generated file. Each has a block of its own, which depends on the class and the
options alone: nothing in front of it moves it, and what the table knows of other classes never
shows in it. Whether classes can be bound together does not depend on their order. -/

namespace WrenGlue.Bindings

open WrenGlue.Cpp WrenGlue.Cpp.Code
open WrenGlue.Header (ClassDecl)

/-! ### Balanced parts -/

theorem Function.isBalanced_code (f : Function) : f.code.IsBalanced := .block _ (.ofLines _)

theorem MethodBinding.isBalanced_code (b : MethodBinding) : b.code.IsBalanced :=
  .flatMap fun f _ => f.isBalanced_code

theorem isBalanced_runCode (run : List Registration) : (runCode run).IsBalanced := by
  match run with
  | [] => exact .nil
  | [r] => exact .cons _ (.indented (.line _))
  | r :: next :: run => exact .block _ (.ofLines _)

theorem isBalanced_registerCode (className : String) (rs : List Registration) :
    (registerCode className rs).IsBalanced :=
  .block _ (.flatMap fun run _ => isBalanced_runCode run)

theorem ClassBinding.isBalanced_code (b : ClassBinding) : b.code.IsBalanced :=
  .append (.append (.cons _ (.flatMap fun m _ => m.isBalanced_code))
    (isBalanced_registerCode _ _)) .blank

theorem isBalanced_sourceIncludes (options : Options) (sources : List String) :
    (sourceIncludes options sources).IsBalanced := by
  rw [sourceIncludes]
  split
  · exact .append (.cons _ (.ofLines _)) .blank
  · exact .nil

theorem isBalanced_preludeCode (options : Options) (sources : List String) :
    (preludeCode options sources).IsBalanced := by
  refine .append (.append (.append (fun _ => rfl) ?_) fun _ => rfl) (isBalanced_sourceIncludes _ _)
  split
  · exact .line _
  · exact .nil

theorem isBalanced_bindBranch (className : String) : (bindBranch className).IsBalanced :=
  .block _ fun _ => rfl

theorem isBalanced_bindCode (classes : List String) : (bindCode classes).IsBalanced :=
  .block _ (.append (.flatMap fun name _ => isBalanced_bindBranch name) fun _ => rfl)

/-! ### Blocks -/

/-- The branch of `ObjClass::Bind` for a class, as it stands in that function. -/
def branchText (name : String) : String := String.join ((bindBranch name).linesFrom 1)

def bindTextHead : String :=
  "// Binding setup method, called by hand-written C++ classes\n" ++
    "void ObjClass::Bind(ObjClass *cls, const std::string &type, bool isMeta) \x7b\n"

def bindTextEnd : String :=
  "\tfprintf(stderr, \"Unknown bindings class '%s'\\n\", type.c_str());\n\tabort();\n\x7d\n\n"

/-- The function `ObjClass::Bind` for the classes `names`. -/
def bindText (names : List String) : String :=
  bindTextHead ++ String.join (names.map branchText) ++ bindTextEnd

theorem text_bindCode (names : List String) :
    text (.line "// Binding setup method, called by hand-written C++ classes" ::
      bindCode names ++ Code.blank) = bindText names := by
  have hbranches : Code.IsBalanced (names.flatMap bindBranch) :=
    .flatMap fun name _ => isBalanced_bindBranch name
  have hjoin : String.join (linesFrom 1 (names.flatMap bindBranch)) =
      String.join (names.map branchText) := by
    rw [IsBalanced.linesFrom_flatMap fun name _ => isBalanced_bindBranch name, join_flatMap]
    rfl
  have hbody : Code.IsBalanced (names.flatMap bindBranch ++
      [.line "fprintf(stderr, \"Unknown bindings class '%s'\\n\", type.c_str());",
        .line "abort();"]) := hbranches.append fun _ => rfl
  have hhead : bindTextHead =
      Page.lineAt 0 "// Binding setup method, called by hand-written C++ classes" ++
        Page.lineAt 0 ("void ObjClass::Bind(ObjClass *cls, const std::string &type, bool isMeta)" ++
          " \x7b") := by
    decide +kernel
  have hend : bindTextEnd = String.join (linesFrom 1 [
      .line "fprintf(stderr, \"Unknown bindings class '%s'\\n\", type.c_str());",
      .line "abort();"] ++ [Page.lineAt 0 "\x7d"] ++ linesFrom 0 Code.blank) := by
    decide +kernel
  rw [text_eq, List.cons_append, linesFrom, (isBalanced_bindCode names).linesFrom_append, bindCode,
    linesFrom_block _ _ hbody, hbranches.linesFrom_append, bindText, hhead, hend]
  simp only [String.join_cons, String.join_append, String.append_assoc, List.cons_append, hjoin]

/-- The end of every generated file. -/
def dispatchText : String := text (.line "// Generic closure dispatch" :: functionDispatch)

/-- The text that is generated for a class. -/
def blockText (options : Options) (c : ClassDecl) : Except BindError String := do
  return (ClassBinding.code ⟨c.name, ← c.members.mapM (·.binding options)⟩).text

theorem BindingFile.text_eq (u : BindingFile) : u.text =
    (preludeCode u.options u.sources).text ++ String.join (u.classes.map (·.code.text)) ++
      bindText (u.classes.map (·.name)) ++ dispatchText := by
  have hcode : u.code = preludeCode u.options u.sources ++ (u.classes.flatMap ClassBinding.code ++
      ((.line "// Binding setup method, called by hand-written C++ classes" ::
        bindCode (u.classes.map (·.name)) ++ Code.blank) ++
          (.line "// Generic closure dispatch" :: functionDispatch))) := by
    simp [code]
  have hblocks : Code.IsBalanced (u.classes.flatMap ClassBinding.code) :=
    .flatMap fun b _ => b.isBalanced_code
  have hbind : Code.IsBalanced (.line "// Binding setup method, called by hand-written C++ classes" ::
      bindCode (u.classes.map (·.name)) ++ Code.blank) :=
    .append (.cons _ (isBalanced_bindCode _)) .blank
  rw [text, hcode, (isBalanced_preludeCode _ _).text_append, hblocks.text_append,
    hbind.text_append, IsBalanced.text_flatMap fun b _ => b.isBalanced_code, text_bindCode,
    ← dispatchText]
  simp only [String.append_assoc]

/-! ### Lists of classes -/

/-- The classes can be bound together. -/
structure IsBindable (classes : List ClassDecl) : Prop where
  members : ∀ m ∈ classes.flatMap (·.members), m.Bindable
  nodup_names : (classes.map (·.name)).Nodup
  nodup_symbols : (symbols (classes.flatMap (·.members))).Nodup

theorem isBindable_iff (options : Options) (sources : List String) {classes : List ClassDecl} :
    IsBindable classes ↔ ∃ u, BindingFile.ofClasses options sources classes = .ok u := by
  rw [(BindingFile.reports_ofClasses options sources classes).exists_eq_ok_iff, faults,
    classFaults_eq_nil_iff]
  simp only [List.disjoint_nil_right, and_true]
  exact ⟨fun h => ⟨h.1, h.2, h.3⟩, fun h => ⟨h.1, h.2.1, h.2.2⟩⟩

namespace IsBindable

variable {classes cs : List ClassDecl}

theorem sublist (h : IsBindable classes) (hs : cs.Sublist classes) : IsBindable cs where
  members m hm := h.members m ((hs.flatMap _).subset hm)
  nodup_names := h.nodup_names.sublist (hs.map _)
  nodup_symbols := h.nodup_symbols.sublist ((hs.flatMap _).filterMap _)

theorem perm (h : IsBindable classes) (hp : cs.Perm classes) : IsBindable cs where
  members m hm := h.members m ((hp.flatMap_right _).subset hm)
  nodup_names := (hp.map _).nodup_iff.2 h.nodup_names
  nodup_symbols := ((hp.flatMap_right _).filterMap _).nodup_iff.2 h.nodup_symbols

theorem subperm (h : IsBindable classes) (hs : cs.Subperm classes) : IsBindable cs := by
  obtain ⟨l, hperm, hsub⟩ := hs
  exact (h.sublist hsub).perm hperm.symm

end IsBindable

theorem blockText_eq {options : Options} {c : ClassDecl} {b : ClassBinding}
    (h : ClassTable.BindsClass options c b) : blockText options c = .ok b.code.text := by
  have hmethods : c.members.mapM (·.binding options) = .ok b.methods := mapM_eq_pure h.2
  rw [blockText, hmethods, ← h.1]
  rfl

/-- The text of a file: the prelude, the blocks of the classes, and what finds classes by name. -/
def fileText (options : Options) (sources names blocks : List String) : String :=
  (preludeCode options sources).text ++ String.join blocks ++ bindText names ++ dispatchText

/-- Classes that can be bound together make a file of their blocks. -/
theorem IsBindable.text_ofClasses {classes : List ClassDecl} (h : IsBindable classes)
    (options : Options) (sources : List String) : ∃ blocks,
      List.Forall₂ (fun c block => blockText options c = .ok block) classes blocks ∧
      (BindingFile.ofClasses options sources classes).map BindingFile.text =
        .ok (fileText options sources (classes.map (·.name)) blocks) := by
  obtain ⟨u, hu⟩ := (isBindable_iff options sources).1 h
  obtain ⟨⟨bs, t⟩, hbs, hfile⟩ := bind_eq_ok.1 hu
  obtain rfl : BindingFile.mk options sources bs = u := Except.ok.inj hfile
  have hbinds := (BindingFile.isFor hu).bindings
  have hnames : bs.map (·.name) = classes.map (·.name) := by
    rw [← List.forall₂_eq_eq_eq, List.forall₂_map_left_iff, List.forall₂_map_right_iff]
    exact hbinds.flip.imp fun _ _ hb => hb.1
  refine ⟨bs.map (·.code.text), ?_, ?_⟩
  · exact List.forall₂_map_right_iff.2 (hbinds.imp fun _ _ => blockText_eq)
  · rw [hu, Except.map, BindingFile.text_eq, hnames, fileText]

/-- Either classes can be bound together, and so can any choice of them in any order, and each of
them has the same block in all the files. Or they cannot, in whatever order. -/
theorem BindingFile.ofClasses_independent (options : Options) (sources : List String)
    (classes : List ClassDecl) :
    (∃ block : ClassDecl → String, (∀ c ∈ classes, blockText options c = .ok (block c)) ∧
      ∀ cs, cs.Subperm classes → (ofClasses options sources cs).map text =
        .ok (fileText options sources (cs.map (·.name)) (cs.map block))) ∨
    ∀ cs, cs.Perm classes → ∃ e, ofClasses options sources cs = .error e := by
  by_cases h : IsBindable classes
  · let block : ClassDecl → String := fun c => (blockText options c).toOption.getD ""
    have hblock : ∀ c text, blockText options c = .ok text → text = block c := by
      intro c text hc
      simp only [block, hc]
      rfl
    have hfile : ∀ cs : List ClassDecl, cs.Subperm classes →
        (∀ c ∈ cs, blockText options c = .ok (block c)) ∧ (ofClasses options sources cs).map text =
          .ok (fileText options sources (cs.map (·.name)) (cs.map block)) := by
      intro cs hs
      obtain ⟨blocks, hblocks, htext⟩ := (h.subperm hs).text_ofClasses options sources
      have hmap : blocks = cs.map block := by
        rw [← List.forall₂_eq_eq_eq, List.forall₂_map_right_iff]
        exact hblocks.flip.imp fun _ _ hc => hblock _ _ hc
      subst hmap
      exact ⟨List.forall₂_same.1 (List.forall₂_map_right_iff.1 hblocks), htext⟩
    exact .inl ⟨block, (hfile classes (.refl classes)).1, fun cs hs => (hfile cs hs).2⟩
  · refine .inr fun cs hperm => ?_
    cases hcs : ofClasses options sources cs with
    | error e => exact ⟨e, rfl⟩
    | ok u =>
      -- Bound in this order, the classes could be bound in the given one too.
      have hbindable : IsBindable cs := (isBindable_iff options sources).2 ⟨u, hcs⟩
      exact absurd (hbindable.perm hperm.symm) h

end WrenGlue.Bindings
