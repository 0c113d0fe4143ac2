import WrenGlue.Proofs.Bindings.FileText

/-! Which functions of a generated file hide one another: those of a class that are added on one
level under one signature. The generator lets them pass. -/

namespace WrenGlue

open WrenGlue.Bindings WrenGlue.Cpp

/-- In a generated file, the register function of a class adds the functions of each level under
different signatures exactly if no two methods of that level overlap. Methods that do are generated
without an error, and one of them can never be called. -/
theorem generate_nodup_signatures_iff {options : Options} {sources : List Source} {text : String}
    (h : generate options sources = .ok text) : ∃ classes u,
      collectClasses sources = .ok classes ∧
      BindingFile.ofClasses options (sources.map (·.path)) classes = .ok u ∧ u.text = text ∧
      (∀ c ∈ classes, ∀ isMeta, ∃ added,
        runRegister u.code.lines isMeta (registerName c.name) =
          some { added, outcome := .returned } ∧
        ((added.map (·.signature)).Nodup ↔
          (c.members.filter (·.method.isStatic == isMeta)).Pairwise fun m m' =>
            ¬ m.Overlaps m')) ∧
      ((options.includeSources = true → ∀ source ∈ sources, IsSingleLine source.path) →
        statementLines text = u.code.lines) := by
  obtain ⟨classes, u, hclasses, hu, rfl⟩ := generate_eq_ok_iff.1 h
  have hwords := hasWordNames_of_collectClasses hclasses
  refine ⟨classes, u, hclasses, hu, rfl, fun c hc isMeta => ?_, fun hp => ?_⟩
  · exact (BindingFile.isFor hu).exists_runRegister hwords hc isMeta
  · exact BindingFile.statementLines_text hu (fun c hc => (hwords c hc).name)
      (.of_collectClasses hclasses hp)

/-- A method and a getter whose names differ in the case of the first letter only. -/
theorem generate_nodup_signatures_iff_getter : ∃ (u : BindingFile) (added : List Bindings.Entry),
    generate {} [⟨"a.h",
      "class ObjA \x7b\nWREN_METHOD() int Foo();\nWREN_METHOD(getter) int foo();\n"⟩] =
        .ok u.text ∧
    runRegister (statementLines u.text) false "register_ObjA" =
      some { added, outcome := .returned } ∧
    (added.map (·.signature)).Nodup := by
  have hclasses : collectClasses [⟨"a.h",
      "class ObjA \x7b\nWREN_METHOD() int Foo();\nWREN_METHOD(getter) int foo();\n"⟩] =
        .ok [{ name := "ObjA", line := 1, methods := [
          { name := "Foo", returnType := "int", line := 2 },
          { name := "foo", returnType := "int", kind := .getter, line := 3 }] }] := by
    decide +kernel
  cases hfile : BindingFile.ofClasses {} ["a.h"] [{ name := "ObjA", line := 1, methods := [
      { name := "Foo", returnType := "int", line := 2 },
      { name := "foo", returnType := "int", kind := .getter, line := 3 }] }] with
  | error e =>
    have hok : (BindingFile.ofClasses {} ["a.h"] [{ name := "ObjA", line := 1, methods := [
        { name := "Foo", returnType := "int", line := 2 },
        { name := "foo", returnType := "int", kind := .getter, line := 3 }] }]).isOk = true := by
      decide +kernel
    rw [hfile] at hok
    cases hok
  | ok u =>
    have hgenerate := generate_eq_ok_iff.2 ⟨_, u, hclasses, hfile, rfl⟩
    obtain ⟨classes, file, hread, hbound, -, hruns, htext⟩ :=
      generate_nodup_signatures_iff hgenerate
    obtain rfl := Except.ok.inj (hclasses.symm.trans hread)
    obtain rfl := Except.ok.inj (hfile.symm.trans hbound)
    obtain ⟨added, hrun, hnodup⟩ := hruns _ List.mem_cons_self false
    rw [← htext fun _ => by decide] at hrun
    exact ⟨u, added, hgenerate, hrun, hnodup.2 (by decide +kernel)⟩

/-- Two methods whose names differ in the case of the first letter only. Both are registered as
`foo()`. -/
theorem generate_registers_twice : ∃ (u : BindingFile) (added : List Bindings.Entry),
    generate {} [⟨"a.h",
      "class ObjA \x7b\nWREN_METHOD() int Foo();\nWREN_METHOD() int foo();\n"⟩] = .ok u.text ∧
    BindingFile.ofClasses {} ["a.h"] [{ name := "ObjA", line := 1, methods := [
      { name := "Foo", returnType := "int", line := 2 },
      { name := "foo", returnType := "int", line := 3 }] }] = .ok u ∧
    runRegister u.code.lines false "register_ObjA" = some { added, outcome := .returned } ∧
    added = [⟨"foo()", "binding_ObjA_Foo_0"⟩, ⟨"foo()", "binding_ObjA_foo_0"⟩] ∧
    ¬ (added.map (·.signature)).Nodup := by
  have hclasses : collectClasses [⟨"a.h",
      "class ObjA \x7b\nWREN_METHOD() int Foo();\nWREN_METHOD() int foo();\n"⟩] =
        .ok [{ name := "ObjA", line := 1, methods := [
          { name := "Foo", returnType := "int", line := 2 },
          { name := "foo", returnType := "int", line := 3 }] }] := by
    decide +kernel
  have hrun : (match BindingFile.ofClasses {} ["a.h"] [{ name := "ObjA", line := 1, methods := [
        { name := "Foo", returnType := "int", line := 2 },
        { name := "foo", returnType := "int", line := 3 }] }] with
      | .ok u => decide (runRegister u.code.lines false "register_ObjA" = some {
          added := [⟨"foo()", "binding_ObjA_Foo_0"⟩, ⟨"foo()", "binding_ObjA_foo_0"⟩]
          outcome := .returned })
      | .error _ => false) = true := by
    decide +kernel
  split at hrun
  · next u hfile =>
    exact ⟨u, _, generate_eq_ok_iff.2 ⟨_, u, hclasses, hfile, rfl⟩, hfile, of_decide_eq_true hrun,
      rfl, by decide⟩
  · cases hrun

end WrenGlue
