import WrenGlue.Proofs.Generate.Sources

/-! The numbers of lines reach nothing that is generated, so the bindings do not depend on the
layout of the headers. -/

namespace WrenGlue

open WrenGlue.Bindings
open WrenGlue.Text
open WrenGlue.Header (ClassDecl Edit Edits insertedBehind readClasses renumberResult)

/-! ### Sources -/

/-- Two sources with one path and the same classes but for the numbers of lines, or with none. -/
structure Source.Alike (source source' : Source) : Prop where
  path : source'.path = source.path
  classes : (readClasses source'.text).toOption.map (List.map ClassDecl.unnumbered) =
    (readClasses source.text).toOption.map (List.map ClassDecl.unnumbered)

namespace Source.Alike

variable {source source' : Source}

theorem symm (h : source.Alike source') : source'.Alike source :=
  ⟨h.path.symm, h.classes.symm⟩

theorem exists_readClasses (h : source.Alike source') {classes : List ClassDecl}
    (hread : readClasses source.text = .ok classes) :
    ∃ classes', readClasses source'.text = .ok classes' ∧
      classes'.map ClassDecl.unnumbered = classes.map ClassDecl.unnumbered := by
  have hsame := h.classes
  rw [hread] at hsame
  cases hread' : readClasses source'.text with
  | error e => simp [hread', Except.toOption] at hsame
  | ok classes' => exact ⟨classes', rfl, by simpa [hread', Except.toOption] using hsame⟩

theorem of_edits (hpath : source'.path = source.path) {moves : Nat → Nat}
    (h : Edits moves source.text.toList source'.text.toList) : source.Alike source' := by
  have hread := h.readClasses_eq
  rw [String.ofList_toList, String.ofList_toList] at hread
  refine ⟨hpath, ?_⟩
  rw [hread]
  cases readClasses source.text with
  | error e => rfl
  | ok classes => simp [renumberResult, Except.toOption, ClassDecl.unnumbered_renumber]

end Source.Alike

theorem exists_declare_of_alike {sources sources' : List Source}
    (h : List.Forall₂ Source.Alike sources sources') {all : List Declared}
    (hall : Declare sources all) : ∃ all', Declare sources' all' ∧
      all'.map (·.1.unnumbered) = all.map (·.1.unnumbered) := by
  induction hall generalizing sources' with
  | nil =>
    cases h
    exact ⟨[], .nil, rfl⟩
  | cons hread _ ih =>
    cases h with
    | cons hsource hrest =>
      obtain ⟨classes', hread', hclasses⟩ := hsource.exists_readClasses hread
      obtain ⟨all', hall', heq⟩ := ih hrest
      refine ⟨_, .cons hread' hall', ?_⟩
      simp only [List.map_append, List.map_map, heq]
      exact congrArg (· ++ _) hclasses

theorem generate_of_alike {options : Options} {sources sources' : List Source}
    (h : List.Forall₂ Source.Alike sources sources') {code : String}
    (hcode : generate options sources = .ok code) : generate options sources' = .ok code := by
  have hpaths : sources'.map (·.path) = sources.map (·.path) := by
    rw [← List.forall₂_eq_eq_eq, List.forall₂_map_left_iff, List.forall₂_map_right_iff]
    exact h.flip.imp fun _ _ hs => hs.path
  have hredeclare : Redeclare sources sources' := fun _ hall => exists_declare_of_alike h hall
  exact hredeclare.generate_eq_ok (by rw [hpaths]) hcode

/-- Edits of the layout of a header move its lines, and nothing else that is read from it changes:
neither the classes nor the error with its fragment. The bindings do not change at all. -/
theorem layout_independent :
    (∀ {moves : Nat → Nat} {before after : String}, Edits moves before.toList after.toList →
      readClasses after = renumberResult moves (readClasses before)) ∧
    ∀ (options : Options) {sources edited : List Source},
      List.Forall₂ (fun source source' => source'.path = source.path ∧
        ∃ moves, Edits moves source.text.toList source'.text.toList) sources edited →
      ∀ code, generate options edited = .ok code ↔ generate options sources = .ok code := by
  refine ⟨fun h => ?_, fun options sources edited h code => ?_⟩
  · simpa using h.readClasses_eq
  · have halike : List.Forall₂ Source.Alike sources edited :=
      h.imp fun _ _ hs => hs.2.elim fun _ hedits => .of_edits hs.1 hedits
    exact ⟨generate_of_alike (halike.flip.imp fun _ _ hs => hs.symm), generate_of_alike halike⟩

/-- A comment behind a method, and then a comment line in front of its class. -/
theorem layout_independent_comments :
    readClasses "// list\r\nclass ObjA \x7b\nWREN_METHOD() int One(); // one" = .ok [
      { name := "ObjA", line := 2, methods := [
        { name := "One", returnType := "int", line := 3 }] }] ∧
    ∃ code, generate {} [⟨"a.h", "class ObjA \x7b\nWREN_METHOD() int One();"⟩] = .ok code ∧
      generate {} [⟨"a.h", "// list\r\nclass ObjA \x7b\nWREN_METHOD() int One(); // one"⟩] =
        .ok code := by
  have hedits : Edits ((id ∘ insertedBehind 0) ∘ id)
      "class ObjA \x7b\nWREN_METHOD() int One();".toList
      "// list\r\nclass ObjA \x7b\nWREN_METHOD() int One(); // one".toList := by
    have hcomment := @Edit.within "class ObjA \x7b\n".toList "WREN_METHOD() int One();".toList
      ("WREN_METHOD() int One();".toList ++ (" ".toList ++ '/' :: '/' :: " one".toList)) [] []
      ⟨by decide +kernel, by decide +kernel, .none (by decide) rfl⟩
      ⟨by decide +kernel, by decide +kernel, .none (by decide) rfl⟩
      (.back (.comment (by decide)) (by decide))
    have hline := @Edit.insert [] "// list".toList ['\r', '\n']
      "class ObjA \x7b\nWREN_METHOD() int One(); // one".toList
      ⟨by decide, by decide +kernel, .crlf⟩ (by decide +kernel)
    exact .cons hcomment (.cons hline .nil)
  obtain ⟨hread, hgenerate⟩ := layout_independent
  refine ⟨(hread hedits).trans (by decide +kernel), ?_⟩
  obtain ⟨code, hcode⟩ :=
    @exists_eq_ok _ _ (generate {} [⟨"a.h", "class ObjA \x7b\nWREN_METHOD() int One();"⟩])
      (by decide +kernel)
  have hiff := @hgenerate {} [⟨"a.h", "class ObjA \x7b\nWREN_METHOD() int One();"⟩]
    [⟨"a.h", "// list\r\nclass ObjA \x7b\nWREN_METHOD() int One(); // one"⟩]
    (.cons ⟨rfl, _, hedits⟩ .nil) code
  exact ⟨code, hcode, hiff.2 hcode⟩

end WrenGlue
