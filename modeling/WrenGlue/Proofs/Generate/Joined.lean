import WrenGlue.Proofs.Generate.Sources
import WrenGlue.Proofs.Header.Joined

/-! Two sources joined into one. What is generated stays the same, but for the includes. -/

namespace WrenGlue

open WrenGlue.Bindings WrenGlue.Text
open WrenGlue.Header (movedBy readClasses readClasses_append readClasses_append_error)

variable {a b : String}

theorem redeclare_joined (h : AtLineStart a.toList) (p q r : String) :
    Redeclare [⟨p, a⟩, ⟨q, b⟩] [⟨r, a ++ b⟩] := by
  intro all hall
  cases hall with
  | @cons _ classes _ _ ha hrest =>
    cases hrest with
    | @cons _ more _ _ hb hnil =>
      cases hnil
      have hboth := readClasses_append h ha (.inr fun e he => by rw [hb] at he; cases he)
      rw [hb] at hboth
      refine ⟨_, .cons hboth .nil, ?_⟩
      simp [Function.comp_def, Header.ClassDecl.unnumbered_renumber]

theorem redeclare_apart (h : AtLineStart a.toList) {more : List Header.ClassDecl}
    (hb : readClasses b = .ok more) (p q r : String) :
    Redeclare [⟨r, a ++ b⟩] [⟨p, a⟩, ⟨q, b⟩] := by
  intro all hall
  cases hall with
  | @cons _ both _ _ hboth hnil =>
    cases hnil
    cases ha : readClasses a with
    | error e =>
      rw [readClasses_append_error h ha] at hboth
      cases hboth
    | ok classes =>
      rw [readClasses_append h ha (.inr fun e he => by rw [hb] at he; cases he), hb] at hboth
      obtain rfl := Except.ok.inj hboth
      refine ⟨_, .cons ha (.cons hb .nil), ?_⟩
      simp [Function.comp_def, Header.ClassDecl.unnumbered_renumber]

/-- Without includes, two sources make the same file as the source joined of them, if the second can
be read alone. -/
theorem generate_joined_iff (h : AtLineStart a.toList) {options : Options}
    (ho : options.includeSources = false) (front back : List Source) (p q r code : String) :
    generate options (front ++ [⟨p, a⟩, ⟨q, b⟩] ++ back) = .ok code ↔
      generate options (front ++ [⟨r, a ++ b⟩] ++ back) = .ok code ∧
        ∃ more, readClasses b = .ok more := by
  have hnone := includesText_of_not ho
  constructor
  · intro hcode
    refine ⟨((redeclare_joined h p q r).within front back).generate_eq_ok
      ((hnone _).trans (hnone _).symm) hcode, ?_⟩
    obtain ⟨all, body, hall, -⟩ := generate_eq_ok_iff_declare.1 hcode
    obtain ⟨most, last, -, hmost, -⟩ := hall.exists_append
    obtain ⟨first, middle, -, -, hmiddle⟩ := hmost.exists_append
    cases hmiddle with
    | cons _ hrest =>
      cases hrest with
      | cons hb _ => exact ⟨_, hb⟩
  · rintro ⟨hcode, more, hb⟩
    exact ((redeclare_apart h hb p q r).within front back).generate_eq_ok
      ((hnone _).trans (hnone _).symm) hcode

/-- A header in two parts is read part by part, where a line ends between them. An error in the
first part hides the second. Otherwise the classes of the second follow those of the first, with
the numbers of their lines moved, and so does an error; only methods in front of the first class of
the second part find a class that has begun before them. Without includes, the parts can be joined
and the same file is generated. -/
theorem headers_joined {a b : String} (h : AtLineStart a.toList) :
    (∀ e, readClasses a = .error e → readClasses (a ++ b) = .error e) ∧
    (∀ classes, readClasses a = .ok classes →
      (∀ more, readClasses b = .ok more →
        readClasses (a ++ b) = .ok (classes ++ more.map (·.renumber (movedBy a)))) ∧
      ∀ e, readClasses b = .error e → e.fault ≠ .methodOutsideClass ∨ classes = [] →
        readClasses (a ++ b) = .error (e.renumber (movedBy a))) ∧
    ∀ (options : Options), options.includeSources = false →
      ∀ (front back : List Source) (p q r code : String),
        generate options (front ++ [⟨p, a⟩, ⟨q, b⟩] ++ back) = .ok code ↔
          generate options (front ++ [⟨r, a ++ b⟩] ++ back) = .ok code ∧
            ∃ more, readClasses b = .ok more := by
  refine ⟨fun e ha => readClasses_append_error h ha, fun classes ha => ⟨fun more hb => ?_,
    fun e hb he => ?_⟩, fun options ho => generate_joined_iff h ho⟩
  · rw [readClasses_append h ha (.inr fun e he => by rw [hb] at he; cases he), hb]
    rfl
  · have hwhere : classes = [] ∨ ∀ e', readClasses b = .error e' →
        e'.fault ≠ .methodOutsideClass := by
      refine he.symm.imp_right fun hfault e' he' => ?_
      rw [hb] at he'
      exact Except.error.inj he' ▸ hfault
    rw [readClasses_append h ha hwhere, hb]
    rfl

/-- The second part begins with the class that closes that of the first, or has an error. -/
theorem headers_joined_unknownKind :
    AtLineStart "class ObjA \x7b\nWREN_METHOD() int One();\n".toList ∧
    readClasses ("class ObjA \x7b\nWREN_METHOD() int One();\n" ++
        "\nclass ObjB :\nWREN_METHOD() int Two();") = .ok [
      { name := "ObjA", line := 1, methods := [
        { name := "One", returnType := "int", line := 2 }] },
      { name := "ObjB", line := 4, methods := [
        { name := "Two", returnType := "int", line := 5 }] }] ∧
    readClasses ("class ObjA \x7b\nWREN_METHOD() int One();\n" ++
        "WREN_METHOD(set) int Two();") =
      .error ⟨3, "WREN_METHOD(set) int Two();", .unknownKind "set"⟩ ∧
    ∃ code, generate { includeSources := false }
        [⟨"a.h", "class ObjA \x7b\nWREN_METHOD() int One();\n"⟩,
          ⟨"b.h", "\nclass ObjB :\nWREN_METHOD() int Two();"⟩] = .ok code ∧
      generate { includeSources := false }
        [⟨"ab.h", "class ObjA \x7b\nWREN_METHOD() int One();\n" ++
          "\nclass ObjB :\nWREN_METHOD() int Two();"⟩] = .ok code := by
  have hstart : AtLineStart "class ObjA \x7b\nWREN_METHOD() int One();\n".toList := by
    decide +kernel
  have ha : readClasses "class ObjA \x7b\nWREN_METHOD() int One();\n" = .ok [
      { name := "ObjA", line := 1, methods := [
        { name := "One", returnType := "int", line := 2 }] }] := by
    decide +kernel
  obtain ⟨-, hread, hgenerate⟩ :=
    @headers_joined _ "\nclass ObjB :\nWREN_METHOD() int Two();" hstart
  obtain ⟨-, hfault⟩ := (@headers_joined _ "WREN_METHOD(set) int Two();" hstart).2.1 _ ha
  refine ⟨hstart, ?_, ?_, ?_⟩
  · rw [(hread _ ha).1 [{ name := "ObjB", line := 2, methods := [
      { name := "Two", returnType := "int", line := 3 }] }] (by decide +kernel)]
    decide +kernel
  · rw [hfault ⟨1, "WREN_METHOD(set) int Two();", .unknownKind "set"⟩ (by decide +kernel)
      (.inl (by decide))]
    decide +kernel
  · obtain ⟨code, hcode⟩ := @exists_eq_ok _ _ (generate { includeSources := false }
        [⟨"a.h", "class ObjA \x7b\nWREN_METHOD() int One();\n"⟩,
          ⟨"b.h", "\nclass ObjB :\nWREN_METHOD() int Two();"⟩]) (by decide +kernel)
    exact ⟨code, hcode,
      ((hgenerate { includeSources := false } rfl [] [] "a.h" "b.h" "ab.h" code).1 hcode).1⟩

end WrenGlue
