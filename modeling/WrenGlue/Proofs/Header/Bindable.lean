import WrenGlue.Proofs.Header.LineText
import WrenGlue.Proofs.Header.Scanned

/-! The classes of headers as types. A heading takes any word behind `Obj`, and a type takes only a
word of ASCII: no method can pass or return a pointer to a class with another name. -/

namespace WrenGlue.Header

open WrenGlue.Text
open WrenGlue.Cpp

theorem ClassStream.isClassName_of_mem_toList {text : String} {c : ClassDecl}
    (h : .ok c ∈ (ofText text).toList) : IsClassName c.name := by
  obtain ⟨before, -, hstart⟩ := exists_yielded_prefix text
  obtain ⟨l, -, hl⟩ := Line.exists_heading_of_mem_classesOf (hstart.subset (mem_yielded.2 h))
  exact isClassName_of_heading hl

/-- A header with one class, which begins on its only line. -/
def headingText (name : String) : String := "class " ++ name ++ " \x7b"

/-- Every class name may stand on a heading. -/
theorem toList_headingText {name : String} (h : IsClassName name) :
    (ClassStream.ofText (headingText name)).toList = [.ok { name, line := 1 }] := by
  have hheading : HeadingLine name (headingText name).toList := by
    obtain ⟨rest, hrest, rfl⟩ := h
    have hl := @HeadingLine.intro [] [' '] rest [' '] [] '\x7b' isBlank_nil (by decide) (by decide)
      hrest (by decide) (.inr rfl)
    simpa [headingText] using hl
  have hbreak : '\n' ∉ (headingText name).toList := by
    simpa [headingText] using h.isWordName.not_mem (show isWord '\n' = false by decide)
  have hlines : Line.ofText (headingText name) = [⟨1, (headingText name).toList⟩] := by
    have hl := @lines_unlines_append [] _ (by simp) hbreak (by simp [headingText])
    rw [unlines_nil, List.nil_append] at hl
    rw [Line.ofText, hl]
    rfl
  rw [ClassStream.toList, ClassStream.ofText, hlines]
  simp only [ClassStream.itemsFrom, hheading.read_eq]
  rfl

end WrenGlue.Header

namespace WrenGlue

open WrenGlue.Bindings WrenGlue.Cpp WrenGlue.Header WrenGlue.Text

namespace Member

theorem isOk_unboxing (m : Member) (signature : String) (a : Argument) :
    (m.unboxing signature a).isOk = a.declaredType.isArgument := by
  rw [unboxing, ← Check.ofType?_isSome]
  cases Check.ofType? a.declaredType <;> rfl

theorem isOk_boxing (m : Member) :
    m.boxing.isOk = (DeclaredType.ofText m.method.returnType).isReturn := by
  rw [boxing, ← Boxing.ofType?_isSome]
  cases Boxing.ofType? (DeclaredType.ofText m.method.returnType) <;> rfl

end Member

/-- The bindable names are the names of classes that headers can have, as far as these are ASCII. -/
theorem isBindableName_iff_exists {name : String} : isBindableName name = true ↔
    IsAscii name ∧ ∃ text c, .ok c ∈ (ClassStream.ofText text).toList ∧ c.name = name := by
  constructor
  · intro h
    obtain ⟨hname, hascii⟩ := isBindableName_iff.1 h
    exact ⟨hascii, headingText name, { name, line := 1 }, by simp [toList_headingText hname], rfl⟩
  · rintro ⟨hascii, text, c, hc, rfl⟩
    exact isBindableName_iff.2 ⟨ClassStream.isClassName_of_mem_toList hc, hascii⟩

/-- The name of a class of a header is bindable exactly if it is ASCII, and then all methods can take
and return a pointer to the class. A pointer to any other class is a type that is not supported. -/
theorem bindable_iff_scanned {text : String} {c : ClassDecl}
    (h : .ok c ∈ (ClassStream.ofText text).toList) :
    (isBindableName c.name = true ↔ IsAscii c.name) ∧
    DeclaredType.ofText (DeclaredType.normalize (c.name ++ " *")) =
      (if IsAscii c.name then .object c.name else .unsupported (c.name ++ "*")) ∧
    (∀ (m : Member) (signature : String) (a : Argument),
      a.type = DeclaredType.normalize (c.name ++ " *") →
        ((m.unboxing signature a).isOk = true ↔ IsAscii c.name)) ∧
    ∀ m : Member, m.method.returnType = DeclaredType.normalize (c.name ++ " *") →
      (m.boxing.isOk = true ↔ IsAscii c.name) := by
  have hbindable : isBindableName c.name = true ↔ IsAscii c.name := by
    rw [isBindableName_iff_exists]
    exact ⟨fun hboth => hboth.1, fun hascii => ⟨hascii, text, c, h, rfl⟩⟩
  have htype := DeclaredType.ofText_pointer (ClassStream.isClassName_of_mem_toList h)
  refine ⟨hbindable, htype, fun m signature a ha => ?_, fun m hm => ?_⟩
  · rw [Member.isOk_unboxing, Argument.declaredType, ha, htype]
    by_cases hascii : IsAscii c.name <;> simp [hascii, DeclaredType.isArgument]
  · rw [Member.isOk_boxing, hm, htype]
    by_cases hascii : IsAscii c.name <;> simp [hascii, DeclaredType.isReturn]

/-- One name that types take, and one that begins with `Obj` and is not ASCII. -/
theorem bindable_iff_scanned_accent :
    Except.ok { name := "ObjA_1", line := 1 } ∈
      (ClassStream.ofText "class ObjA_1 :\nclass Objé \x7b\n").toList ∧
    isBindableName "ObjA_1" = true ∧ Except.ok { name := "Objé", line := 2 } ∈
      (ClassStream.ofText "class ObjA_1 :\nclass Objé \x7b\n").toList ∧
    DeclaredType.ofText (DeclaredType.normalize "Objé *") = .unsupported "Objé*" ∧
    ∀ m : Member, m.method.returnType = "Objé*" → ¬ m.boxing.isOk = true := by
  have hplain : Except.ok { name := "ObjA_1", line := 1 } ∈
      (ClassStream.ofText "class ObjA_1 :\nclass Objé \x7b\n").toList := by decide +kernel
  have haccent : Except.ok { name := "Objé", line := 2 } ∈
      (ClassStream.ofText "class ObjA_1 :\nclass Objé \x7b\n").toList := by decide +kernel
  have hforeign : ¬ IsAscii "Objé" := by decide
  have hnormal : DeclaredType.normalize "Objé *" = "Objé*" := by decide +kernel
  obtain ⟨hbindable, -⟩ := bindable_iff_scanned hplain
  obtain ⟨-, htype, -, hreturn⟩ := bindable_iff_scanned haccent
  refine ⟨hplain, hbindable.2 (by decide), haccent, htype.trans (if_neg hforeign),
    fun m hm hok => ?_⟩
  exact hforeign ((hreturn m (hm.trans hnormal.symm)).1 hok)

/-- A header can begin a class that its own method cannot take. -/
theorem pointer_to_scanned_refused :
    (ClassStream.ofText "class Objé \x7b\nWREN_METHOD() void F(Objé *x);\n").toList =
      [.ok { name := "Objé", line := 1, methods := [
        { name := "F", returnType := "void", line := 2, args := [
          { type := "Objé*", name := "x", position := 0 }] }] }] ∧
    isBindableName "Objé" = false ∧
    DeclaredType.ofText (DeclaredType.normalize "Objé *") ≠ .object "Objé" ∧
    generate {} [⟨"a.h", "class Objé \x7b\nWREN_METHOD() void F(Objé *x);\n"⟩] =
      .error (.binding (.method "Objé" "F" (.unknownArgumentType 1 "x" "Objé*"))) := by
  decide +kernel

end WrenGlue
