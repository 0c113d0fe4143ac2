import WrenGlue.Proofs.Bindings.Binding
import WrenGlue.Proofs.Cpp.ClassName
import WrenGlue.Proofs.Cpp.CodeLines
import WrenGlue.Proofs.Cpp.Prototype

/-! Linkage of the generated file: every function that it registers or calls is defined once, before
it is used, and takes as many values as it is given. -/

namespace WrenGlue.Cpp

open WrenGlue.Text

theorem isWordName_of_ofText {text name : String} (h : DeclaredType.ofText text = .object name) :
    IsWordName name :=
  (DeclaredType.isClassName_of_ofText h).isWordName

/-- The functions that lines of code define. -/
def definitions (lines : List String) : List Prototype := lines.filterMap definition?

theorem definitions_append (a b : List String) :
    definitions (a ++ b) = definitions a ++ definitions b := List.filterMap_append

end WrenGlue.Cpp

namespace WrenGlue.Bindings

open WrenGlue.Cpp WrenGlue.Text

/-- The functions of the runtime and of C that generated code calls by name. -/
def libraryFunctions : List String := ["encode_object", "encode_number", "fprintf", "abort"]

/-- What a line registers or calls is among the functions `known`. -/
structure Resolves (known : List Prototype) (line : String) : Prop where
  address : ∀ name ∈ address? line, name ∈ known.map (·.name)
  call : ∀ p ∈ call? line, p.name ∈ libraryFunctions ∨ p ∈ known

/-- Every line uses only functions that are known or defined before it. -/
def Linked : (known : List Prototype) → List String → Prop
  | _, [] => True
  | known, line :: rest => Resolves known line ∧ Linked (known ++ (definition? line).toList) rest

theorem Resolves.mono {known known' : List Prototype} {line : String} (h : Resolves known line)
    (hsub : known ⊆ known') : Resolves known' line :=
  ⟨fun name hn => List.map_subset _ hsub (h.address name hn),
    fun p hp => (h.call p hp).imp_right fun hk => hsub hk⟩

namespace Linked

theorem append {known : List Prototype} {a b : List String} (ha : Linked known a)
    (hb : Linked (known ++ definitions a) b) : Linked known (a ++ b) := by
  induction a generalizing known with
  | nil => simpa [definitions] using hb
  | cons line a ih =>
    refine ⟨ha.1, ih ha.2 ?_⟩
    have hdefs : definitions (line :: a) = (definition? line).toList ++ definitions a := by
      cases hd : definition? line <;> simp [definitions, hd]
    rwa [hdefs, ← List.append_assoc] at hb

theorem mono {known known' : List Prototype} {lines : List String} (h : Linked known lines)
    (hsub : known ⊆ known') : Linked known' lines := by
  induction lines generalizing known known' with
  | nil => trivial
  | cons line lines ih =>
    refine ⟨h.1.mono hsub, ih h.2 fun p hp => ?_⟩
    rw [List.mem_append] at hp ⊢
    exact hp.imp_left fun hk => hsub hk

theorem of_forall {known : List Prototype} {lines : List String}
    (h : ∀ line ∈ lines, Resolves known line) : Linked known lines := by
  induction lines with
  | nil => trivial
  | cons line lines ih =>
    rw [List.forall_mem_cons] at h
    exact ⟨h.1, (ih h.2).mono (List.subset_append_left _ _)⟩

/-- What a line uses is known or defined before it. -/
theorem resolves {known : List Prototype} {before after : List String} {line : String}
    (h : Linked known (before ++ line :: after)) : Resolves (known ++ definitions before) line := by
  induction before generalizing known with
  | nil => exact h.1.mono (List.subset_append_left _ _)
  | cons first before ih =>
    refine (ih h.2).mono ?_
    cases hd : definition? first <;> simp [definitions, hd]

end Linked

/-- A line that defines nothing and uses nothing but library functions. -/
structure Inert (line : String) : Prop where
  definition : definition? line = none
  address : address? line = none
  call : ∀ p ∈ call? line, p.name ∈ libraryFunctions

theorem inert_iff {line : String} : Inert line ↔ definition? line = none ∧ address? line = none ∧
    ∀ p ∈ call? line, p.name ∈ libraryFunctions :=
  ⟨fun h => ⟨h.definition, h.address, h.call⟩, fun ⟨hd, ha, hc⟩ => ⟨hd, ha, hc⟩⟩

instance (line : String) : Decidable (Inert line) := decidable_of_iff _ inert_iff.symm

theorem Inert.resolves {line : String} (h : Inert line) (known : List Prototype) :
    Resolves known line :=
  ⟨by simp [h.address], fun p hp => .inl (h.call p hp)⟩

theorem address?_eq_none_of_front {line : String} {front : List Char} (h : front <+: line.toList)
    (hparen : '(' ∉ front) {c : Char} (hc : c ∈ front) (hcls : c ∉ "cls->AddFunction(".toList) :
    address? line = none := by
  cases hs : ("cls->AddFunction(".toList).isPrefixOf? line.toList with
  | none => rw [address?, hs, Option.bind_eq_bind, Option.bind_none]
  | some rest =>
    rw [List.isPrefixOf?_eq_some_iff_append_eq] at hs
    rcases List.prefix_or_prefix_of_prefix h ⟨rest, hs⟩ with hp | hp
    · exact absurd (hp.subset hc) hcls
    · exact absurd (hp.subset (by decide)) hparen

/-- A statement that does more than call something by its name. -/
theorem Inert.of_front {line : String} {front : List Char} (h : front <+: line.toList)
    (hparen : '(' ∉ front) {c : Char} (hc : c ∈ front) (hword : isWord c = false)
    (hother : c ∉ "return ".toList ++ "cls->AddFunction(".toList)
    (hlast : line.toList.getLast? = some ';') : Inert line := by
  rw [List.mem_append, not_or] at hother
  exact ⟨definition?_eq_none_of_last (by simp [hlast]),
    address?_eq_none_of_front h hparen hc hother.2,
    by simp [call?_eq_none h hparen hc hword hother.1]⟩

/-- A line whose first character is part of no name. -/
theorem Inert.of_head {line : String} {c : Char} (h : line.toList.head? = some c)
    (hword : isWord c = false) (hother : c ∉ [' ', '(']) : Inert line := by
  have hne : ∀ d, isWord d = true → c ≠ d := by
    rintro d hd rfl
    rw [hd] at hword
    cases hword
  have hfront : [c] <+: line.toList := by
    cases hl : line.toList with
    | nil => simp [hl] at h
    | cons d rest =>
      obtain rfl : d = c := by simpa [hl] using h
      exact ⟨rest, rfl⟩
  have hparen : '(' ∉ [c] := by
    rw [List.mem_singleton]
    rintro rfl
    exact hother (by decide)
  have hreturn : c ∉ "return ".toList := by
    have hall : ∀ d ∈ "return ".toList, isWord d = true ∨ d = ' ' := by decide
    intro hm
    rcases hall c hm with hc | rfl
    · exact hne c hc rfl
    · exact hother List.mem_cons_self
  refine ⟨definition?_eq_none_of_head ?_, address?_eq_none_of_head ?_, ?_⟩
  · rw [h]
    rintro d ⟨⟩ hm
    have hall : ∀ d ∈ ['s', 'V', 'v'], isWord d = true := by decide
    exact hne c (hall c hm) rfl
  · rw [h]
    exact fun he => hne 'c' (by decide) (Option.some.inj he)
  · simp [call?_eq_none hfront hparen List.mem_cons_self hword hreturn]

/-! ### Statements -/

namespace Statement

theorem text_collect (roots : List String) :
    (collect roots).text = "WrenRuntime::Instance().RunGC(" ++ braced roots ++ ");" := rfl

theorem text_receive (name signature : String) :
    (receive name signature).text = name ++ " *obj = checkReceiver<" ++ name ++ ">(" ++
      quoted signature ++ ", receiver);" := rfl

theorem text_unbox (u : Unboxing) :
    (unbox u).text = u.type.declare u.target ++ " = " ++ u.expression ++ ";" := rfl

theorem text_perform (call : NativeCall) : (perform call).text = call.text ++ ";" := rfl

theorem text_store (type : DeclaredType) (call : NativeCall) :
    (store type call).text = type.declare "ret" ++ " = " ++ call.text ++ ";" := rfl

theorem text_forward (target : String) (args packed : List String) :
    (forward target args packed).text =
      "return " ++ target ++ "(" ++ commaList (args ++ [braced packed]) ++ ");" := rfl

end Statement

theorem inert_collect (roots : List String) : Inert (Statement.collect roots).text := by
  have hfront : "WrenRuntime:".toList <+: (Statement.collect roots).text.toList := by
    rw [Statement.text_collect]
    simp
  refine .of_front hfront (by decide) (c := ':') (by decide) (by decide) (by decide) ?_
  rw [Statement.text_collect]
  exact getLast?_toList_append _ rfl

theorem inert_receive {className : String} (h : IsWordName className) (signature : String) :
    Inert (Statement.receive className signature).text := by
  have hfront : className.toList ++ " *".toList <+:
      (Statement.receive className signature).text.toList := by
    rw [Statement.text_receive]
    simp
  refine .of_front hfront ?_ (c := '*') (by simp) (by decide) (by decide) ?_
  · simp [h.not_mem (show isWord '(' = false by decide)]
  · rw [Statement.text_receive]
    exact getLast?_toList_append _ rfl

/-- A type that crosses between the runtime and native code is spelled without parentheses. -/
theorem not_mem_declare {text name : String}
    (hu : ∀ other, DeclaredType.ofText text ≠ .unsupported other)
    (hname : '(' ∉ name.toList) : '(' ∉ ((DeclaredType.ofText text).declare name).toList := by
  cases ht : DeclaredType.ofText text with
  | object className =>
    have hclass := (isWordName_of_ofText ht).not_mem (show isWord '(' = false by decide)
    simp [DeclaredType.declare, DeclaredType.text, hclass, hname]
  | unsupported other => exact absurd ht (hu other)
  | void | value | bool | int | double | string =>
    simp [DeclaredType.declare, DeclaredType.text, hname]

theorem inert_unbox {m : Member} {signature : String} {a : Header.Argument} {u : Unboxing}
    (h : m.unboxing signature a = .ok u) : Inert (Statement.unbox u).text := by
  cases hc : Check.ofType? a.declaredType with
  | none => simp [Member.unboxing, hc, Member.fail] at h
  | some check =>
    have hu := Member.supported_of_unboxing h
    have htarget : '(' ∉ a.typedName.toList := by
      rw [Header.Argument.typedName, String.toList_append, List.mem_append, not_or]
      exact ⟨by decide, (isWordName_toString _).not_mem (by decide)⟩
    have hdeclare : '(' ∉ (a.declaredType.declare a.typedName).toList := not_mem_declare hu htarget
    simp only [Member.unboxing, hc, Except.ok.injEq] at h
    subst h
    refine .of_front (c := '=') ?_ (?_ : '(' ∉ (a.declaredType.declare a.typedName).toList ++
      " =".toList) (by simp) (by decide) (by decide) ?_
    · rw [Statement.text_unbox]
      simp
    · simpa using hdeclare
    · rw [Statement.text_unbox]
      exact getLast?_toList_append _ rfl

theorem inert_perform {m : Member} (h : IsWordName m.owner.name) :
    Inert (Statement.perform m.nativeCall).text := by
  have hparen := h.not_mem (show isWord '(' = false by decide)
  have htext : (Statement.perform m.nativeCall).text = m.callee.text ++
      (m.method.name ++ "(" ++ commaList m.nativeCall.args) ++ ");" := by
    simp [Statement.text_perform, NativeCall.text, Member.nativeCall, String.append_assoc]
  have hlast : (Statement.perform m.nativeCall).text.toList.getLast? = some ';' := by
    rw [htext]
    exact getLast?_toList_append _ rfl
  have hcallee : m.callee.text.toList <+: (Statement.perform m.nativeCall).text.toList := by
    rw [htext]
    simp [String.toList_append]
  have howner : ∀ name, m.callee = .static name ∨ m.callee = .singleton name →
      name = m.owner.name := by
    intro name hname
    simp only [Member.callee] at hname
    repeat' split at hname
    all_goals simp_all
  cases hc : m.callee with
  | static name =>
    obtain rfl := howner name (.inl hc)
    rw [hc] at hcallee
    have hfront : m.owner.name.toList ++ "::".toList <+:
        (Callee.static m.owner.name).text.toList := by
      simp [Callee.text]
    exact .of_front (hfront.trans hcallee) (by simp [hparen]) (c := ':') (by simp) (by decide)
      (by decide) hlast
  | singleton name =>
    obtain rfl := howner name (.inr hc)
    rw [hc] at hcallee
    have hfront : m.owner.name.toList ++ "::".toList <+:
        (Callee.singleton m.owner.name).text.toList := by
      simp [Callee.text]
    exact .of_front (hfront.trans hcallee) (by simp [hparen]) (c := ':') (by simp) (by decide)
      (by decide) hlast
  | nullPointer name =>
    rw [hc] at hcallee
    have hfront : "static_cast<".toList <+: (Callee.nullPointer name).text.toList := by
      simp [Callee.text]
    exact .of_front (hfront.trans hcallee) (by decide) (c := '<') (by decide) (by decide)
      (by decide) hlast
  | receiver =>
    rw [hc] at hcallee
    have hfront : "obj->".toList <+: (Statement.perform m.nativeCall).text.toList := hcallee
    have hhead : (Statement.perform m.nativeCall).text.toList.head? = some 'o' := by
      obtain ⟨rest, hr⟩ := hfront
      rw [← hr]
      rfl
    refine ⟨definition?_eq_none_of_last (by simp [hlast]),
      address?_eq_none_of_head (by simp [hhead]), ?_⟩
    simp [call?_eq_none hfront (by decide) (c := '-') (by decide) (by decide) (by decide)]

theorem inert_store {text : String} (hu : ∀ other, DeclaredType.ofText text ≠ .unsupported other)
    (call : NativeCall) : Inert (Statement.store (.ofText text) call).text := by
  have hfront : ((DeclaredType.ofText text).declare "ret").toList ++ " =".toList <+:
      (Statement.store (.ofText text) call).text.toList := by
    rw [Statement.text_store]
    simp
  refine .of_front hfront ?_ (c := '=') (by simp) (by decide) (by decide) ?_
  · simpa using not_mem_declare hu (by decide)
  · rw [Statement.text_store]
    exact getLast?_toList_append _ rfl

theorem inert_returnBoxed (rule : BoxRule) : Inert (Statement.returnBoxed rule).text := by
  cases rule <;> decide +kernel

theorem inert_boxing {m : Member} (h : IsWordName m.owner.name) {b : Boxing}
    (hb : m.boxing = .ok b) {s : Statement} (hs : s ∈ b.statements m.nativeCall) :
    Inert s.text := by
  rcases Member.eq_of_boxing hb with rfl | ⟨⟨rule, rfl⟩, hu⟩
  · rcases List.mem_pair.1 hs with rfl | rfl
    · exact inert_perform h
    · decide +kernel
  · rcases List.mem_pair.1 hs with rfl | rfl
    · exact inert_store hu m.nativeCall
    · exact inert_returnBoxed rule

end WrenGlue.Bindings
