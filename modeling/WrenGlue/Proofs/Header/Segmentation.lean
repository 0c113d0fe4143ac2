import WrenGlue.Header.ClassStream
import WrenGlue.Proofs.Text.Lines
import Mathlib.Data.List.Basic

/-! The classes of a header from its lines, each line read on its own: every class boundary begins a
class, and the methods up to the next boundary belong to it. `ClassStream` reads the same classes
one at a time and ends at the first line with a fault. -/

namespace WrenGlue.Header

open WrenGlue.Text

namespace LineReading

/-- The class that the line begins. -/
def heading? : LineReading → Option String
  | .heading name => some name
  | .other | .method _ | .fault _ => none

/-- The method that the line declares. -/
def method? : LineReading → Option MethodDecl
  | .method m => some m
  | .other | .heading _ | .fault _ => none

/-- What is wrong with the line. A method needs a class that has begun before it. -/
def fault? (inClass : Bool) : LineReading → Option LineFault
  | .fault what => some what
  | .method _ => if inClass then none else some .methodOutsideClass
  | .other | .heading _ => none

section

variable (name : String) (m : MethodDecl) (what : LineFault) (inClass : Bool)

@[simp] theorem heading?_other : other.heading? = none := rfl
@[simp] theorem heading?_heading : (heading name).heading? = some name := rfl
@[simp] theorem heading?_method : (method m).heading? = none := rfl
@[simp] theorem heading?_fault : (fault what).heading? = none := rfl

@[simp] theorem method?_other : other.method? = none := rfl
@[simp] theorem method?_heading : (heading name).method? = none := rfl
@[simp] theorem method?_method : (method m).method? = some m := rfl
@[simp] theorem method?_fault : (fault what).method? = none := rfl

@[simp] theorem fault?_other : other.fault? inClass = none := rfl
@[simp] theorem fault?_heading : (heading name).fault? inClass = none := rfl
@[simp] theorem fault?_method :
    (method m).fault? inClass = if inClass then none else some .methodOutsideClass := rfl
@[simp] theorem fault?_fault : (fault what).fault? inClass = some what := rfl

end

theorem heading?_eq_some_iff {r : LineReading} {name : String} :
    r.heading? = some name ↔ r = .heading name := by
  cases r <;> simp

theorem method?_eq_some_iff {r : LineReading} {m : MethodDecl} :
    r.method? = some m ↔ r = .method m := by
  cases r <;> simp

end LineReading

namespace Line

def beginsClass (l : Line) : Bool := l.read.heading?.isSome

/-- What is wrong with the line `l` behind the lines `before`. -/
def faultAfter? (before : List Line) (l : Line) : Option LineFault :=
  l.read.fault? (before.any beginsClass)

/-- No line has a fault. -/
def Faultless (lines : List Line) : Prop :=
  ∀ before l after, lines = before ++ l :: after → l.faultAfter? before = none

/-- The text of the lines, with a line feed behind each. -/
def textOf (lines : List Line) : String := String.ofList (unlines (lines.map (·.text)))

/-- The methods in front of the next class boundary. -/
def leadingMethods (lines : List Line) : List MethodDecl :=
  (lines.takeWhile (! ·.beginsClass)).filterMap (·.read.method?)

/-- The classes that begin on the lines, each with the methods in front of the next boundary. -/
def classesOf : List Line → List ClassDecl
  | [] => []
  | l :: rest =>
    match l.read.heading? with
    | some name =>
      { name, methods := leadingMethods rest, line := l.number } :: classesOf rest
    | none => classesOf rest

/-- `Faultless` for lines behind others, where `inClass` tells whether a class has begun. -/
def FaultlessFrom (inClass : Bool) (lines : List Line) : Prop :=
  ∀ before l after, lines = before ++ l :: after →
    l.read.fault? (inClass || before.any beginsClass) = none

theorem faultless_iff {lines : List Line} : Faultless lines ↔ FaultlessFrom false lines := by
  simp [Faultless, FaultlessFrom, faultAfter?]

theorem faultlessFrom_nil (inClass : Bool) : FaultlessFrom inClass [] := by
  intro before l after h
  simp at h

theorem faultlessFrom_cons {inClass : Bool} {l : Line} {rest : List Line} :
    FaultlessFrom inClass (l :: rest) ↔
      l.read.fault? inClass = none ∧ FaultlessFrom (inClass || l.beginsClass) rest := by
  constructor
  · intro h
    refine ⟨by simpa using h [] l rest rfl, fun before m after hm => ?_⟩
    subst hm
    simpa [Bool.or_assoc] using h (l :: before) m after rfl
  · rintro ⟨hl, hrest⟩ before m after hm
    cases before with
    | nil =>
      obtain ⟨rfl, -⟩ := List.cons_eq_cons.1 hm
      simpa using hl
    | cons first before =>
      obtain ⟨rfl, hr⟩ := List.cons_eq_cons.1 hm
      simpa [Bool.or_assoc] using hrest before m after hr

instance decidableFaultlessFrom :
    (inClass : Bool) → (lines : List Line) → Decidable (FaultlessFrom inClass lines)
  | inClass, [] => isTrue (faultlessFrom_nil inClass)
  | inClass, l :: rest =>
    have := decidableFaultlessFrom (inClass || l.beginsClass) rest
    decidable_of_iff _ faultlessFrom_cons.symm

instance (lines : List Line) : Decidable (Faultless lines) :=
  decidable_of_iff _ faultless_iff.symm

theorem leadingMethods_cons_heading {l : Line} {rest : List Line} (h : l.beginsClass = true) :
    leadingMethods (l :: rest) = [] := by
  simp [leadingMethods, h]

theorem leadingMethods_cons {l : Line} {rest : List Line} (h : l.beginsClass = false) :
    leadingMethods (l :: rest) = l.read.method?.toList ++ leadingMethods rest := by
  cases hm : l.read.method? <;> simp [leadingMethods, h, hm]

theorem map_name_classesOf (lines : List Line) :
    (classesOf lines).map (·.name) = lines.filterMap (·.read.heading?) := by
  induction lines with
  | nil => rfl
  | cons l rest ih => cases hh : l.read.heading? <;> simp [classesOf, hh, ih]

theorem leadingMethods_append_flatMap_classesOf (lines : List Line) :
    leadingMethods lines ++ (classesOf lines).flatMap (·.methods) =
      lines.filterMap (·.read.method?) := by
  induction lines with
  | nil => rfl
  | cons l rest ih =>
    cases hr : l.read with
    | heading name =>
      have hb : l.beginsClass = true := by simp [beginsClass, hr]
      simp [leadingMethods_cons_heading hb, classesOf, hr, ih]
    | other | fault | method =>
      have hb : l.beginsClass = false := by simp [beginsClass, hr]
      simp [leadingMethods_cons hb, classesOf, hr, ← ih]

theorem leadingMethods_eq_nil {lines : List Line} (h : FaultlessFrom false lines) :
    leadingMethods lines = [] := by
  induction lines with
  | nil => rfl
  | cons l rest ih =>
    obtain ⟨hl, hrest⟩ := faultlessFrom_cons.1 h
    cases hr : l.read with
    | heading name =>
      exact leadingMethods_cons_heading (by simp [beginsClass, hr])
    | other =>
      have hb : l.beginsClass = false := by simp [beginsClass, hr]
      rw [hb] at hrest
      simp [leadingMethods_cons hb, hr, ih hrest]
    | method | fault => simp [hr] at hl

/-- Without a fault every declared method belongs to a class. -/
theorem flatMap_methods_classesOf {lines : List Line} (h : Faultless lines) :
    (classesOf lines).flatMap (·.methods) = lines.filterMap (·.read.method?) := by
  rw [← leadingMethods_append_flatMap_classesOf, leadingMethods_eq_nil (faultless_iff.1 h),
    List.nil_append]

end Line

namespace ClassStream

open Line

/-- The classes of lines where `current` has begun before them. -/
def classesFrom : (current : Option ClassDecl) → List Line → List ClassDecl
  | none, lines => classesOf lines
  | some c, lines => { c with methods := c.methods ++ leadingMethods lines } :: classesOf lines

theorem classesFrom_nil (current : Option ClassDecl) : classesFrom current [] = current.toList := by
  cases current <;> simp [classesFrom, classesOf, leadingMethods]

variable {l : Line} {rest : List Line}

theorem classesFrom_cons_other (current : Option ClassDecl) (h : l.read = .other) :
    classesFrom current (l :: rest) = classesFrom current rest := by
  have hb : l.beginsClass = false := by simp [beginsClass, h]
  have hc : classesOf (l :: rest) = classesOf rest := by simp [classesOf, h]
  cases current with
  | none => exact hc
  | some c => simp [classesFrom, hc, leadingMethods_cons hb, h]

theorem classesFrom_cons_heading (current : Option ClassDecl) {name : String}
    (h : l.read = .heading name) :
    classesFrom current (l :: rest) =
      current.toList ++ classesFrom (some { name, line := l.number }) rest := by
  have hb : l.beginsClass = true := by simp [beginsClass, h]
  cases current <;>
    simp [classesFrom, classesOf, h, leadingMethods_cons_heading hb]

theorem classesFrom_cons_method (current : Option ClassDecl) {m : MethodDecl}
    (h : l.read = .method m) :
    classesFrom current (l :: rest) = classesFrom (current.map (·.add m)) rest := by
  have hb : l.beginsClass = false := by simp [beginsClass, h]
  have hc : classesOf (l :: rest) = classesOf rest := by simp [classesOf, h]
  cases current with
  | none => exact hc
  | some c =>
    simp [classesFrom, hc, leadingMethods_cons hb, h, ClassDecl.add]

theorem classesFrom_some_ne_nil (c : ClassDecl) (lines : List Line) :
    classesFrom (some c) lines ≠ [] := by
  simp [classesFrom]

/-- Behind lines without a fault the stream has yielded all of their classes but the last one, which
is still open. -/
theorem itemsFrom_append {current : Option ClassDecl} {before : List Line}
    (h : FaultlessFrom current.isSome before) (after : List Line) :
    itemsFrom current (before ++ after) =
      (classesFrom current before).dropLast.map .ok ++
        itemsFrom (classesFrom current before).getLast? after := by
  induction before generalizing current with
  | nil => cases current <;> simp [classesFrom_nil]
  | cons l rest ih =>
    obtain ⟨hl, hrest⟩ := faultlessFrom_cons.1 h
    cases hr : l.read with
    | other =>
      rw [beginsClass, hr, LineReading.heading?_other, Option.isSome_none, Bool.or_false] at hrest
      simp only [List.cons_append, itemsFrom, hr, classesFrom_cons_other current hr]
      exact ih hrest
    | heading name =>
      rw [beginsClass, hr, LineReading.heading?_heading, Option.isSome_some, Bool.or_true] at hrest
      have hopen := @ih (some { name, line := l.number }) hrest
      rw [classesFrom_cons_heading current hr]
      cases current with
      | none =>
        simp only [List.cons_append, itemsFrom, hr, Option.toList_none, List.nil_append]
        exact hopen
      | some c =>
        have hne := classesFrom_some_ne_nil { name, line := l.number } rest
        simp only [List.cons_append, itemsFrom, hr, hopen, Option.toList_some, List.nil_append,
          List.dropLast_cons_of_ne_nil hne, List.getLast?_cons_of_ne_nil hne, List.map_cons]
    | method m =>
      rw [beginsClass, hr, LineReading.heading?_method, Option.isSome_none, Bool.or_false] at hrest
      rw [classesFrom_cons_method current hr]
      cases current with
      | none => simp [hr] at hl
      | some c =>
        simp only [List.cons_append, itemsFrom, hr, Option.map_some]
        exact @ih (some (c.add m)) hrest
    | fault what => simp [hr] at hl

theorem itemsFrom_none {lines : List Line} (h : Faultless lines) :
    itemsFrom none lines = (classesOf lines).map .ok := by
  have hi := @itemsFrom_append none lines (faultless_iff.1 h) []
  rw [List.append_nil] at hi
  rw [hi, classesFrom, itemsFrom]
  cases hl : (classesOf lines).getLast? with
  | none => simp [List.getLast?_eq_none_iff.1 hl]
  | some c =>
    have hc := List.dropLast_append_getLast? c (Option.mem_def.2 hl)
    rw [Option.toList_some, ← List.map_append, hc]

theorem isSome_getLast?_classesOf (lines : List Line) :
    (classesOf lines).getLast?.isSome = lines.any beginsClass := by
  induction lines with
  | nil => rfl
  | cons l rest ih =>
    cases hh : l.read.heading? with
    | none => simpa [classesOf, hh, beginsClass] using ih
    | some name => simp [classesOf, hh, beginsClass, List.getLast?_cons]

theorem itemsFrom_cons_fault {current : Option ClassDecl} {l : Line} {what : LineFault}
    (h : l.read.fault? current.isSome = some what) (after : List Line) :
    itemsFrom current (l :: after) = [.error (l.error what)] := by
  cases current <;> cases hr : l.read <;> simp_all [itemsFrom]

/-- The first line with a fault ends the stream. The class that is open there is lost. -/
theorem itemsFrom_fault {before : List Line} {l : Line} {what : LineFault}
    (h : Faultless before) (hl : l.faultAfter? before = some what) (after : List Line) :
    itemsFrom none (before ++ l :: after) =
      (classesOf before).dropLast.map .ok ++ [.error (l.error what)] := by
  have hopen : l.read.fault? (classesOf before).getLast?.isSome = some what := by
    rwa [isSome_getLast?_classesOf]
  rw [@itemsFrom_append none before (faultless_iff.1 h), classesFrom, itemsFrom_cons_fault hopen]

/-- What the call of `next` with the number `k`, counted from 0, gives. -/
def nth? (s : ClassStream) : Nat → Option Item
  | 0 => s.next.1
  | k + 1 => s.next.2.nth? k

theorem advance_none {current : Option ClassDecl} {lines : List Line}
    (h : (advance current lines).1 = none) : (advance current lines).2 = ended := by
  induction lines generalizing current with
  | nil => rfl
  | cons l rest ih =>
    cases hr : l.read with
    | other =>
      simp only [advance, hr] at h ⊢
      exact ih h
    | heading name =>
      cases current with
      | none =>
        simp only [advance, hr] at h ⊢
        exact ih h
      | some c => simp [advance, hr] at h
    | method m =>
      cases current with
      | none => simp [advance, hr] at h
      | some c =>
        simp only [advance, hr] at h ⊢
        exact ih h
    | fault what => simp [advance, hr] at h

/-- Calls of `next` give the items in order, and nothing from then on. -/
theorem nth?_eq (s : ClassStream) (k : Nat) : s.nth? k = s.toList[k]? := by
  induction k generalizing s with
  | zero =>
    rw [nth?, toList_eq_next]
    cases hs : s.next.1 with
    | none =>
      have he : s.next.2 = ended := advance_none hs
      simp [he]
    | some item => simp
  | succ k ih =>
    rw [nth?, ih, toList_eq_next s]
    cases hs : s.next.1 with
    | none =>
      have he : s.next.2 = ended := advance_none hs
      simp [he]
    | some item => simp

end ClassStream

theorem mapM_ok (classes : List ClassDecl) :
    (classes.map .ok : List ClassStream.Item).mapM id = .ok classes := by
  induction classes with
  | nil => rfl
  | cons c rest ih => rw [List.map_cons, List.mapM_cons, ih]; rfl

theorem mapM_ok_append_error (classes : List ClassDecl) (e : DeclarationError) :
    (classes.map .ok ++ [.error e] : List ClassStream.Item).mapM id = .error e := by
  induction classes with
  | nil => rfl
  | cons c rest ih => rw [List.map_cons, List.cons_append, List.mapM_cons, ih]; rfl

theorem readClasses_eq_mapM (text : String) :
    readClasses text = (ClassStream.itemsFrom none (Line.ofText text)).mapM id := rfl

namespace Line

theorem getElem?_ofText (text : String) (i : Nat) :
    (ofText text)[i]? = (lines text.toList)[i]?.map fun t => ⟨1 + i, t⟩ := by
  simp only [ofText, List.getElem?_map, List.getElem?_zipIdx, Option.map_map]
  rfl

theorem number_eq {text : String} {before after : List Line} {l : Line}
    (h : ofText text = before ++ l :: after) : l.number = before.length + 1 := by
  have hl : (ofText text)[before.length]? = some l := by simp [h]
  rw [getElem?_ofText, Option.map_eq_some_iff] at hl
  obtain ⟨t, -, rfl⟩ := hl
  exact Nat.add_comm 1 _

/-- The first lines of a text are the lines of the text that they make. -/
theorem ofText_textOf {text : String} {before : List Line} (h : before <+: ofText text) :
    ofText (textOf before) = before := by
  have hget : ∀ i < before.length, ∃ t ∈ lines text.toList, before[i]? = some ⟨1 + i, t⟩ := by
    intro i hi
    have hb : before[i]? = (ofText text)[i]? := by
      obtain ⟨after, ha⟩ := h
      rw [← ha, List.getElem?_append_left hi]
    rw [getElem?_ofText] at hb
    have hsome : before[i]? = some before[i] := List.getElem?_eq_getElem hi
    obtain ⟨t, ht, he⟩ := Option.map_eq_some_iff.1 (hb.symm.trans hsome)
    exact ⟨t, List.mem_of_getElem? ht, by rw [hsome, ← he]⟩
  have hfree : ∀ line ∈ before.map (·.text), '\n' ∉ line := by
    intro line hline
    obtain ⟨l, hl, rfl⟩ := List.mem_map.1 hline
    obtain ⟨i, hi, rfl⟩ := List.mem_iff_getElem.1 hl
    obtain ⟨t, ht, he⟩ := hget i hi
    rw [List.getElem?_eq_getElem hi, Option.some_inj] at he
    exact he ▸ not_mem_of_mem_lines ht
  apply List.ext_getElem?
  intro i
  rw [getElem?_ofText, textOf, String.toList_ofList, lines_unlines hfree, List.getElem?_map]
  by_cases hi : i < before.length
  · obtain ⟨t, -, he⟩ := hget i hi
    simp [he]
  · simp [List.getElem?_eq_none (Nat.not_lt.1 hi)]

end Line

open Line ClassStream

theorem readClasses_eq {text : String} (h : Faultless (Line.ofText text)) :
    readClasses text = .ok (classesOf (Line.ofText text)) := by
  rw [readClasses_eq_mapM, itemsFrom_none h, mapM_ok]

theorem readClasses_eq_error {text : String} {before after : List Line} {l : Line}
    {what : LineFault} (ht : Line.ofText text = before ++ l :: after) (h : Faultless before)
    (hl : l.faultAfter? before = some what) : readClasses text = .error (l.error what) := by
  rw [readClasses_eq_mapM, ht, itemsFrom_fault h hl, mapM_ok_append_error]

/-- Reading a header as a stream of classes comes to the same as reading each line apart. Without a
faulty line, every class boundary and every method is found in its place. Otherwise the first faulty
line decides, whatever follows it: the stream yields the classes that the lines before it declare,
except for the last, and then the error. -/
theorem stream_eq_segmentation (text : String) :
    (Faultless (Line.ofText text) →
      readClasses text = .ok (classesOf (Line.ofText text)) ∧
      (classesOf (Line.ofText text)).map (·.name) =
        (Line.ofText text).filterMap (·.read.heading?) ∧
      (classesOf (Line.ofText text)).flatMap (·.methods) =
        (Line.ofText text).filterMap (·.read.method?) ∧
      ∀ k, (ClassStream.ofText text).nth? k = ((classesOf (Line.ofText text)).map .ok)[k]?) ∧
    ∀ before l after what, Line.ofText text = before ++ l :: after → Faultless before →
      l.faultAfter? before = some what →
      l.number = before.length + 1 ∧
      (∀ other, before ++ [l] <+: Line.ofText other →
        readClasses other = .error ⟨l.number, String.ofList l.content, what⟩) ∧
      readClasses (textOf before) = .ok (classesOf before) ∧
      ∀ k, (ClassStream.ofText text).nth? k =
        ((classesOf before).dropLast.map .ok ++
          [.error ⟨l.number, String.ofList l.content, what⟩])[k]? := by
  refine ⟨fun h => ⟨readClasses_eq h, map_name_classesOf _, flatMap_methods_classesOf h,
    fun k => ?_⟩, fun before l after what ht h hl => ⟨number_eq ht, ?_, ?_, fun k => ?_⟩⟩
  · rw [nth?_eq, toList, ClassStream.ofText, itemsFrom_none h]
  · rintro other ⟨others, ho⟩
    rw [List.append_assoc, List.singleton_append] at ho
    exact readClasses_eq_error ho.symm h hl
  · have hb : Line.ofText (textOf before) = before := ofText_textOf ⟨l :: after, ht.symm⟩
    have hr : readClasses (textOf before) = .ok (classesOf (Line.ofText (textOf before))) :=
      readClasses_eq (by rwa [hb])
    rwa [hb] at hr
  · rw [nth?_eq, toList, ClassStream.ofText, ht, itemsFrom_fault h hl]
    rfl

/-- A header without a fault, and one with a fault on its fourth line, behind the second class. -/
theorem stream_eq_segmentation_unknownKind :
    readClasses "class ObjA \x7b\nWREN_METHOD() int One();\nclass ObjB :\n" =
      .ok [{ name := "ObjA", methods := [{ name := "One", returnType := "int", line := 2 }],
             line := 1 }, { name := "ObjB", line := 3 }] ∧
    ∀ k, (ClassStream.ofText
        "class ObjA \x7b\nint x;\nclass ObjB :\n WREN_METHOD(set) int X(); // no\n").nth? k =
      [.ok { name := "ObjA", line := 1 },
        .error ⟨4, "WREN_METHOD(set) int X();", .unknownKind "set"⟩][k]? := by
  constructor
  · have h := (stream_eq_segmentation
      "class ObjA \x7b\nWREN_METHOD() int One();\nclass ObjB :\n").1 (by decide +kernel)
    rw [h.1]
    decide +kernel
  · have h := (stream_eq_segmentation
      "class ObjA \x7b\nint x;\nclass ObjB :\n WREN_METHOD(set) int X(); // no\n").2
      (Line.ofText "class ObjA \x7b\nint x;\nclass ObjB :\n")
      ⟨4, " WREN_METHOD(set) int X(); // no".toList⟩ [] (.unknownKind "set")
      (by decide +kernel) (by decide +kernel) (by decide +kernel)
    have items : (classesOf (Line.ofText "class ObjA \x7b\nint x;\nclass ObjB :\n")).dropLast.map
        .ok ++ [.error ⟨4, String.ofList (Line.content
          ⟨4, " WREN_METHOD(set) int X(); // no".toList⟩), .unknownKind "set"⟩] =
        ([.ok { name := "ObjA", line := 1 }, .error ⟨4, "WREN_METHOD(set) int X();",
          .unknownKind "set"⟩] : List ClassStream.Item) := by
      decide +kernel
    intro k
    rw [h.2.2.2 k, items]

end WrenGlue.Header
