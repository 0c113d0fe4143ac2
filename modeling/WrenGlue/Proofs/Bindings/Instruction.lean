import WrenGlue.Proofs.Bindings.MethodQuotations
import WrenGlue.Proofs.Bindings.Register
import WrenGlue.Proofs.Cpp.NameList

/-! The statements of a method's functions, read back from their lines: the variable that a line
declares and the check that it makes, the native call that it performs, what it returns. -/

namespace WrenGlue.Cpp.DeclaredType

open WrenGlue.Text

/-- The types that variables of generated code have. -/
def IsLocal : DeclaredType → Prop
  | object name => IsWordName name
  | value | bool | int | double | string => True
  | void | unsupported _ => False

/-- What stands in front of a declared name. -/
def lead (type : DeclaredType) : String := type.declare ""

theorem declare_eq (type : DeclaredType) (name : String) : type.declare name = type.lead ++ name := by
  cases type <;> simp [lead, declare, String.append_assoc]

end WrenGlue.Cpp.DeclaredType

namespace WrenGlue.Bindings

open WrenGlue.Cpp WrenGlue.Text
open WrenGlue.Header (Argument)

/-! ### Instructions -/

/-- What the value of a variable is at first. -/
inductive Expression where
  /-- The value of a parameter or variable. -/
  | named (name : String)
  /-- The object of the class in `source`. -/
  | receiver (className signature source : String)
  | checked (check : Check) (signature label : String) (index : Nat) (source : String)
  | native (call : NativeCall)
deriving DecidableEq, Repr

inductive Instruction where
  | collect (roots : List String)
  | declare (type : DeclaredType) (name : String) (value : Expression)
  | perform (call : NativeCall)
  | returnNull
  | returnBoxed (rule : BoxRule)
  | forward (target : String) (args packed : List String)
deriving DecidableEq, Repr

/-- A value that is not checked is taken from its variable. -/
def Unboxing.value (u : Unboxing) : Expression :=
  match u.check with
  | .none => .named u.source
  | check => .checked check u.signature u.label u.index u.source

def Statement.instruction : Statement → Instruction
  | collect roots => .collect roots
  | receive className signature =>
    .declare (.object className) "obj" (.receiver className signature "receiver")
  | unbox u => .declare u.type u.target u.value
  | perform call => .perform call
  | store type call => .declare type "ret" (.native call)
  | returnNull => .returnNull
  | returnBoxed rule => .returnBoxed rule
  | forward target args packed => .forward target args packed

/-! ### Reading -/

/-- What a method is called on, and the rest of the call. -/
def callee? (text : List Char) : Option (Callee × List Char) :=
  match "obj->".toList.isPrefixOf? text with
  | some rest => some (.receiver, rest)
  | none =>
    match "static_cast<".toList.isPrefixOf? text with
    | some rest => do
      let (name, rest) ← cut? ' ' rest
      let rest ← "*>(nullptr)->".toList.isPrefixOf? rest
      return (.nullPointer (String.ofList name), rest)
    | none => do
      let (name, rest) ← cut? ':' text
      let rest ← ":".toList.isPrefixOf? rest
      match "Instance()->".toList.isPrefixOf? rest with
      | some rest => return (.singleton (String.ofList name), rest)
      | none => return (.static (String.ofList name), rest)

def nativeCall? (text : List Char) : Option NativeCall := do
  let text ← ")".toList.isSuffixOf? text
  let (callee, rest) ← callee? text
  let (method, args) ← cut? '(' rest
  return ⟨callee, String.ofList method, nameList args⟩

/-- The types of variables that are no pointers, by their spelling. -/
def valueTypes : List (String × DeclaredType) :=
  [("Value", .value), ("bool", .bool), ("int", .int), ("double", .double), ("std::string", .string)]

/-- The type that stands in front of a declared name. -/
def declaredType? (text : List Char) : Option DeclaredType :=
  match " *".toList.isSuffixOf? text with
  | some name => some (.object (String.ofList name))
  | none => do
    let name ← " ".toList.isSuffixOf? text
    valueTypes.lookup (String.ofList name)

/-- The object that `checkReceiver` looks for. -/
def receiver? (text : List Char) : Option Expression := do
  let rest ← "checkReceiver<".toList.isPrefixOf? text
  let (name, rest) ← cut? '>' rest
  let rest ← "(\"".toList.isPrefixOf? rest
  let (signature, rest) ← literal? rest
  let rest ← ", ".toList.isPrefixOf? rest
  let source ← ")".toList.isSuffixOf? rest
  return .receiver (String.ofList name) (String.ofList signature) (String.ofList source)

/-- The functions that check values which are no objects. -/
def valueChecks : List (String × Check) :=
  [("checkString(", .string), ("checkDouble(", .double), ("checkInt(", .int)]

/-- The check that a call makes, and what the function that makes it is given. -/
def check? (text : List Char) : Option (Check × List Char) :=
  match "checkArg<".toList.isPrefixOf? text with
  | some rest => do
    let (name, rest) ← cut? '>' rest
    let rest ← "(".toList.isPrefixOf? rest
    let rest ← ", false)".toList.isSuffixOf? rest
    return (.object (String.ofList name), rest)
  | none => do
    let (check, rest) ← valueChecks.findSome? fun (start, check) =>
      (start.toList.isPrefixOf? text).map fun rest => (check, rest)
    return (check, ← ")".toList.isSuffixOf? rest)

def checked? (text : List Char) : Option Expression := do
  let (check, rest) ← check? text
  let rest ← "\"".toList.isPrefixOf? rest
  let (signature, rest) ← literal? rest
  let rest ← ", \"".toList.isPrefixOf? rest
  let (label, rest) ← literal? rest
  let rest ← ", ".toList.isPrefixOf? rest
  let (index, rest) ← cut? ',' rest
  let source ← " ".toList.isPrefixOf? rest
  return .checked check (String.ofList signature) (String.ofList label) (← number? index)
    (String.ofList source)

def expression? (text : List Char) : Option Expression :=
  if '(' ∈ text then
    ((receiver? text).or (checked? text)).or ((nativeCall? text).map .native)
  else some (.named (String.ofList text))

def declaration? (line : List Char) : Option Instruction := do
  let (front, rest) ← cut? '=' line
  let front ← " ".toList.isSuffixOf? front
  let (type, name) := splitTail isWord front
  let rest ← " ".toList.isPrefixOf? rest
  let value ← ";".toList.isSuffixOf? rest
  return .declare (← declaredType? type) (String.ofList name) (← expression? value)

def collect? (line : List Char) : Option Instruction := do
  let rest ← "WrenRuntime::Instance().RunGC(\x7b".toList.isPrefixOf? line
  let roots ← "\x7d);".toList.isSuffixOf? rest
  return .collect (nameList roots)

def perform? (line : List Char) : Option Instruction := do
  let call ← ";".toList.isSuffixOf? line
  return .perform (← nativeCall? call)

/-- What is returned of a native call. -/
def results : List (String × Instruction) :=
  [("NULL_VAL", .returnNull), ("ret", .returnBoxed .itself),
    ("encode_object(ObjString::New(ret))", .returnBoxed .newString),
    ("encode_object(ObjBool::Get(ret))", .returnBoxed .boolObject),
    ("encode_number(ret)", .returnBoxed .number),
    ("ret ? encode_object(ret) : NULL_VAL", .returnBoxed .nullable)]

/-- A call with a braced list behind the other arguments. -/
def forward? (text : List Char) : Option Instruction := do
  let (target, rest) ← cut? '(' text
  let (args, rest) ← cut? '\x7b' rest
  let packed ← "\x7d)".toList.isSuffixOf? rest
  return .forward (String.ofList target) (nameList ((", ".toList.isSuffixOf? args).getD args))
    (nameList packed)

def return? (line : List Char) : Option Instruction := do
  let rest ← "return ".toList.isPrefixOf? line
  let text ← ";".toList.isSuffixOf? rest
  (results.lookup (String.ofList text)).or (forward? text)

def instruction? (line : String) : Option Instruction :=
  if '=' ∈ line.toList then declaration? line.toList
  else ((collect? line.toList).or (return? line.toList)).or (perform? line.toList)

/-! ### Native calls -/

/-- A method with arguments does not go on as a call of `Instance` without any. -/
theorem isPrefixOf?_instance_eq_none {method args : List Char} (hm : '(' ∉ method)
    (ha : ')' ∉ args) :
    "Instance()->".toList.isPrefixOf? (method ++ '(' :: args) = none := by
  rw [Option.eq_none_iff_forall_ne_some]
  intro rest hrest
  rw [List.isPrefixOf?_eq_some_iff_append_eq] at hrest
  have hcut : cut? '(' ("Instance".toList ++ '(' :: (")->".toList ++ rest)) =
      some ("Instance".toList, ")->".toList ++ rest) := cut?_append (by decide) _
  have htext : "Instance".toList ++ '(' :: (")->".toList ++ rest) = method ++ '(' :: args := hrest
  rw [htext, cut?_append hm] at hcut
  obtain ⟨-, rfl⟩ := Prod.mk.inj (Option.some.inj hcut)
  exact ha List.mem_cons_self

theorem callee?_qualified {name : String} (h : IsWordName name) (rest : List Char) :
    callee? (name.toList ++ ':' :: (":".toList ++ rest)) =
      match "Instance()->".toList.isPrefixOf? rest with
      | some rest => some (.singleton name, rest)
      | none => some (.static name, rest) := by
  have hfront : name.toList ++ [':'] <+: name.toList ++ ':' :: (":".toList ++ rest) := by simp
  rw [callee?, isPrefixOf?_eq_none hfront (by decide) (c := '-') (by decide)
    (by simp [h.not_mem (show isWord '-' = false by decide)]),
    isPrefixOf?_eq_none hfront (by decide) (c := '<') (by decide)
    (by simp [h.not_mem (show isWord '<' = false by decide)])]
  simp only [Option.bind_eq_bind, Option.bind_some,
    cut?_append (h.not_mem (show isWord ':' = false by decide)), isPrefixOf?_append,
    String.ofList_toList, Option.pure_def]

theorem callee?_text {c : Callee} {method args : List Char}
    (hc : ∀ name, c = .static name ∨ c = .singleton name ∨ c = .nullPointer name → IsWordName name)
    (hm : '(' ∉ method) (ha : ')' ∉ args) :
    callee? (c.text.toList ++ (method ++ '(' :: args)) = some (c, method ++ '(' :: args) := by
  cases c with
  | receiver => rw [callee?, Callee.text, isPrefixOf?_append]
  | nullPointer name =>
    have hn := hc name (.inr (.inr rfl))
    have htext : (Callee.nullPointer name).text.toList ++ (method ++ '(' :: args) =
        "static_cast<".toList ++ (name.toList ++ ' ' :: ("*>(nullptr)->".toList ++
          (method ++ '(' :: args))) := by
      simp [Callee.text]
    have hobj : ("obj->".toList).isPrefixOf? ("static_cast<".toList ++ (name.toList ++
        ' ' :: ("*>(nullptr)->".toList ++ (method ++ '(' :: args)))) = none := by
      simp [List.isPrefixOf?]
    rw [htext, callee?, hobj]
    simp only [isPrefixOf?_append, Option.bind_eq_bind, Option.bind_some,
      cut?_append (hn.not_mem (show isWord ' ' = false by decide)), String.ofList_toList,
      Option.pure_def]
  | static name =>
    have htext : (Callee.static name).text.toList ++ (method ++ '(' :: args) =
        name.toList ++ ':' :: (":".toList ++ (method ++ '(' :: args)) := by
      simp [Callee.text]
    rw [htext, callee?_qualified (hc name (.inl rfl)), isPrefixOf?_instance_eq_none hm ha]
  | singleton name =>
    have htext : (Callee.singleton name).text.toList ++ (method ++ '(' :: args) =
        name.toList ++ ':' :: (":".toList ++ ("Instance()->".toList ++ (method ++ '(' :: args))) := by
      simp [Callee.text]
    rw [htext, callee?_qualified (hc name (.inr (.inl rfl))), isPrefixOf?_append]

theorem areNames_nativeCall (m : Member) : AreNames m.nativeCall.args := by
  intro name hname
  rw [Member.nativeCall, List.mem_append, List.mem_map] at hname
  rcases hname with ⟨a, -, rfl⟩ | hname
  · exact ⟨by simp [Argument.typedName], isWordName_typedName a⟩
  · split at hname
    · rw [List.mem_singleton.1 hname]
      decide
    · cases hname

theorem nativeCall?_text {m : Member} (h : m.HasWordNames) :
    nativeCall? m.nativeCall.text.toList = some m.nativeCall := by
  have hcallee : ∀ name, m.callee = .static name ∨ m.callee = .singleton name ∨
      m.callee = .nullPointer name → IsWordName name := by
    intro name hname
    have howner : name = m.owner.name := by
      rw [Member.callee] at hname
      repeat' split at hname
      all_goals simp at hname
      all_goals exact hname.symm
    exact howner ▸ h.owner
  have hparen : '(' ∉ m.method.name.toList := h.method.not_mem (by decide)
  have htext : m.nativeCall.text.toList = m.callee.text.toList ++ (m.method.name.toList ++
      '(' :: (commaList m.nativeCall.args).toList) ++ ")".toList := by
    simp [NativeCall.text, Member.nativeCall]
  have hargs : ')' ∉ (commaList m.nativeCall.args).toList :=
    (areNames_nativeCall m).not_mem (by decide) (by decide) (by decide)
  rw [nativeCall?, htext, isSuffixOf?_append]
  simp only [Option.bind_eq_bind, Option.bind_some, callee?_text hcallee hparen hargs,
    cut?_append hparen, nameList_commaList (areNames_nativeCall m).isListed,
    String.ofList_toList, Option.pure_def]
  rfl

/-! ### Declarations -/

theorem lead_spec {type : DeclaredType} (h : type.IsLocal) :
    declaredType? type.lead.toList = some type ∧ '=' ∉ type.lead.toList ∧
      type.lead.toList.getLast?.any isWord = false := by
  cases type with
  | object name =>
    have hname : IsWordName name := h
    have hlead : (DeclaredType.object name).lead.toList = name.toList ++ " *".toList := by
      simp [DeclaredType.lead, DeclaredType.declare, DeclaredType.text]
    rw [hlead]
    refine ⟨?_, ?_, ?_⟩
    · simp only [declaredType?, isSuffixOf?_append, String.ofList_toList]
    · simp [hname.not_mem (show isWord '=' = false by decide)]
    · rw [List.getLast?_append]
      rfl
  | value | bool | int | double | string => decide
  | void | unsupported => exact h.elim

theorem declaration?_eq {type : DeclaredType} {name value : String} {e : Expression}
    (ht : type.IsLocal) (hn : IsWordName name) (he : expression? value.toList = some e) :
    declaration? (type.declare name ++ " = " ++ value ++ ";").toList =
      some (.declare type name e) := by
  obtain ⟨htype, hequals, hlast⟩ := lead_spec ht
  have hline : (type.declare name ++ " = " ++ value ++ ";").toList =
      (type.lead.toList ++ name.toList ++ " ".toList) ++ '=' :: (" ".toList ++
        (value.toList ++ ";".toList)) := by
    simp [DeclaredType.declare_eq]
  have hfront : '=' ∉ type.lead.toList ++ name.toList ++ " ".toList := by
    simp [hequals, hn.not_mem (show isWord '=' = false by decide)]
  rw [declaration?, hline]
  simp only [Option.bind_eq_bind, Option.bind_some, cut?_append hfront, isSuffixOf?_append,
    isPrefixOf?_append, splitTail_eq hlast hn, htype, he, String.ofList_toList, Option.pure_def]

theorem instruction?_declare {type : DeclaredType} {name value : String} {e : Expression}
    (ht : type.IsLocal) (hn : IsWordName name) (he : expression? value.toList = some e) :
    instruction? (type.declare name ++ " = " ++ value ++ ";") = some (.declare type name e) := by
  rw [instruction?, if_pos (by simp), declaration?_eq ht hn he]

theorem expression?_named {name : String} (h : IsWordName name) :
    expression? name.toList = some (.named name) := by
  rw [expression?, if_neg (h.not_mem (by decide)), String.ofList_toList]

theorem literal?_quotable {text : String} (h : IsQuotable text) (rest : List Char) :
    literal? (text.toList ++ '"' :: rest) = some (text.toList, rest) := by
  have hescape : escapeChars text.toList = text.toList :=
    escapeChars_eq_self (fun hc => h _ hc (by decide)) fun hc => h _ hc (by decide)
  have hread := literal?_escapeChars text.toList rest
  rwa [hescape] at hread

theorem expression?_receiver {className signature : String} (hc : IsWordName className)
    (hs : IsQuotable signature) :
    expression? ("checkReceiver<" ++ className ++ ">(" ++ quoted signature ++
      ", receiver)").toList = some (.receiver className signature "receiver") := by
  have htext : ("checkReceiver<" ++ className ++ ">(" ++ quoted signature ++
      ", receiver)").toList = "checkReceiver<".toList ++ (className.toList ++ '>' ::
        ("(\"".toList ++ (signature.toList ++ '"' :: (", ".toList ++
          ("receiver".toList ++ ")".toList))))) := by
    simp [quoted]
  have hread : receiver? ("checkReceiver<".toList ++ (className.toList ++ '>' ::
      ("(\"".toList ++ (signature.toList ++ '"' :: (", ".toList ++
        ("receiver".toList ++ ")".toList)))))) = some (.receiver className signature "receiver") := by
    rw [receiver?]
    simp only [isPrefixOf?_append, Option.bind_eq_bind, Option.bind_some,
      cut?_append (hc.not_mem (show isWord '>' = false by decide)), literal?_quotable hs,
      isSuffixOf?_append, String.ofList_toList, Option.pure_def]
  rw [expression?, htext, if_pos (by simp), hread]
  rfl

theorem instruction?_receive {className signature : String} (hc : IsWordName className)
    (hs : IsQuotable signature) :
    instruction? (Statement.receive className signature).text =
      some (Statement.receive className signature).instruction := by
  have htext : (Statement.receive className signature).text =
      (DeclaredType.object className).declare "obj" ++ " = " ++ ("checkReceiver<" ++ className ++
        ">(" ++ quoted signature ++ ", receiver)") ++ ";" := by
    rw [Statement.text_receive, ← String.toList_inj]
    simp [DeclaredType.declare, DeclaredType.text]
  rw [htext]
  exact instruction?_declare hc (by decide) (expression?_receiver hc hs)

/-! ### Checks -/

theorem check?_object {name : String} (h : IsWordName name) (rest : List Char) :
    check? (("checkArg<" ++ name ++ ">(").toList ++ (rest ++ ", false)".toList)) =
      some (.object name, rest) := by
  have htext : ("checkArg<" ++ name ++ ">(").toList ++ (rest ++ ", false)".toList) =
      "checkArg<".toList ++ (name.toList ++ '>' :: ("(".toList ++ (rest ++ ", false)".toList))) := by
    simp
  rw [check?, htext, isPrefixOf?_append]
  simp only [Option.bind_eq_bind, Option.bind_some,
    cut?_append (h.not_mem (show isWord '>' = false by decide)), isPrefixOf?_append,
    isSuffixOf?_append, String.ofList_toList, Option.pure_def]

/-- The checks of values are told apart by how their calls begin. -/
theorem valueChecks_spec {start : String} {check : Check} (h : (start, check) ∈ valueChecks)
    (rest : List Char) :
    '(' ∈ start.toList ∧ "checkReceiver<".toList.isPrefixOf? (start.toList ++ rest) = none ∧
      "checkArg<".toList.isPrefixOf? (start.toList ++ rest) = none ∧
      (valueChecks.findSome? fun (start', check) =>
        (start'.toList.isPrefixOf? (start.toList ++ rest)).map fun rest => (check, rest)) =
          some (check, rest) := by
  simp only [valueChecks, List.mem_cons, List.not_mem_nil, or_false, Prod.mk.injEq] at h
  rcases h with ⟨rfl, rfl⟩ | ⟨rfl, rfl⟩ | ⟨rfl, rfl⟩ <;> simp [valueChecks, List.isPrefixOf?]

theorem check?_value {start : String} {check : Check} (h : (start, check) ∈ valueChecks)
    (rest : List Char) : check? (start.toList ++ (rest ++ ")".toList)) = some (check, rest) := by
  obtain ⟨-, -, hobject, hfind⟩ := valueChecks_spec h (rest ++ ")".toList)
  rw [check?, hobject]
  simp only [hfind, Option.bind_eq_bind, Option.bind_some, isSuffixOf?_append, Option.pure_def]

/-- A call that begins with `start` and ends with `more` makes the check `check`. -/
structure Makes (start more : String) (check : Check) : Prop where
  paren : '(' ∈ start.toList
  receiver : ∀ rest, "checkReceiver<".toList.isPrefixOf? (start.toList ++ rest) = none
  check : ∀ rest : List Char, check? (start.toList ++ (rest ++ more.toList)) = some (check, rest)

theorem makes_object {name : String} (h : IsWordName name) :
    Makes ("checkArg<" ++ name ++ ">(") ", false)" (.object name) where
  paren := by simp
  receiver rest := by simp [List.isPrefixOf?]
  check := check?_object h

theorem makes_value {start : String} {check : Check} (h : (start, check) ∈ valueChecks) :
    Makes start ")" check where
  paren := (valueChecks_spec h []).1
  receiver rest := (valueChecks_spec h rest).2.1
  check := check?_value h

theorem expression?_checked {start more : String} {check : Check} (h : Makes start more check)
    {signature : String} (hs : IsQuotable signature) (label : String) (index : Nat)
    (source : String) :
    expression? (start ++ commaList [quoted signature, quoted (escape label), toString index,
      source] ++ more).toList = some (.checked check signature label index source) := by
  have htext : (start ++ commaList [quoted signature, quoted (escape label), toString index,
      source] ++ more).toList = start.toList ++ (("\"".toList ++ (signature.toList ++ '"' ::
        (", \"".toList ++ (escapeChars label.toList ++ '"' :: (", ".toList ++
          ((toString index).toList ++ ',' :: (" ".toList ++ source.toList))))))) ++
            more.toList) := by
    simp [commaList, quoted, escape]
  have hindex : ',' ∉ (toString index).toList := (isWordName_toString index).not_mem (by decide)
  have hread : checked? (start ++ commaList [quoted signature, quoted (escape label),
      toString index, source] ++ more).toList =
        some (.checked check signature label index source) := by
    rw [checked?, htext, h.check]
    simp only [Option.bind_eq_bind, Option.bind_some, isPrefixOf?_append, literal?_quotable hs,
      literal?_escapeChars, cut?_append hindex, number?_toString, String.ofList_toList,
      Option.pure_def]
  have hreceiver : receiver? (start ++ commaList [quoted signature, quoted (escape label),
      toString index, source] ++ more).toList = none := by
    rw [receiver?, htext, h.receiver]
    rfl
  have hparen : '(' ∈ (start ++ commaList [quoted signature, quoted (escape label),
      toString index, source] ++ more).toList := by
    rw [htext]
    exact List.mem_append_left _ h.paren
  rw [expression?, if_pos hparen, hreceiver, hread]
  rfl

/-- The line of an argument is read as its conversion. -/
theorem instruction?_unbox {m : Member} {shown : String} {a : Argument} {u : Unboxing}
    (h : m.unboxing shown a = .ok u) (hs : IsQuotable shown) :
    instruction? (Statement.unbox u).text = some (Statement.unbox u).instruction := by
  have htarget : IsWordName a.typedName := isWordName_typedName a
  have hvalue : a.declaredType.IsLocal ∧ u.type = a.declaredType ∧ u.target = a.typedName ∧
      expression? u.expression.toList = some u.value := by
    rw [Member.unboxing] at h
    cases ht : a.declaredType with
    | void | bool | unsupported => simp [ht, Check.ofType?, Member.fail] at h
    | value =>
      simp only [ht, Check.ofType?, Except.ok.injEq] at h
      subst h
      exact ⟨trivial, rfl, rfl, expression?_named (isWordName_rawName a)⟩
    | int =>
      simp only [ht, Check.ofType?, Except.ok.injEq] at h
      subst h
      have hmakes : Makes "checkInt(" ")" .int := makes_value (by decide)
      exact ⟨trivial, rfl, rfl, expression?_checked hmakes hs _ _ _⟩
    | double =>
      simp only [ht, Check.ofType?, Except.ok.injEq] at h
      subst h
      have hmakes : Makes "checkDouble(" ")" .double := makes_value (by decide)
      exact ⟨trivial, rfl, rfl, expression?_checked hmakes hs _ _ _⟩
    | string =>
      simp only [ht, Check.ofType?, Except.ok.injEq] at h
      subst h
      have hmakes : Makes "checkString(" ")" .string := makes_value (by decide)
      exact ⟨trivial, rfl, rfl, expression?_checked hmakes hs _ _ _⟩
    | object name =>
      simp only [ht, Check.ofType?, Except.ok.injEq] at h
      subst h
      have hname : IsWordName name := isWordName_of_ofText ht
      refine ⟨hname, rfl, rfl, ?_⟩
      have htext : "checkArg<" ++ name ++ ">(" ++ commaList ([quoted shown,
          quoted (escape a.shownName), toString (m.errorIndex a), a.rawName] ++ ["false"]) ++ ")" =
          "checkArg<" ++ name ++ ">(" ++ commaList [quoted shown, quoted (escape a.shownName),
            toString (m.errorIndex a), a.rawName] ++ ", false)" := by
        rw [commaList_concat, if_neg (List.cons_ne_nil _ _), ← String.toList_inj]
        simp
      exact (congrArg (fun text => expression? text.toList) htext).trans
        (expression?_checked (makes_object hname) hs _ _ _)
  obtain ⟨hlocal, htype, hname, hexpr⟩ := hvalue
  rw [Statement.text_unbox, Statement.instruction, htype, hname]
  exact instruction?_declare hlocal htarget hexpr

/-! ### Calls and results -/

/-- A native call begins with what it is made on. -/
theorem exists_front_nativeCall {m : Member} (h : m.HasWordNames) : ∃ front d,
    front ++ [d] <+: m.nativeCall.text.toList ∧ d ∈ [':', '-', 's'] ∧
      ∀ c ∈ ['(', '<', ' '], c ∉ front ++ [d] := by
  have howner : ∀ c ∈ ['(', '<', ' '], c ∉ m.owner.name.toList ++ [':'] := by
    intro c hc
    have hall : ∀ c ∈ ['(', '<', ' '], isWord c = false ∧ c ≠ ':' := by decide
    simp [h.owner.not_mem (hall c hc).1, (hall c hc).2]
  have htext : m.callee.text.toList <+: m.nativeCall.text.toList := by
    rw [NativeCall.text]
    simp [Member.nativeCall]
  rw [Member.callee] at htext
  split at htext
  · refine ⟨m.owner.name.toList, ':', List.IsPrefix.trans ?_ htext, by decide, howner⟩
    simp [Callee.text]
  · cases hr : m.owner.role with
    | ordinary =>
      rw [hr] at htext
      have hobject : "obj".toList ++ ['-'] <+: Callee.receiver.text.toList := by decide
      exact ⟨"obj".toList, '-', hobject.trans htext, by decide, by decide⟩
    | number =>
      rw [hr] at htext
      refine ⟨m.owner.name.toList, ':', List.IsPrefix.trans ?_ htext, by decide, howner⟩
      simp [Callee.text]
    | null =>
      rw [hr] at htext
      refine ⟨[], 's', List.IsPrefix.trans ?_ htext, by decide, by decide⟩
      simp [Callee.text]

theorem isPrefixOf?_nativeCall {m : Member} (h : m.HasWordNames) (start : String)
    (hstart : ([':', '-', 's'].all (· ∉ start.toList) &&
      ['(', '<', ' '].any (· ∈ start.toList)) = true) (rest : List Char) :
    start.toList.isPrefixOf? (m.nativeCall.text.toList ++ rest) = none := by
  simp only [Bool.and_eq_true, List.all_eq_true, List.any_eq_true, decide_eq_true_eq] at hstart
  obtain ⟨front, d, hfront, hd, hnot⟩ := exists_front_nativeCall h
  obtain ⟨hlast, c, hc, hmem⟩ := hstart
  exact isPrefixOf?_eq_none (hfront.trans (List.prefix_append _ rest)) (hlast d hd) hmem (hnot c hc)

theorem expression?_native {m : Member} (h : m.HasWordNames) :
    expression? m.nativeCall.text.toList = some (.native m.nativeCall) := by
  have hnone : ∀ start ∈ ["checkReceiver<", "checkArg<", "checkString(", "checkDouble(",
      "checkInt("], start.toList.isPrefixOf? m.nativeCall.text.toList = none := by
    intro start hstart
    have hrest := isPrefixOf?_nativeCall h start (by revert start; decide) []
    rwa [List.append_nil] at hrest
  simp only [List.forall_mem_cons] at hnone
  obtain ⟨hreceiver, hobject, hstring, hdouble, hint, -⟩ := hnone
  have hcheck : check? m.nativeCall.text.toList = none := by
    rw [check?, hobject]
    simp only [valueChecks, List.findSome?_cons, List.findSome?_nil, hstring, hdouble, hint,
      Option.map_none, Option.bind_eq_bind, Option.bind_none]
  have hchecked : checked? m.nativeCall.text.toList = none := by
    rw [checked?, hcheck]
    rfl
  have hparen : '(' ∈ m.nativeCall.text.toList := by
    rw [NativeCall.text]
    simp
  rw [expression?, if_pos hparen, receiver?, hreceiver, hchecked, nativeCall?_text h]
  rfl

/-- A native call is neither a declaration nor the start of a block. -/
theorem not_mem_nativeCall {m : Member} (h : m.HasWordNames) {c : Char}
    (hc : c ∈ ['=', '\x7b']) : c ∉ m.nativeCall.text.toList := by
  have hall : ∀ c ∈ ['=', '\x7b'], isWord c = false ∧ c ≠ ',' ∧ c ≠ ' ' ∧
      c ∉ "()::Instance()->static_cast< *>(nullptr)->obj->".toList := by
    decide
  obtain ⟨hword, hcomma, hspace, hother⟩ := hall c hc
  have howner := h.owner.not_mem hword
  have hmethod := h.method.not_mem hword
  have hargs := (areNames_nativeCall m).not_mem hword hcomma hspace
  have hcallee : c ∉ m.callee.text.toList := by
    simp at hother
    rw [Member.callee]
    split
    · simp [Callee.text, howner, hother]
    · cases m.owner.role <;> simp [Callee.text, howner, hother]
  simp at hother
  rw [NativeCall.text]
  simp [Member.nativeCall, hcallee, hmethod, hother] at hargs ⊢
  exact hargs

theorem instruction?_perform {m : Member} (h : m.HasWordNames) :
    instruction? (Statement.perform m.nativeCall).text =
      some (Statement.perform m.nativeCall).instruction := by
  have htext : (Statement.perform m.nativeCall).text.toList =
      m.nativeCall.text.toList ++ ";".toList := by
    simp [Statement.text_perform]
  have hnot : ∀ c ∈ ['=', '\x7b'], c ∉ m.nativeCall.text.toList ++ ";".toList := by
    intro c hc
    rw [List.mem_append, not_or]
    refine ⟨not_mem_nativeCall h hc, ?_⟩
    revert c
    decide
  have hcollect : collect? (m.nativeCall.text.toList ++ ";".toList) = none := by
    rw [collect?, isPrefixOf?_eq_none_of_not_mem (c := '\x7b') (by decide) (hnot _ (by decide))]
    rfl
  have hreturn : return? (m.nativeCall.text.toList ++ ";".toList) = none := by
    rw [return?, isPrefixOf?_nativeCall h "return " (by decide)]
    rfl
  rw [instruction?, htext, if_neg (hnot _ (by decide)), hcollect, hreturn, perform?,
    isSuffixOf?_append, Option.bind_eq_bind, Option.bind_some, nativeCall?_text h]
  rfl

theorem instruction?_boxing {m : Member} (h : m.HasWordNames) {b : Boxing}
    (hb : m.boxing = .ok b) {s : Statement} (hs : s ∈ b.statements m.nativeCall) :
    instruction? s.text = some s.instruction := by
  have hreturn : ∀ rule : BoxRule, instruction? (Statement.returnBoxed rule).text =
      some (Statement.returnBoxed rule).instruction := by
    intro rule
    cases rule <;> decide +kernel
  cases ht : DeclaredType.ofText m.method.returnType with
  | unsupported other => simp [Member.boxing, ht, Boxing.ofType?, Member.fail] at hb
  | void =>
    simp only [Member.boxing, ht, Boxing.ofType?, Except.ok.injEq] at hb
    subst hb
    rcases List.mem_pair.1 hs with rfl | rfl
    · exact instruction?_perform h
    · decide +kernel
  | value | bool | int | double | string =>
    simp only [Member.boxing, ht, Boxing.ofType?, Except.ok.injEq] at hb
    subst hb
    rcases List.mem_pair.1 hs with rfl | rfl
    · exact instruction?_declare trivial (by decide) (expression?_native h)
    · exact hreturn _
  | object name =>
    simp only [Member.boxing, ht, Boxing.ofType?, Except.ok.injEq] at hb
    subst hb
    rcases List.mem_pair.1 hs with rfl | rfl
    · exact instruction?_declare (isWordName_of_ofText ht) (by decide) (expression?_native h)
    · exact hreturn _

/-! ### Collections and forwarded calls -/

theorem instruction?_collect {roots : List String} (h : AreNames roots) :
    instruction? (Statement.collect roots).text = some (Statement.collect roots).instruction := by
  have htext : (Statement.collect roots).text.toList = "WrenRuntime::Instance().RunGC(\x7b".toList ++
      ((commaList roots).toList ++ "\x7d);".toList) := by
    simp [Statement.text_collect, braced]
  have hequals : '=' ∉ (Statement.collect roots).text.toList := by
    rw [htext]
    simp [h.not_mem (show isWord '=' = false by decide) (by decide) (by decide)]
  have hread : collect? (Statement.collect roots).text.toList = some (.collect roots) := by
    rw [collect?, htext]
    simp only [isPrefixOf?_append, isSuffixOf?_append, Option.bind_eq_bind, Option.bind_some,
      nameList_commaList h.isListed, Option.pure_def]
  rw [instruction?, if_neg hequals, hread]
  rfl

theorem forward?_eq {target : String} {args packed : List String} (ht : IsWordName target)
    (ha : AreNames args) (hp : AreNames packed) :
    forward? (target.toList ++ '(' :: ((commaList (args ++ [braced packed])).toList ++ [')'])) =
      some (.forward target args packed) := by
  have hlist : (commaList (args ++ [braced packed])).toList ++ [')'] =
      (if args = [] then "" else commaList args ++ ", ").toList ++ '\x7b' ::
        ((commaList packed).toList ++ "\x7d)".toList) := by
    rw [commaList_concat]
    simp [braced]
  have hfront : '\x7b' ∉ (if args = [] then "" else commaList args ++ ", ").toList := by
    split
    · decide
    · simp [ha.not_mem (show isWord '\x7b' = false by decide) (by decide) (by decide)]
  have hargs : nameList ((", ".toList.isSuffixOf? (if args = [] then "" else
      commaList args ++ ", ").toList).getD (if args = [] then "" else
        commaList args ++ ", ").toList) = args := by
    split
    · rename_i hnil
      rw [hnil]
      decide
    · rw [String.toList_append, isSuffixOf?_append, Option.getD_some, nameList_commaList ha.isListed]
  rw [forward?, cut?_append (ht.not_mem (by decide)), Option.bind_eq_bind, Option.bind_some]
  simp only [hlist, cut?_append hfront, isSuffixOf?_append, Option.bind_eq_bind, Option.bind_some,
    hargs, nameList_commaList hp.isListed, String.ofList_toList, Option.pure_def]

theorem instruction?_forward {target : String} {args packed : List String}
    (ht : IsWordName target) (ha : AreNames args) (hp : AreNames packed) :
    instruction? (Statement.forward target args packed).text =
      some (Statement.forward target args packed).instruction := by
  have htext : (Statement.forward target args packed).text.toList = "return ".toList ++
      ((target.toList ++ '(' :: ((commaList (args ++ [braced packed])).toList ++ [')'])) ++
        ";".toList) := by
    simp [Statement.text_forward]
  have hequals : '=' ∉ (Statement.forward target args packed).text.toList := by
    have hlist : '=' ∉ (commaList (args ++ [braced packed])).toList := by
      have hargs := ha.not_mem (show isWord '=' = false by decide) (by decide) (by decide)
      have hpacked := hp.not_mem (show isWord '=' = false by decide) (by decide) (by decide)
      rw [commaList_concat]
      split <;> simp [braced, hargs, hpacked]
    rw [htext]
    simp [ht.not_mem (show isWord '=' = false by decide), hlist]
  have hcollect : collect? (Statement.forward target args packed).text.toList = none := by
    rw [collect?, htext]
    simp [List.isPrefixOf?]
  have hresult : results.lookup (String.ofList (target.toList ++
      '(' :: ((commaList (args ++ [braced packed])).toList ++ [')']))) = none := by
    have hbrace : '\x7b' ∈ (target.toList ++
        '(' :: ((commaList (args ++ [braced packed])).toList ++ [')'])) := by
      rw [commaList_concat]
      simp [braced]
    have hkeys : ∀ pair ∈ results, '\x7b' ∉ pair.1.toList := by decide
    rw [List.lookup_eq_none_iff]
    intro pair hpair
    rw [bne_iff_ne]
    intro heq
    exact hkeys pair hpair (by rw [← heq, String.toList_ofList]; exact hbrace)
  have hreturn : return? (Statement.forward target args packed).text.toList =
      some (.forward target args packed) := by
    rw [return?, htext]
    simp only [isPrefixOf?_append, isSuffixOf?_append, Option.bind_eq_bind, Option.bind_some,
      hresult, Option.none_or, forward?_eq ht ha hp]
  rw [instruction?, if_neg hequals, hcollect, hreturn]
  rfl

end WrenGlue.Bindings
