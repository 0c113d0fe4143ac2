import WrenGlue.Proofs.Bindings.Faults
import WrenGlue.Proofs.Bindings.Names
import WrenGlue.Proofs.Bindings.Signatures
import WrenGlue.Proofs.Cpp.Token

/-! The literals in the functions of a method. Only the lines that check a receiver or an argument
have any. Labels are escaped and so may be any text of one line. All else is pasted as it is, and
never has a quote, a backslash or a line feed in it: names are made of word characters, and
signatures of those, brackets and operators. -/

namespace WrenGlue

open WrenGlue.Bindings WrenGlue.Cpp WrenGlue.Text
open WrenGlue.Header (Argument MethodKind)
open WrenGlue.Wren

/-! ### What is quoted -/

/-- A text that is its own literal. -/
def IsQuotable (text : String) : Prop := ∀ c ∈ text.toList, c ∉ ['"', '\\', '\n']

instance (text : String) : Decidable (IsQuotable text) :=
  inferInstanceAs (Decidable (∀ c ∈ text.toList, c ∉ ['"', '\\', '\n']))

/-- The function that checks values of a type, if there is one. -/
def Cpp.DeclaredType.checker? : DeclaredType → Option String
  | .object name => some ("checkArg<" ++ name ++ ">")
  | .string => some "checkString"
  | .double => some "checkDouble"
  | .int => some "checkInt"
  | .value | .void | .bool | .unsupported _ => none

/-- The line that checks an argument: the method and the argument as run-time errors show them. -/
def Header.Argument.quotation? (a : Argument) (shown : String) : Option Quotation :=
  a.declaredType.checker?.map fun checker =>
    ⟨a.declaredType.declare a.typedName ++ " = " ++ checker ++ "(", [shown, a.shownName]⟩

/-- The line that checks the receiver. -/
def Member.receiverQuotation (m : Member) (shown : String) : Quotation :=
  ⟨m.owner.name ++ " *obj = checkReceiver<" ++ m.owner.name ++ ">(", [shown]⟩

/-- The lines that check what is passed to a method. -/
def Member.checkQuotations (m : Member) : Except BindError (List Quotation) := do
  let shown ← m.shownSignature
  return (if m.takesReceiver then [m.receiverQuotation shown] else []) ++
    m.method.args.filterMap (·.quotation? shown)

/-! ### Texts without quotes -/

theorem isQuotable_append {a b : String} (ha : IsQuotable a) (hb : IsQuotable b) :
    IsQuotable (a ++ b) := by
  intro c hc
  rw [String.toList_append, List.mem_append] at hc
  exact hc.elim (ha c) (hb c)

theorem isQuotable_of_isWordName {name : String} (h : IsWordName name) : IsQuotable name := by
  have hall : ∀ d ∈ ['"', '\\', '\n'], isWord d = false := by decide
  intro c hc hd
  exact h.not_mem (hall c hd) hc

theorem Wren.isQuotable_methodName {native : String} (h : IsWordName native) :
    IsQuotable (methodName native) := by
  have hall : ∀ d ∈ ['"', '\\', '\n'], d.toNat < 128 ∧ isWord d = false := by decide
  intro c hc hd
  rw [methodName, String.toList_ofList] at hc
  obtain ⟨hlt, hword⟩ := hall c hd
  rw [isWord_of_mem_lowerFirst h hc hlt] at hword
  cases hword

theorem Wren.isQuotable_placeholders (n : Nat) : IsQuotable (placeholders n) := by
  induction n with
  | zero => decide
  | succ n ih =>
    cases n with
    | zero => decide
    | succ n =>
      rw [placeholders_succ_succ]
      exact isQuotable_append (by decide) ih

theorem Wren.CallForm.isQuotable_call {name : String} (h : IsQuotable name) (kind : MethodKind)
    (n : Nat) : IsQuotable (call name kind n) := by
  by_cases hk : kind = .getter
  · rw [hk, call_getter]
    exact h
  · rw [call_of_ne_getter hk]
    exact isQuotable_append (isQuotable_append (isQuotable_append h (by decide))
      (isQuotable_placeholders n)) (by decide)

theorem Wren.CallForm.isQuotable_render {native : String} (h : IsWordName native)
    {form : CallForm} (hf : ofNative native = .ok form) (kind : MethodKind) (n : Nat) :
    IsQuotable (form.render kind n) := by
  cases form with
  | subscriptGet =>
    rw [render_subscriptGet]
    exact isQuotable_append (isQuotable_append (by decide) (isQuotable_placeholders n)) (by decide)
  | subscriptSet =>
    rw [render_subscriptSet]
    exact isQuotable_append (isQuotable_append (by decide) (isQuotable_placeholders _)) (by decide)
  | operator op =>
    have hsymbol : IsQuotable op.symbol := by cases op <;> decide
    exact isQuotable_call hsymbol kind n
  | named name =>
    have hname : name = methodName native := by
      rw [ofNative] at hf
      repeat' split at hf
      all_goals cases hf
      rfl
    rw [hname]
    exact isQuotable_call (isQuotable_methodName h) kind n

theorem Cpp.Reads.of_isQuotable {text : String} (h : IsQuotable text) (awaited : List Char) :
    Reads (Cpp.quoted text) [.literal text] awaited awaited := by
  refine .quoted (fun hc => ?_) (fun hc => ?_) (fun hc => ?_) awaited
  · exact h _ hc (by decide)
  · exact h _ hc (by decide)
  · exact h _ hc (by decide)

/-! ### Statements -/

namespace Bindings

theorem isNeutral_declare {type : DeclaredType} (ht : IsNeutral type.text) {name : String}
    (hname : IsNeutral name) : IsNeutral (type.declare name) := by
  have hspace : IsNeutral " " := by decide
  cases type with
  | object className => exact ht.append hname
  | void | value | bool | int | double | string | unsupported =>
    exact (ht.append hspace).append hname

/-- A type that crosses between the runtime and native code is spelled without brackets. -/
theorem isNeutral_ofText {text : String}
    (hu : ∀ other, DeclaredType.ofText text ≠ .unsupported other) :
    IsNeutral (DeclaredType.ofText text).text := by
  cases ht : DeclaredType.ofText text with
  | object className =>
    have hstar : IsNeutral " *" := by decide
    exact IsNeutral.append (.of_wordName (isWordName_of_ofText ht)) hstar
  | unsupported other => exact absurd ht (hu other)
  | void | value | bool | int | double | string => decide

theorem reads_callee {m : Member} (h : IsWordName m.owner.name) :
    Reads m.callee.text (marks m.callee.text) [] [] := by
  have howner : Reads m.owner.name (marks m.owner.name) [] [] := .of_neutral (.of_wordName h) []
  rw [Member.callee]
  split
  · exact howner.append_marks (b := "::") (.of_marks (by decide))
  · cases m.owner.role with
    | ordinary =>
      have hobject : Reads "obj->" (marks "obj->") [] [] := .of_marks (by decide)
      exact hobject
    | number => exact howner.append_marks (b := "::Instance()->") (.of_marks (by decide))
    | null =>
      have hcast : Reads "static_cast<" (marks "static_cast<") [] [] := .of_marks (by decide)
      exact (hcast.append_marks howner).append_marks (b := " *>(nullptr)->")
        (.of_marks (by decide))

theorem isWordName_typedName (a : Argument) : IsWordName a.typedName := by
  have hfront : IsWordName "typedArg" := by decide
  exact hfront.append (isWordName_toString _)

theorem isWordName_rawName (a : Argument) : IsWordName a.rawName := by
  have hfront : IsWordName "arg" := by decide
  exact hfront.append (isWordName_toString _)

theorem reads_nativeCall {m : Member} (h : m.HasWordNames) :
    Reads m.nativeCall.text (marks m.nativeCall.text) [] [] := by
  have hmethod : Reads m.method.name (marks m.method.name) [] [] :=
    .of_neutral (.of_wordName h.method) []
  have hargs : ∀ name ∈ m.nativeCall.args, IsNeutral name := by
    intro name hname
    rw [Member.nativeCall, List.mem_append, List.mem_map] at hname
    rcases hname with ⟨a, -, rfl⟩ | hname
    · exact .of_wordName (isWordName_typedName a)
    · split at hname
      · rw [List.mem_singleton.1 hname]
        decide
      · cases hname
  exact ((((reads_callee h.owner).append_marks hmethod).append_marks (.openRound [])).append_marks
    (.neutralList hargs [')'])).append_marks (.closeRound [])

theorem readsLines_perform {m : Member} (h : m.HasWordNames) :
    ReadsLines [(Statement.perform m.nativeCall).text] [] [] [] :=
  .of_marks ((reads_nativeCall h).append_marks (b := ";") (.of_marks (by decide)))

theorem readsLines_store {m : Member} (h : m.HasWordNames) {type : DeclaredType}
    (ht : IsNeutral type.text) :
    ReadsLines [(Statement.store type m.nativeCall).text] [] [] [] := by
  have hname : IsNeutral "ret" := by decide
  have hdeclare : Reads (type.declare "ret") (marks (type.declare "ret")) [] [] :=
    .of_neutral (isNeutral_declare ht hname) []
  have hequals : Reads " = " (marks " = ") [] [] := .of_marks (by decide)
  exact .of_marks (((hdeclare.append_marks hequals).append_marks (reads_nativeCall h)).append_marks
    (b := ";") (.of_marks (by decide)))

theorem readsLines_boxing {m : Member} (h : m.HasWordNames) {b : Boxing}
    (hb : m.boxing = .ok b) :
    ReadsLines ((b.statements m.nativeCall).map Statement.text) [] [] [] := by
  rcases Member.eq_of_boxing hb with rfl | ⟨⟨rule, rfl⟩, hu⟩
  · exact (readsLines_perform h).append (.of_marks (.of_marks (by decide)))
  · have hreturn : ReadsLines [(Statement.returnBoxed rule).text] [] [] [] := by
      cases rule <;> exact .of_marks (.of_marks (by decide +kernel))
    exact (readsLines_store h (isNeutral_ofText hu)).append hreturn

theorem readsLines_receive {m : Member} (h : IsWordName m.owner.name) {shown : String}
    (hs : IsQuotable shown) : ReadsLines [(Statement.receive m.owner.name shown).text]
      [m.receiverQuotation shown] [] [] := by
  have howner : Reads m.owner.name (marks m.owner.name) [] [] := .of_neutral (.of_wordName h) []
  have hkeep : Reads " *obj = checkReceiver<" (marks " *obj = checkReceiver<") [] [] :=
    .of_marks (by decide)
  have hopen : Reads ">(" (marks ">(") [] [')'] := .of_marks (by decide)
  have hend : Reads ", receiver);" (marks ", receiver);") [')'] [] := .of_marks (by decide)
  have hfront := ((howner.append_marks hkeep).append_marks howner).append_marks hopen
  have hline := (hfront.append (.of_isQuotable hs [')'])).append hend
  rw [List.append_assoc, List.singleton_append] at hline
  have hquotes := ReadsLines.of_quotes hline
  rw [literals_marks] at hquotes
  exact hquotes

theorem readsLines_collectFirst (options : Options) {roots : List String}
    (h : ∀ name ∈ roots, IsNeutral name) :
    ReadsLines ((collectFirst options roots).map Statement.text) [] [] [] := by
  have hbefore : Reads "WrenRuntime::Instance().RunGC(" (marks "WrenRuntime::Instance().RunGC(") []
      [')'] := .of_marks (by decide)
  rw [collectFirst]
  split
  · exact .of_marks ((hbefore.append_marks (.braced h [')'])).append_marks .endCall)
  · exact .nil []

/-- What a check is given behind the two literals. -/
def checkTail (a : Argument) (index : Nat) (more : String) : String :=
  ", " ++ toString index ++ ", " ++ a.rawName ++ more ++ ");"

theorem readsLines_check {declared checker shown more : String} {a : Argument} (index : Nat)
    (hd : IsNeutral declared) (hc : IsNeutral checker) (hs : IsQuotable shown)
    (hl : '\n' ∉ a.shownName.toList) (hm : IsNeutral more) :
    ReadsLines [declared ++ " = " ++ checker ++ "(" ++ quoted shown ++ ", " ++
        quoted (escape a.shownName) ++ checkTail a index more]
      [⟨declared ++ " = " ++ checker ++ "(", [shown, a.shownName]⟩] [] [] := by
  have hequals : IsNeutral " = " := by decide
  have hcomma : IsNeutral ", " := by decide
  have hfront := (Reads.of_neutral ((hd.append hequals).append hc) []).append_marks (.openRound [])
  have hindex : IsNeutral (toString index) := .of_wordName (isWordName_toString index)
  have hraw : IsNeutral a.rawName := .of_wordName (isWordName_rawName a)
  have htail : Reads (checkTail a index more) (marks (checkTail a index more)) [')'] [] :=
    (Reads.of_neutral ((((hcomma.append hindex).append hcomma).append hraw).append hm)
      [')']).append_marks .endCall
  have hline := (((hfront.append (.of_isQuotable hs [')'])).append
    (.of_neutral hcomma [')'])).append (.quoted_escape hl [')'])).append htail
  rw [List.append_assoc, List.append_assoc, List.append_assoc, List.singleton_append] at hline
  have hquotes := ReadsLines.of_quotes hline
  have hliterals : literals (marks ", " ++ ([.literal a.shownName] ++
      marks (checkTail a index more))) = [a.shownName] := by
    rw [literals_append, literals_marks, literals_append, literals_marks]
    rfl
  rw [hliterals] at hquotes
  exact hquotes

theorem isNeutral_checker {a : Argument} {checker : String}
    (h : a.declaredType.checker? = some checker) : IsNeutral checker := by
  cases ht : a.declaredType with
  | object name =>
    rw [ht] at h
    obtain rfl := Option.some.inj h
    have hfront : IsNeutral "checkArg<" := by decide
    have hback : IsNeutral ">" := by decide
    exact (hfront.append (.of_wordName (isWordName_of_ofText ht))).append hback
  | string | double | int =>
    rw [ht] at h
    obtain rfl := Option.some.inj h
    decide
  | value | void | bool | unsupported =>
    rw [ht] at h
    cases h

/-- The line of an argument calls the function that checks its type, if there is one. -/
theorem text_unbox_eq {m : Member} {shown : String} {a : Argument} {u : Unboxing}
    (h : m.unboxing shown a = .ok u) : (a.declaredType.checker? = none ∧
      (Statement.unbox u).text = a.declaredType.declare a.typedName ++ " = " ++ a.rawName ++ ";") ∨
    ∃ checker more, a.declaredType.checker? = some checker ∧ IsNeutral more ∧
      (Statement.unbox u).text = a.declaredType.declare a.typedName ++ " = " ++ checker ++ "(" ++
        quoted shown ++ ", " ++ quoted (escape a.shownName) ++
          checkTail a (m.errorIndex a) more := by
  rw [Member.unboxing] at h
  cases ht : a.declaredType with
  | void | bool | unsupported => simp [ht, Check.ofType?, Member.fail] at h
  | value =>
    simp only [ht, Check.ofType?, Except.ok.injEq] at h
    exact .inl ⟨rfl, by rw [← h]; rfl⟩
  | string | double | int =>
    simp only [ht, Check.ofType?, Except.ok.injEq] at h
    refine .inr ⟨_, "", rfl, by decide, ?_⟩
    rw [← h, ← String.toList_inj]
    simp [Statement.text_unbox, Unboxing.expression, Unboxing.details, commaList, checkTail]
  | object name =>
    -- The check of an object has one more argument, which is the same for all objects.
    simp only [ht, Check.ofType?, Except.ok.injEq] at h
    refine .inr ⟨_, ", false", rfl, by decide, ?_⟩
    rw [← h, ← String.toList_inj]
    simp [Statement.text_unbox, Unboxing.expression, Unboxing.details, commaList, checkTail]

/-- The line of an argument has the two literals that it should, or none for a value that is not
checked. -/
theorem readsLines_unbox {m : Member} {shown : String} {a : Argument} {u : Unboxing}
    (h : m.unboxing shown a = .ok u) (hs : IsQuotable shown) (hl : '\n' ∉ a.shownName.toList) :
    ReadsLines [(Statement.unbox u).text] (a.quotation? shown).toList [] [] := by
  have htype : IsNeutral a.declaredType.text := isNeutral_ofText (Member.supported_of_unboxing h)
  have hdeclare : IsNeutral (a.declaredType.declare a.typedName) :=
    isNeutral_declare htype (.of_wordName (isWordName_typedName a))
  rcases text_unbox_eq h with ⟨hnone, htext⟩ | ⟨checker, more, hsome, hmore, htext⟩
  · have hequals : IsNeutral " = " := by decide
    have hend : IsNeutral ";" := by decide
    have hraw : IsNeutral a.rawName := .of_wordName (isWordName_rawName a)
    rw [htext, Argument.quotation?, hnone]
    exact .of_marks (.of_neutral (((hdeclare.append hequals).append hraw).append hend) [])
  · rw [htext, Argument.quotation?, hsome]
    exact readsLines_check _ hdeclare (isNeutral_checker hsome) hs hl hmore

/-! ### Functions -/

theorem isNeutral_param {p : Param} (h : IsNeutral p.name) : IsNeutral p.text := by
  cases p with
  | value name =>
    have hfront : IsNeutral "Value " := by decide
    exact hfront.append h
  | list name =>
    have hfront : IsNeutral "const std::initializer_list<Value> &" := by decide
    exact hfront.append h

/-- The head of a function from values to a value. -/
theorem reads_functionHead {name : String} (hn : IsNeutral name) {params : List String}
    (hp : ∀ param ∈ params, IsNeutral param) :
    Reads ("static Value " ++ name ++ "(" ++ commaList params ++ ")" ++ " \x7b")
      (marks ("static Value " ++ name ++ "(" ++ commaList params ++ ")" ++ " \x7b")) []
      ['\x7d'] := by
  have htype : IsNeutral "static Value " := by decide
  have hname := (Reads.of_neutral (htype.append hn) []).append_marks (.openRound [])
  exact ((hname.append_marks (.neutralList hp [')'])).append_marks (.closeRound [])).append_marks
    .openBody

theorem readsLines_function {f : Function} {quotes : List Quotation} (hn : IsNeutral f.name)
    (hp : ∀ p ∈ f.params, IsNeutral p.name)
    (hbody : ReadsLines (f.body.map Statement.text) quotes [] []) :
    ReadsLines f.code.lines quotes [] [] := by
  rw [lines_function]
  exact .block_marks (reads_functionHead hn
    (List.forall_mem_map.2 fun p hm => isNeutral_param (hp p hm))) hbody

theorem isNeutral_fixedParams (m : Member) : ∀ name ∈ m.fixedParams, IsNeutral name :=
  fun name hname => .of_wordName (fixedParams_spec m name hname).2

/-- A forwarder has no literals. -/
theorem readsLines_forwarder {options : Options} {target : String} (ht : IsWordName target)
    (m : Member) (count : Nat) :
    ReadsLines (forwarder options target m.fixedParams count).code.lines [] [] [] := by
  have hvalues : ∀ name ∈ numbered "va" count, IsNeutral name := fun name hname =>
    .of_wordName (isWordName_numbered (by decide) count name hname)
  have hall : ∀ name ∈ m.fixedParams ++ numbered "va" count, IsNeutral name :=
    List.forall_mem_append.2 ⟨isNeutral_fixedParams m, hvalues⟩
  have hargs : ∀ item ∈ m.fixedParams ++ [braced (numbered "va" count)],
      Reads item (marks item) [')'] [')'] :=
    List.forall_mem_append.2 ⟨fun name hname => .of_neutral (isNeutral_fixedParams m name hname) _,
      List.forall_mem_singleton.2 (.braced hvalues [')'])⟩
  have hreturn : IsNeutral "return " := by decide
  have hforward : ReadsLines [(Statement.forward target m.fixedParams (numbered "va" count)).text]
      [] [] [] :=
    .of_marks ((((Reads.of_neutral (hreturn.append (.of_wordName ht)) []).append_marks
      (.openRound [])).append_marks (.commaList hargs)).append_marks .endCall)
  refine readsLines_function (.of_wordName (Member.IsBinding.isWordName_forwarderName ht count))
    ?_ ?_
  · rw [forwarder, List.forall_mem_map]
    exact hall
  · rw [forwarder, List.map_append]
    exact (readsLines_collectFirst options hall).append hforward

theorem readsLines_unboxings {m : Member} {shown : String} (hs : IsQuotable shown)
    {args : List Argument} {us : List Unboxing}
    (h : List.Forall₂ (fun a u => m.unboxing shown a = .ok u) args us)
    (hl : ∀ a ∈ args, '\n' ∉ a.shownName.toList) :
    ReadsLines ((us.map Statement.unbox).map Statement.text)
      (args.filterMap (·.quotation? shown)) [] [] := by
  induction h with
  | nil => exact .nil []
  | @cons a u args us hu _ ih =>
    rw [List.forall_mem_cons] at hl
    have hline := (readsLines_unbox hu hs hl.1).append (ih hl.2)
    rw [List.filterMap_cons]
    cases hq : a.quotation? shown <;> simpa [hq] using hline

end Bindings

namespace Member

variable {m : Member} {options : Options} {b : MethodBinding}

theorem isQuotable_shownSignature (hm : m.HasWordNames) {shown : String}
    (h : m.shownSignature = .ok shown) : IsQuotable shown := by
  obtain ⟨signature, hsignature, h⟩ := bind_eq_ok.1 h
  obtain ⟨form, arity, hshape, rfl⟩ := signatureWith_eq_ok.1 hsignature
  cases h
  have hform := callForm_eq_ok.1 (callShape_eq_ok.1 hshape).1
  exact isQuotable_append (isQuotable_append (isQuotable_of_isWordName hm.owner) (by decide))
    (CallForm.isQuotable_render hm.method hform _ _)

/-- The functions of a method quote what its checks should, and nothing else. -/
theorem exists_checkQuotations (h : m.binding options = .ok b) (hm : m.HasWordNames)
    (hl : ∀ a ∈ m.method.args, '\n' ∉ a.shownName.toList) : ∃ quotes,
      m.checkQuotations = .ok quotes ∧ ReadsLines b.code.lines quotes [] [] := by
  obtain ⟨form, arity, hbinding⟩ := exists_isBinding h
  obtain ⟨shown, unboxings, boxing, hshown, hunboxings, hboxing, hbody⟩ := hbinding.body
  have hs := isQuotable_shownSignature hm hshown
  have htarget := IsBinding.isWordName_trampolineName hm arity
  refine ⟨(if m.takesReceiver then [m.receiverQuotation shown] else []) ++
    m.method.args.filterMap (·.quotation? shown), ?_, ?_⟩
  · rw [checkQuotations, hshown]
    rfl
  have hreceive : ReadsLines
      ((if m.takesReceiver then [.receive m.owner.name shown] else []).map Statement.text)
      (if m.takesReceiver then [m.receiverQuotation shown] else []) [] [] := by
    split
    · exact readsLines_receive hm.owner hs
    · exact .nil []
  have htrampoline : ReadsLines b.trampoline.code.lines
      ((if m.takesReceiver then [m.receiverQuotation shown] else []) ++
        m.method.args.filterMap (·.quotation? shown)) [] [] := by
    refine readsLines_function ?_ ?_ ?_
    · rw [hbinding.name]
      exact .of_wordName htarget
    · rw [hbinding.params]
      exact fun p hp => .of_wordName (IsBinding.isWordName_params m p hp)
    · have hall := (((readsLines_collectFirst options (isNeutral_fixedParams m)).append
        hreceive).append (readsLines_unboxings hs (forall₂_of_mapM_eq_ok hunboxings) hl)).append
        (readsLines_boxing hm hboxing)
      rw [hbody, List.map_append, List.map_append, List.map_append]
      simpa using hall
  have hforwarders : ReadsLines (b.forwarders.flatMap fun f => f.code.lines) [] [] [] := by
    refine .flatMap_nil fun f hf => ?_
    rw [hbinding.forwarders] at hf
    split at hf
    · obtain ⟨count, -, rfl⟩ := List.mem_map.1 hf
      exact readsLines_forwarder htarget m count
    · cases hf
  have hlines : b.code.lines = b.trampoline.code.lines ++
      b.forwarders.flatMap fun f => f.code.lines := by
    rw [MethodBinding.code, Code.lines_flatMap, MethodBinding.functions, List.flatMap_cons]
  have hall := htrampoline.append hforwarders
  rw [List.append_nil] at hall
  rw [hlines]
  exact hall

end Member

namespace Member.IsBinding

theorem isQuotable_signature {m : Member} {options : Options} {form : CallForm} {arity : Nat}
    {b : MethodBinding} (h : m.IsBinding options form arity b) (hm : m.HasWordNames)
    {r : Registration} (hr : r ∈ b.registrations) : IsQuotable r.signature := by
  have hform := callForm_eq_ok.1 (callShape_eq_ok.1 h.callShape).1
  rw [h.registrations] at hr
  split at hr
  · obtain ⟨extra, -, rfl⟩ := List.mem_map.1 hr
    exact CallForm.isQuotable_render hm.method hform _ _
  · rw [List.mem_singleton.1 hr]
    exact CallForm.isQuotable_render hm.method hform _ _

end Member.IsBinding

end WrenGlue
