import WrenGlue.Proofs.Header.ArgumentRun
import Mathlib.Data.Option.Basic

/-! How the lines of a header may be written: a class heading, a method declaration, or a line with
nothing but a comment. White space may stand between all their parts. A line written so is read as
what it was written for. -/

namespace WrenGlue.Header

open WrenGlue.Text
open WrenGlue.Cpp (DeclaredType bindablePrefix)

/-- The words of a return type as written. -/
inductive BaseText : (type text : List Char) → Prop
  | plain {base : List Char} : base ≠ [] → (∀ c ∈ base, isTypeChar c = true) → BaseText base base
  | const {base gap : List Char} :
      base ≠ [] → (∀ c ∈ base, isTypeChar c = true) → gap ≠ [] → isBlank gap = true →
      BaseText ("const".toList ++ ' ' :: base) ("const".toList ++ gap ++ base)

/-- A return type as written, up to the name behind it. -/
inductive ReturnText : (type text : List Char) → Prop
  | spaced {type text gap : List Char} :
      BaseText type text → gap ≠ [] → isBlank gap = true → ReturnText type (text ++ gap)
  | sigil {type text before after : List Char} {c : Char} :
      BaseText type text → c = '*' ∨ c = '&' → isBlank before = true → isBlank after = true →
      ReturnText (type ++ [c]) (text ++ before ++ c :: after)

/-- What stands in front of a return type. -/
inductive SpecifierText : Qualifiers → List Char → Prop
  | none : SpecifierText {} []
  | static {gap : List Char} :
      gap ≠ [] → isBlank gap = true → SpecifierText { isStatic := true } ("static".toList ++ gap)
  | virtual {gap : List Char} :
      gap ≠ [] → isBlank gap = true → SpecifierText { isVirtual := true } ("virtual".toList ++ gap)

/-- Everything between the kind of a method and its arguments. -/
inductive HeadText : Qualifiers → (type name text : List Char) → Prop
  | intro {qualifiers : Qualifiers} {type name before specifiers typeText after : List Char} :
      isBlank before = true → SpecifierText qualifiers specifiers → ReturnText type typeText →
      name ≠ [] → (∀ c ∈ name, isWord c = true) → isBlank after = true →
      HeadText qualifiers type name (before ++ specifiers ++ typeText ++ name ++ after)

/-- A word that may be left out, with the white space behind it. -/
inductive OptionalText (word : String) : (present : Bool) → List Char → Prop
  | absent : OptionalText word false []
  | present {gap : List Char} : isBlank gap = true → OptionalText word true (word.toList ++ gap)

/-- Everything behind the arguments of a method. -/
inductive TrailerText : (isConst isOverride : Bool) → List Char → Prop
  | intro {isConst isOverride : Bool} {gap constText overrideText : List Char} :
      isBlank gap = true → OptionalText "const" isConst constText →
      OptionalText "override" isOverride overrideText →
      TrailerText isConst isOverride (gap ++ constText ++ (overrideText ++ [';']))

/-- The parts with nothing left of the white space around the kind and in the return type. -/
def MethodText.normalized (parts : MethodText) : MethodText :=
  { parts with
    kind := Text.trim parts.kind
    returnType := DeclaredType.normalizeChars parts.returnType }

/-- `parts` are the parts of a method line as they stand in it. Each is taken from its place in the
line, with the white space that belongs to it. -/
inductive MethodText.Cuts : (parts : MethodText) → (line : List Char) → Prop
  | intro {kind before specifiers type returnType name after args trailer : List Char}
      {qualifiers : Qualifiers} {isConst isOverride : Bool} :
      ')' ∉ kind → isBlank before = true → SpecifierText qualifiers specifiers →
      ReturnText type returnType → name ≠ [] → (∀ c ∈ name, isWord c = true) →
      isBlank after = true → ArgumentRun args → TrailerText isConst isOverride trailer →
      Cuts ⟨kind, { qualifiers with isConst, isOverride }, returnType, name, args⟩
        ("WREN_METHOD(".toList ++ (kind ++ ')' ::
          (before ++ specifiers ++ returnType ++ name ++ after ++ '(' :: (args ++ ')' :: trailer))))

/-- The kind of a method as it is written. -/
def MethodKind.word : MethodKind → String
  | .plain => ""
  | .getter => "getter"
  | .variadic => "variadic"

/-- A method declaration as written. Behind the arguments of a variadic method stands one more, for
its values. -/
inductive DeclarationText : MethodDecl → List Char → Prop
  | intro {kind : MethodKind} {before after head type name argsText trailer : List Char}
      {qualifiers : Qualifiers} {isConst isOverride : Bool} {args tail : List Argument}
      {line : Nat} :
      isBlank before = true → isBlank after = true → HeadText qualifiers type name head →
      ArgumentsText (args ++ tail) argsText →
      tail.length = (if kind = .variadic then 1 else 0) →
      TrailerText isConst isOverride trailer →
      DeclarationText
        { name := String.ofList name, returnType := String.ofList type, kind
          qualifiers := { qualifiers with isConst, isOverride }, args, line }
        ("WREN_METHOD(".toList ++ (before ++ kind.word.toList ++ after ++
          ')' :: (head ++ '(' :: (argsText ++ ')' :: trailer))))

/-- The end of a line: white space, and perhaps a comment. -/
inductive LineEnd : List Char → Prop
  | blank {gap : List Char} : isBlank gap = true → LineEnd gap
  | comment {gap rest : List Char} : isBlank gap = true → LineEnd (gap ++ '/' :: '/' :: rest)

/-- A line that declares a method. -/
inductive MethodLine : MethodDecl → List Char → Prop
  | intro {m : MethodDecl} {before text ending : List Char} :
      isBlank before = true → DeclarationText m text → LineEnd ending →
      MethodLine m (before ++ text ++ ending)

/-- A line that begins a class. Anything may stand behind the colon or brace. -/
inductive HeadingLine : (name : String) → List Char → Prop
  | intro {before gap name after more : List Char} {c : Char} :
      isBlank before = true → gap ≠ [] → isBlank gap = true → (∀ c ∈ name, isWord c = true) →
      isBlank after = true → c = ':' ∨ c = '\x7b' →
      HeadingLine (String.ofList (bindablePrefix.toList ++ name))
        (before ++ ("class".toList ++ gap ++ bindablePrefix.toList ++ name ++ after ++ c :: more))

/-! ### Characters -/

theorem isWhite_eq_false_of_isTypeChar {c : Char} (h : isTypeChar c = true) :
    isWhite c = false := by
  refine Bool.eq_false_iff.2 fun hw => ?_
  simp only [isTypeChar, isWord_eq_false_of_isWhite hw, Bool.false_or, Bool.or_eq_true,
    beq_iff_eq] at h
  rcases h with (rfl | rfl) | rfl <;> revert hw <;> decide

theorem BaseText.last {type text : List Char} (h : BaseText type text) :
    ∃ c, text.getLast? = some c ∧ isTypeChar c = true := by
  have hlast : ∀ {base : List Char}, base ≠ [] → (∀ c ∈ base, isTypeChar c = true) →
      ∃ c, base.getLast? = some c ∧ isTypeChar c = true := fun hne hall =>
    ⟨_, List.getLast?_eq_some_getLast hne, hall _ (List.getLast_mem hne)⟩
  cases h with
  | plain hne hall => exact hlast hne hall
  | const hne hall _ _ =>
    obtain ⟨c, hc, ht⟩ := hlast hne hall
    exact ⟨c, by rw [List.getLast?_append, hc, Option.some_or], ht⟩

/-- A character that is neither white nor part of a type stands in no method head. -/
structure Foreign (d : Char) : Prop where
  white : isWhite d = false
  type : isTypeChar d = false
  sigil : d ≠ '*' ∧ d ≠ '&'

theorem Foreign.word {d : Char} (h : Foreign d) : isWord d = false := by
  have ht := h.type
  simp only [isTypeChar, Bool.or_eq_false_iff] at ht
  exact ht.1.1.1

theorem Foreign.not_mem_of_word {d : Char} (h : Foreign d) {word : List Char}
    (hw : ∀ c ∈ word, isWord c = true) : d ∉ word :=
  fun hm => ne_of_isWord (hw d hm) h.word rfl

theorem BaseText.not_mem {type text : List Char} (h : BaseText type text) {d : Char}
    (hd : Foreign d) : d ∉ text := by
  have hbase : ∀ {base : List Char}, (∀ c ∈ base, isTypeChar c = true) → d ∉ base := by
    intro base hall hm
    have ht := hall d hm
    rw [hd.type] at ht
    cases ht
  cases h with
  | plain _ hall => exact hbase hall
  | const _ hall _ hg =>
    simp only [List.mem_append, not_or]
    exact ⟨⟨hd.not_mem_of_word (by decide), not_mem_of_blank hg hd.white⟩, hbase hall⟩

theorem HeadText.not_mem {qualifiers : Qualifiers} {type name text : List Char}
    (h : HeadText qualifiers type name text) {d : Char} (hd : Foreign d) : d ∉ text := by
  cases h with
  | intro hb hs ht _ hn ha =>
    simp only [List.mem_append, not_or]
    refine ⟨⟨⟨⟨not_mem_of_blank hb hd.white, ?_⟩, ?_⟩, hd.not_mem_of_word hn⟩,
      not_mem_of_blank ha hd.white⟩
    · cases hs with
      | none => exact List.not_mem_nil
      | static _ hg | virtual _ hg =>
        rw [List.mem_append, not_or]
        exact ⟨hd.not_mem_of_word (by decide), not_mem_of_blank hg hd.white⟩
    · cases ht with
      | spaced h _ hg =>
        rw [List.mem_append, not_or]
        exact ⟨h.not_mem hd, not_mem_of_blank hg hd.white⟩
      | @sigil _ _ _ _ c h hc hb ha =>
        simp only [List.mem_append, List.mem_cons, not_or]
        refine ⟨⟨h.not_mem hd, not_mem_of_blank hb hd.white⟩, ?_, not_mem_of_blank ha hd.white⟩
        rcases hc with rfl | rfl
        · exact hd.sigil.1
        · exact hd.sigil.2

/-! ### Method heads -/

theorem words_base {base gap : List Char} (hne : base ≠ []) (hb : ∀ c ∈ base, isTypeChar c = true)
    (hg : isBlank gap = true) : words (base ++ gap) = [base] := by
  rw [words_append_blank base hg]
  exact words_of_forall hne fun c hc => isWhite_eq_false_of_isTypeChar (hb c hc)

theorem words_keyword {word gap : List Char} (hne : word ≠ []) (hw : ∀ c ∈ word, isWord c = true)
    (hgne : gap ≠ []) (hg : isBlank gap = true) (text : List Char) :
    words (word ++ gap ++ text) = word :: words text := by
  rw [List.append_assoc]
  refine words_append_gap hne (fun c hc => ?_) hgne hg text
  exact isWhite_eq_false_of_isTypeChar (by simp [isTypeChar, hw c hc])

theorem SpecifierText.specifiers?_eq {qualifiers : Qualifiers}
    {specifiers base text gap : List Char} (hs : SpecifierText qualifiers specifiers)
    (hb : BaseText base text) (hg : isBlank gap = true) :
    specifiers? (words (specifiers ++ (text ++ gap))) = some (qualifiers, base) := by
  -- The words of the type, and what they say when nothing stands in front of them.
  obtain ⟨ws, hws, htype, hplain⟩ : ∃ ws, words (text ++ gap) = ws ∧ returnWords? ws = some base ∧
      specifiers? ws = some ({}, base) := by
    cases hb with
    | plain hne hall =>
      have hall' : base.all isTypeChar = true := List.all_eq_true.2 hall
      exact ⟨_, words_base hne hall hg, by simp [returnWords?, hall'],
        by simp [specifiers?, returnWords?, hall']⟩
    | @const base between hne hall hbne hb =>
      have hall' : base.all isTypeChar = true := List.all_eq_true.2 hall
      have hwords : words ("const".toList ++ between ++ base ++ gap) = ["const".toList, base] := by
        rw [List.append_assoc, words_keyword (by decide) (by decide) hbne hb,
          words_base hne hall hg]
      refine ⟨_, hwords, by simp only [returnWords?, hall', and_self, if_true], ?_⟩
      have hstatic : "const".toList ≠ "static".toList := by decide
      have hvirtual : "const".toList ≠ "virtual".toList := by decide
      simp only [specifiers?, if_neg hstatic, if_neg hvirtual, returnWords?, hall', and_self,
        if_true, Option.map_some]
  have hcons : ws ≠ [] := by
    rintro rfl
    simp [returnWords?] at htype
  obtain ⟨first, others, rfl⟩ := List.exists_cons_of_ne_nil hcons
  cases hs with
  | none => rw [List.nil_append, hws, hplain]
  | static hgne hg =>
    rw [words_keyword (by decide) (by decide) hgne hg, hws]
    simp only [specifiers?, if_true, htype, Option.map_some]
  | virtual hgne hg =>
    have hstatic : "virtual".toList ≠ "static".toList := by decide
    rw [words_keyword (by decide) (by decide) hgne hg, hws]
    simp only [specifiers?, if_neg hstatic, if_true, htype, Option.map_some]

theorem getLast?_of_blank {gap : List Char} (hne : gap ≠ []) (h : isBlank gap = true) :
    ∃ c, gap.getLast? = some c ∧ isWhite c = true :=
  ⟨_, List.getLast?_eq_some_getLast hne, isWhite_of_mem h (List.getLast_mem hne)⟩

theorem ReturnText.getLast? {type text : List Char} (h : ReturnText type text) :
    ∃ c, text.getLast? = some c ∧ isWord c = false := by
  cases h with
  | spaced _ hne hg =>
    obtain ⟨c, hc, hw⟩ := getLast?_of_blank hne hg
    exact ⟨c, by rw [List.getLast?_append, hc, Option.some_or], isWord_eq_false_of_isWhite hw⟩
  | @sigil _ _ _ after c _ hc _ ha =>
    by_cases hne : after = []
    · exact ⟨c, by simp [hne], by rcases hc with rfl | rfl <;> decide⟩
    · obtain ⟨d, hd, hw⟩ := getLast?_of_blank hne ha
      exact ⟨d, by simp [List.getLast?_append, List.getLast?_cons, hd],
        isWord_eq_false_of_isWhite hw⟩

/-- Taking the sigil off leaves the words of the type. -/
theorem ReturnText.splitSigil?_eq {type text : List Char} (h : ReturnText type text)
    (front : List Char) :
    ∃ base baseText gap sigil, BaseText base baseText ∧ isBlank gap = true ∧ type = base ++ sigil ∧
      splitSigil? (front ++ text) = some (front ++ (baseText ++ gap), sigil) := by
  cases h with
  | @spaced type text gap hb hne hg =>
    refine ⟨type, text, gap, [], hb, hg, by simp, ?_⟩
    obtain ⟨c, hc, ht⟩ := hb.last
    obtain ⟨d, hd, hw⟩ := getLast?_of_blank hne hg
    have htrim : trimEnd (front ++ (text ++ gap)) = front ++ text := by
      rw [← List.append_assoc, trimEnd_append_of_blank _ hg]
      exact trimEnd_of_getLast? (by rw [List.getLast?_append, hc, Option.some_or])
        (isWhite_eq_false_of_isTypeChar ht)
    have hsigil : ¬(c = '*' ∨ c = '&') := by
      rintro (rfl | rfl) <;> revert ht <;> decide
    have hlast : (front ++ (text ++ gap)).getLast?.any isWhite = true := by
      simp [List.getLast?_append, hd, hw]
    rw [splitSigil?, htrim, List.getLast?_append, hc, Option.some_or]
    simp only [if_neg hsigil, hlast, if_true]
  | @sigil type text before after c hb hc hbefore hafter =>
    refine ⟨type, text, before, [c], hb, hbefore, rfl, ?_⟩
    have htrim : trimEnd (front ++ (text ++ before ++ c :: after)) =
        front ++ (text ++ before) ++ [c] := by
      have hw : isWhite c = false := by rcases hc with rfl | rfl <;> decide
      have hsplit : front ++ (text ++ before ++ c :: after) =
          front ++ (text ++ before) ++ [c] ++ after := by simp
      rw [hsplit, trimEnd_append_of_blank _ hafter, trimEnd_append_singleton hw]
    rw [splitSigil?, htrim, List.getLast?_concat]
    simp only [hc, if_true, List.dropLast_concat]

theorem BaseText.squeeze_append {type text : List Char} (h : BaseText type text)
    (rest : List Char) : DeclaredType.squeeze false (text ++ rest) =
      type ++ DeclaredType.squeeze false rest := by
  have hwhite : ∀ {base : List Char}, (∀ c ∈ base, isTypeChar c = true) →
      ∀ c ∈ base, isWhite c = false := fun hall c hc => isWhite_eq_false_of_isTypeChar (hall c hc)
  cases h with
  | plain _ hall => exact DeclaredType.squeeze_word (hwhite hall) rest
  | @const base gap hne hall hgne hg =>
    obtain ⟨c, base, rfl⟩ := List.exists_cons_of_ne_nil hne
    have hsigil : c ≠ '*' ∧ c ≠ '&' := by
      have hc := hall c List.mem_cons_self
      refine ⟨?_, ?_⟩ <;> rintro rfl <;> revert hc <;> decide
    rw [List.append_assoc, List.append_assoc, DeclaredType.squeeze_word (by decide),
      DeclaredType.squeeze_gap_word hgne hg (hwhite hall) hsigil, List.append_assoc]
    rfl

theorem BaseText.head {type text : List Char} (h : BaseText type text) :
    text ≠ [] ∧ text.head?.any isWhite = false := by
  cases h with
  | @plain base hne hall =>
    obtain ⟨c, rest, rfl⟩ := List.exists_cons_of_ne_nil hne
    exact ⟨hne, isWhite_eq_false_of_isTypeChar (hall c List.mem_cons_self)⟩
  | const => exact ⟨by simp, by simp; decide⟩

/-- A return type as written has the type as its normalized form. -/
theorem ReturnText.normalizeChars_eq {type text : List Char} (h : ReturnText type text) :
    DeclaredType.normalizeChars text = type := by
  rw [DeclaredType.normalizeChars_eq_squeeze]
  cases h with
  | @spaced type text gap hb _ hg =>
    have hstart : trimStart (text ++ gap) = text ++ gap := by
      rw [trimStart_of_head?]
      rw [List.head?_append_of_ne_nil _ hb.head.1]
      exact hb.head.2
    rw [hstart, hb.squeeze_append, DeclaredType.squeeze_of_blank hg, List.append_nil]
  | @sigil type text before after c hb hc hbefore hafter =>
    have hstart : trimStart (text ++ before ++ c :: after) = text ++ (before ++ c :: after) := by
      rw [List.append_assoc, trimStart_of_head?]
      rw [List.head?_append_of_ne_nil _ hb.head.1]
      exact hb.head.2
    rw [hstart, hb.squeeze_append, DeclaredType.squeeze_gap_sigil hc hbefore,
      DeclaredType.squeeze_of_blank hafter]

theorem HeadText.methodHead?_eq {qualifiers : Qualifiers} {type name text : List Char}
    (h : HeadText qualifiers type name text) :
    methodHead? text = some (qualifiers, type, name) := by
  cases h with
  | @intro before specifiers typeText after hb hs ht hne hn ha =>
    obtain ⟨c, hc, hcword⟩ := ht.getLast?
    obtain ⟨base, baseText, gap, sigil, hbase, hgap, rfl, hsigil⟩ :=
      ht.splitSigil?_eq (before ++ specifiers)
    have htrim : trimEnd (before ++ specifiers ++ typeText ++ name ++ after) =
        before ++ specifiers ++ typeText ++ name := by
      rw [trimEnd_append_of_blank _ ha]
      have hword := hn _ (List.getLast_mem hne)
      exact trimEnd_of_getLast?
        (by rw [List.getLast?_append, List.getLast?_eq_some_getLast hne, Option.some_or])
        (isWhite_eq_false_of_isTypeChar (by simp [isTypeChar, hword]))
    have hsplit : splitTail isWord (before ++ specifiers ++ typeText ++ name) =
        (before ++ specifiers ++ typeText, name) :=
      splitTail_eq (by simp [List.getLast?_append, hc, hcword]) hn
    have hwords : specifiers? (words (before ++ specifiers ++ (baseText ++ gap))) =
        some (qualifiers, base) := by
      rw [List.append_assoc, words_append_of_blank hb, hs.specifiers?_eq hbase hgap]
    rw [methodHead?, htrim, hsplit]
    simp only [guard, ne_eq, hne, not_false_eq_true, if_true, hsigil, hwords, Option.pure_def,
      Option.bind_eq_bind, Option.bind_some]

/-! ### Method declarations -/

theorem OptionalText.skipWord_eq {word : String} {present : Bool} {text gap rest : List Char}
    (h : OptionalText word present text) (hg : isBlank gap = true)
    (hw : word.toList ≠ [] ∧ ∀ c ∈ word.toList, isWhite c = false)
    (hr : rest.head?.any isWhite = false) (hn : word.toList.isPrefixOf? rest = none) :
    skipWord word (gap ++ text ++ rest) = (present, rest) := by
  cases h with
  | absent =>
    rw [skipWord, List.append_nil, trimStart_append_of_blank hg, trimStart_of_head? hr, hn]
  | @present behind hb =>
    have hhead : (word.toList ++ (behind ++ rest)).head?.any isWhite = false := by
      obtain ⟨c, tail, hc⟩ := List.exists_cons_of_ne_nil hw.1
      simp [hc, hw.2 c (hc ▸ List.mem_cons_self)]
    have htrim : trimStart (gap ++ (word.toList ++ behind) ++ rest) =
        word.toList ++ (behind ++ rest) := by
      rw [List.append_assoc, trimStart_append_of_blank hg, List.append_assoc,
        trimStart_of_head? hhead]
    have hprefix : word.toList.isPrefixOf? (word.toList ++ (behind ++ rest)) =
        some (behind ++ rest) := List.isPrefixOf?_eq_some_iff_append_eq.2 rfl
    rw [skipWord, htrim, hprefix]
    simp only [trimStart_append_of_blank hb, trimStart_of_head? hr]

/-- Reading off what stands behind the arguments leaves the semicolon. -/
theorem TrailerText.skipWord_eq {isConst isOverride : Bool} {text : List Char}
    (h : TrailerText isConst isOverride text) :
    ∃ rest, skipWord "const" text = (isConst, rest) ∧
      skipWord "override" rest = (isOverride, [';']) := by
  cases h with
  | @intro gap constText overrideText hg hc ho =>
    refine ⟨overrideText ++ [';'], hc.skipWord_eq hg (by decide) ?_ ?_, ?_⟩
    · cases ho <;> simp <;> decide
    · cases ho <;> simp [List.isPrefixOf?]
    · exact @OptionalText.skipWord_eq _ _ _ [] _ ho isBlank_nil (by decide) (by decide) (by decide)

theorem MethodKind.ofText?_word (kind : MethodKind) : MethodKind.ofText? kind.word = some kind := by
  cases kind <;> decide

theorem MethodKind.trim_word (kind : MethodKind) {before after : List Char}
    (hb : isBlank before = true) (ha : isBlank after = true) :
    trim (before ++ kind.word.toList ++ after) = kind.word.toList :=
  IsTrimmed.trim_eq (by cases kind <;> exact ⟨by decide, by decide⟩) hb ha

theorem MethodKind.not_mem_word (kind : MethodKind) {d : Char} (h : isAsciiWord d = false) :
    d ∉ kind.word.toList := by
  have hall : ∀ c ∈ kind.word.toList, isAsciiWord c = true := by cases kind <;> decide
  intro hm
  rw [hall d hm] at h
  cases h

theorem foreign_paren : Foreign '(' := ⟨by decide, by decide, by decide, by decide⟩

theorem foreign_slash : Foreign '/' := ⟨by decide, by decide, by decide, by decide⟩

/-- The last argument of a variadic method is not one of its own. -/
theorem MethodText.method_eq {parts : MethodText} {kind : MethodKind} {args tail : List Argument}
    (hk : parts.kind = kind.word.toList) (hl : Argument.readList parts.args = .ok (args ++ tail))
    (ht : tail.length = (if kind = .variadic then 1 else 0)) (line : Nat) :
    parts.method line = .ok
      { name := String.ofList parts.name, returnType := String.ofList parts.returnType, kind
        qualifiers := parts.qualifiers, args, line } := by
  have hkind : MethodKind.ofText? (String.ofList parts.kind) = some kind := by
    rw [hk, String.ofList_toList, kind.ofText?_word]
  by_cases hv : kind = .variadic
  · obtain ⟨last, rfl⟩ : ∃ last, tail = [last] := List.length_eq_one_iff.1 (by rw [ht, if_pos hv])
    simp [MethodText.method, hkind, hl, Except.mapError, hv, bind, Except.bind, pure, Except.pure]
  · obtain rfl : tail = [] := List.length_eq_zero_iff.1 (by rw [ht, if_neg hv])
    simp [MethodText.method, hkind, hl, Except.mapError, hv, bind, Except.bind, pure, Except.pure]

/-- However a line is cut into the parts of a method, these are the parts that are read. -/
theorem MethodText.Cuts.ofLine?_eq {raw : MethodText} {text : List Char} (h : raw.Cuts text) :
    MethodText.ofLine? text = some raw.normalized := by
  cases h with
  | @intro kind before specifiers type returnType name after args trailer qualifiers isConst
      isOverride hk hb hs ht hne hn ha hargs htrailer =>
    obtain ⟨rest, hconst, hoverride⟩ := htrailer.skipWord_eq
    have hh := HeadText.intro hb hs ht hne hn ha
    have hkind := cut?_eq_some_iff.2 ⟨@rfl _ (kind ++ ')' ::
      (before ++ specifiers ++ returnType ++ name ++ after ++ '(' :: (args ++ ')' :: trailer))), hk⟩
    have hhead := cut?_eq_some_iff.2 ⟨@rfl _ (before ++ specifiers ++ returnType ++ name ++ after ++
      '(' :: (args ++ ')' :: trailer)), hh.not_mem foreign_paren⟩
    have hprefix := List.isPrefixOf?_eq_some_iff_append_eq.2 (@rfl _
      ("WREN_METHOD(".toList ++ (kind ++ ')' :: (before ++ specifiers ++ returnType ++ name ++
        after ++ '(' :: (args ++ ')' :: trailer)))))
    have hlist := argumentText?_eq_some_iff.2 ⟨hargs, @rfl _ (args ++ ')' :: trailer)⟩
    rw [MethodText.ofLine?, hprefix]
    simp only [Option.bind_eq_bind, Option.bind_some, hkind, hhead, hh.methodHead?_eq, hlist,
      hconst, hoverride, guard, if_true, Option.pure_def, MethodText.normalized,
      ht.normalizeChars_eq]

theorem DeclarationText.ofLine?_eq {m : MethodDecl} {text : List Char} (h : DeclarationText m text)
    (hline : '\n' ∉ text) :
    ∃ parts, MethodText.ofLine? text = some parts ∧ parts.method m.line = .ok m := by
  cases h with
  | @intro kind before after head type name argsText trailer qualifiers isConst isOverride args tail
      line hb ha hh hargs htail htrailer =>
    cases hh with
    | @intro front specifiers typeText behind hfront hs ht hne hn hbehind =>
      have hparen : ')' ∉ before ++ kind.word.toList ++ after := by
        simp only [List.mem_append, not_or]
        exact ⟨⟨not_mem_of_blank hb (by decide), kind.not_mem_word (by decide)⟩,
          not_mem_of_blank ha (by decide)⟩
      have hrun := (argumentText?_eq_some_iff.1 (hargs.argumentText?_eq trailer)).1
      have hcuts := MethodText.Cuts.intro hparen hfront hs ht hne hn hbehind hrun htrailer
      have hread : Argument.readList argsText = .ok (args ++ tail) :=
        hargs.readList_eq fun hm => hline (by simp [hm])
      refine ⟨_, hcuts.ofLine?_eq, ?_⟩
      rw [MethodText.method_eq (kind.trim_word hb ha) hread htail, MethodText.normalized,
        ht.normalizeChars_eq]

/-! ### Reading a line -/

theorem LineEnd.beforeComment_eq {ending : List Char} (h : LineEnd ending) :
    isBlank (beforeComment ending) = true := by
  have hfree : ∀ {gap : List Char}, isBlank gap = true → CommentFree gap := fun hg =>
    .of_not_mem (not_mem_of_blank hg (by decide))
  cases h with
  | blank hg =>
    have hb := hfree hg []
    rw [List.append_nil] at hb
    rw [hb]
    simpa [beforeComment] using hg
  | comment hg => rwa [hfree hg, beforeComment_comment, List.append_nil]

theorem DeclarationText.commentFree {m : MethodDecl} {text : List Char}
    (h : DeclarationText m text) : CommentFree text := by
  cases h with
  | @intro kind before after head _ _ argsText trailer _ _ _ _ _ _ hb ha hh hargs _ htrailer =>
    have hslash : ∀ {gap : List Char}, isBlank gap = true → '/' ∉ gap := fun hg =>
      not_mem_of_blank hg (by decide)
    have hoptional : ∀ {word : String} {present : Bool} {text : List Char}, '/' ∉ word.toList →
        OptionalText word present text → '/' ∉ text := by
      intro word present text hw ho
      cases ho with
      | absent => exact List.not_mem_nil
      | present hg => simp [hw, hslash hg]
    have hfront : '/' ∉ "WREN_METHOD(".toList ++ (before ++ kind.word.toList ++ after ++
        ')' :: (head ++ ['('])) := by
      have hk : '/' ∉ kind.word.toList := kind.not_mem_word (by decide)
      simp [hslash hb, hslash ha, hh.not_mem foreign_slash, hk]
    have hback : '/' ∉ ')' :: trailer := by
      cases htrailer with
      | intro hg hc ho => simp [hslash hg, hoptional (by decide) hc, hoptional (by decide) ho]
    have hsplit : "WREN_METHOD(".toList ++ (before ++ kind.word.toList ++ after ++
          ')' :: (head ++ '(' :: (argsText ++ ')' :: trailer))) =
        "WREN_METHOD(".toList ++ (before ++ kind.word.toList ++ after ++ ')' :: (head ++ ['('])) ++
          (argsText ++ ')' :: trailer) := by simp
    rw [hsplit]
    exact .append (.of_not_mem hfront) (.append hargs.commentFree (.of_not_mem hback))

theorem DeclarationText.isTrimmed {m : MethodDecl} {text : List Char} (h : DeclarationText m text) :
    IsTrimmed text := by
  cases h with
  | intro _ _ _ _ _ htrailer =>
    cases htrailer with
    | intro => exact ⟨by simp; decide, by simp [List.getLast?_append, List.getLast?_cons]; decide⟩

/-- A line written to declare a method declares it. -/
theorem MethodLine.read_eq {m : MethodDecl} {text : List Char} (h : MethodLine m text)
    (hline : '\n' ∉ text) : Line.read ⟨m.line, text⟩ = .method m := by
  cases h with
  | @intro before text ending hb hd he =>
    have hcontent : Line.content ⟨m.line, before ++ text ++ ending⟩ = text := by
      have hfree : CommentFree (before ++ text) :=
        .append (.of_not_mem (not_mem_of_blank hb (by decide))) hd.commentFree
      rw [Line.content, hfree, hd.isTrimmed.trim_eq hb he.beforeComment_eq]
    have hheading : headingName? text = none := by
      cases hd with
      | intro => simp [headingName?, List.isPrefixOf?]
    simp only [List.mem_append, not_or] at hline
    obtain ⟨parts, hparts, hm⟩ := hd.ofLine?_eq hline.1.2
    simp only [Line.read, hcontent, hheading, hparts, hm]

theorem LineEnd.read_eq {text : List Char} (h : LineEnd text) (number : Nat) :
    Line.read ⟨number, text⟩ = .other := by
  have hcontent : Line.content ⟨number, text⟩ = [] := by
    have ht := @IsTrimmed.trim_eq [] ⟨rfl, rfl⟩ [] _ isBlank_nil h.beforeComment_eq
    rwa [List.append_nil, List.nil_append] at ht
  have hheading : headingName? [] = none := by decide
  have hmethod : MethodText.ofLine? [] = none := by decide
  simp only [Line.read, hcontent, hheading, hmethod]

theorem headingName?_eq {gap name after : List Char} {c : Char} (hgne : gap ≠ [])
    (hg : isBlank gap = true) (hn : ∀ c ∈ name, isWord c = true) (ha : isBlank after = true)
    (hc : c = ':' ∨ c = '\x7b') (rest : List Char) :
    headingName? ("class".toList ++ (gap ++ (bindablePrefix.toList ++
      (name ++ (after ++ c :: rest))))) = some (bindablePrefix.toList ++ name) := by
  have hcwhite : isWhite c = false := by rcases hc with rfl | rfl <;> decide
  have hcword : isWord c = false := by rcases hc with rfl | rfl <;> decide
  have hclass := List.isPrefixOf?_eq_some_iff_append_eq.2 (@rfl _
    ("class".toList ++ (gap ++ (bindablePrefix.toList ++ (name ++ (after ++ c :: rest))))))
  have hobj := List.isPrefixOf?_eq_some_iff_append_eq.2 (@rfl _
    (bindablePrefix.toList ++ (name ++ (after ++ c :: rest))))
  have hgap : (gap ++ (bindablePrefix.toList ++ (name ++ (after ++ c :: rest)))).head?.any
      isWhite = true := by
    obtain ⟨d, tail, rfl⟩ := List.exists_cons_of_ne_nil hgne
    simpa using isWhite_of_mem hg List.mem_cons_self
  have htrim : trimStart (gap ++ (bindablePrefix.toList ++ (name ++ (after ++ c :: rest)))) =
      bindablePrefix.toList ++ (name ++ (after ++ c :: rest)) := by
    rw [trimStart_append_of_blank hg, trimStart_of_head? (by simp [bindablePrefix]; decide)]
  -- The name ends where white space, the colon or the brace begins.
  have hstop : ∀ d ∈ (after ++ c :: rest).head?, isWord d = false := by
    cases after with
    | nil => simpa using hcword
    | cons d tail =>
      simpa using isWord_eq_false_of_isWhite (isWhite_of_mem ha List.mem_cons_self)
  obtain ⟨d, tail, hd⟩ : ∃ d tail, after ++ c :: rest = d :: tail :=
    List.exists_cons_of_ne_nil (by simp)
  have hd' : isWord d = false := hstop d (by simp [hd])
  have hname : (name ++ (after ++ c :: rest)).takeWhile isWord = name := by
    rw [List.takeWhile_append_of_pos hn, hd, List.takeWhile_cons_of_neg (by simp [hd']),
      List.append_nil]
  have hbehind : (name ++ (after ++ c :: rest)).dropWhile isWord = after ++ c :: rest := by
    rw [List.dropWhile_append_of_pos hn, hd, List.dropWhile_cons_of_neg (by simp [hd'])]
  have hend : (trimStart (after ++ c :: rest)).head? = some c := by
    rw [trimStart_append_of_blank ha, trimStart_cons hcwhite, List.head?_cons]
  rw [headingName?, hclass]
  simp only [Option.bind_eq_bind, Option.bind_some, guard, hgap, if_true, htrim, hobj, hname,
    hbehind, hend, hc, Option.pure_def]

/-- Nothing behind the colon or brace counts. -/
theorem HeadingLine.read_eq {name : String} {text : List Char} (h : HeadingLine name text)
    (number : Nat) : Line.read ⟨number, text⟩ = .heading name := by
  cases h with
  | @intro before gap name after more c hb hgne hg hn ha hc =>
    have hcwhite : isWhite c = false := by rcases hc with rfl | rfl <;> decide
    have hfree : CommentFree (before ++
        ("class".toList ++ gap ++ bindablePrefix.toList ++ name ++ after ++ [c])) := by
      have hslash : ∀ {gap : List Char}, isBlank gap = true → '/' ∉ gap := fun hg =>
        not_mem_of_blank hg (by decide)
      have hprefix : '/' ∉ bindablePrefix.toList := by decide
      refine .of_not_mem ?_
      simp [hslash hb, hslash hg, hslash ha, foreign_slash.not_mem_of_word hn, hprefix]
      rcases hc with rfl | rfl <;> decide
    have hcontent : Line.content ⟨number, before ++
          ("class".toList ++ gap ++ bindablePrefix.toList ++ name ++ after ++ c :: more)⟩ =
        "class".toList ++ (gap ++ (bindablePrefix.toList ++ (name ++ (after ++
          c :: trimEnd (beforeComment more))))) := by
      have hcut := hfree more
      simp only [List.append_assoc, List.cons_append, List.nil_append] at hcut ⊢
      rw [Line.content, hcut, trim, trimStart_append_of_blank hb,
        trimStart_of_head? (by simp; decide)]
      simpa using trimEnd_append_cons hcwhite
        ("class".toList ++ gap ++ bindablePrefix.toList ++ name ++ after) (beforeComment more)
    simp only [Line.read, hcontent, headingName?_eq hgne hg hn ha hc]

end WrenGlue.Header
