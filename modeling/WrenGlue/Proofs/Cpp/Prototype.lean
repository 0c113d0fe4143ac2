import WrenGlue.Cpp.Code
import WrenGlue.Cpp.Spelling
import WrenGlue.Text.Cut
import WrenGlue.Proofs.Text.White
import WrenGlue.Text.WordChar

/-! Functions as lines of C++ show them: the line that begins a definition tells the name and the
number of parameters, a call tells the name and the number of arguments. -/

namespace WrenGlue.Cpp

open WrenGlue.Text

/-- A function by its name and the number of values that it takes. -/
structure Prototype where
  name : String
  arity : Nat
deriving DecidableEq, Repr

/-- The number of commas outside braces, where `depth` braces are open. -/
def topCommas : (depth : Nat) → List Char → Nat
  | _, [] => 0
  | depth, c :: rest =>
    if c = '\x7b' then topCommas (depth + 1) rest
    else if c = '\x7d' then topCommas (depth - 1) rest
    else if c = ',' ∧ depth = 0 then topCommas depth rest + 1
    else topCommas depth rest

/-- The number of items in a list with commas between them. -/
def itemCount (text : List Char) : Nat := if text = [] then 0 else topCommas 0 text + 1

/-- What a definition begins with. -/
def resultTypes : List String := ["static Value ", "static void ", "Value ", "void "]

/-- The function that a line begins to define. -/
def definition? (line : String) : Option Prototype := do
  let head ← (") \x7b".toList).isSuffixOf? line.toList
  let declared ← resultTypes.findSome? fun type => type.toList.isPrefixOf? head
  let (name, params) ← cut? '(' declared
  return ⟨String.ofList name, itemCount params⟩

/-- The function that a line calls by name, if the line does nothing else but perhaps return the
result. -/
def call? (line : String) : Option Prototype := do
  let text ← (");".toList).isSuffixOf? line.toList
  let (front, args) ← cut? '(' text
  let (lead, name) := splitTail isWord front
  guard (name ≠ [] ∧ (lead = [] ∨ lead = "return ".toList))
  return ⟨String.ofList name, itemCount args⟩

/-- The name of the function that a line registers by its address. -/
def address? (line : String) : Option String := do
  let rest ← ("cls->AddFunction(".toList).isPrefixOf? line.toList
  let text ← (");".toList).isSuffixOf? rest
  return String.ofList (splitTail isWord text).2

/-! ### Lists of items -/

/-- The text counts as part of one item. -/
def IsItem (text : List Char) : Prop := ∀ rest, topCommas 0 (text ++ rest) = topCommas 0 rest

theorem topCommas_append {depth : Nat} {text : List Char} (ho : '\x7b' ∉ text)
    (hc : '\x7d' ∉ text) (hcomma : depth = 0 → ',' ∉ text) (rest : List Char) :
    topCommas depth (text ++ rest) = topCommas depth rest := by
  induction text with
  | nil => rfl
  | cons c text ih =>
    rw [List.mem_cons, not_or] at ho hc
    have hstop : ¬(c = ',' ∧ depth = 0) := fun ⟨h, hd⟩ => hcomma hd (h ▸ List.mem_cons_self)
    rw [List.cons_append, topCommas, if_neg (Ne.symm ho.1), if_neg (Ne.symm hc.1), if_neg hstop]
    exact ih ho.2 hc.2 fun hd hm => hcomma hd (List.mem_cons_of_mem c hm)

/-- A character that stands in items but separates none and groups none. -/
def isPlain (c : Char) : Bool := c != '\x7b' && c != '\x7d' && c != ','

theorem IsItem.of_plain {text : List Char} (h : ∀ c ∈ text, isPlain c = true) : IsItem text := by
  have hnot : ∀ {c : Char}, isPlain c = false → c ∉ text := by
    intro c hc hm
    rw [h c hm] at hc
    cases hc
  exact topCommas_append (hnot rfl) (hnot rfl) fun _ => hnot rfl

theorem isPlain_of_isWord {c : Char} (h : isWord c = true) : isPlain c = true := by
  have hne : ∀ {d : Char}, isWord d = false → c ≠ d := by
    rintro d hd rfl
    rw [h] at hd
    cases hd
  simp [isPlain, hne (show isWord '\x7b' = false by decide),
    hne (show isWord '\x7d' = false by decide), hne (show isWord ',' = false by decide)]

theorem commaList_cons_cons (item next : String) (items : List String) :
    commaList (item :: next :: items) = item ++ ", " ++ commaList (next :: items) :=
  String.intercalate_cons_cons

theorem mem_commaList {items : List String} {c : Char} (h : c ∈ (commaList items).toList) :
    c = ',' ∨ c = ' ' ∨ ∃ item ∈ items, c ∈ item.toList := by
  induction items with
  | nil => simp [commaList] at h
  | cons item items ih =>
    cases items with
    | nil => exact .inr (.inr ⟨item, List.mem_cons_self, by simpa [commaList] using h⟩)
    | cons next items =>
      rw [commaList_cons_cons, String.toList_append, String.toList_append] at h
      simp only [List.mem_append] at h
      rcases h with (h | h) | h
      · exact .inr (.inr ⟨item, List.mem_cons_self, h⟩)
      · have hc : c = ',' ∨ c = ' ' := by simpa using h
        exact hc.elim .inl fun hc => .inr (.inl hc)
      · rcases ih h with hc | hc | ⟨other, ho, hc⟩
        · exact .inl hc
        · exact .inr (.inl hc)
        · exact .inr (.inr ⟨other, List.mem_cons_of_mem _ ho, hc⟩)

theorem topCommas_commaList {items : List String} (hne : items ≠ [])
    (h : ∀ item ∈ items, IsItem item.toList) :
    topCommas 0 (commaList items).toList + 1 = items.length := by
  induction items with
  | nil => exact absurd rfl hne
  | cons item items ih =>
    rw [List.forall_mem_cons] at h
    cases items with
    | nil =>
      have hi := h.1 []
      rw [List.append_nil] at hi
      simp [commaList, hi, topCommas]
    | cons next items =>
      rw [commaList_cons_cons, String.toList_append, String.toList_append, List.append_assoc, h.1,
        List.length_cons, ← ih (List.cons_ne_nil _ _) h.2]
      simp [topCommas]

theorem itemCount_commaList {items : List String} (hne : ∀ item ∈ items, item ≠ "")
    (h : ∀ item ∈ items, IsItem item.toList) :
    itemCount (commaList items).toList = items.length := by
  cases items with
  | nil => rfl
  | cons item items =>
    have hcount := topCommas_commaList (List.cons_ne_nil item items) h
    have hlist : (commaList (item :: items)).toList ≠ [] := by
      have hi : item.toList ≠ [] := by simpa using hne item List.mem_cons_self
      cases items with
      | nil => simpa [commaList] using hi
      | cons next items => simp [commaList_cons_cons]
    rw [itemCount, if_neg hlist, hcount]

/-- A braced list is one item. -/
theorem IsItem.braced {items : List String}
    (h : ∀ item ∈ items, ∀ c ∈ item.toList, isPlain c = true) :
    IsItem (braced items).toList := by
  have hnot : ∀ {d : Char}, d ≠ ',' → d ≠ ' ' → isPlain d = false →
      d ∉ (commaList items).toList := by
    intro d hcomma hspace hd hm
    rcases mem_commaList hm with hc | hc | ⟨item, hi, hc⟩
    · exact hcomma hc
    · exact hspace hc
    · rw [h item hi d hc] at hd
      cases hd
  intro rest
  have hinner := @topCommas_append 1 (commaList items).toList (hnot (by decide) (by decide) rfl)
    (hnot (by decide) (by decide) rfl) (by simp) ('\x7d' :: rest)
  simp only [Cpp.braced, String.toList_append, List.append_assoc]
  show topCommas 0 ('\x7b' :: ((commaList items).toList ++ '\x7d' :: rest)) = topCommas 0 rest
  rw [topCommas, if_pos rfl, hinner]
  simp [topCommas]

/-! ### Definitions -/

theorem isSuffixOf?_append (text ending : List Char) :
    ending.isSuffixOf? (text ++ ending) = some text :=
  List.isSuffixOf?_eq_some_iff_append_eq.2 rfl

theorem isPrefixOf?_append (start text : List Char) :
    start.isPrefixOf? (start ++ text) = some text :=
  List.isPrefixOf?_eq_some_iff_append_eq.2 rfl

theorem definition?_eq {type name : String} {params : List String} (ht : type ∈ resultTypes)
    (hn : '(' ∉ name.toList) (hne : ∀ p ∈ params, p ≠ "") (hp : ∀ p ∈ params, IsItem p.toList) :
    definition? (type ++ name ++ "(" ++ commaList params ++ ")" ++ " \x7b") =
      some ⟨name, params.length⟩ := by
  have hline : (type ++ name ++ "(" ++ commaList params ++ ")" ++ " \x7b").toList =
      type.toList ++ (name.toList ++ '(' :: (commaList params).toList) ++ ") \x7b".toList := by
    simp
  have hfind : (resultTypes.findSome? fun start => start.toList.isPrefixOf?
      (type.toList ++ (name.toList ++ '(' :: (commaList params).toList))) =
      some (name.toList ++ '(' :: (commaList params).toList) := by
    simp only [resultTypes, List.mem_cons, List.not_mem_nil, or_false] at ht
    rcases ht with rfl | rfl | rfl | rfl <;> simp [resultTypes, List.isPrefixOf?]
  have hcut : cut? '(' (name.toList ++ '(' :: (commaList params).toList) =
      some (name.toList, (commaList params).toList) := cut?_eq_some_iff.2 ⟨rfl, hn⟩
  rw [definition?, hline, isSuffixOf?_append]
  simp only [Option.bind_eq_bind, Option.bind_some, hfind, hcut, itemCount_commaList hne hp,
    String.ofList_toList, Option.pure_def]

theorem definition?_eq_none_of_last {line : String} (h : line.toList.getLast? ≠ some '\x7b') :
    definition? line = none := by
  cases hs : (") \x7b".toList).isSuffixOf? line.toList with
  | none => rw [definition?, hs, Option.bind_eq_bind, Option.bind_none]
  | some head =>
    rw [List.isSuffixOf?_eq_some_iff_append_eq] at hs
    rw [← hs, List.getLast?_append] at h
    exact absurd rfl h

/-- Every definition begins with its type. -/
theorem definition?_eq_none_of_head {line : String}
    (h : ∀ c ∈ line.toList.head?, c ∉ ['s', 'V', 'v']) : definition? line = none := by
  have hnone : ∀ head : List Char, line.toList = head ++ ") \x7b".toList →
      (resultTypes.findSome? fun type => type.toList.isPrefixOf? head) = none := by
    intro head hline
    rw [List.findSome?_eq_none_iff]
    intro type htype
    rw [Option.eq_none_iff_forall_ne_some]
    intro rest hr
    rw [List.isPrefixOf?_eq_some_iff_append_eq] at hr
    rw [hline, ← hr] at h
    simp only [resultTypes, List.mem_cons, List.not_mem_nil, or_false] at htype
    rcases htype with rfl | rfl | rfl | rfl <;> simp at h
  cases hs : (") \x7b".toList).isSuffixOf? line.toList with
  | none => rw [definition?, hs, Option.bind_eq_bind, Option.bind_none]
  | some head =>
    rw [definition?, hs, Option.bind_eq_bind, Option.bind_some,
      hnone head (List.isSuffixOf?_eq_some_iff_append_eq.1 hs).symm]
    rfl

/-! ### Calls -/

theorem call?_eq {lead name : String} {args : List String} (hl : lead = "" ∨ lead = "return ")
    (hne : name ≠ "") (hn : ∀ c ∈ name.toList, isWord c = true) (hae : ∀ a ∈ args, a ≠ "")
    (ha : ∀ a ∈ args, IsItem a.toList) :
    call? (lead ++ name ++ "(" ++ commaList args ++ ");") = some ⟨name, args.length⟩ := by
  have hline : (lead ++ name ++ "(" ++ commaList args ++ ");").toList =
      (lead.toList ++ name.toList ++ '(' :: (commaList args).toList) ++ ");".toList := by simp
  have hlead : '(' ∉ lead.toList ∧ lead.toList.getLast?.any isWord = false ∧
      (lead.toList = [] ∨ lead.toList = "return ".toList) := by
    rcases hl with rfl | rfl
    · exact ⟨by decide, by decide, .inl rfl⟩
    · exact ⟨by decide, by decide, .inr rfl⟩
  have hparen : '(' ∉ lead.toList ++ name.toList := by
    rw [List.mem_append, not_or]
    refine ⟨hlead.1, fun hm => ?_⟩
    have hword := hn _ hm
    revert hword
    decide
  have hcut : cut? '(' (lead.toList ++ name.toList ++ '(' :: (commaList args).toList) =
      some (lead.toList ++ name.toList, (commaList args).toList) :=
    cut?_eq_some_iff.2 ⟨rfl, hparen⟩
  have hname : name.toList ≠ [] := by simpa using hne
  rw [call?, hline, isSuffixOf?_append]
  simp only [Option.bind_eq_bind, Option.bind_some, hcut, splitTail_eq hlead.2.1 hn, guard, ne_eq,
    hname, not_false_eq_true, hlead.2.2, and_self, if_true, itemCount_commaList hae ha,
    String.ofList_toList, Option.pure_def]

theorem call?_eq_none_of_last {line : String} (h : line.toList.getLast? ≠ some ';') :
    call? line = none := by
  cases hs : (");".toList).isSuffixOf? line.toList with
  | none => rw [call?, hs, Option.bind_eq_bind, Option.bind_none]
  | some text =>
    rw [List.isSuffixOf?_eq_some_iff_append_eq] at hs
    rw [← hs, List.getLast?_append] at h
    exact absurd rfl h

/-- What stands in front of the first parenthesis of a call. -/
theorem exists_of_call?_eq_some {line : String} {p : Prototype} (h : call? line = some p) :
    ∃ before args, line.toList = before ++ '(' :: args ∧ '(' ∉ before ∧
      (splitTail isWord before).2 ≠ [] ∧
      ((splitTail isWord before).1 = [] ∨ (splitTail isWord before).1 = "return ".toList) := by
  obtain ⟨text, htext, h⟩ := Option.bind_eq_some_iff.1 h
  obtain ⟨⟨before, args⟩, hcut, h⟩ := Option.bind_eq_some_iff.1 h
  obtain ⟨⟨⟩, hguard, -⟩ := Option.bind_eq_some_iff.1 h
  rw [List.isSuffixOf?_eq_some_iff_append_eq] at htext
  obtain ⟨rfl, hparen⟩ := cut?_eq_some_iff.1 hcut
  refine ⟨before, args ++ ");".toList, by rw [← htext, List.append_assoc, List.cons_append],
    hparen, ?_⟩
  by_contra hno
  rw [splitTail] at hno
  rw [guard, if_neg hno] at hguard
  cases hguard

/-- Where something other than a name and a `return` stands in front of the first parenthesis, the
line does more than call. -/
theorem call?_eq_none {line : String} {front : List Char} (h : front <+: line.toList)
    (hparen : '(' ∉ front) {c : Char} (hc : c ∈ front) (hword : isWord c = false)
    (hreturn : c ∉ "return ".toList) : call? line = none := by
  rw [Option.eq_none_iff_forall_ne_some]
  intro p hp
  obtain ⟨before, args, hline, -, -, hlead⟩ := exists_of_call?_eq_some hp
  -- What stands in front of the parenthesis reaches at least as far as `front`.
  have hfront : front <+: before := by
    rw [hline] at h
    rcases List.prefix_or_prefix_of_prefix h (List.prefix_append before _) with hp | ⟨more, hm⟩
    · exact hp
    · obtain ⟨rest, hr⟩ := h
      rw [← hm, List.append_assoc, List.append_cancel_left_eq] at hr
      cases more with
      | nil => exact ⟨[], by simpa using hm.symm⟩
      | cons d more =>
        obtain ⟨rfl, -⟩ := List.cons_eq_cons.1 hr
        exact absurd (hm ▸ by simp) hparen
  have hmem : c ∈ (splitTail isWord before).1 := by
    have hbefore : c ∈ before := hfront.subset hc
    rw [← splitTail_append isWord before, List.mem_append] at hbefore
    refine hbefore.resolve_right fun hm => ?_
    rw [of_mem_splitTail hm] at hword
    cases hword
  rcases hlead with hl | hl
  · rw [hl] at hmem
    exact absurd hmem List.not_mem_nil
  · rw [hl] at hmem
    exact hreturn hmem

/-- Without a name in front of its first parenthesis, a line calls nothing by name. -/
theorem call?_eq_none_of_gap {line : String} {front : List Char}
    (h : front ++ ['('] <+: line.toList) (hparen : '(' ∉ front)
    (hgap : front.getLast?.any isWord = false) : call? line = none := by
  obtain ⟨rest, h⟩ := h
  rw [List.append_assoc, List.singleton_append] at h
  rw [Option.eq_none_iff_forall_ne_some]
  intro p hp
  obtain ⟨before, args, hline, hbefore, hname, -⟩ := exists_of_call?_eq_some hp
  have hcuts : some (front, rest) = some (before, args) := by
    rw [← cut?_eq_some_iff.2 ⟨h.symm, hparen⟩, cut?_eq_some_iff.2 ⟨hline, hbefore⟩]
  obtain ⟨rfl, -⟩ := Prod.mk.inj (Option.some.inj hcuts)
  have hsplit := @splitTail_eq isWord front [] hgap (by simp)
  rw [List.append_nil] at hsplit
  exact hname (by rw [hsplit])

/-! ### Addresses -/

theorem address?_eq_none_of_head {line : String} (h : line.toList.head? ≠ some 'c') :
    address? line = none := by
  cases hs : ("cls->AddFunction(".toList).isPrefixOf? line.toList with
  | none => rw [address?, hs, Option.bind_eq_bind, Option.bind_none]
  | some rest =>
    rw [List.isPrefixOf?_eq_some_iff_append_eq] at hs
    rw [← hs] at h
    exact absurd rfl h

end WrenGlue.Cpp
