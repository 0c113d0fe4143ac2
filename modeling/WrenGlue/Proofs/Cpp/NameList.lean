import WrenGlue.Proofs.Cpp.Prototype
import WrenGlue.Proofs.Text.Name

/-! Numbers and lists of names, read back from their text. -/

namespace WrenGlue.Cpp

open WrenGlue.Text

/-! ### Beginnings and cuts -/

/-- Of two texts that a text begins with, one begins with the other. -/
theorem isPrefixOf?_eq_none {start front text : List Char} {c d : Char}
    (h : front ++ [d] <+: text) (hd : d ∉ start) (hc : c ∈ start) (hf : c ∉ front ++ [d]) :
    start.isPrefixOf? text = none := by
  rw [Option.eq_none_iff_forall_ne_some]
  intro rest hrest
  rw [List.isPrefixOf?_eq_some_iff_append_eq] at hrest
  rcases List.prefix_or_prefix_of_prefix h ⟨rest, hrest⟩ with hp | hp
  · exact hd (hp.subset (by simp))
  · exact hf (hp.subset hc)

/-- A text holds all characters that it begins with. -/
theorem isPrefixOf?_eq_none_of_not_mem {start text : List Char} {c : Char} (hc : c ∈ start)
    (h : c ∉ text) : start.isPrefixOf? text = none := by
  rw [Option.eq_none_iff_forall_ne_some]
  intro rest hrest
  rw [List.isPrefixOf?_eq_some_iff_append_eq] at hrest
  exact h (hrest ▸ List.mem_append_left _ hc)

theorem cut?_append {sep : Char} {before : List Char} (h : sep ∉ before) (after : List Char) :
    cut? sep (before ++ sep :: after) = some (before, after) :=
  cut?_eq_some_iff.2 ⟨rfl, h⟩

/-! ### Numbers -/

/-- A number in decimal digits. -/
def number? (digits : List Char) : Option Nat :=
  if digits.all Char.isDigit then some (Nat.ofDigitChars 10 digits 0) else none

theorem number?_toString (n : Nat) : number? (toString n).toList = some n := by
  have hdigits : (toString n).toList.all Char.isDigit = true :=
    List.all_eq_true.2 fun _ hc => isDigit_of_mem_toString hc
  rw [number?, if_pos hdigits, Nat.toString_eq_ofList_toDigits, String.toList_ofList,
    Nat.ofDigitChars_ten_toDigits]

/-! ### Lists -/

/-- The items between commas, without the white space in front of them. -/
def items (text : List Char) : List String :=
  (text.splitOn ',').map fun item => String.ofList (trimStart item)

/-- The names in a list, which may be empty. -/
def nameList (text : List Char) : List String := if text = [] then [] else items text

/-- A text that can stand in a list of names. -/
structure IsListed (item : String) : Prop where
  comma : ',' ∉ item.toList
  start : ∃ c ∈ item.toList.head?, isWhite c = false

theorem IsListed.trimStart_eq {item : String} (h : IsListed item) :
    trimStart item.toList = item.toList := by
  obtain ⟨c, hc, hwhite⟩ := h.start
  exact trimStart_of_head? (by rw [hc]; exact hwhite)

theorem IsListed.of_isWordName {name : String} (hne : name ≠ "") (h : IsWordName name) :
    IsListed name := by
  refine ⟨h.not_mem (by decide), ?_⟩
  cases hl : name.toList with
  | nil => exact absurd (String.toList_eq_nil_iff.1 hl) hne
  | cons c rest =>
    refine ⟨c, rfl, Bool.eq_false_iff.2 fun hwhite => ?_⟩
    have hword : isWord c = true := h c (hl ▸ List.mem_cons_self)
    rw [isWord_eq_false_of_isWhite hwhite] at hword
    cases hword

theorem items_space (text : List Char) : items (' ' :: text) = items text := by
  have hcomma : (' ' == ',') = false := by decide
  rw [items, items, List.splitOn_cons_eq_if_modifyHead, hcomma]
  cases hs : text.splitOn ',' with
  | nil => exact absurd hs (List.splitOn_ne_nil _ _)
  | cons first rest =>
    have hspace : isBlank [' '] = true := by decide
    have hfirst : trimStart (' ' :: first) = trimStart first := trimStart_append_of_blank hspace first
    simp [hfirst]

theorem items_commaList {item : String} {rest : List String}
    (h : ∀ i ∈ item :: rest, IsListed i) :
    items (commaList (item :: rest)).toList = item :: rest := by
  induction rest generalizing item with
  | nil =>
    have hitem := h item List.mem_cons_self
    have hlist : (commaList [item]).toList = item.toList := by simp [commaList]
    rw [items, hlist, List.splitOn_eq_singleton hitem.comma, List.map_singleton,
      hitem.trimStart_eq, String.ofList_toList]
  | cons next rest ih =>
    rw [List.forall_mem_cons] at h
    have hlist : (commaList (item :: next :: rest)).toList =
        item.toList ++ ',' :: ' ' :: (commaList (next :: rest)).toList := by
      simp [commaList_cons_cons]
    rw [hlist, items, List.splitOn_append_cons_self_of_not_mem h.1.comma, List.map_cons, ← items,
      items_space, ih h.2, h.1.trimStart_eq, String.ofList_toList]

theorem nameList_commaList {names : List String} (h : ∀ name ∈ names, IsListed name) :
    nameList (commaList names).toList = names := by
  cases names with
  | nil => rfl
  | cons name rest =>
    have hname : name.toList ≠ [] := by
      obtain ⟨c, hc, -⟩ := (h name List.mem_cons_self).start
      rintro hnil
      rw [hnil] at hc
      cases hc
    have hne : (commaList (name :: rest)).toList ≠ [] := by
      cases rest with
      | nil => simpa [commaList] using hname
      | cons next rest => simp [commaList_cons_cons]
    rw [nameList, if_neg hne, items_commaList h]

theorem commaList_concat (items : List String) (last : String) :
    commaList (items ++ [last]) =
      (if items = [] then "" else commaList items ++ ", ") ++ last := by
  induction items with
  | nil => simp [commaList]
  | cons item items ih =>
    cases items with
    | nil => simp [commaList]
    | cons next items =>
      rw [List.cons_append, List.cons_append, commaList_cons_cons, ← List.cons_append, ih,
        if_neg (List.cons_ne_nil _ _), if_neg (List.cons_ne_nil _ _), commaList_cons_cons]
      simp only [String.append_assoc]

/-- The names of parameters and variables. -/
def AreNames (names : List String) : Prop := ∀ name ∈ names, name ≠ "" ∧ IsWordName name

theorem AreNames.isListed {names : List String} (h : AreNames names) :
    ∀ name ∈ names, IsListed name := fun name hname =>
  .of_isWordName (h name hname).1 (h name hname).2

theorem AreNames.not_mem {names : List String} (h : AreNames names) {c : Char}
    (hc : isWord c = false) (hcomma : c ≠ ',') (hspace : c ≠ ' ') :
    c ∉ (commaList names).toList := by
  intro hm
  rcases mem_commaList hm with rfl | rfl | ⟨name, hname, hm⟩
  · exact hcomma rfl
  · exact hspace rfl
  · exact (h name hname).2.not_mem hc hm

end WrenGlue.Cpp
