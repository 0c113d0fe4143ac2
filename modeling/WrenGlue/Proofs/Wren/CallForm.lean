import WrenGlue.Wren.CallForm
import WrenGlue.Proofs.Text.Lowercase
import WrenGlue.Text.Cut

/-! Which calls have the same signature. A signature shows its form, and the number of its arguments
unless it is that of a getter. -/

namespace WrenGlue.Wren

open WrenGlue.Text
open WrenGlue.Header (MethodKind)

theorem placeholders_succ_succ (n : Nat) :
    placeholders (n + 2) = "_" ++ "," ++ placeholders (n + 1) :=
  String.intercalate_cons_cons

theorem count_placeholders (n : Nat) : (placeholders n).toList.count '_' = n := by
  induction n with
  | zero => rfl
  | succ n ih =>
    cases n with
    | zero => decide
    | succ n =>
      rw [placeholders_succ_succ, String.toList_append, String.toList_append, List.count_append,
        List.count_append, ih]
      have hfirst : "_".toList.count '_' + ",".toList.count '_' = 1 := by decide
      omega

theorem placeholders_injective {m n : Nat} (h : placeholders m = placeholders n) : m = n := by
  rw [← count_placeholders m, h, count_placeholders]

/-! ### Words -/

/-- The characters of operators and brackets, which are part of no name. -/
def reserved : List Char := "()[]+-*/%&|^<>=!~.".toList

/-- A text without reserved characters. -/
def IsUnreserved (name : String) : Prop := ∀ c ∈ name.toList, c ∉ reserved

theorem Operator.symbol_injective {a b : Operator} (h : a.symbol = b.symbol) : a = b := by
  have hall : ∀ a ∈ Operator.all, ∀ b ∈ Operator.all, a.symbol = b.symbol → a = b := by
    decide +kernel
  exact hall a a.mem_all b b.mem_all h

/-- An operator begins with a reserved character that is no bracket. -/
theorem Operator.symbol_head (op : Operator) :
    ∃ c ∈ reserved, op.symbol.toList.head? = some c ∧ c ≠ '[' := by
  cases op <;> exact ⟨_, by decide, rfl, by decide⟩

theorem Operator.paren_not_mem_symbol (op : Operator) : '(' ∉ op.symbol.toList := by
  cases op <;> decide

namespace CallForm

/-- The name or operator that a call is written with, unless it is written with brackets only. -/
def word? : CallForm → Option String
  | subscriptGet | subscriptSet => none
  | operator op => some op.symbol
  | named name => some name

/-- The name in the form, if it has one, has no reserved characters. -/
def IsReadable : CallForm → Prop
  | named name => IsUnreserved name
  | subscriptGet | subscriptSet | operator _ => True

theorem render_of_word? {form : CallForm} {word : String} (h : form.word? = some word)
    (kind : MethodKind) (n : Nat) : form.render kind n = call word kind n := by
  cases form <;> cases h <;> rfl

/-- A word is no longer than up to the first parenthesis, and does not begin with a bracket. -/
theorem word?_spec {form : CallForm} (hf : form.IsReadable) {word : String}
    (h : form.word? = some word) :
    '(' ∉ word.toList ∧ word.toList.head? ≠ some '[' := by
  cases form with
  | subscriptGet | subscriptSet => cases h
  | operator op =>
    obtain rfl : op.symbol = word := Option.some.inj h
    obtain ⟨c, -, hc, hne⟩ := op.symbol_head
    exact ⟨op.paren_not_mem_symbol, by simpa [hc] using hne⟩
  | named name =>
    obtain rfl : name = word := Option.some.inj h
    refine ⟨fun hm => hf _ hm (by decide), fun hm => ?_⟩
    exact hf '[' (List.mem_of_head? hm) (by decide)

theorem word?_inj {form form' : CallForm} (hf : form.IsReadable) (hf' : form'.IsReadable)
    {word : String} (h : form.word? = some word) (h' : form'.word? = some word) : form = form' := by
  have hapart : ∀ (op : Operator) (name : String), IsUnreserved name → op.symbol ≠ name := by
    rintro op name hname rfl
    obtain ⟨c, hc, hhead, -⟩ := op.symbol_head
    exact hname c (List.mem_of_head? hhead) hc
  cases form with
  | subscriptGet | subscriptSet => cases h
  | operator op =>
    cases h
    cases form' with
    | subscriptGet | subscriptSet => cases h'
    | operator op' => rw [Operator.symbol_injective (Option.some.inj h')]
    | named name => exact absurd (Option.some.inj h').symm (hapart op name hf')
  | named name =>
    cases h
    cases form' with
    | subscriptGet | subscriptSet => cases h'
    | operator op => exact absurd (Option.some.inj h') (hapart op _ hf)
    | named name' => rw [Option.some.inj h']

/-- The name under which Wren code calls a method has no reserved characters. -/
theorem isUnreserved_methodName {native : String} (h : IsWordName native) :
    IsUnreserved (methodName native) := by
  have hreserved : ∀ c ∈ reserved, c.toNat < 128 ∧ isWord c = false := by decide +kernel
  intro c hc hr
  rw [methodName, String.toList_ofList] at hc
  obtain ⟨hlt, hword⟩ := hreserved c hr
  rw [isWord_of_mem_lowerFirst h hc hlt] at hword
  cases hword

theorem isReadable_ofNative {native : String} (h : IsWordName native) {form : CallForm}
    (hf : ofNative native = .ok form) : form.IsReadable := by
  cases form with
  | subscriptGet | subscriptSet | operator op => trivial
  | named name =>
    rw [ofNative] at hf
    repeat' split at hf
    all_goals cases hf
    exact isUnreserved_methodName h

/-! ### Signatures -/

theorem call_getter (word : String) (n : Nat) : call word .getter n = word := rfl

theorem call_of_ne_getter {kind : MethodKind} (h : kind ≠ .getter) (word : String) (n : Nat) :
    call word kind n = word ++ "(" ++ placeholders n ++ ")" := by
  cases kind with
  | getter => exact absurd rfl h
  | plain | variadic => rfl

/-- A signature of this form and kind shows the number of arguments. -/
def ShowsCount : CallForm → MethodKind → Prop
  | subscriptGet, _ | subscriptSet, _ => True
  | operator _, kind | named _, kind => kind ≠ .getter

instance : (form : CallForm) → (kind : MethodKind) → Decidable (form.ShowsCount kind)
  | subscriptGet, _ | subscriptSet, _ => inferInstanceAs (Decidable True)
  | operator _, kind | named _, kind => inferInstanceAs (Decidable (kind ≠ .getter))

/-- Two calls of one form that have the same signature: they pass the same number of arguments,
unless both are getters. -/
def SameCall : CallForm → (kind kind' : MethodKind) → (n n' : Nat) → Prop
  | subscriptGet, _, _, n, n' | subscriptSet, _, _, n, n' => n = n'
  | operator _, kind, kind', n, n' | named _, kind, kind', n, n' =>
    (kind = .getter ↔ kind' = .getter) ∧ (¬ (kind = .getter ∧ kind' = .getter) → n = n')

theorem sameCall_iff {form : CallForm} {kind kind' : MethodKind} {n n' : Nat} :
    form.SameCall kind kind' n n' ↔
      (form.ShowsCount kind ↔ form.ShowsCount kind') ∧ (form.ShowsCount kind → n = n') := by
  cases form with
  | subscriptGet | subscriptSet =>
    show n = n' ↔ _
    simp [ShowsCount]
  | operator op | named name =>
    show (kind = .getter ↔ kind' = .getter) ∧ (¬ (kind = .getter ∧ kind' = .getter) → n = n') ↔
      (¬ kind = .getter ↔ ¬ kind' = .getter) ∧ (¬ kind = .getter → n = n')
    rw [not_iff_not]
    refine and_congr_right fun hkinds => ?_
    rw [← hkinds, and_self]

theorem call_inj {word word' : String} (hw : '(' ∉ word.toList) (hw' : '(' ∉ word'.toList)
    {kind kind' : MethodKind} {n n' : Nat} (h : call word kind n = call word' kind' n') :
    word = word' ∧ (kind ≠ .getter ↔ kind' ≠ .getter) ∧ (kind ≠ .getter → n = n') := by
  by_cases hk : kind = .getter
  · by_cases hk' : kind' = .getter
    · subst hk hk'
      exact ⟨h, Iff.rfl, fun hk => absurd rfl hk⟩
    · subst hk
      rw [call_getter, call_of_ne_getter hk'] at h
      exact absurd (h ▸ by simp) hw
  · by_cases hk' : kind' = .getter
    · subst hk'
      rw [call_getter, call_of_ne_getter hk] at h
      exact absurd (h ▸ by simp) hw'
    · rw [call_of_ne_getter hk, call_of_ne_getter hk', ← String.toList_inj] at h
      have hsplit : word.toList ++ '(' :: ((placeholders n).toList ++ [')']) =
          word'.toList ++ '(' :: ((placeholders n').toList ++ [')']) := by simpa using h
      -- Neither word has a parenthesis, so both sides are cut at their first one.
      have hcut := cut?_eq_some_iff.2 ⟨hsplit, hw'⟩
      rw [cut?_eq_some_iff.2 ⟨rfl, hw⟩, Option.some.injEq, Prod.mk.injEq] at hcut
      obtain ⟨hword, hargs⟩ := hcut
      have hn := placeholders_injective (String.toList_inj.1 (List.append_cancel_right hargs))
      exact ⟨String.toList_inj.1 hword, iff_of_true hk hk', fun _ => hn⟩

theorem render_inj_of_word? {form form' : CallForm} (hf : form.IsReadable) (hf' : form'.IsReadable)
    {word word' : String} (hw : form.word? = some word) (hw' : form'.word? = some word')
    {kind kind' : MethodKind} {n n' : Nat} (h : form.render kind n = form'.render kind' n') :
    form = form' ∧ (form.ShowsCount kind ↔ form.ShowsCount kind') ∧
      (form.ShowsCount kind → n = n') := by
  rw [render_of_word? hw, render_of_word? hw'] at h
  obtain ⟨rfl, hcount⟩ := call_inj (word?_spec hf hw).1 (word?_spec hf' hw').1 h
  refine ⟨word?_inj hf hf' hw hw', ?_⟩
  cases form with
  | subscriptGet | subscriptSet => cases hw
  | operator op => exact hcount
  | named name => exact hcount

/-- A signature depends on the number of arguments only if it shows it. -/
theorem render_congr {form : CallForm} {kind kind' : MethodKind} {n n' : Nat}
    (hk : form.ShowsCount kind ↔ form.ShowsCount kind')
    (hn : form.ShowsCount kind → n = n') : form.render kind n = form.render kind' n' := by
  have hcall : ∀ word, (kind ≠ .getter ↔ kind' ≠ .getter) → (kind ≠ .getter → n = n') →
      call word kind n = call word kind' n' := by
    intro word hkinds hcounts
    by_cases hg : kind = .getter
    · rw [hg, not_ne_iff.1 (mt hkinds.2 (not_ne_iff.2 hg)), call_getter, call_getter]
    · rw [call_of_ne_getter hg, call_of_ne_getter (hkinds.1 hg), hcounts hg]
  cases form with
  | subscriptGet | subscriptSet =>
    obtain rfl : n = n' := hn trivial
    rfl
  | operator op => exact hcall op.symbol hk hn
  | named name => exact hcall name hk hn

/-- Only signatures with brackets begin with one. -/
theorem head_render_of_word? {form : CallForm} (hf : form.IsReadable) {word : String}
    (hw : form.word? = some word) (kind : MethodKind) (n : Nat) :
    (form.render kind n).toList.head? ≠ some '[' := by
  have hhead := (word?_spec hf hw).2
  rw [render_of_word? hw]
  by_cases hk : kind = .getter
  · rw [hk, call_getter]
    exact hhead
  · rw [call_of_ne_getter hk, String.append_assoc, String.append_assoc, String.toList_append,
      List.head?_append]
    cases hfirst : word.toList.head? with
    | none => simp
    | some c => simpa [hfirst] using hhead

theorem render_subscriptGet (kind : MethodKind) (n : Nat) :
    subscriptGet.render kind n = "[" ++ placeholders n ++ "]" := rfl

theorem render_subscriptSet (kind : MethodKind) (n : Nat) :
    subscriptSet.render kind n = "[" ++ placeholders (n - 1) ++ "]=(_)" := rfl

theorem head_render_subscript {form : CallForm} (hw : form.word? = none) (kind : MethodKind)
    (n : Nat) : (form.render kind n).toList.head? = some '[' := by
  cases form with
  | subscriptGet => simp [render_subscriptGet]
  | subscriptSet => simp [render_subscriptSet]
  | operator op => cases hw
  | named name => cases hw

theorem render_subscriptGet_ne_subscriptSet (kind kind' : MethodKind) (n n' : Nat) :
    subscriptGet.render kind n ≠ subscriptSet.render kind' n' := by
  intro h
  have hget : (subscriptGet.render kind n).toList.getLast? = some ']' :=
    getLast?_toList_append _ rfl
  have hset : (subscriptSet.render kind' n').toList.getLast? = some ')' :=
    getLast?_toList_append _ rfl
  rw [h, hset] at hget
  cases hget

/-- The number of arguments is one that the form can be called with. -/
def Admits : CallForm → Nat → Prop
  | subscriptSet, n => 0 < n
  | subscriptGet, _ | operator _, _ | named _, _ => True

theorem render_inj_of_subscript {form form' : CallForm} (hw : form.word? = none)
    (hw' : form'.word? = none) {kind kind' : MethodKind} {n n' : Nat} (hn : form.Admits n)
    (hn' : form'.Admits n') (h : form.render kind n = form'.render kind' n') :
    form = form' ∧ (form.ShowsCount kind ↔ form.ShowsCount kind') ∧
      (form.ShowsCount kind → n = n') := by
  cases form with
  | subscriptGet =>
    cases form' with
    | subscriptGet =>
      rw [render_subscriptGet, render_subscriptGet, ← String.toList_inj] at h
      simp only [String.toList_append, List.append_cancel_left_eq, List.append_cancel_right_eq] at h
      exact ⟨rfl, Iff.rfl, fun _ => placeholders_injective (String.toList_inj.1 h)⟩
    | subscriptSet => exact absurd h (render_subscriptGet_ne_subscriptSet kind kind' n n')
    | operator op => cases hw'
    | named name => cases hw'
  | subscriptSet =>
    cases form' with
    | subscriptGet => exact absurd h.symm (render_subscriptGet_ne_subscriptSet kind' kind n' n)
    | subscriptSet =>
      rw [render_subscriptSet, render_subscriptSet, ← String.toList_inj] at h
      simp only [String.toList_append, List.append_cancel_left_eq, List.append_cancel_right_eq] at h
      have hcount := placeholders_injective (String.toList_inj.1 h)
      have hpos : 0 < n := hn
      have hpos' : 0 < n' := hn'
      exact ⟨rfl, Iff.rfl, fun _ => by omega⟩
    | operator op => cases hw'
    | named name => cases hw'
  | operator op => cases hw
  | named name => cases hw

/-- Of one form, any signature that shows the number of arguments tells it. -/
theorem render_injective {form : CallForm} {kind : MethodKind} (hs : form.ShowsCount kind)
    {n n' : Nat} (hn : form.Admits n) (hn' : form.Admits n')
    (h : form.render kind n = form.render kind n') : n = n' := by
  cases hw : form.word? with
  | none => exact (render_inj_of_subscript hw hw hn hn' h).2.2 hs
  | some word =>
    have hk : kind ≠ .getter := by
      cases form with
      | subscriptGet | subscriptSet => cases hw
      | operator op | named name => exact hs
    rw [render_of_word? hw, render_of_word? hw, call_of_ne_getter hk, call_of_ne_getter hk,
      ← String.toList_inj] at h
    simp only [String.toList_append, List.append_cancel_left_eq, List.append_cancel_right_eq] at h
    exact placeholders_injective (String.toList_inj.1 h)

/-- A signature tells its form, and the number of arguments unless it is that of a getter. -/
theorem render_eq_render_iff {form form' : CallForm} (hf : form.IsReadable)
    (hf' : form'.IsReadable) {kind kind' : MethodKind} {n n' : Nat} (hn : form.Admits n)
    (hn' : form'.Admits n') : form.render kind n = form'.render kind' n' ↔
      form = form' ∧ (form.ShowsCount kind ↔ form.ShowsCount kind') ∧
        (form.ShowsCount kind → n = n') := by
  constructor
  · intro h
    cases hw : form.word? with
    | none =>
      cases hw' : form'.word? with
      | none => exact render_inj_of_subscript hw hw' hn hn' h
      | some word =>
        have hhead := head_render_of_word? hf' hw' kind' n'
        rw [← h, head_render_subscript hw] at hhead
        exact absurd rfl hhead
    | some word =>
      cases hw' : form'.word? with
      | none =>
        have hhead := head_render_of_word? hf hw kind n
        rw [h, head_render_subscript hw'] at hhead
        exact absurd rfl hhead
      | some word' => exact render_inj_of_word? hf hf' hw hw' h
  · rintro ⟨rfl, hk, hcount⟩
    exact render_congr hk hcount

end CallForm

end WrenGlue.Wren
