import WrenGlue.Proofs.Header.ArgumentRun
import WrenGlue.Proofs.Cpp.Prototype

/-! Where an argument list is cut into entries: at the commas with an even number of quotes in front
of them. White space plays no part in that, so a list whose entries are written anew with other white
space is cut at the same commas. -/

namespace WrenGlue.Header

open WrenGlue.Text
open WrenGlue.Cpp (commaList commaList_cons_cons)

/-- The character at an index of `text` is a comma, with an even number of quotes in front of it. -/
def isCut (text : List Char) (place : Char × Nat) : Bool :=
  place.1 == ',' && (text.take place.2).count '"' % 2 == 0

/-- The pieces of a text between its commas that an even number of quotes stands in front of. -/
def pieces (text : List Char) : List (List Char) :=
  (text.zipIdx.splitOnP (isCut text)).map (·.map Prod.fst)

theorem quotes_append_singleton (before : List Char) (c : Char) :
    ((before ++ [c]).count '"' % 2 == 1) = ((before.count '"' % 2 == 1) != (c == '"')) := by
  by_cases hc : c = '"'
  · subst hc
    rw [List.count_append, List.count_singleton_self, Bool.eq_iff_iff]
    simp
    omega
  · have hquote : (c == '"') = false := beq_eq_false_iff_ne.2 hc
    simp [List.count_append, List.count_singleton, hquote]

/-- The rest of a text is cut as it is behind the text in front of it. -/
theorem splitEntries_behind (before text : List Char) :
    splitEntries (before.count '"' % 2 == 1) text =
      ((text.zipIdx before.length).splitOnP (isCut (before ++ text))).map (·.map Prod.fst) := by
  induction text generalizing before with
  | nil => simp [splitEntries]
  | cons c text ih =>
    have hrest := ih (before ++ [c])
    rw [quotes_append_singleton, List.length_append, List.length_singleton, List.append_assoc,
      List.singleton_append] at hrest
    have htake : (before ++ c :: text).take before.length = before := List.take_left
    rw [List.zipIdx_cons, List.splitOnP_cons_eq_if_modifyHead, splitEntries]
    by_cases hcut : c = ',' ∧ (before.count '"' % 2 == 1) = false
    · obtain ⟨rfl, heven⟩ := hcut
      have hyes : isCut (before ++ ',' :: text) (',', before.length) = true := by
        simpa [isCut, htake] using heven
      rw [heven] at hrest
      rw [if_pos ⟨rfl, heven⟩, if_pos hyes, List.map_cons, List.map_nil, ← hrest]
      rfl
    · have hno : isCut (before ++ c :: text) (c, before.length) = false := by
        refine Bool.eq_false_iff.2 fun hyes => hcut ?_
        simpa [isCut, htake] using hyes
      rw [if_neg hcut, hno, if_neg Bool.false_ne_true, hrest]
      cases (text.zipIdx (before.length + 1)).splitOnP (isCut (before ++ c :: text)) <;> rfl

theorem splitEntries_eq_pieces (text : List Char) : splitEntries false text = pieces text :=
  splitEntries_behind [] text

/-! ### Quotes -/

/-- Whether quotes are open behind a text, where `quoted` tells whether they are in front of it. There
is no answer for a text that is cut, at a comma outside quotes. -/
def quotedAfter? : (quoted : Bool) → List Char → Option Bool
  | quoted, [] => some quoted
  | quoted, c :: rest =>
    if c = ',' ∧ quoted = false then none else quotedAfter? (quoted != (c == '"')) rest

theorem quotedAfter?_filter (quoted : Bool) (text : List Char) :
    quotedAfter? quoted (text.filter (! isWhite ·)) = quotedAfter? quoted text := by
  induction text generalizing quoted with
  | nil => rfl
  | cons c text ih =>
    cases hc : isWhite c with
    | true =>
      have hcomma : c ≠ ',' := ne_of_isWhite hc (by decide)
      have hquote : (c == '"') = false := by simpa using ne_of_isWhite hc (by decide)
      simp [hc, quotedAfter?, hcomma, hquote, ih]
    | false => simp [hc, quotedAfter?, ih]

/-- The entries of a list whose first one begins inside quotes if `quoted`. Only the last one may end
inside them. -/
inductive AreEntries : (quoted : Bool) → List (List Char) → Prop
  | last {quoted : Bool} {entry : List Char} :
      (quotedAfter? quoted entry).isSome → AreEntries quoted [entry]
  | cons {quoted : Bool} {entry : List Char} {entries : List (List Char)} :
      quotedAfter? quoted entry = some false → AreEntries false entries →
      AreEntries quoted (entry :: entries)

theorem AreEntries.modifyHead {quoted : Bool} {c : Char} {entries : List (List Char)}
    (h : AreEntries (quoted != (c == '"')) entries) (hc : ¬ (c = ',' ∧ quoted = false)) :
    AreEntries quoted (entries.modifyHead (c :: ·)) := by
  cases h with
  | last hlast => exact .last (by rwa [quotedAfter?, if_neg hc])
  | cons hfirst hrest => exact .cons (by rwa [quotedAfter?, if_neg hc]) hrest

/-- What a list is cut into are entries. -/
theorem areEntries_splitEntries (quoted : Bool) (text : List Char) :
    AreEntries quoted (splitEntries quoted text) := by
  induction text generalizing quoted with
  | nil => exact .last rfl
  | cons c text ih =>
    rw [splitEntries]
    split
    · next hc =>
      rw [hc.2]
      exact .cons rfl (ih false)
    · next hc => exact (ih _).modifyHead hc

theorem splitEntries_append {quoted after : Bool} {entry : List Char}
    (h : quotedAfter? quoted entry = some after) (rest : List Char) :
    splitEntries quoted (entry ++ rest) = (splitEntries after rest).modifyHead (entry ++ ·) := by
  induction entry generalizing quoted with
  | nil =>
    obtain rfl : quoted = after := Option.some.inj h
    cases hs : splitEntries quoted rest <;> simp [hs]
  | cons c entry ih =>
    rw [quotedAfter?] at h
    split at h
    · cases h
    · next hc =>
      rw [List.cons_append, splitEntries, if_neg hc, ih h]
      cases splitEntries after rest <;> simp

/-- Entries with commas between them are cut apart again. -/
theorem AreEntries.splitEntries_intercalate {quoted : Bool} {entries : List (List Char)}
    (h : AreEntries quoted entries) :
    splitEntries quoted ([','].intercalate entries) = entries := by
  induction h with
  | @last quoted entry hlast =>
    obtain ⟨after, hafter⟩ := Option.isSome_iff_exists.1 hlast
    have hsplit := splitEntries_append hafter []
    rw [List.append_nil] at hsplit
    rw [List.intercalate_singleton, hsplit]
    simp [splitEntries]
  | @cons quoted entry entries hfirst hrest ih =>
    cases entries with
    | nil => cases hrest
    | cons next entries =>
      rw [List.intercalate_cons_cons, List.append_assoc, splitEntries_append hfirst]
      simp [splitEntries, ih]

/-- Other white space makes no other entries. -/
theorem AreEntries.congr {quoted : Bool} {entries entries' : List (List Char)}
    (h : AreEntries quoted entries)
    (hsame : List.Forall₂ (fun a b => a.filter (! isWhite ·) = b.filter (! isWhite ·))
      entries entries') : AreEntries quoted entries' := by
  have hquoted : ∀ {a b : List Char} (q : Bool),
      a.filter (! isWhite ·) = b.filter (! isWhite ·) → quotedAfter? q a = quotedAfter? q b :=
    fun q hab => by rw [← quotedAfter?_filter q, hab, quotedAfter?_filter]
  induction h generalizing entries' with
  | last hlast =>
    cases hsame with
    | cons hab hnil =>
      cases hnil
      exact .last (by rwa [← hquoted _ hab])
  | cons hfirst _ ih =>
    cases hsame with
    | cons hab hrest => exact .cons (by rwa [← hquoted _ hab]) (ih hrest)

/-- A list with commas and spaces is a list with commas whose entries begin with spaces. -/
theorem toList_commaList (item : String) (items : List String) :
    (commaList (item :: items)).toList =
      [','].intercalate (item.toList :: items.map fun item => ' ' :: item.toList) := by
  induction items generalizing item with
  | nil => simp [commaList]
  | cons next items ih =>
    rw [commaList_cons_cons, String.toList_append, String.toList_append, ih, List.map_cons,
      List.intercalate_cons_cons]
    cases items with
    | nil => simp
    | cons other items => simp [List.intercalate_cons_cons]

end WrenGlue.Header
