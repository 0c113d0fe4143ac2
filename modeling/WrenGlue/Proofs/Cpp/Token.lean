import WrenGlue.Proofs.Cpp.CodeLines
import WrenGlue.Proofs.Cpp.Prototype
import WrenGlue.Proofs.Text.Lines
import WrenGlue.Proofs.Text.Name
import Mathlib.Data.List.Forall2

/-! Code as the tokens that each of its lines gives, literals with the text that they stand for.
`Reads` says what a piece of a line gives wherever it stands, and what it does to the brackets that
are open. It composes along a line, and `ReadsLines` along lines. -/

namespace WrenGlue.Cpp

open WrenGlue.Text

/-! ### Tokens -/

/-- A literal, or a character outside literals. -/
inductive Token where
  | mark (c : Char)
  | literal (text : String)
deriving DecidableEq, Repr

/-- The character that `c` stands for behind a backslash. -/
def unescape? (c : Char) : Option Char :=
  if c = '\\' ∨ c = '"' then some c
  else if c = 'n' then some '\n'
  else if c = 't' then some '\t'
  else none

/-- What the next character belongs to. -/
inductive LexMode where
  | code
  /-- A literal, after `read`, the last character first. -/
  | literal (read : List Char)
  /-- The same, behind a backslash. -/
  | escaped (read : List Char)
deriving DecidableEq, Repr

/-- Characters that stand in literals and comments only: the backslash, the apostrophe and the line
feed. -/
def strays : List Char := ['\\', '\x27', '\n']

/-- The tokens of a line, up to a comment. There are none if a literal is not closed on the line.
Tabs only indent. -/
def lexFrom : LexMode → List Char → Option (List Token)
  | .code, [] => some []
  | .literal _, [] | .escaped _, [] => none
  | .code, c :: rest =>
    if c = '"' then lexFrom (.literal []) rest
    else if c = '/' then if rest.head? = some '/' ∧ '\n' ∉ rest then some [] else none
    else if c = '\t' then lexFrom .code rest
    else if c ∈ strays then none
    else (lexFrom .code rest).map (.mark c :: ·)
  | .literal read, c :: rest =>
    if c = '"' then (lexFrom .code rest).map (.literal (String.ofList read.reverse) :: ·)
    else if c = '\\' then lexFrom (.escaped read) rest
    else if c = '\n' then none
    else lexFrom (.literal (c :: read)) rest
  | .escaped read, c :: rest => do lexFrom (.literal ((← unescape? c) :: read)) rest

def lexLine (line : List Char) : Option (List Token) := lexFrom .code line

/-- The tokens of each line of a text. -/
def lexLines (text : String) : Option (List (List Token)) := (lines text.toList).mapM lexLine

/-- The closing brackets that are awaited behind `c`, the next one first, where `awaited` are in
front of it. A bracket may only close the last one that is open. -/
def await? (awaited : List Char) (c : Char) : Option (List Char) :=
  if c = '(' then some (')' :: awaited)
  else if c = '\x7b' then some ('\x7d' :: awaited)
  else if c = ')' ∨ c = '\x7d' then
    if awaited.head? = some c then some awaited.tail else none
  else some awaited

/-- The closing brackets that are awaited behind tokens. -/
def nest : (awaited : List Char) → List Token → Option (List Char)
  | awaited, [] => some awaited
  | awaited, .literal _ :: rest => nest awaited rest
  | awaited, .mark c :: rest => do nest (← await? awaited c) rest

/-- The brackets of the lines are nested and all of them closed. -/
def IsNested (tokens : List (List Token)) : Prop := nest [] tokens.flatten = some []

/-! ### Quotations -/

def marks (text : String) : List Token := text.toList.map .mark

/-- The code in front of the first literal. -/
def lead : List Token → List Char
  | .mark c :: rest => c :: lead rest
  | _ => []

/-- The texts of the literals. -/
def literals : List Token → List String
  | [] => []
  | .literal text :: rest => text :: literals rest
  | .mark _ :: rest => literals rest

/-- A line with literals: the code in front of them and their texts. -/
structure Quotation where
  lead : String
  literals : List String
deriving DecidableEq, Repr

def quotation? (line : List Token) : Option Quotation :=
  if literals line = [] then none else some ⟨String.ofList (lead line), literals line⟩

/-- The lines with literals, in order. -/
def quotations (tokens : List (List Token)) : List Quotation := tokens.filterMap quotation?

theorem marks_append (a b : String) : marks (a ++ b) = marks a ++ marks b := by
  rw [marks, String.toList_append, List.map_append]
  rfl

theorem lead_marks_append (text : String) (rest : List Token) :
    lead (marks text ++ rest) = text.toList ++ lead rest := by
  rw [marks]
  induction text.toList with
  | nil => rfl
  | cons c chars ih => exact congrArg (c :: ·) ih

theorem literals_append (a b : List Token) : literals (a ++ b) = literals a ++ literals b := by
  induction a with
  | nil => rfl
  | cons t a ih =>
    cases t with
    | mark c => exact ih
    | literal text => exact congrArg (text :: ·) ih

theorem literals_marks (text : String) : literals (marks text) = [] := by
  rw [marks]
  induction text.toList with
  | nil => rfl
  | cons c chars ih => exact ih

theorem quotation?_marks (text : String) : quotation? (marks text) = none := by
  rw [quotation?, if_pos (literals_marks text)]

theorem quotation?_literal (front text : String) (rest : List Token) :
    quotation? (marks front ++ .literal text :: rest) = some ⟨front, text :: literals rest⟩ := by
  have hliterals : literals (marks front ++ .literal text :: rest) = text :: literals rest := by
    rw [literals_append, literals_marks]
    rfl
  rw [quotation?, hliterals, if_neg (List.cons_ne_nil _ _), lead_marks_append]
  simp [lead]

/-! ### Pieces of lines -/

/-- A character that gives itself as a token. -/
def isMark (c : Char) : Bool := decide (c ∉ '"' :: '/' :: '\t' :: strays)

/-- A character that gives itself and is no bracket. -/
def isNeutral (c : Char) : Bool := isMark c && decide (c ∉ ['(', ')', '\x7b', '\x7d'])

/-- A piece of code without literals and brackets. -/
def IsNeutral (text : String) : Prop := ∀ c ∈ text.toList, isNeutral c = true

instance (text : String) : Decidable (IsNeutral text) :=
  inferInstanceAs (Decidable (∀ c ∈ text.toList, isNeutral c = true))

theorem IsNeutral.append {a b : String} (ha : IsNeutral a) (hb : IsNeutral b) :
    IsNeutral (a ++ b) := by
  intro c hc
  rw [String.toList_append, List.mem_append] at hc
  exact hc.elim (ha c) (hb c)

theorem isNeutral_of_isWord {c : Char} (h : isWord c = true) : isNeutral c = true := by
  have hnot : ∀ {other : List Char}, (∀ d ∈ other, isWord d = false) → c ∉ other := by
    intro other hother hc
    rw [hother c hc] at h
    cases h
  exact Bool.and_eq_true_iff.2
    ⟨decide_eq_true (hnot (by decide)), decide_eq_true (hnot (by decide))⟩

theorem IsNeutral.of_wordName {name : String} (h : IsWordName name) : IsNeutral name :=
  fun c hc => isNeutral_of_isWord (h c hc)

theorem lexFrom_mark {c : Char} (h : isMark c = true) (rest : List Char) :
    lexFrom .code (c :: rest) = (lexFrom .code rest).map (.mark c :: ·) := by
  have hmem := of_decide_eq_true h
  simp only [List.mem_cons, not_or] at hmem
  obtain ⟨hquote, hslash, htab, hstray⟩ := hmem
  rw [lexFrom, if_neg hquote, if_neg hslash, if_neg htab, if_neg hstray]

/-- The piece gives the tokens wherever it stands in a line outside literals and comments, and
leaves `after` awaited where `before` was. -/
structure Reads (text : String) (tokens : List Token) (before after : List Char) : Prop where
  lexes : ∀ rest, lexFrom .code (text.toList ++ rest) = (lexFrom .code rest).map (tokens ++ ·)
  nests : ∀ outer rest, nest (before ++ outer) (tokens ++ rest) = nest (after ++ outer) rest

theorem lexFrom_marks {chars : List Char} (h : chars.all isMark = true) (rest : List Char) :
    lexFrom .code (chars ++ rest) = (lexFrom .code rest).map (chars.map .mark ++ ·) := by
  induction chars with
  | nil => simp
  | cons c chars ih =>
    rw [List.all_cons, Bool.and_eq_true] at h
    rw [List.cons_append, lexFrom_mark h.1, ih h.2, Option.map_map]
    rfl

/-- Brackets that are awaited further out make no difference. -/
theorem await?_append {awaited after : List Char} {c : Char} (h : await? awaited c = some after)
    (outer : List Char) : await? (awaited ++ outer) c = some (after ++ outer) := by
  rw [await?] at h ⊢
  by_cases hround : c = '('
  · rw [if_pos hround, Option.some.injEq] at h
    rw [if_pos hround, ← h, List.cons_append]
  by_cases hbrace : c = '\x7b'
  · rw [if_neg hround, if_pos hbrace, Option.some.injEq] at h
    rw [if_neg hround, if_pos hbrace, ← h, List.cons_append]
  rw [if_neg hround, if_neg hbrace] at h ⊢
  by_cases hclose : c = ')' ∨ c = '\x7d'
  · rw [if_pos hclose] at h ⊢
    split at h
    · next hhead =>
      obtain ⟨rest, rfl⟩ := List.head?_eq_some_iff.1 hhead
      obtain rfl := Option.some.inj h
      rw [List.cons_append, List.head?_cons, if_pos rfl, List.tail_cons, List.tail_cons]
    · cases h
  · rw [if_neg hclose, Option.some.injEq] at h
    rw [if_neg hclose, h]

theorem nest_append {tokens : List Token} {before after : List Char}
    (h : nest before tokens = some after) (outer : List Char) (rest : List Token) :
    nest (before ++ outer) (tokens ++ rest) = nest (after ++ outer) rest := by
  induction tokens generalizing before with
  | nil =>
    obtain rfl : before = after := Option.some.inj h
    rfl
  | cons t tokens ih =>
    cases t with
    | literal text => exact ih h
    | mark c =>
      obtain ⟨between, hc, hrest⟩ := Option.bind_eq_some_iff.1 h
      rw [List.cons_append, nest, await?_append hc]
      exact ih hrest

namespace Reads

variable {text a b : String} {tokens s t : List Token} {before between after : List Char}

theorem append (ha : Reads a s before between) (hb : Reads b t between after) :
    Reads (a ++ b) (s ++ t) before after := by
  refine ⟨fun rest => ?_, fun outer rest => ?_⟩
  · rw [String.toList_append, List.append_assoc, ha.lexes, hb.lexes, Option.map_map]
    simp [Function.comp_def]
  · rw [List.append_assoc, ha.nests, hb.nests]

theorem append_marks (ha : Reads a (marks a) before between)
    (hb : Reads b (marks b) between after) : Reads (a ++ b) (marks (a ++ b)) before after := by
  rw [marks_append]
  exact ha.append hb

/-- A piece without literals. -/
theorem of_marks (h : (text.toList.all isMark && nest before (marks text) == some after) = true) :
    Reads text (marks text) before after := by
  rw [Bool.and_eq_true, beq_iff_eq] at h
  exact ⟨lexFrom_marks h.1, nest_append h.2⟩

theorem nest_neutral {chars : List Char} (h : ∀ c ∈ chars, isNeutral c = true)
    (awaited : List Char) : nest awaited (chars.map .mark) = some awaited := by
  induction chars with
  | nil => rfl
  | cons c chars ih =>
    rw [List.forall_mem_cons] at h
    have hc := of_decide_eq_true (Bool.and_eq_true_iff.1 h.1).2
    simp only [List.mem_cons, List.not_mem_nil, or_false, not_or] at hc
    obtain ⟨hround, hround', hbrace, hbrace'⟩ := hc
    rw [List.map_cons, nest, await?, if_neg hround, if_neg hbrace,
      if_neg (not_or.2 ⟨hround', hbrace'⟩)]
    exact ih h.2

theorem of_neutral (h : IsNeutral text) (awaited : List Char) :
    Reads text (marks text) awaited awaited := by
  refine of_marks ?_
  rw [Bool.and_eq_true, beq_iff_eq, List.all_eq_true]
  exact ⟨fun c hc => (Bool.and_eq_true_iff.1 (h c hc)).1, nest_neutral h awaited⟩

theorem frame (h : Reads text tokens before after) (outer : List Char) :
    Reads text tokens (before ++ outer) (after ++ outer) := by
  refine ⟨h.lexes, fun outer' rest => ?_⟩
  rw [List.append_assoc, h.nests, List.append_assoc]

theorem lexFrom_escapeChars {chars : List Char} (h : '\n' ∉ chars) (read rest : List Char) :
    lexFrom (.literal read) (escapeChars chars ++ '"' :: rest) =
      (lexFrom .code rest).map (.literal (String.ofList (read.reverse ++ chars)) :: ·) := by
  -- What was read before grows by the character that the induction takes off.
  induction chars generalizing read with
  | nil => simp [escapeChars, lexFrom]
  | cons c chars ih =>
    rw [List.mem_cons, not_or] at h
    have hstep := ih h.2 (c :: read)
    rw [List.reverse_cons, List.append_assoc, List.singleton_append] at hstep
    rw [escapeChars]
    split
    · next hc =>
      have hslash : ('\\' : Char) ≠ '"' := by decide
      rw [List.cons_append, List.cons_append, lexFrom, if_neg hslash, if_pos rfl, lexFrom,
        unescape?, if_pos hc]
      exact hstep
    · next hc =>
      rw [not_or] at hc
      rw [List.cons_append, lexFrom, if_neg hc.2, if_neg hc.1, if_neg (Ne.symm h.1)]
      exact hstep

/-- The literal for a text. -/
theorem quoted_escape (h : '\n' ∉ text.toList) (awaited : List Char) :
    Reads (quoted (escape text)) [.literal text] awaited awaited := by
  refine ⟨fun rest => ?_, fun outer rest => rfl⟩
  have htext : (quoted (escape text)).toList ++ rest =
      '"' :: (escapeChars text.toList ++ '"' :: rest) := by
    simp [quoted, escape]
  rw [htext, lexFrom, if_pos rfl, lexFrom_escapeChars h]
  simp

theorem quoted (hslash : '\\' ∉ text.toList) (hquote : '"' ∉ text.toList)
    (hline : '\n' ∉ text.toList) (awaited : List Char) :
    Reads (Cpp.quoted text) [.literal text] awaited awaited := by
  have h := quoted_escape hline awaited
  rwa [escape, escapeChars_eq_self hslash hquote, String.ofList_toList] at h

theorem commaList {items : List String} {awaited : List Char}
    (h : ∀ item ∈ items, Reads item (marks item) awaited awaited) :
    Reads (commaList items) (marks (commaList items)) awaited awaited := by
  induction items with
  | nil => exact of_neutral (by decide) awaited
  | cons item items ih =>
    rw [List.forall_mem_cons] at h
    cases items with
    | nil => simpa [Cpp.commaList] using h.1
    | cons next items =>
      have hcomma : Reads ", " (marks ", ") awaited awaited := of_neutral (by decide) awaited
      rw [commaList_cons_cons, marks_append, marks_append]
      exact (h.1.append hcomma).append (ih h.2)

/-- A list of items that are no brackets and no literals. -/
theorem neutralList {items : List String} (h : ∀ item ∈ items, IsNeutral item)
    (awaited : List Char) :
    Reads (Cpp.commaList items) (marks (Cpp.commaList items)) awaited awaited :=
  .commaList fun item hitem => .of_neutral (h item hitem) awaited

theorem openRound (awaited : List Char) : Reads "(" (marks "(") awaited (')' :: awaited) :=
  (of_marks (by decide) : Reads "(" (marks "(") [] [')']).frame awaited

theorem closeRound (awaited : List Char) : Reads ")" (marks ")") (')' :: awaited) awaited :=
  (of_marks (by decide) : Reads ")" (marks ")") [')'] []).frame awaited

theorem openBrace (awaited : List Char) :
    Reads "\x7b" (marks "\x7b") awaited ('\x7d' :: awaited) :=
  (of_marks (by decide) : Reads "\x7b" (marks "\x7b") [] ['\x7d']).frame awaited

theorem closeBrace (awaited : List Char) :
    Reads "\x7d" (marks "\x7d") ('\x7d' :: awaited) awaited :=
  (of_marks (by decide) : Reads "\x7d" (marks "\x7d") ['\x7d'] []).frame awaited

theorem braced {items : List String} (h : ∀ item ∈ items, IsNeutral item) (awaited : List Char) :
    Reads (Cpp.braced items) (marks (Cpp.braced items)) awaited awaited :=
  ((openBrace awaited).append_marks (.neutralList h _)).append_marks (closeBrace awaited)

/-- The end of a call that is a statement. -/
theorem endCall : Reads ");" (marks ");") [')'] [] := of_marks (by decide)

/-- The brace behind the head of a body. -/
theorem openBody : Reads " \x7b" (marks " \x7b") [] ['\x7d'] := of_marks (by decide)

end Reads

/-! ### Lines -/

theorem mapM_eq_pure {M : Type → Type} [Monad M] [LawfulMonad M] {α β : Type} {f : α → M β}
    {l : List α} {out : List β} (h : List.Forall₂ (fun a b => f a = pure b) l out) :
    l.mapM f = pure out := by
  induction h with
  | nil => rfl
  | cons ha _ ih => rw [List.mapM_cons, ha, ih, pure_bind, pure_bind]

theorem forall₂_of_mapM_eq_some {α β : Type} {f : α → Option β} {l : List α} {out : List β}
    (h : l.mapM f = some out) : List.Forall₂ (fun a b => f a = some b) l out := by
  induction l generalizing out with
  | nil =>
    cases h
    exact .nil
  | cons a l ih =>
    rw [List.mapM_cons] at h
    obtain ⟨first, hfirst, h⟩ := Option.bind_eq_some_iff.1 h
    obtain ⟨rest, hrest, h⟩ := Option.bind_eq_some_iff.1 h
    cases h
    exact .cons hfirst (ih hrest)

/-- The lines give tokens with the quotations `quotes`, and leave `after` awaited where `before`
was. -/
def ReadsLines (ls : List String) (quotes : List Quotation) (before after : List Char) : Prop :=
  ∃ tokens, List.Forall₂ (fun line ts => lexLine line.toList = some ts) ls tokens ∧
    quotations tokens = quotes ∧
    ∀ outer rest, nest (before ++ outer) (tokens.flatten ++ rest) = nest (after ++ outer) rest

namespace ReadsLines

variable {ls a b : List String} {quotes qa qb : List Quotation} {before between after : List Char}

theorem nil (awaited : List Char) : ReadsLines [] [] awaited awaited :=
  ⟨[], .nil, rfl, fun _ _ => rfl⟩

theorem append (ha : ReadsLines a qa before between) (hb : ReadsLines b qb between after) :
    ReadsLines (a ++ b) (qa ++ qb) before after := by
  obtain ⟨s, hs, hqa, hna⟩ := ha
  obtain ⟨t, ht, hqb, hnb⟩ := hb
  refine ⟨s ++ t, List.rel_append hs ht, ?_, fun outer rest => ?_⟩
  · rw [quotations, List.filterMap_append, ← quotations, ← quotations, hqa, hqb]
  · rw [List.flatten_append, List.append_assoc, hna, hnb]

theorem flatMap {α : Type} {l : List α} {f : α → List String} {q : α → List Quotation}
    {awaited : List Char} (h : ∀ x ∈ l, ReadsLines (f x) (q x) awaited awaited) :
    ReadsLines (l.flatMap f) (l.flatMap q) awaited awaited := by
  induction l with
  | nil => exact nil awaited
  | cons x l ih =>
    rw [List.forall_mem_cons] at h
    exact h.1.append (ih h.2)

theorem flatMap_nil {α : Type} {l : List α} {f : α → List String} {awaited : List Char}
    (h : ∀ x ∈ l, ReadsLines (f x) [] awaited awaited) :
    ReadsLines (l.flatMap f) [] awaited awaited := by
  have hnone : (l.flatMap fun _ => ([] : List Quotation)) = [] := by simp
  rw [← hnone]
  exact flatMap h

theorem frame (h : ReadsLines ls quotes before after) (outer : List Char) :
    ReadsLines ls quotes (before ++ outer) (after ++ outer) := by
  obtain ⟨tokens, hlex, hquotes, hnest⟩ := h
  refine ⟨tokens, hlex, hquotes, fun outer' rest => ?_⟩
  rw [List.append_assoc, hnest, List.append_assoc]

theorem of_reads {line : String} {tokens : List Token} (h : Reads line tokens before after) :
    ReadsLines [line] (quotation? tokens).toList before after := by
  have hlex := h.lexes []
  rw [List.append_nil, lexFrom, Option.map_some, List.append_nil] at hlex
  refine ⟨[tokens], .cons hlex .nil, ?_, fun outer rest => ?_⟩
  · cases hq : quotation? tokens <;> simp [quotations, hq]
  · simpa using h.nests outer rest

/-- A line without literals. -/
theorem of_marks {line : String} (h : Reads line (marks line) before after) :
    ReadsLines [line] [] before after := by
  have hline := of_reads h
  rwa [quotation?_marks] at hline

/-- A line with literals. -/
theorem of_quotes {line front text : String} {rest : List Token}
    (h : Reads line (marks front ++ .literal text :: rest) before after) :
    ReadsLines [line] [⟨front, text :: literals rest⟩] before after := by
  have hline := of_reads h
  rwa [quotation?_literal] at hline

/-- Lines that are known as a whole. -/
theorem of_closed (h : (ls.mapM fun line => lexLine line.toList).any (fun tokens =>
      quotations tokens == quotes && nest before tokens.flatten == some after) = true) :
    ReadsLines ls quotes before after := by
  cases hlex : ls.mapM fun line => lexLine line.toList with
  | none =>
    rw [hlex] at h
    cases h
  | some tokens =>
    rw [hlex, Option.any_some, Bool.and_eq_true, beq_iff_eq, beq_iff_eq] at h
    exact ⟨tokens, forall₂_of_mapM_eq_some hlex, h.1, nest_append h.2⟩

theorem comment {text : String} (h : '\n' ∉ text.toList) (awaited : List Char) :
    ReadsLines ["//" ++ text] [] awaited awaited := by
  refine ⟨[[]], .cons ?_ .nil, rfl, fun _ _ => rfl⟩
  have hline : ("//" ++ text).toList = '/' :: '/' :: text.toList := by simp
  have hslash : ('/' : Char) ≠ '"' := by decide
  have hrest : ('/' :: text.toList).head? = some '/' ∧ '\n' ∉ '/' :: text.toList := by
    simp [h]
  rw [hline, lexLine, lexFrom, if_neg hslash, if_pos rfl, if_pos hrest]

/-- A body in braces. -/
theorem block {head : String} {tokens : List Token}
    (hhead : Reads (head ++ " \x7b") tokens [] ['\x7d']) (hbody : ReadsLines ls quotes [] []) :
    ReadsLines ((head ++ " \x7b") :: (ls ++ ["\x7d"])) ((quotation? tokens).toList ++ quotes) []
      [] := by
  have hinner := (hbody.frame ['\x7d']).append (of_marks (.closeBrace []))
  rw [List.append_nil] at hinner
  exact (of_reads hhead).append hinner

theorem block_marks {head : String}
    (hhead : Reads (head ++ " \x7b") (marks (head ++ " \x7b")) [] ['\x7d'])
    (hbody : ReadsLines ls quotes [] []) :
    ReadsLines ((head ++ " \x7b") :: (ls ++ ["\x7d"])) quotes [] [] := by
  have hblock := block hhead hbody
  rwa [quotation?_marks] at hblock

end ReadsLines

/-! ### Texts -/

theorem lexFrom_tabs (n : Nat) (line : List Char) :
    lexFrom .code (List.replicate n '\t' ++ line) = lexFrom .code line := by
  induction n with
  | zero => rfl
  | succ n ih =>
    have htab : ('\t' : Char) ≠ '"' ∧ ('\t' : Char) ≠ '/' := by decide
    rw [List.replicate_succ, List.cons_append, lexFrom, if_neg htab.1, if_neg htab.2, if_pos rfl,
      ih]

/-- A text with tokens is a single line. -/
theorem not_mem_of_lexFrom {mode : LexMode} {text : List Char} {tokens : List Token}
    (h : lexFrom mode text = some tokens) : '\n' ∉ text := by
  induction text generalizing mode tokens with
  | nil => exact List.not_mem_nil
  | cons c rest ih =>
    rw [List.mem_cons, not_or]
    cases mode with
    | code =>
      rw [lexFrom] at h
      split_ifs at h with hquote hslash hcomment htab hstray
      · exact ⟨by rw [hquote]; decide, ih h⟩
      · exact ⟨by rw [hslash]; decide, hcomment.2⟩
      · exact ⟨by rw [htab]; decide, ih h⟩
      · obtain ⟨more, hmore, -⟩ := Option.map_eq_some_iff.1 h
        exact ⟨fun hc => hstray (hc ▸ by decide), ih hmore⟩
    | literal read =>
      rw [lexFrom] at h
      split_ifs at h with hquote hslash hline
      · obtain ⟨more, hmore, -⟩ := Option.map_eq_some_iff.1 h
        exact ⟨by rw [hquote]; decide, ih hmore⟩
      · exact ⟨by rw [hslash]; decide, ih h⟩
      · exact ⟨Ne.symm hline, ih h⟩
    | escaped read =>
      obtain ⟨d, hd, hrest⟩ := Option.bind_eq_some_iff.1 h
      refine ⟨?_, ih hrest⟩
      rintro rfl
      cases hd

theorem ReadsLines.not_mem_line {ls : List String} {quotes : List Quotation}
    {before after : List Char} (h : ReadsLines ls quotes before after) :
    ∀ line ∈ ls, '\n' ∉ line.toList := by
  obtain ⟨tokens, hlex, -⟩ := h
  intro line hline
  obtain ⟨i, hi, rfl⟩ := List.getElem_of_mem hline
  exact not_mem_of_lexFrom (hlex.get hi (hlex.length_eq ▸ hi))

/-- The text of code is its lines with tabs in front of them. -/
theorem exists_lines_write (p : Page) (code : Code) : ∃ tabbed,
    (p.write code).text.toList = p.text.toList ++ unlines tabbed ∧
    List.Forall₂ (fun t line => ∃ n, t = List.replicate n '\t' ++ line.toList) tabbed
      code.lines := by
  induction code generalizing p with
  | nil => exact ⟨[], by simp [Page.write], .nil⟩
  | cons step code ih =>
    obtain ⟨tabbed, htext, hlines⟩ := ih (p.put step)
    cases step with
    | line text =>
      have hline : ∃ n, (Page.lineAt p.depth text).toList =
          List.replicate n '\t' ++ text.toList ++ ['\n'] := by
        by_cases hempty : text = ""
        · exact ⟨0, by simp [Page.lineAt, hempty]⟩
        · exact ⟨p.depth, by simp [Page.lineAt, hempty]⟩
      obtain ⟨n, hn⟩ := hline
      refine ⟨(List.replicate n '\t' ++ text.toList) :: tabbed, ?_, .cons ⟨n, rfl⟩ hlines⟩
      have hput : (p.put (.line text)).text.toList = p.text.toList ++
          (List.replicate n '\t' ++ text.toList ++ ['\n']) := by
        rw [← hn, ← String.toList_append]
        rfl
      rw [unlines_cons, Page.write, List.foldl_cons, ← Page.write, htext, hput]
      simp
    | indent => exact ⟨tabbed, htext, hlines⟩
    | dedent => exact ⟨tabbed, htext, hlines⟩

/-- Tabs do not count, so the lines with tabs give the tokens of the lines without. -/
theorem lexLine_of_tabbed {tabbed : List (List Char)} {ls : List String}
    {tokens : List (List Token)}
    (ht : List.Forall₂ (fun t line => ∃ n, t = List.replicate n '\t' ++ String.toList line)
      tabbed ls)
    (hlex : List.Forall₂ (fun line ts => lexLine (String.toList line) = some ts) ls tokens) :
    List.Forall₂ (fun t ts => lexLine t = some ts) tabbed tokens := by
  induction ht generalizing tokens with
  | nil =>
    cases hlex
    exact .nil
  | cons hline _ ih =>
    cases hlex with
    | cons htokens hrest =>
      obtain ⟨n, rfl⟩ := hline
      exact .cons ((lexFrom_tabs n _).trans htokens) (ih hrest)

theorem ReadsLines.lexLines_text {code : Code} {quotes : List Quotation}
    (h : ReadsLines code.lines quotes [] []) : ∃ tokens, lexLines code.text = some tokens ∧
      IsNested tokens ∧ quotations tokens = quotes := by
  obtain ⟨tokens, hlex, hquotes, hnest⟩ := h
  obtain ⟨tabbed, htext, hlines⟩ := exists_lines_write {} code
  have htokens := lexLine_of_tabbed hlines hlex
  have hline : ∀ t ∈ tabbed, '\n' ∉ t := by
    intro t ht
    obtain ⟨i, hi, rfl⟩ := List.getElem_of_mem ht
    exact not_mem_of_lexFrom (htokens.get hi (htokens.length_eq ▸ hi))
  have hnested := hnest [] []
  rw [List.append_nil] at hnested
  refine ⟨tokens, ?_, by simpa [IsNested, nest] using hnested, hquotes⟩
  have hchars : code.text.toList = unlines tabbed := htext
  rw [lexLines, hchars, lines_unlines hline]
  exact mapM_eq_pure htokens

end WrenGlue.Cpp
