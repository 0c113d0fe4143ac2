import WrenGlue.Text.Range

/-! White space, and texts without regard to it: trimming, words, and texts that hold nothing
else. -/

namespace WrenGlue.Text

/-- The property White_Space. -/
def whiteRanges : List (Nat × Nat) :=
  [(0x9, 0xD), (0x20, 0x20), (0x85, 0x85), (0xA0, 0xA0), (0x1680, 0x1680), (0x2000, 0x200A),
    (0x2028, 0x2029), (0x202F, 0x202F), (0x205F, 0x205F), (0x3000, 0x3000)]

def isWhite (c : Char) : Bool := within whiteRanges c

/-- Nothing but white space. -/
def isBlank (text : List Char) : Bool := text.all isWhite

def trimStart (text : List Char) : List Char := text.dropWhile isWhite

def trimEnd (text : List Char) : List Char := (text.reverse.dropWhile isWhite).reverse

def trim (text : List Char) : List Char := trimEnd (trimStart text)

/-- The maximal runs of characters other than white space. -/
def words (text : List Char) : List (List Char) := (text.splitOnP isWhite).filter (! ·.isEmpty)

/-- White space separates words, and nothing of it is part of one. -/
theorem words_append_white {c : Char} (hc : isWhite c = true) (a b : List Char) :
    words (a ++ c :: b) = words a ++ words b := by
  rw [words, List.splitOnP_append_cons a b hc, List.filter_append, ← words, ← words]

theorem words_cons_white {c : Char} (hc : isWhite c = true) (text : List Char) :
    words (c :: text) = words text := by
  rw [← List.nil_append (c :: text), words_append_white hc]
  simp [words]

/-- The text in front of the trailing run of characters with `p`, and that run. -/
def splitTail (p : Char → Bool) (text : List Char) : List Char × List Char :=
  ((text.reverse.dropWhile p).reverse, (text.reverse.takeWhile p).reverse)

theorem splitTail_append (p : Char → Bool) (text : List Char) :
    (splitTail p text).1 ++ (splitTail p text).2 = text := by
  rw [splitTail, ← List.reverse_append, List.takeWhile_append_dropWhile, List.reverse_reverse]

end WrenGlue.Text
