import WrenGlue.Proofs.Text.White
import WrenGlue.Text.WordChar

/-! Names of word characters, and decimal numbers in them: a name with a number at its end says
which number that is, if no digit stands in front of it. -/

namespace WrenGlue.Text

/-- A name of nothing but word characters. -/
def IsWordName (name : String) : Prop := ∀ c ∈ name.toList, isWord c = true

instance (name : String) : Decidable (IsWordName name) :=
  inferInstanceAs (Decidable (∀ c ∈ name.toList, isWord c = true))

theorem IsWordName.not_mem {name : String} (h : IsWordName name) {c : Char}
    (hc : isWord c = false) : c ∉ name.toList := by
  intro hm
  rw [h c hm] at hc
  cases hc

theorem IsWordName.append {a b : String} (ha : IsWordName a) (hb : IsWordName b) :
    IsWordName (a ++ b) := by
  intro c hc
  rw [String.toList_append, List.mem_append] at hc
  exact hc.elim (ha c) (hb c)

theorem getLast?_toList_append (a : String) {b : String} {c : Char}
    (h : b.toList.getLast? = some c) : (a ++ b).toList.getLast? = some c := by
  rw [String.toList_append, List.getLast?_append, h, Option.some_or]

theorem toNat_lt_of_isAsciiWord {c : Char} (h : isAsciiWord c = true) : c.toNat < 128 := by
  have hbelow : ∀ d : Char, c.val ≤ d.val → d.toNat < 128 → c.toNat < 128 := fun d hle hd =>
    Nat.lt_of_le_of_lt (UInt32.le_iff_toNat_le.1 hle) hd
  rcases Bool.or_eq_true_iff.1 h with hc | hc
  · have hcases : ((c.isUpper || c.isLower) || c.isDigit) = true := hc
    rw [Bool.or_eq_true, Bool.or_eq_true] at hcases
    rcases hcases with (hc | hc) | hc
    · exact hbelow 'Z' (of_decide_eq_true hc).2 (by decide)
    · exact hbelow 'z' (of_decide_eq_true (Bool.and_eq_true_iff.1 hc).2) (by decide)
    · exact hbelow '9' (of_decide_eq_true (Bool.and_eq_true_iff.1 hc).2) (by decide)
  · rw [eq_of_beq hc]
    decide

theorem isWord_of_isAsciiWord {c : Char} (h : isAsciiWord c = true) : isWord c = true := by
  rw [isWord_of_lt (toNat_lt_of_isAsciiWord h), h]

/-- A name of characters of ASCII. -/
def IsAscii (name : String) : Prop := ∀ c ∈ name.toList, c.toNat < 128

instance (name : String) : Decidable (IsAscii name) :=
  inferInstanceAs (Decidable (∀ c ∈ name.toList, c.toNat < 128))

theorem isAsciiWord_iff {c : Char} : isAsciiWord c = true ↔ isWord c = true ∧ c.toNat < 128 :=
  ⟨fun h => ⟨isWord_of_isAsciiWord h, toNat_lt_of_isAsciiWord h⟩,
    fun ⟨h, hlt⟩ => isWord_of_lt hlt ▸ h⟩

/-! ### Numbers -/

theorem isDigit_of_mem_toString {n : Nat} {c : Char} (h : c ∈ (toString n).toList) :
    c.isDigit = true := by
  rw [Nat.toString_eq_ofList_toDigits, String.toList_ofList] at h
  exact Nat.isDigit_of_mem_toDigits (by decide) (by decide) h

theorem toString_injective {m n : Nat} (h : toString m = toString n) : m = n := by
  rw [Nat.toString_eq_ofList_toDigits, Nat.toString_eq_ofList_toDigits, String.ofList_inj] at h
  have hvalue := congrArg (fun digits => Nat.ofDigitChars 10 digits 0) h
  simpa [Nat.ofDigitChars_ten_toDigits] using hvalue

theorem isAsciiWord_of_isDigit {c : Char} (h : c.isDigit = true) : isAsciiWord c = true := by
  simp [isAsciiWord, Char.isAlphanum, h]

theorem isWordName_toString (n : Nat) : IsWordName (toString n) := fun _ hc =>
  isWord_of_isAsciiWord (isAsciiWord_of_isDigit (isDigit_of_mem_toString hc))

/-- The number at the end of a name, and what stands in front of it. -/
theorem append_toString_inj {front front' : String} {m n : Nat}
    (hf : front.toList.getLast?.any Char.isDigit = false)
    (hf' : front'.toList.getLast?.any Char.isDigit = false)
    (h : front ++ toString m = front' ++ toString n) : front = front' ∧ m = n := by
  have hsplit : splitTail Char.isDigit (front.toList ++ (toString m).toList) =
      splitTail Char.isDigit (front'.toList ++ (toString n).toList) := by
    rw [← String.toList_append, h, String.toList_append]
  rw [splitTail_eq hf fun _ hc => isDigit_of_mem_toString hc,
    splitTail_eq hf' fun _ hc => isDigit_of_mem_toString hc, Prod.mk.injEq] at hsplit
  exact ⟨String.toList_inj.1 hsplit.1, toString_injective (String.toList_inj.1 hsplit.2)⟩

end WrenGlue.Text
