import WrenGlue.Proofs.Text.Name
import WrenGlue.Text.Lowercase

/-! The lower-case form of a word character brings in no character below U+0080 that is not a word
character itself. -/

namespace WrenGlue.Text

theorem toNat_ofNat_of_isValidChar {n : Nat} (h : n.isValidChar) : (Char.ofNat n).toNat = n := by
  rw [Char.ofNat, dif_pos h]
  rfl

/-- A run leads to characters from U+0080 on, or from one character to a letter of ASCII. -/
def CaseRun.IsOutward (r : CaseRun) : Prop :=
  128 ≤ r.lower ∧ (r.lower + (r.last - r.first) < 0xD800 ∨
      0xDFFF < r.lower ∧ r.lower + (r.last - r.first) < 0x110000) ∨
    r.first = r.last ∧ isAsciiWord (Char.ofNat r.lower) = true

instance (r : CaseRun) : Decidable r.IsOutward :=
  inferInstanceAs (Decidable (_ ∨ _))

theorem isOutward_of_mem_caseRuns : ∀ r ∈ caseRuns, r.IsOutward := by decide +kernel

theorem isAsciiWord_of_lower? {r : CaseRun} (hr : r.IsOutward) {m n : Nat}
    (h : r.lower? m = some n) (hlt : (Char.ofNat n).toNat < 128) :
    isAsciiWord (Char.ofNat n) = true := by
  rw [CaseRun.lower?] at h
  split at h
  · rename_i hm
    obtain ⟨hfirst, hlast, -⟩ := hm
    obtain rfl : r.lower + (m - r.first) = n := Option.some.inj h
    rcases hr with ⟨hlow, hvalid⟩ | ⟨heq, hword⟩
    · have hchar : (r.lower + (m - r.first)).isValidChar := by
        unfold Nat.isValidChar
        omega
      rw [toNat_ofNat_of_isValidChar hchar] at hlt
      omega
    · have hzero : m - r.first = 0 := by omega
      rw [hzero]
      exact hword
  · cases h

/-- Nothing but word characters of ASCII comes in below U+0080 with a lower-case form. -/
theorem eq_or_isAsciiWord_of_mem_lowercase {c d : Char} (hd : d ∈ lowercase c)
    (hlt : d.toNat < 128) : d = c ∨ isAsciiWord d = true := by
  rw [lowercase] at hd
  split at hd
  · next hc =>
    have hall : ∀ n < 128, (Char.ofNat n).toLower = Char.ofNat n ∨
        isAsciiWord (Char.ofNat n).toLower = true := by decide +kernel
    have hlower := hall c.toNat hc
    rw [Char.ofNat_toNat] at hlower
    rw [List.mem_singleton.1 hd]
    exact hlower
  · split at hd
    · rcases List.mem_pair.1 hd with rfl | rfl
      · exact .inr (by decide)
      · exact absurd hlt (by decide)
    · split at hd
      · rename_i n hn
        obtain ⟨r, hr, hlower⟩ := List.exists_of_findSome?_eq_some hn
        rw [List.mem_singleton.1 hd] at hlt ⊢
        exact .inr (isAsciiWord_of_lower? (isOutward_of_mem_caseRuns r hr) hlower hlt)
      · exact .inl (List.mem_singleton.1 hd)

theorem isWord_of_mem_lowercase {c d : Char} (h : isWord c = true) (hd : d ∈ lowercase c)
    (hlt : d.toNat < 128) : isWord d = true := by
  rcases eq_or_isAsciiWord_of_mem_lowercase hd hlt with rfl | hword
  · exact h
  · exact isWord_of_isAsciiWord hword

/-- What is below U+0080 and no word character stands in the text itself. -/
theorem mem_of_mem_lowerFirst {text : List Char} {d : Char} (hd : d ∈ lowerFirst text)
    (hlt : d.toNat < 128) (h : isAsciiWord d = false) : d ∈ text := by
  cases text with
  | nil => cases hd
  | cons c rest =>
    rcases List.mem_append.1 hd with hd | hd
    · rcases eq_or_isAsciiWord_of_mem_lowercase hd hlt with rfl | hword
      · exact List.mem_cons_self
      · rw [h] at hword
        cases hword
    · exact List.mem_cons_of_mem _ hd

theorem isWord_of_mem_lowerFirst {text : List Char} (h : ∀ c ∈ text, isWord c = true) {d : Char}
    (hd : d ∈ lowerFirst text) (hlt : d.toNat < 128) : isWord d = true := by
  cases text with
  | nil => cases hd
  | cons c rest =>
    rw [List.forall_mem_cons] at h
    rcases List.mem_append.1 hd with hd | hd
    · exact isWord_of_mem_lowercase h.1 hd hlt
    · exact h.2 d hd

end WrenGlue.Text
