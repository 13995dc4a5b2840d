import BenchSweep.Decimal.Numeral
import BenchSweep.Text.Blank

/-! # Written Naturals

    A natural is written with its decimal digits.  Nothing but digits stands in
    it, and reading it gives the natural back, whatever blanks are trimmed. -/

namespace BenchSweep.Decimal

/-! ## Section 1: Digits -/

theorem toList_toString (n : Nat) : (toString n).toList = Nat.toDigits 10 n := by
  rw [Nat.toString_eq_ofList_toDigits, String.toList_ofList]

theorem isDigit_of_mem_toString {n : Nat} {c : Char} (h : c ∈ (toString n).toList) :
    c.isDigit := by
  rw [toList_toString] at h
  exact Nat.isDigit_of_mem_toDigits (by decide) (by decide) h

theorem toString_ne_nil (n : Nat) : (toString n).toList ≠ [] := by
  rw [toList_toString]
  exact Nat.toDigits_ne_nil

/-- A character that is no digit does not stand in a written natural. -/
theorem notMem_toString {n : Nat} {c : Char} (h : c.isDigit = false) :
    c ∉ (toString n).toList := by
  intro hc
  rw [isDigit_of_mem_toString hc] at h
  cases h

/-! ## Section 2: Reading back -/

theorem naturalOf_eq_ofDigitChars (ds : List Char) :
    naturalOf ds = Nat.ofDigitChars 10 ds 0 := by
  rw [naturalOf, Nat.ofDigitChars_eq_foldl]
  rfl

@[simp] theorem naturalOf_toString (n : Nat) : naturalOf (toString n).toList = n := by
  rw [toList_toString, naturalOf_eq_ofDigitChars, Nat.ofDigitChars_ten_toDigits]

theorem toString_inj {m n : Nat} (h : (toString m).toList = (toString n).toList) : m = n := by
  rw [← naturalOf_toString m, h, naturalOf_toString]

/-- A digit is no blank. -/
theorem isBlank_of_isDigit {c : Char} (h : c.isDigit) : Text.isBlank c = false := by
  have hlow : '0'.toNat ≤ c.toNat ∧ c.toNat ≤ '9'.toNat := by
    simpa [Char.isDigit, UInt32.le_iff_toNat_le] using h
  have h0 : '0'.toNat = 48 := rfl
  have h9 : '9'.toNat = 57 := rfl
  simp only [Text.isBlank, Text.inRanges, Text.blankRanges, List.any_cons, List.any_nil,
    Bool.or_eq_false_iff, Bool.and_eq_false_iff, decide_eq_false_iff_not, and_true]
  omega

/-- A text that neither begins nor ends with a blank is its own trim. -/
theorem trim_eq_self {s : List Char} (h : ∀ c ∈ s, Text.isBlank c = false) : Text.trim s = s := by
  have hdrop : ∀ t : List Char, (∀ c ∈ t, Text.isBlank c = false) → t.dropWhile Text.isBlank = t := by
    intro t ht
    cases t with
    | nil => rfl
    | cons c t => rw [List.dropWhile_cons_of_neg]; simp [ht c List.mem_cons_self]
  rw [Text.trim, hdrop s h, hdrop s.reverse (by simpa using h), List.reverse_reverse]

theorem trim_toString (n : Nat) : Text.trim (toString n).toList = (toString n).toList :=
  trim_eq_self fun _ hc => isBlank_of_isDigit (isDigit_of_mem_toString hc)

theorem boundedNatural_of_digits {ds : List Char} {bound : Nat} (hne : ds ≠ [])
    (hall : ∀ c ∈ ds, c.isDigit) (h : naturalOf ds ≤ bound) :
    boundedNatural bound ds = some (naturalOf ds) := by
  cases ds with
  | nil => exact absurd rfl hne
  | cons c rest =>
    have hc : c ≠ '+' := by
      intro heq
      have := hall c List.mem_cons_self
      rw [heq] at this
      exact absurd this (by decide)
    rw [boundedNatural]
    · exact if_pos ⟨hne, List.all_eq_true.2 hall, h⟩
    · rintro tail ⟨⟩
      exact hc rfl

theorem boundedNatural_toString {n bound : Nat} (h : n ≤ bound) :
    boundedNatural bound (toString n).toList = some n := by
  have hread := boundedNatural_of_digits (toString_ne_nil n) (fun _ => isDigit_of_mem_toString)
    (by rwa [naturalOf_toString] : naturalOf (toString n).toList ≤ bound)
  rwa [naturalOf_toString] at hread

end BenchSweep.Decimal
