import BenchSweep.Run.Record

/-! # What a Double Holds

    A natural goes through a double unchanged exactly if 53 of its bits say it all.
    Seconds have 64 bits, and what lies beyond them is cut off; so the largest
    number of seconds comes back as well, although the double in between is larger. -/

namespace BenchSweep

namespace Decimal

/-- The natural has at most 53 significant bits. -/
def FitsMantissa (n : Nat) : Prop :=
  ∃ m k, m < twoPow 53 ∧ n = m * twoPow k

/-! ## Section 1: Powers of two -/

theorem twoPow_add (a b : Nat) : twoPow (a + b) = twoPow a * twoPow b :=
  Nat.pow_add 2 a b

theorem twoPow_dvd {a b : Nat} (h : a ≤ b) : twoPow a ∣ twoPow b :=
  Nat.pow_dvd_pow 2 h

theorem lt_twoPow_iff {n k : Nat} (hn : n ≠ 0) : n < twoPow k ↔ n.log2 < k :=
  (Nat.log2_lt hn).symm

/-! ## Section 2: Rounding to 53 bits -/

/-- A multiple is divided without rounding. -/
theorem roundDiv_of_dvd {n unit : Nat} (hpos : 0 < unit) (h : unit ∣ n) :
    roundDiv n unit * unit = n := by
  have hmod : n % unit = 0 := Nat.mod_eq_zero_of_dvd h
  have hdiv : n / unit * unit = n := Nat.div_mul_cancel h
  unfold roundDiv
  simp only [hmod, Nat.mul_zero, if_pos hpos, hdiv]

/-- Nothing is lost of a natural exactly if it has at most 53 significant bits. -/
theorem heldBits_eq_self_iff {n : Nat} : heldBits n = n ↔ FitsMantissa n := by
  by_cases hsmall : n < twoPow 53
  · have hheld : heldBits n = n := if_pos hsmall
    exact ⟨fun _ => ⟨n, 0, hsmall, (Nat.mul_one n).symm⟩, fun _ => hheld⟩
  · have hn : n ≠ 0 := by
      have := twoPow_pos 53
      omega
    have hlog : 53 ≤ n.log2 := by
      have := lt_twoPow_iff (k := 53) hn
      omega
    have hheld : heldBits n = roundDiv n (twoPow (n.log2 - 52)) * twoPow (n.log2 - 52) :=
      if_neg hsmall
    have hpos := twoPow_pos (n.log2 - 52)
    rw [hheld]
    constructor
    · -- The mantissa is what the division by the unit comes to.
      intro heq
      refine ⟨roundDiv n (twoPow (n.log2 - 52)), n.log2 - 52, ?_, heq.symm⟩
      have hbound : n < twoPow (n.log2 + 1) := (lt_twoPow_iff hn).2 (Nat.lt_succ_self _)
      have hexp : n.log2 + 1 = 53 + (n.log2 - 52) := by omega
      rw [hexp, twoPow_add] at hbound
      apply Nat.lt_of_mul_lt_mul_right (a := twoPow (n.log2 - 52))
      rw [heq]
      exact hbound
    · -- A short mantissa leaves at least as many zeros behind it as the unit has.
      rintro ⟨m, k, hm, hk⟩
      have hbound : n < twoPow (53 + k) := by
        rw [hk, twoPow_add]
        exact Nat.mul_lt_mul_of_pos_right hm (twoPow_pos k)
      have hle : n.log2 - 52 ≤ k := by
        have := (lt_twoPow_iff hn).1 hbound
        omega
      have hdvd : twoPow k ∣ n := by
        rw [hk]
        exact Nat.dvd_mul_left _ m
      exact roundDiv_of_dvd hpos (Nat.dvd_trans (twoPow_dvd hle) hdvd)

end Decimal

namespace RunRecord

open Decimal

theorem toNat_heldSeconds (s : UInt64) :
    (heldSeconds s).toNat = min (heldBits s.toNat) (UInt64.size - 1) := by
  unfold heldSeconds
  rw [UInt64.toNat_ofNat']
  apply Nat.mod_eq_of_lt
  have hsize : UInt64.size = 2 ^ 64 := rfl
  omega

/-- The seconds that come back as they were: those with at most 53 significant bits,
    and the largest one. -/
theorem heldSeconds_eq_self_iff {s : UInt64} :
    heldSeconds s = s ↔ FitsMantissa s.toNat ∨ s.toNat = UInt64.size - 1 := by
  rw [← UInt64.toNat_inj, toNat_heldSeconds, ← heldBits_eq_self_iff]
  have hlt := s.toNat_lt_size
  by_cases hmax : s.toNat = UInt64.size - 1
  · -- Rounding takes the largest one out of range, and the cut brings it back.
    have hheld : UInt64.size - 1 ≤ heldBits s.toNat := by
      rw [hmax]
      decide
    omega
  · omega

end RunRecord

end BenchSweep
