import BenchSweep.Decimal.Fixed

/-! # Held Precision

    A double holds a natural number to 53 significant bits.  `heldBits` is the
    natural that is left of `n`, computed on naturals, so that laws about it
    need nothing about doubles. -/

namespace BenchSweep.Decimal

/-- The natural nearest to `n` that has at most 53 significant bits, the even
    mantissa in case of a tie. -/
def heldBits (n : Nat) : Nat :=
  if n < twoPow 53 then n
  else
    let unit := twoPow (n.log2 - 52)
    roundDiv n unit * unit

/-- Up to `2 ^ 53` nothing is lost. -/
theorem heldBits_of_le {n : Nat} (h : n ≤ twoPow 53) : heldBits n = n := by
  rcases Nat.lt_or_eq_of_le h with h | rfl
  · exact if_pos h
  · decide

end BenchSweep.Decimal
