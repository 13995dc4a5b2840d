import BenchSweep.Decimal.Shortest

/-! # Fixed Places

    Rounding the exact value of a double to a given number of decimal places.
    A value halfway between two decimals goes to the even one. -/

namespace BenchSweep.Decimal

/-! ## Section 1: Rounding a quotient -/

/-- The natural nearest to `num / den`, the even one of two. -/
def roundDiv (num den : Nat) : Nat :=
  let q := num / den
  let r := num % den
  if 2 * r < den then q
  else if den < 2 * r then q + 1
  else if q % 2 = 0 then q else q + 1

/-- The rounded quotient is within half a unit. -/
theorem roundDiv_near (num den : Nat) (h : 0 < den) :
    2 * (roundDiv num den * den) ≤ 2 * num + den ∧
      2 * num ≤ 2 * (roundDiv num den * den) + den := by
  have hd := Nat.div_add_mod num den
  have hm := Nat.mod_lt num h
  have hq : (num / den + 1) * den = den * (num / den) + den := by
    rw [Nat.add_mul, Nat.one_mul, Nat.mul_comm]
  have hq' : num / den * den = den * (num / den) := Nat.mul_comm _ _
  simp only [roundDiv]
  split
  · omega
  · split
    · omega
    · split <;> omega

/-! ## Section 2: The text -/

/-- A natural number of units of `10 ^ -places`, written with that many places. -/
def placesText (places units : Nat) : String :=
  let text := Nat.toDigits 10 units
  let padded := List.replicate (places + 1 - text.length) '0' ++ text
  let whole := String.ofList (padded.take (padded.length - places))
  if places = 0 then whole
  else whole ++ "." ++ String.ofList (padded.drop (padded.length - places))

/-- A double with a fixed number of places.  The sign stays when the digits
    round to zero. -/
def fixedText (places : Nat) (x : Float) : String :=
  match meaning x with
  | .nan => "NaN"
  | .infinite negative => signText negative ++ "inf"
  | .finite negative b =>
    let v := b.toQuotient
    signText negative ++ placesText places (roundDiv (v.num * tenPow places) v.den)

end BenchSweep.Decimal
