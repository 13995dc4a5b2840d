/-! # Binary Fractions

    A finite double is an integer times a power of two, both read off its
    64 bits.  Everything this library prints or rounds starts from that exact
    value, so no digit depends on how arithmetic on doubles is carried out. -/

namespace BenchSweep.Decimal

/-! ## Section 1: Powers of the two bases -/

/-- The weight of the binary place `n`. -/
def twoPow (n : Nat) : Nat :=
  Nat.pow 2 n

/-- The weight of the decimal place `n`. -/
def tenPow (n : Nat) : Nat :=
  Nat.pow 10 n

theorem twoPow_pos (n : Nat) : 0 < twoPow n :=
  Nat.pow_pos (by decide)

/-! ## Section 2: The value of a double -/

/-- The exact magnitude `mantissa * 2 ^ exponent` of a finite double. -/
structure Binary where
  mantissa : Nat
  exponent : Int
deriving DecidableEq, Repr

/-- What a double denotes. -/
inductive Meaning where
  | nan
  | infinite (negative : Bool)
  | finite (negative : Bool) (magnitude : Binary)
deriving DecidableEq, Repr

/-- Splits the bits into sign, biased exponent and trailing mantissa.  The
    implicit leading bit is present unless the biased exponent is zero. -/
def Meaning.ofBits (bits : Nat) : Meaning :=
  let negative : Bool := (bits / twoPow 63) % 2 == 1
  let biased : Nat := (bits / twoPow 52) % twoPow 11
  let trailing : Nat := bits % twoPow 52
  if biased = 2047 then
    if trailing = 0 then .infinite negative else .nan
  else if biased = 0 then
    .finite negative ⟨trailing, -1074⟩
  else
    .finite negative ⟨twoPow 52 + trailing, (biased : Int) - 1075⟩

/-- What the double `x` denotes. -/
def meaning (x : Float) : Meaning :=
  Meaning.ofBits x.toBits.toNat

/-! ## Section 3: The value as a quotient -/

/-- A non-negative quotient of two naturals. -/
structure Quotient where
  num : Nat
  den : Nat
deriving DecidableEq, Repr

/-- `n * 2 ^ e` as a quotient. -/
def Quotient.scale (n : Nat) (e : Int) : Quotient :=
  if 0 ≤ e then ⟨n * twoPow e.toNat, 1⟩ else ⟨n, twoPow (-e).toNat⟩

/-- The magnitude as a quotient. -/
def Binary.toQuotient (b : Binary) : Quotient :=
  Quotient.scale b.mantissa b.exponent

/-- Whether the next smaller double is only half as far away as the next
    larger one: the mantissa is a power of two that is not subnormal. -/
def Binary.atBinade (b : Binary) : Bool :=
  b.mantissa = twoPow 52 && b.exponent != -1074

/-- The midpoint between the magnitude and the next smaller double. -/
def Binary.lowerMidpoint (b : Binary) : Quotient :=
  if b.atBinade then Quotient.scale (4 * b.mantissa - 1) (b.exponent - 2)
  else Quotient.scale (2 * b.mantissa - 1) (b.exponent - 1)

/-- The midpoint between the magnitude and the next larger double. -/
def Binary.upperMidpoint (b : Binary) : Quotient :=
  Quotient.scale (2 * b.mantissa + 1) (b.exponent - 1)

/-- Whether a decimal at a midpoint still reads back as this magnitude: ties
    go to the even mantissa. -/
def Binary.ownsMidpoints (b : Binary) : Bool :=
  b.mantissa % 2 == 0

end BenchSweep.Decimal
