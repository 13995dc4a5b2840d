import BenchSweep.Decimal.Binary

/-! # Shortest Decimals

    The fewest decimal digits that read back as a given double, and of those
    the nearest to it.  `shortest` finds the digits; a `Layout` decides how
    they are written: where positional notation ends, and what follows a whole
    number. -/

namespace BenchSweep.Decimal

/-! ## Section 1: The digits -/

/-- The decimal `coefficient * 10 ^ exponent`. -/
structure Digits where
  coefficient : Nat
  exponent : Int
deriving DecidableEq, Repr

/-- Which of two equally near decimals is taken. -/
inductive Tie where
  | up
  | toEven
deriving DecidableEq, Repr

/-- The number of decimal digits of `n`, and one for zero. -/
def digitCount (n : Nat) : Nat :=
  (Nat.toDigits 10 n).length

/-- The power `p` with `10 ^ (p - 1) ≤ v < 10 ^ p`. -/
def magnitudeOf (v : Quotient) : Int :=
  let guess : Int := digitCount v.num - digitCount v.den
  if 0 ≤ guess then
    if v.num < v.den * tenPow guess.toNat then guess else guess + 1
  else
    if v.num * tenPow (-guess).toNat < v.den then guess else guess + 1

/-- `v / 10 ^ e` as a quotient. -/
def Quotient.inUnits (v : Quotient) (e : Int) : Quotient :=
  if 0 ≤ e then ⟨v.num, v.den * tenPow e.toNat⟩ else ⟨v.num * tenPow (-e).toNat, v.den⟩

/-- Whether the decimal `c * 10 ^ e` reads back as the magnitude `b`. -/
def readsBack (b : Binary) (c : Nat) (e : Int) : Bool :=
  let low := b.lowerMidpoint.inUnits e
  let high := b.upperMidpoint.inUnits e
  if b.ownsMidpoints then low.num ≤ c * low.den && c * high.den ≤ high.num
  else low.num < c * low.den && c * high.den < high.num

/-- Of the two multiples of `10 ^ e` around the magnitude, the one that reads
    back; of two that do, the nearer. -/
def onGrid (tie : Tie) (b : Binary) (e : Int) : Option Nat :=
  let v := b.toQuotient.inUnits e
  let below := v.num / v.den
  let rest := v.num % v.den
  let above := below + 1
  match readsBack b below e, readsBack b above e with
  | true, true =>
    if 2 * rest < v.den then some below
    else if v.den < 2 * rest then some above
    else match tie with
      | .up => some above
      | .toEven => some (if below % 2 = 0 then below else above)
  | true, false => some below
  | false, true => some above
  | false, false => none

/-- Removes the zeros that end a coefficient. -/
def Digits.trimFuel : Nat → Digits → Digits
  | 0, d => d
  | n + 1, d =>
    if d.coefficient % 10 = 0 then
      Digits.trimFuel n ⟨d.coefficient / 10, d.exponent + 1⟩
    else d

/-- The same decimal with no zero at the end of its coefficient. -/
def Digits.trim (d : Digits) : Digits :=
  if d.coefficient = 0 then ⟨0, 0⟩ else Digits.trimFuel (digitCount d.coefficient) d

/-- The digits on the first of the grids with `n`, `n + 1`, ... digits that has
    a point which reads back; seventeen digits always do. -/
def searchGrids (tie : Tie) (b : Binary) (p : Int) : Nat → Nat → Digits
  | 0, _ => ⟨b.mantissa, 0⟩
  | fuel + 1, n =>
    match onGrid tie b (p - n) with
    | some c => Digits.trim ⟨c, p - n⟩
    | none => searchGrids tie b p fuel (n + 1)

/-- The shortest decimal that reads back as the magnitude. -/
def shortest (tie : Tie) (b : Binary) : Digits :=
  if b.mantissa = 0 then ⟨0, 0⟩
  else searchGrids tie b (magnitudeOf b.toQuotient) 18 1

/-! ## Section 2: The layout -/

/-- How the digits of a double are written out. -/
structure Layout where
  /-- Which of two equally near shortest decimals is taken. -/
  tie : Tie
  /-- Whether a value in `[10 ^ (p - 1), 10 ^ p)` is written without exponent. -/
  positional : Int → Bool
  /-- What follows a whole number in positional notation. -/
  wholeMark : String
  /-- What stands before an exponent that is not negative. -/
  exponentMark : String

/-- `n` zeros. -/
def zeros (n : Nat) : String :=
  String.ofList (List.replicate n '0')

/-- The digits without exponent. -/
def Digits.positional (wholeMark : String) (d : Digits) : String :=
  let text := Nat.toDigits 10 d.coefficient
  if 0 ≤ d.exponent then
    String.ofList text ++ zeros d.exponent.toNat ++ wholeMark
  else
    let places := (-d.exponent).toNat
    if places < text.length then
      String.ofList (text.take (text.length - places)) ++ "."
        ++ String.ofList (text.drop (text.length - places))
    else
      "0." ++ zeros (places - text.length) ++ String.ofList text

/-- One digit, the fraction if any, and the exponent. -/
def Digits.scientific (exponentMark : String) (d : Digits) : String :=
  let text := Nat.toDigits 10 d.coefficient
  let power : Int := d.exponent + text.length - 1
  let lead := String.ofList (text.take 1)
  let fraction := String.ofList (text.drop 1)
  let mantissa := if text.length = 1 then lead else lead ++ "." ++ fraction
  mantissa ++ "e" ++ (if 0 ≤ power then exponentMark else "-") ++ toString power.natAbs

/-- Writes the digits in the given layout. -/
def Digits.render (layout : Layout) (d : Digits) : String :=
  if layout.positional (d.exponent + digitCount d.coefficient) then
    d.positional layout.wholeMark
  else d.scientific layout.exponentMark

/-- The sign of a negative number. -/
def signText (negative : Bool) : String :=
  if negative then "-" else ""

/-- The text of a double: its shortest decimal in the given layout, `NaN`, or
    `inf` with its sign. -/
def shortestText (layout : Layout) (x : Float) : String :=
  match meaning x with
  | .nan => "NaN"
  | .infinite negative => signText negative ++ "inf"
  | .finite negative b => signText negative ++ (shortest layout.tie b).render layout

/-- Numbers in messages are written without exponent, however long, and whole
    ones without a point. -/
def plainLayout : Layout where
  tie := .up
  positional := fun _ => true
  wholeMark := ""
  exponentMark := ""

/-- The text of a double in a message. -/
def plainText (x : Float) : String :=
  shortestText plainLayout x

end BenchSweep.Decimal
