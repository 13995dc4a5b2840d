/-! # Decimal Numerals

    Reading a double from text: an optional sign, then digits with at most one
    point and an optional exponent, or one of the words for infinity and NaN.
    Nothing may stand before or after. -/

namespace BenchSweep.Decimal

/-! ## Section 1: Digits -/

/-- The value of an ASCII decimal digit. -/
def digitValue (c : Char) : Nat :=
  c.toNat - '0'.toNat

/-- The number that a list of ASCII digits denotes. -/
def naturalOf (ds : List Char) : Nat :=
  ds.foldl (fun n c => 10 * n + digitValue c) 0

/-- A non-empty run of ASCII digits that fits `bound`, with an optional plus
    sign before it. -/
def boundedNatural (bound : Nat) (text : List Char) : Option Nat :=
  let digits := match text with
    | '+' :: rest => rest
    | other => other
  if digits ≠ [] ∧ digits.all Char.isDigit ∧ naturalOf digits ≤ bound then
    some (naturalOf digits)
  else none

/-! ## Section 2: Numerals -/

/-- A finite numeral: the digits with the point left out, how many of them
    stood behind the point, and the written exponent. -/
structure Numeral where
  digits : List Char
  places : Nat
  power : Int
deriving DecidableEq, Repr

/-- The double nearest to `n * 10 ^ e`.  Exponents far outside the range of
    doubles are settled without forming the power. -/
def scaled (n : Nat) (e : Int) : Float :=
  let top : Int := e + (Nat.toDigits 10 n).length
  if n = 0 then 0
  else if 400 < top then Float.ofBits 0x7ff0000000000000
  else if top < -400 then 0
  else Float.ofScientific n (decide (e < 0)) e.natAbs

/-- The double nearest to the numeral. -/
def Numeral.value (n : Numeral) : Float :=
  scaled (naturalOf n.digits) (n.power - n.places)

/-- The exponent part of a numeral: nothing, or a mark, an optional sign and at
    least one digit. -/
def readPower : List Char → Option Int
  | [] => some 0
  | mark :: rest =>
    if mark = 'e' ∨ mark = 'E' then
      let (negative, digits) := match rest with
        | '-' :: ds => (true, ds)
        | '+' :: ds => (false, ds)
        | ds => (false, ds)
      if digits ≠ [] ∧ digits.all Char.isDigit then
        some (if negative then -(naturalOf digits : Int) else naturalOf digits)
      else none
    else none

/-- Reads an unsigned finite numeral. -/
def Numeral.read (text : List Char) : Option Numeral :=
  let whole := text.takeWhile Char.isDigit
  match text.dropWhile Char.isDigit with
  | '.' :: rest =>
    let fraction := rest.takeWhile Char.isDigit
    if whole = [] ∧ fraction = [] then none
    else (readPower (rest.dropWhile Char.isDigit)).map
      fun power => ⟨whole ++ fraction, fraction.length, power⟩
  | rest =>
    if whole = [] then none
    else (readPower rest).map fun power => ⟨whole, 0, power⟩

/-- Reads an unsigned number: a numeral, or a word in any case. -/
def readUnsigned (text : List Char) : Option Float :=
  let word := text.map Char.toLower
  if word = "inf".toList ∨ word = "infinity".toList then
    some (Float.ofBits 0x7ff0000000000000)
  else if word = "nan".toList then some (Float.ofBits 0x7ff8000000000000)
  else (Numeral.read text).map Numeral.value

/-- Reads a double, with an optional sign. -/
def readNumber : List Char → Option Float
  | '-' :: rest => (readUnsigned rest).map Float.neg
  | '+' :: rest => readUnsigned rest
  | text => readUnsigned text

/-- Reads a number that may hold commas between groups of digits; the commas
    are dropped wherever they stand. -/
def readGrouped (text : List Char) : Option Float :=
  readNumber (text.filter (· ≠ ','))

end BenchSweep.Decimal
