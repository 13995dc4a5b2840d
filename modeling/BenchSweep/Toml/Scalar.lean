import BenchSweep.Decimal.Binary
import BenchSweep.Decimal.Numeral
import BenchSweep.Toml.Value

/-! # TOML Scalars

    Numbers, truth values, dates and times: the values that are written as one
    bare token.  Digits may be grouped by single underscores, a whole number
    has no needless leading zero, and a date exists in the calendar. -/

namespace BenchSweep.Toml

/-! ## Section 1: Grouped digits -/

/-- Removes the underscores of a run of digits; each must stand between two of
    them.  The flag says whether a digit stands just before. -/
def ungroup (isDigit : Char → Bool) : Bool → List Char → Option (List Char)
  | afterDigit, [] => if afterDigit then some [] else none
  | afterDigit, c :: s =>
    if isDigit c then (ungroup isDigit true s).map (c :: ·)
    else if c = '_' ∧ afterDigit then ungroup isDigit false s
    else none

/-- The digits of a whole number without a needless leading zero. -/
def wholeDigits? (s : List Char) : Option (List Char) :=
  match ungroup Char.isDigit false s with
  | some ('0' :: _ :: _) => none
  | other => other

/-- The value of a digit in any radix up to sixteen. -/
def radixValue (c : Char) : Nat :=
  if c.isDigit then c.toNat - '0'.toNat else c.toLower.toNat - 'a'.toNat + 10

/-- Whether a character is a digit of the radix. -/
def isRadixDigit (radix : Nat) (c : Char) : Bool :=
  (c.isDigit || ('a' ≤ c && c ≤ 'f') || ('A' ≤ c && c ≤ 'F')) && radixValue c < radix

/-- The whole number that digits denote in a radix. -/
def radixNumber? (radix : Nat) (s : List Char) : Option Int :=
  (ungroup (isRadixDigit radix) false s).map fun digits =>
    (digits.foldl (fun n c => radix * n + radixValue c) 0 : Nat)

/-! ## Section 2: Numbers -/

/-- Splits off a sign; true for minus. -/
def splitSign : List Char → Bool × List Char
  | '-' :: s => (true, s)
  | '+' :: s => (false, s)
  | s => (false, s)

/-- Reads a whole number. -/
def integer? : List Char → Option Int
  | '0' :: 'x' :: s => radixNumber? 16 s
  | '0' :: 'o' :: s => radixNumber? 8 s
  | '0' :: 'b' :: s => radixNumber? 2 s
  | s =>
    let (negative, digits) := splitSign s
    (wholeDigits? digits).map fun ds =>
      let n : Int := Decimal.naturalOf ds
      if negative then -n else n

/-- Reads the exponent behind its mark. -/
def exponent? (s : List Char) : Option Int :=
  let (negative, digits) := splitSign s
  (ungroup Char.isDigit false digits).map fun ds =>
    let n : Int := Decimal.naturalOf ds
    if negative then -n else n

def isExponentMark (c : Char) : Bool :=
  c == 'e' || c == 'E'

/-- Reads the unsigned finite form of a float: a whole part, then a fraction or
    an exponent or both. -/
def finiteFloat? (s : List Char) : Option Float := do
  let mantissa := s.takeWhile (!isExponentMark ·)
  let power ← match s.dropWhile (!isExponentMark ·) with
    | [] => some 0
    | _ :: e => exponent? e
  let whole ← wholeDigits? (mantissa.takeWhile (· ≠ '.'))
  match mantissa.dropWhile (· ≠ '.') with
  | [] =>
    if mantissa.length = s.length then none
    else some (Decimal.Numeral.value ⟨whole, 0, power⟩)
  | _ :: f =>
    let fraction ← ungroup Char.isDigit false f
    some (Decimal.Numeral.value ⟨whole ++ fraction, fraction.length, power⟩)

/-- Reads a float.  A finite one that is too large for a double is refused. -/
def float? (s : List Char) : Option Float :=
  let (negative, digits) := splitSign s
  let magnitude :=
    if digits = "inf".toList then some (Float.ofBits 0x7ff0000000000000)
    else if digits = "nan".toList then some (Float.ofBits 0x7ff8000000000000)
    else match finiteFloat? digits with
      | some x => if x.isFinite then some x else none
      | none => none
  magnitude.map fun x => if negative then x.neg else x

/-! ## Section 3: Dates and times -/

/-- The number that a few ASCII digits denote. -/
def digits? (s : List Char) : Option Nat :=
  if s.all Char.isDigit then some (Decimal.naturalOf s) else none

/-- The number of days of a month. -/
def daysIn (year month : Nat) : Nat :=
  if month = 2 then
    if year % 4 = 0 ∧ (year % 100 ≠ 0 ∨ year % 400 = 0) then 29 else 28
  else if month = 4 ∨ month = 6 ∨ month = 9 ∨ month = 11 then 30
  else 31

/-- Whether a token begins with a date that exists; the answer is what follows. -/
def afterDate : List Char → Option (List Char)
  | y₁ :: y₂ :: y₃ :: y₄ :: '-' :: m₁ :: m₂ :: '-' :: d₁ :: d₂ :: s => do
    let year ← digits? [y₁, y₂, y₃, y₄]
    let month ← digits? [m₁, m₂]
    let day ← digits? [d₁, d₂]
    if 1 ≤ month ∧ month ≤ 12 ∧ 1 ≤ day ∧ day ≤ daysIn year month then some s else none
  | _ => none

/-- Hours and minutes that exist. -/
def isClock (h₁ h₂ m₁ m₂ : Char) : Bool :=
  match digits? [h₁, h₂], digits? [m₁, m₂] with
  | some h, some m => h ≤ 23 && m ≤ 59
  | _, _ => false

/-- What follows an optional fraction of a second. -/
def afterFraction : List Char → Option (List Char)
  | '.' :: s => if (s.takeWhile Char.isDigit) = [] then none else some (s.dropWhile Char.isDigit)
  | s => some s

/-- What follows an optional number of seconds; a leap second may be the
    sixtieth. -/
def afterSeconds : List Char → Option (List Char)
  | ':' :: s₁ :: s₂ :: s => do
    let seconds ← digits? [s₁, s₂]
    if seconds ≤ 60 then afterFraction s else none
  | ':' :: _ => none
  | s => some s

/-- What follows a time of day; its seconds may be left out. -/
def afterTime : List Char → Option (List Char)
  | h₁ :: h₂ :: ':' :: m₁ :: m₂ :: s => if isClock h₁ h₂ m₁ m₂ then afterSeconds s else none
  | _ => none

/-- Whether a text is nothing or the offset of a time zone. -/
def isOffset : List Char → Bool
  | [] => true
  | ['Z'] => true
  | ['z'] => true
  | [sign, h₁, h₂, ':', m₁, m₂] => (sign == '+' || sign == '-') && isClock h₁ h₂ m₁ m₂
  | _ => false

/-- Whether a text is a date, a time of day, or a date with a time of day,
    which alone may carry an offset. -/
def isMoment (s : List Char) : Bool :=
  match afterDate s with
  | some [] => true
  | some (mark :: time) =>
    (mark == 'T' || mark == 't' || mark == ' ') &&
      match afterTime time with
      | some rest => isOffset rest
      | none => false
  | none => afterTime s = some []

/-! ## Section 4: Tokens -/

/-- Whether a whole number has a place in some integer type of at most 128
    bits.  A document with any other is refused. -/
def isWide (n : Int) : Bool :=
  -(Decimal.twoPow 127 : Int) ≤ n && n < Decimal.twoPow 128

/-- The value of a bare token. -/
def scalar? (token : List Char) : Option Value :=
  if token = "true".toList then some (.boolean true)
  else if token = "false".toList then some (.boolean false)
  else match integer? token with
    | some n => if isWide n then some (.integer n) else none
    | none =>
      match float? token with
      | some x => some (.float x)
      | none => if isMoment token then some (.moment (String.ofList token)) else none

/-- Whether a character may stand in a bare token. -/
def isTokenChar (c : Char) : Bool :=
  c.isAlphanum || c == '+' || c == '-' || c == '_' || c == '.' || c == ':'

/-- Splits a bare token off.  A date may be followed by one space and a time. -/
def splitToken (s : List Char) : List Char × List Char :=
  let token := s.takeWhile isTokenChar
  match afterDate token, s.dropWhile isTokenChar with
  | some [], ' ' :: d :: rest =>
    if d.isDigit then
      (token ++ ' ' :: (d :: rest).takeWhile isTokenChar, (d :: rest).dropWhile isTokenChar)
    else (token, ' ' :: d :: rest)
  | _, rest => (token, rest)

/-- Reads a scalar. -/
def readScalar (s : List Char) : Option (Value × List Char) :=
  let (token, rest) := splitToken s
  (scalar? token).map fun v => (v, rest)

end BenchSweep.Toml
