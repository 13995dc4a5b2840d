import BenchSweep.Decimal.Shortest

/-! # JSON Text

    Values of JSON and their text over indented lines.  A double is written
    with the fewest digits that read back, and one that is not finite as
    `null`. -/

namespace BenchSweep.Dump

/-- A JSON value. -/
inductive Json where
  | null
  | natural (n : Nat)
  | number (x : Float)
  | string (s : String)
  | array (items : List Json)
  | object (entries : List (String × Json))

namespace Json

/-! ## Section 1: Scalars -/

/-- Doubles are written without exponent from `1e-5` to `1e16`, and whole ones
    with a fraction of zero. -/
def layout : Decimal.Layout where
  tie := .toEven
  positional := fun p => -5 < p && p ≤ 16
  wholeMark := ".0"
  exponentMark := "+"

/-- The text of a double. -/
def numberText (x : Float) : String :=
  if x.isFinite then Decimal.shortestText layout x else "null"

/-- A code point in four hexadecimal digits. -/
def numbered (c : Char) : List Char :=
  let digits := Nat.toDigits 16 c.toNat
  '\\' :: 'u' :: List.replicate (4 - digits.length) '0' ++ digits

/-- One character inside the quotes. -/
def quotedChar (c : Char) : List Char :=
  if c = '"' ∨ c = '\\' then ['\\', c]
  else if c = '\x08' then ['\\', 'b']
  else if c = '\x0c' then ['\\', 'f']
  else if c = '\n' then ['\\', 'n']
  else if c = '\r' then ['\\', 'r']
  else if c = '\t' then ['\\', 't']
  else if c.toNat < 0x20 then numbered c
  else [c]

/-- A text in quotes. -/
def quoted (s : String) : String :=
  String.ofList ('"' :: s.toList.flatMap quotedChar ++ ['"'])

/-! ## Section 2: Indented text -/

/-- The start of a line at a depth. -/
def newLine (depth : Nat) : String :=
  "\n" ++ String.ofList (List.replicate (2 * depth) ' ')

mutual

/-- The text of a value whose own line is at a depth. -/
def write (depth : Nat) : Json → String
  | .null => "null"
  | .natural n => toString n
  | .number x => numberText x
  | .string s => quoted s
  | .array [] => "[]"
  | .array (j :: js) =>
    "[" ++ newLine (depth + 1) ++ write (depth + 1) j ++ writeItems (depth + 1) js
      ++ newLine depth ++ "]"
  | .object [] => "\x7b\x7d"
  | .object ((k, j) :: es) =>
    "\x7b" ++ newLine (depth + 1) ++ quoted k ++ ": " ++ write (depth + 1) j
      ++ writeEntries (depth + 1) es ++ newLine depth ++ "\x7d"

/-- The text of the items behind the first. -/
def writeItems (depth : Nat) : List Json → String
  | [] => ""
  | j :: js => "," ++ newLine depth ++ write depth j ++ writeItems depth js

/-- The text of the entries behind the first. -/
def writeEntries (depth : Nat) : List (String × Json) → String
  | [] => ""
  | (k, j) :: es =>
    "," ++ newLine depth ++ quoted k ++ ": " ++ write depth j ++ writeEntries depth es

end

/-- The text of a value. -/
def text (j : Json) : String :=
  j.write 0

end Json

end BenchSweep.Dump
