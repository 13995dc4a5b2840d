import BenchSweep.Decimal.Shortest
import BenchSweep.Toml.Document

/-! # Writing TOML

    The text of a table: its simple entries line by line, then its tables under
    headers.  A string takes the plainest of the four forms that can hold it. -/

namespace BenchSweep.Toml

/-! ## Section 1: Strings -/

/-- The length of the longest run of a character; the first number is the
    length of the run that is open. -/
def longestRun (q : Char) : Nat → List Char → Nat
  | run, [] => run
  | run, c :: s => if c = q then longestRun q (run + 1) s else max run (longestRun q 0 s)

/-- Whether a character can only be written by an escape. -/
def isControl (c : Char) : Bool :=
  c != '\t' && c != '\n' && !isPlain c

/-- What limits the forms of a string. -/
structure Demands where
  control : Bool
  newline : Bool
  backslash : Bool
  singleRun : Nat
  doubleRun : Nat
deriving DecidableEq, Repr

def demandsOf (s : List Char) : Demands where
  control := s.any isControl
  newline := s.contains '\n'
  backslash := s.contains '\\'
  singleRun := longestRun '\'' 0 s
  doubleRun := longestRun '"' 0 s

/-- The four forms of a string. -/
inductive StringForm where
  | basic
  | literal
  | longBasic
  | longLiteral
deriving DecidableEq, Repr

/-- The form a string is written in: without any escape if there is such a
    form, on one line if it can be. -/
def formOf (d : Demands) : StringForm :=
  if !d.control && !d.newline && !d.backslash && d.doubleRun == 0 then .basic
  else if !d.control && !d.newline && d.singleRun == 0 then .literal
  else if !d.control && !d.backslash && d.doubleRun ≤ 2 then .longBasic
  else if !d.control && d.singleRun ≤ 2 then .longLiteral
  else if d.newline then .longBasic
  else .basic

/-- A code point in four upper-case hexadecimal digits. -/
def numbered (c : Char) : List Char :=
  let digits := (Nat.toDigits 16 c.toNat).map Char.toUpper
  '\\' :: 'u' :: List.replicate (4 - digits.length) '0' ++ digits

/-- A character other than a quote in a basic string. -/
def basicChar (long : Bool) (c : Char) : List Char :=
  if c = '\\' then ['\\', '\\']
  else if c = '\t' then ['\\', 't']
  else if c = '\x08' then ['\\', 'b']
  else if c = '\x0c' then ['\\', 'f']
  else if c = '\r' then ['\\', 'r']
  else if c = '\n' then (if long then ['\n'] else ['\\', 'n'])
  else if isPlain c then [c]
  else numbered c

/-- The content of a basic string.  In the long form two quotes in a row may
    stand as they are; the number counts those just written. -/
def basicContent (long : Bool) : Nat → List Char → List Char
  | _, [] => []
  | run, c :: s =>
    if c = '"' then
      if long ∧ run < 2 then '"' :: basicContent long (run + 1) s
      else '\\' :: '"' :: basicContent long 0 s
    else basicChar long c ++ basicContent long 0 s

/-- A string in a form. -/
def writeForm (form : StringForm) (newline : Bool) (s : List Char) : List Char :=
  let opening := if newline then ['\n'] else []
  match form with
  | .basic => '"' :: basicContent false 0 s ++ ['"']
  | .literal => '\'' :: s ++ ['\'']
  | .longBasic => "\"\"\"".toList ++ opening ++ basicContent true 0 s ++ "\"\"\"".toList
  | .longLiteral => "'''".toList ++ opening ++ s ++ "'''".toList

/-- A string. -/
def writeString (s : List Char) : List Char :=
  let d := demandsOf s
  writeForm (formOf d) d.newline s

/-! ## Section 2: Values -/

/-- Numbers are written without exponent, whole ones with a fraction of zero. -/
def floatLayout : Decimal.Layout where
  tie := .up
  positional := fun _ => true
  wholeMark := ".0"
  exponentMark := ""

def writeFloat (x : Float) : String :=
  if x.isNaN then "nan" else Decimal.shortestText floatLayout x

/-- A key, in quotes where it has to be. -/
def writeKey (k : String) : String :=
  if k ≠ "" ∧ k.toList.all isBareKeyChar then k else String.ofList (writeString k.toList)

mutual

/-- A value behind its key.  An array of several items takes a line for each. -/
def writeValue : Value → String
  | .string s => String.ofList (writeString s.toList)
  | .integer n => toString n
  | .float x => writeFloat x
  | .boolean b => if b then "true" else "false"
  | .moment text => text
  | .array [] => "[]"
  | .array [v] => "[" ++ writeValue v ++ "]"
  | .array (v :: vs) => "[\n    " ++ writeValue v ++ ",\n" ++ writeItems vs ++ "]"
  | .table [] => "\x7b\x7d"
  | .table ((k, v) :: es) =>
    "\x7b " ++ writeKey k ++ " = " ++ writeValue v ++ writePairs es ++ " \x7d"

/-- The lines of the items behind the first. -/
def writeItems : List Value → String
  | [] => ""
  | v :: vs => "    " ++ writeValue v ++ ",\n" ++ writeItems vs

/-- The pairs behind the first. -/
def writePairs : List (String × Value) → String
  | [] => ""
  | (k, v) :: es => ", " ++ writeKey k ++ " = " ++ writeValue v ++ writePairs es

end

/-! ## Section 3: Documents -/

/-- Whether an array is not empty and holds tables only. -/
def isTableList : List Value → Bool
  | [] => false
  | [.table _] => true
  | .table _ :: vs => isTableList vs
  | _ :: _ => false

/-- The lines of the entries that need no header. -/
def writeSimple : Table → String
  | [] => ""
  | (_, .table _) :: es => writeSimple es
  | (k, .array vs) :: es =>
    (if isTableList vs then "" else writeKey k ++ " = " ++ writeValue (.array vs) ++ "\n")
      ++ writeSimple es
  | (k, v) :: es => writeKey k ++ " = " ++ writeValue v ++ "\n" ++ writeSimple es

/-- A dotted key behind a path. -/
def joinPath (path k : String) : String :=
  if path = "" then writeKey k else path ++ "." ++ writeKey k

mutual

/-- The tables of a table, each under its header. -/
def writeTables (path : String) : Table → String
  | [] => ""
  | (k, v) :: es => writeUnder (joinPath path k) v ++ writeTables path es

/-- A value under the headers of its path; nothing if it needs none. -/
def writeUnder (path : String) : Value → String
  | .table es => "\n[" ++ path ++ "]\n" ++ writeSimple es ++ writeTables path es
  | .array vs => if isTableList vs then writeElements path vs else ""
  | _ => ""

/-- The tables of a list, each under a header of its own. -/
def writeElements (path : String) : List Value → String
  | [] => ""
  | .table es :: vs =>
    "\n[[" ++ path ++ "]]\n" ++ writeSimple es ++ writeTables path es ++ writeElements path vs
  | _ :: vs => writeElements path vs

end

/-- The text of a document. -/
def write (t : Table) : String :=
  writeSimple t ++ writeTables "" t

end BenchSweep.Toml
