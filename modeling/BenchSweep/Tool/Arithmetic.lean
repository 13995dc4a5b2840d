/-! # Arithmetic Expressions

    Whole numbers, names, sums, products and parentheses, as scripts have them
    between double parentheses.  A name that has no value counts as zero. -/

namespace BenchSweep.Tool

/-- An operator between two operands. -/
inductive Operator where
  | add
  | sub
  | mul
  | div
  | rem
deriving DecidableEq, Repr

/-- The operator that a character stands for, if it joins sums or products, as
    `tight` says. -/
def Operator.ofChar? (tight : Bool) (c : Char) : Option Operator :=
  if tight then [('*', .mul), ('/', .div), ('%', .rem)].lookup c
  else [('+', .add), ('-', .sub)].lookup c

/-- The value of an operator; there is none where the divisor is zero. -/
def Operator.result? (o : Operator) (a b : Int) : Option Int :=
  match o with
  | add => some (a + b)
  | sub => some (a - b)
  | mul => some (a * b)
  | div => if b = 0 then none else some (a.tdiv b)
  | rem => if b = 0 then none else some (a.tmod b)

namespace Arithmetic

/-- The value of a name or a numeral. -/
def valueOf (value : String → String) (word : List Char) : Int :=
  let text := String.ofList word
  if word.all Char.isDigit then (text.toInt?).getD 0 else ((value text).toInt?).getD 0

def isWordChar (c : Char) : Bool :=
  c.isAlphanum || c == '_'

mutual

/-- A name, a numeral, or an expression in parentheses, perhaps behind a sign. -/
def readOperand (value : String → String) : Nat → List Char → Option (Int × List Char)
  | 0, _ => none
  | n + 1, s =>
    match s with
    | '-' :: s => (readOperand value n s).map fun p => (-p.1, p.2)
    | '+' :: s => readOperand value n s
    | '$' :: s => readOperand value n s
    | '(' :: s =>
      match readSum value n s with
      | some (x, ')' :: rest) => some (x, rest)
      | _ => none
    | s =>
      let word := s.takeWhile isWordChar
      if word = [] then none else some (valueOf value word, s.dropWhile isWordChar)

/-- Operands behind a first one, joined by products or by sums. -/
def readMore (value : String → String) (tight : Bool) :
    Nat → Int → List Char → Option (Int × List Char)
  | 0, _, _ => none
  | n + 1, x, s =>
    match s with
    | [] => some (x, [])
    | c :: rest =>
      match Operator.ofChar? tight c with
      | none => some (x, c :: rest)
      | some o =>
        match if tight then readOperand value n rest else readProduct value n rest with
        | some (y, rest) => (o.result? x y).bind fun z => readMore value tight n z rest
        | none => none

def readProduct (value : String → String) : Nat → List Char → Option (Int × List Char)
  | 0, _ => none
  | n + 1, s => (readOperand value n s).bind fun p => readMore value true n p.1 p.2

def readSum (value : String → String) : Nat → List Char → Option (Int × List Char)
  | 0, _ => none
  | n + 1, s => (readProduct value n s).bind fun p => readMore value false n p.1 p.2

end

/-- The value of an expression, given the values of names. -/
def eval? (value : String → String) (expression : List Char) : Option Int :=
  let s := expression.filter fun c => c ≠ ' ' && c ≠ '\t' && c ≠ '\n'
  match readSum value (4 * s.length + 4) s with
  | some (x, []) => some x
  | _ => none

end Arithmetic

end BenchSweep.Tool
