import BenchSweep.Shell.Expand

/-! # Words of Scripts

    A word is written with quotes, parameters and substitutions.  It is read
    into its pieces, and stands for words only when the script runs. -/

namespace BenchSweep.Tool

/-! ## Section 1: Pieces -/

/-- What a dollar sign stands for. -/
inductive Subject where
  | parameter (name : List Char)
  /-- A parameter, or a text where it is not set, or perhaps where it is empty. -/
  | fallback (name : List Char) (evenEmpty : Bool) (text : List Char)
  /-- The length of a parameter. -/
  | length (name : List Char)
  /-- What a script writes. -/
  | output (script : List Char)
  /-- The value of an arithmetic expression. -/
  | number (expression : List Char)
deriving DecidableEq, Repr

/-- A part of a word. -/
inductive Piece where
  | text (s : List Char) (quoted : Bool)
  /-- A value, which is split at blanks unless it is quoted. -/
  | value (s : Subject) (quoted : Bool)
  /-- The home directory. -/
  | home
deriving DecidableEq, Repr

abbrev Word := List Piece

/-! ## Section 2: Characters -/

/-- Whether a character ends a word. -/
def endsWord (c : Char) : Bool :=
  c ∈ [' ', '\t', '\n', ';', '&', '|', '(', ')', '<', '>']

/-- Whether a character stands for itself in a word without quotes. -/
def isPlain (c : Char) : Bool :=
  !endsWord c && c ∉ ['\'', '"', '\\', '$', '`']

def isNameStart (c : Char) : Bool := c.isAlpha || c == '_'

def isNameRest (c : Char) : Bool := c.isAlphanum || c == '_'

/-! ## Section 3: Dollar signs -/

/-- Splits behind the closing one of nested parentheses.  The first argument
    says how many are open; the second one is the quote that is open. -/
def splitParens : Nat → Option Char → List Char → Option (List Char × List Char)
  | _, _, [] => none
  | depth, some q, c :: s =>
    (splitParens depth (if c = q then none else some q) s).map fun p => (c :: p.1, p.2)
  | depth, none, c :: s =>
    if c = ')' ∧ depth = 0 then some ([], s)
    else
      let depth := if c = '(' then depth + 1 else if c = ')' then depth - 1 else depth
      let quote := if c = '\'' ∨ c = '"' then some c else none
      (splitParens depth quote s).map fun p => (c :: p.1, p.2)

/-- Whether a character is the name of a parameter by itself. -/
def isSpecial (c : Char) : Bool :=
  c.isDigit || c ∈ ['@', '*', '#', '?', '$', '!']

/-- What stands for a text in braces. -/
def inBraces (s : List Char) : Subject :=
  let split := match s with
    | c :: rest =>
      if isSpecial c then ([c], rest) else (s.takeWhile isNameRest, s.dropWhile isNameRest)
    | [] => ([], [])
  match split with
  | (name, ':' :: '-' :: text) => .fallback name true text
  | (name, '-' :: text) => .fallback name false text
  | (['#'], c :: name) => .length (c :: name)
  | _ => .parameter s

/-- What stands for a text in parentheses. -/
def inParens (s : List Char) : Subject :=
  if s.head? = some '(' ∧ s.getLast? = some ')' then .number (s.drop 1).dropLast else .output s

/-- What a dollar sign stands for, and what follows it. -/
def readSubject : List Char → Option (Subject × List Char)
  | '\x7b' :: s => (Shell.splitAt? '\x7d' s).map fun p => (inBraces p.1, p.2)
  | '(' :: s => (splitParens 0 none s).map fun p => (inParens p.1, p.2)
  | c :: s =>
    if isNameStart c then some (.parameter (c :: s.takeWhile isNameRest), s.dropWhile isNameRest)
    else if isSpecial c then some (.parameter [c], s)
    else none
  | [] => none

/-- A dollar sign and what it stands for. -/
def readDollar (quoted : Bool) (s : List Char) : Piece × List Char :=
  match readSubject s with
  | some (subject, rest) => (.value subject quoted, rest)
  | none => (.text ['$'] quoted, s)

/-- A script between backquotes. -/
def readBackquote (quoted : Bool) (s : List Char) : Option (Piece × List Char) :=
  (Shell.splitAt? '`' s).map fun p => (.value (.output p.1) quoted, p.2)

/-! ## Section 4: Reading words -/

/-- The pieces between double quotes, and what follows them. -/
def readDouble : Nat → List Char → Option (List Piece × List Char)
  | 0, _ => none
  | _, [] => none
  | _, '"' :: s => some ([], s)
  | n + 1, '\\' :: c :: s => do
    let literal := if c ∈ ['$', '`', '"', '\\'] then [c] else if c = '\n' then [] else ['\\', c]
    let (pieces, rest) ← readDouble n s
    return (.text literal true :: pieces, rest)
  | n + 1, '$' :: s => do
    let (piece, s) := readDollar true s
    let (pieces, rest) ← readDouble n s
    return (piece :: pieces, rest)
  | n + 1, '`' :: s => do
    let (piece, s) ← readBackquote true s
    let (pieces, rest) ← readDouble n s
    return (piece :: pieces, rest)
  | n + 1, c :: s => do
    let (pieces, rest) ← readDouble n s
    return (.text [c] true :: pieces, rest)

/-- A word and what follows it. -/
def readWord : Nat → List Char → Option (Word × List Char)
  | 0, s => some ([], s)
  | _, [] => some ([], [])
  | n + 1, c :: s =>
    if endsWord c then some ([], c :: s)
    else if c = '\'' then
      match s.dropWhile (· ≠ '\'') with
      | _ :: rest => do
        let (pieces, rest) ← readWord n rest
        return (.text (s.takeWhile (· ≠ '\'')) true :: pieces, rest)
      | [] => none
    else if c = '"' then do
      let (inside, rest) ← readDouble n s
      let (pieces, rest) ← readWord n rest
      return (.text [] true :: inside ++ pieces, rest)
    else if c = '\\' then
      match s with
      | d :: rest => do
        let (pieces, rest) ← readWord n rest
        return (if d = '\n' then pieces else .text [d] true :: pieces, rest)
      | [] => some ([.text ['\\'] true], [])
    else if c = '$' then do
      let (piece, rest) := readDollar false s
      let (pieces, rest) ← readWord n rest
      return (piece :: pieces, rest)
    else if c = '`' then do
      let (piece, rest) ← readBackquote false s
      let (pieces, rest) ← readWord n rest
      return (piece :: pieces, rest)
    else do
      let (pieces, rest) ← readWord n (s.dropWhile isPlain)
      return (.text (c :: s.takeWhile isPlain) false :: pieces, rest)

/-- A whole word, which may begin with the home directory, and what follows. -/
def readWhole (n : Nat) (s : List Char) : Option (Word × List Char) :=
  match s with
  | '~' :: rest =>
    if rest.head?.all fun c => c = '/' || endsWord c then
      (readWord n rest).map fun p => (.home :: p.1, p.2)
    else readWord n s
  | _ => readWord n s

end BenchSweep.Tool
