import BenchSweep.Decimal.Numeral
import BenchSweep.Text.DecimalDigit

/-! # Log Patterns

    A tool reports a measurement as a fixed phrase followed by a number.  A
    `Pattern` describes one such phrase, `occurrences` finds its matches one
    behind the other, and a measurement counts only when there is exactly one. -/

namespace BenchSweep.Log

/-! ## Section 1: Patterns -/

/-- One part of a pattern. -/
inductive Piece where
  /-- Exactly this text. -/
  | text (phrase : List Char)
  /-- Any number of blanks. -/
  | blanks
  /-- The longest non-empty run of number characters, which is captured. -/
  | run (commas : Bool)
deriving DecidableEq, Repr

/-- A pattern is the sequence of its parts. -/
abbrev Pattern := List Piece

/-- The characters a number is made of: digits of any script, the point, and
    in some formats the comma. -/
def isNumberChar (commas : Bool) (c : Char) : Bool :=
  Text.isDecimalDigit c || c == '.' || (commas && c == ',')

/-- The text behind a phrase that it starts with. -/
def afterPhrase : List Char → List Char → Option (List Char)
  | [], s => some s
  | _ :: _, [] => none
  | p :: ps, c :: s => if p = c then afterPhrase ps s else none

/-- A place where a pattern stands: the runs it captures, and the text behind it. -/
structure Match where
  captured : List (List Char)
  rest : List Char
deriving DecidableEq, Repr

/-- Matches a pattern at the start of a text. -/
def matchHere : Pattern → List Char → Option Match
  | [], s => some ⟨[], s⟩
  | .text phrase :: p, s => (afterPhrase phrase s).bind (matchHere p)
  | .blanks :: p, s => matchHere p (s.dropWhile Text.isBlank)
  | .run commas :: p, s =>
    let number := s.takeWhile (isNumberChar commas)
    if number = [] then none
    else (matchHere p (s.dropWhile (isNumberChar commas))).map fun m =>
      { m with captured := number :: m.captured }

/-- The captured runs of the matches in a text, from left to right.  The first
    characters, `covered` of them, belong to a match before; the search goes on
    behind it. -/
def search (p : Pattern) : Nat → List Char → List (List (List Char))
  | _, [] => []
  | covered + 1, _ :: s => search p covered s
  | 0, c :: s =>
    match matchHere p (c :: s) with
    | some m => m.captured :: search p (s.length - m.rest.length) s
    | none => search p 0 s

/-- The captured runs of all matches in a text. -/
def occurrences (p : Pattern) (s : List Char) : List (List (List Char)) :=
  search p 0 s

theorem afterPhrase_eq_some_iff {phrase s rest : List Char} :
    afterPhrase phrase s = some rest ↔ s = phrase ++ rest := by
  induction phrase generalizing s with
  | nil => simp [afterPhrase]
  | cons p ps ih =>
    cases s with
    | nil => simp [afterPhrase]
    | cons c s =>
      by_cases h : p = c
      · simp [afterPhrase, h, ih]
      · simp [afterPhrase, h, Ne.symm h]

/-! ## Section 2: Measurements -/

/-- Where a measurement stands in a log: a pattern and which of its runs is the
    number. -/
structure Measure where
  pattern : Pattern
  group : Nat

/-- The number of a measurement that is reported exactly once.  Two reports are
    ambiguous, and a run that is no number does not count. -/
def Measure.value? (m : Measure) (log : List Char) : Option Float :=
  match occurrences m.pattern log with
  | [captured] => captured[m.group]?.bind Decimal.readGrouped
  | _ => none

/-- A phrase followed by one number. -/
def Measure.after (phrase : String) (commas : Bool) : Measure where
  pattern := [.text phrase.toList, .run commas]
  group := 0

/-- A phrase, a number of transitions and a number of nodes, which is the
    measurement. -/
def Measure.nodes (phrase : String) : Measure where
  pattern := [.text phrase.toList, .run true, .text " transitions, ".toList, .run true,
    .text " MTBDD nodes".toList]
  group := 1

end BenchSweep.Log
