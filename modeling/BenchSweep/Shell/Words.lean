/-! # Command Lines

    Splitting a command line into words as a shell would, and writing words as
    a command line that splits back into them. -/

namespace BenchSweep.Shell

/-! ## Section 1: Splitting -/

/-- Where the splitter stands. -/
inductive Spot where
  /-- Between words. -/
  | gap
  /-- Between words, in a comment. -/
  | comment
  /-- In a word, outside of quotes. -/
  | word
  /-- Behind a backslash outside of quotes. -/
  | escape
  | single
  | double
  /-- Behind a backslash inside double quotes. -/
  | doubleEscape
deriving DecidableEq, Repr

/-- Whether a character separates words. -/
def isSeparator (c : Char) : Bool :=
  c == ' ' || c == '\t' || c == '\n'

/-- Whether a backslash inside double quotes takes the meaning of a character. -/
def isDoubleEscapable (c : Char) : Bool :=
  c == '$' || c == '`' || c == '"' || c == '\\'

/-- Splits from a spot on.  The list collects the characters of the open word in
    reverse; `none` means that quotes or an escape are left open. -/
def splitFrom : Spot → List Char → List Char → Option (List (List Char))
  | .gap, _, [] => some []
  | .comment, _, [] => some []
  | .word, acc, [] => some [acc.reverse]
  | _, _, [] => none
  | .gap, _, c :: s =>
    if isSeparator c then splitFrom .gap [] s
    else if c = '#' then splitFrom .comment [] s
    else if c = '"' then splitFrom .double [] s
    else if c = '\'' then splitFrom .single [] s
    else if c = '\\' then splitFrom .escape [] s
    else splitFrom .word [c] s
  | .comment, _, c :: s => splitFrom (if c = '\n' then .gap else .comment) [] s
  | .word, acc, c :: s =>
    if isSeparator c then (splitFrom .gap [] s).map (acc.reverse :: ·)
    else if c = '"' then splitFrom .double acc s
    else if c = '\'' then splitFrom .single acc s
    else if c = '\\' then splitFrom .escape acc s
    else splitFrom .word (c :: acc) s
  | .escape, acc, c :: s => splitFrom .word (if c = '\n' then acc else c :: acc) s
  | .single, acc, c :: s =>
    if c = '\'' then splitFrom .word acc s else splitFrom .single (c :: acc) s
  | .double, acc, c :: s =>
    if c = '"' then splitFrom .word acc s
    else if c = '\\' then splitFrom .doubleEscape acc s
    else splitFrom .double (c :: acc) s
  | .doubleEscape, acc, c :: s =>
    if c = '\n' then splitFrom .double acc s
    else if isDoubleEscapable c then splitFrom .double (c :: acc) s
    else splitFrom .double (c :: '\\' :: acc) s

/-- Splits a command line into words, unless quotes or an escape are left open. -/
def splitWords (line : List Char) : Option (List (List Char)) :=
  splitFrom .gap [] line

/-! ## Section 2: Quoting -/

/-- The ways in which a stretch of a word may be written. -/
structure Styles where
  bare : Bool
  single : Bool
  double : Bool
deriving DecidableEq, Repr

/-- The styles that fit a character.  A caret stands only behind an opening
    single quote, and what a shell or its history might replace stays out of
    double quotes. -/
def stylesOf (c : Char) : Styles where
  bare := c.isAlphanum || c ∈ ['+', '-', '.', '/', ':', '@', ']', '_']
  single := c ≠ '\'' && c ≠ '^' && c ≠ '\\'
  double := c ≠ '`' && c ≠ '$' && c ≠ '!' && c ≠ '^'

def Styles.meet (a b : Styles) : Styles where
  bare := a.bare && b.bare
  single := a.single && b.single
  double := a.double && b.double

def Styles.any (a : Styles) : Bool :=
  a.bare || a.single || a.double

/-- The longest stretch of characters that one of the styles fits: the styles
    that remain, the stretch, and what follows. -/
def takeStretch (a : Styles) : List Char → Styles × List Char × List Char
  | [] => (a, [], [])
  | c :: s =>
    let b := a.meet (stylesOf c)
    if b.any then
      let (r, stretch, rest) := takeStretch b s
      (r, c :: stretch, rest)
    else (a, [], c :: s)

/-- The first stretch of a word. -/
def firstStretch : List Char → Styles × List Char × List Char
  | '^' :: s =>
    let (r, stretch, rest) := takeStretch ⟨false, true, false⟩ s
    (r, '^' :: stretch, rest)
  | s => takeStretch ⟨true, true, true⟩ s

/-- Writes a stretch in the plainest of its styles. -/
def writeStretch (a : Styles) (stretch : List Char) : List Char :=
  if a.bare then stretch
  else if a.single then '\'' :: stretch ++ ['\'']
  else '"' :: stretch.flatMap (fun c => if isDoubleEscapable c then ['\\', c] else [c]) ++ ['"']

/-- Writes a word stretch by stretch, in at most so many of them. -/
def quoteStretches : Nat → List Char → List Char
  | 0, _ => []
  | _, [] => []
  | n + 1, s =>
    let (a, stretch, rest) := firstStretch s
    writeStretch a stretch ++ quoteStretches n rest

/-- A word as it is written on a command line. -/
def quoteWord (w : List Char) : List Char :=
  if w = [] then ['\'', '\''] else quoteStretches w.length w

/-- Joins texts with a separator between them. -/
def joinWith (separator : List Char) : List (List Char) → List Char
  | [] => []
  | [w] => w
  | w :: ws => w ++ separator ++ joinWith separator ws

/-- The command line of a list of words.  A word with a NUL cannot be written,
    and then all are shown as they are. -/
def commandLine (words : List (List Char)) : List Char :=
  if words.any (·.contains '\x00') then joinWith [' '] words
  else joinWith [' '] (words.map quoteWord)

end BenchSweep.Shell
