/-! # TOML Strings

    The four ways to write a string: basic strings with escapes, literal
    strings without, and both again over several lines.  Readers take the text
    behind the opening quotes and answer with the content and the text behind
    the closing ones. -/

namespace BenchSweep.Toml

/-- What a reader answers: the value and the text behind it. -/
abbrev Read (α : Type) := Option (α × List Char)

/-! ## Section 1: Characters -/

/-- Whether a character may stand in a string or comment as it is: no control
    characters but the tab. -/
def isPlain (c : Char) : Bool :=
  c == '\t' || (0x20 ≤ c.toNat && c.toNat != 0x7f)

/-- The value of a hexadecimal digit. -/
def hexValue? (c : Char) : Option Nat :=
  if c.isDigit then some (c.toNat - '0'.toNat)
  else if 'a' ≤ c ∧ c ≤ 'f' then some (c.toNat - 'a'.toNat + 10)
  else if 'A' ≤ c ∧ c ≤ 'F' then some (c.toNat - 'A'.toNat + 10)
  else none

/-- The character of a code point, if there is one. -/
def charOf? (n : Nat) : Option Char :=
  if h : n.isValidChar then some (Char.ofNatAux n h) else none

/-- The character of a one-letter escape. -/
def escapeChar? : Char → Option Char
  | 'b' => some '\x08'
  | 't' => some '\t'
  | 'n' => some '\n'
  | 'f' => some '\x0c'
  | 'r' => some '\r'
  | 'e' => some '\x1b'
  | '"' => some '"'
  | '\\' => some '\\'
  | _ => none

/-- How many hexadecimal digits follow an escape letter. -/
def escapeDigits? : Char → Option Nat
  | 'x' => some 2
  | 'u' => some 4
  | 'U' => some 8
  | _ => none

/-- Puts a character before the content that was read. -/
def prepend (c : Char) (r : Read (List Char)) : Read (List Char) :=
  r.map fun p => (c :: p.1, p.2)

/-! ## Section 2: Basic strings -/

/-- Where the reader of a basic string stands. -/
inductive Place where
  | plain
  /-- Behind a backslash. -/
  | escaped
  /-- In a numeric escape, with `more + 1` digits to come. -/
  | digits (more : Nat) (value : Nat)
  /-- Behind a backslash that ends its line; blanks are skipped. -/
  | folded (sawNewline : Bool)
deriving DecidableEq, Repr

/-- Where an escape letter leads: to a character, or to the digits of one. -/
def afterEscape (c : Char) : Option (Char ⊕ Nat) :=
  match escapeChar? c, escapeDigits? c with
  | some d, _ => some (.inl d)
  | none, some n => some (.inr (n - 1))
  | none, none => none

/-- Reads the content of a basic string on one line. -/
def readBasic : Place → List Char → Read (List Char)
  | _, [] => none
  | .plain, c :: s =>
    if c = '"' then some ([], s)
    else if c = '\\' then readBasic .escaped s
    else if isPlain c then prepend c (readBasic .plain s)
    else none
  | .escaped, c :: s =>
    match afterEscape c with
    | some (.inl d) => prepend d (readBasic .plain s)
    | some (.inr more) => readBasic (.digits more 0) s
    | none => none
  | .digits more value, c :: s =>
    match hexValue? c, more with
    | none, _ => none
    | some d, more + 1 => readBasic (.digits more (16 * value + d)) s
    | some d, 0 =>
      match charOf? (16 * value + d) with
      | some e => prepend e (readBasic .plain s)
      | none => none
  | .folded _, _ => none

/-- Reads the content of a basic string over several lines.  Up to two quotes
    may stand before the closing ones. -/
def readLongBasic : Place → List Char → Read (List Char)
  | .plain, '"' :: '"' :: '"' :: '"' :: '"' :: s => some (['"', '"'], s)
  | .plain, '"' :: '"' :: '"' :: '"' :: s => some (['"'], s)
  | .plain, '"' :: '"' :: '"' :: s => some ([], s)
  | .plain, '\r' :: '\n' :: s => prepend '\r' (prepend '\n' (readLongBasic .plain s))
  | .plain, c :: s =>
    if c = '\\' then readLongBasic .escaped s
    else if isPlain c || c == '\n' then prepend c (readLongBasic .plain s)
    else none
  | .escaped, '\r' :: '\n' :: s => readLongBasic (.folded true) s
  | .escaped, c :: s =>
    if c = '\n' then readLongBasic (.folded true) s
    else if c = ' ' ∨ c = '\t' then readLongBasic (.folded false) s
    else match afterEscape c with
      | some (.inl d) => prepend d (readLongBasic .plain s)
      | some (.inr more) => readLongBasic (.digits more 0) s
      | none => none
  | .digits more value, c :: s =>
    match hexValue? c, more with
    | none, _ => none
    | some d, more + 1 => readLongBasic (.digits more (16 * value + d)) s
    | some d, 0 =>
      match charOf? (16 * value + d) with
      | some e => prepend e (readLongBasic .plain s)
      | none => none
  | .folded _, '\r' :: '\n' :: s => readLongBasic (.folded true) s
  | .folded true, '"' :: '"' :: '"' :: '"' :: '"' :: s => some (['"', '"'], s)
  | .folded true, '"' :: '"' :: '"' :: '"' :: s => some (['"'], s)
  | .folded true, '"' :: '"' :: '"' :: s => some ([], s)
  | .folded sawNewline, c :: s =>
    if c = '\n' then readLongBasic (.folded true) s
    else if c = ' ' ∨ c = '\t' then readLongBasic (.folded sawNewline) s
    else if !sawNewline then none
    else if c = '\\' then readLongBasic .escaped s
    else if isPlain c then prepend c (readLongBasic .plain s)
    else none
  | _, [] => none

/-! ## Section 3: Literal strings -/

/-- Reads the content of a literal string on one line. -/
def readLiteral : List Char → Read (List Char)
  | [] => none
  | c :: s =>
    if c = '\'' then some ([], s)
    else if isPlain c then prepend c (readLiteral s)
    else none

/-- Reads the content of a literal string over several lines. -/
def readLongLiteral : List Char → Read (List Char)
  | '\'' :: '\'' :: '\'' :: '\'' :: '\'' :: s => some (['\'', '\''], s)
  | '\'' :: '\'' :: '\'' :: '\'' :: s => some (['\''], s)
  | '\'' :: '\'' :: '\'' :: s => some ([], s)
  | '\r' :: '\n' :: s => prepend '\r' (prepend '\n' (readLongLiteral s))
  | c :: s => if isPlain c || c == '\n' then prepend c (readLongLiteral s) else none
  | [] => none

/-! ## Section 4: Any string -/

/-- A newline right behind the opening quotes of a long string does not count. -/
def skipFirstNewline : List Char → List Char
  | '\n' :: s => s
  | '\r' :: '\n' :: s => s
  | s => s

/-- Reads a string on one line, from its opening quote on. -/
def readShort : List Char → Read (List Char)
  | '"' :: s => readBasic .plain s
  | '\'' :: s => readLiteral s
  | _ => none

/-- Reads a string of any kind, from its opening quotes on. -/
def readString : List Char → Read (List Char)
  | '"' :: '"' :: '"' :: s => readLongBasic .plain (skipFirstNewline s)
  | '\'' :: '\'' :: '\'' :: s => readLongLiteral (skipFirstNewline s)
  | s => readShort s

end BenchSweep.Toml
