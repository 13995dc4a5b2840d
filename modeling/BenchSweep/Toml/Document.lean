import BenchSweep.Toml.Scalar
import BenchSweep.Toml.Strings
import BenchSweep.Toml.Tree

/-! # TOML Documents

    Reading a document: statements, each a key with its value or the header of
    a table, with blank lines and comments between them.  Arrays and inline
    tables may spread over lines and end in a comma; neither they nor dotted
    keys go deeper than a fixed limit.  A text that breaks a rule anywhere has
    no value. -/

namespace BenchSweep.Toml

/-- How deep arrays and inline tables may nest, and how many parts a dotted key
    may have. -/
def depthLimit : Nat := 80

/-! ## Section 1: Gaps -/

def isSpace (c : Char) : Bool :=
  c == ' ' || c == '\t'

/-- The text behind spaces and tabs. -/
def skipSpaces (s : List Char) : List Char :=
  s.dropWhile isSpace

/-- The text behind blanks, line breaks and comments.  The flag says whether a
    comment is open. -/
def skipGap : Bool → List Char → Option (List Char)
  | _, [] => some []
  | _, '\n' :: s => skipGap false s
  | _, '\r' :: '\n' :: s => skipGap false s
  | true, c :: s => if isPlain c then skipGap true s else none
  | false, c :: s =>
    if isSpace c then skipGap false s
    else if c = '#' then skipGap true s
    else some (c :: s)

/-- The text behind the end of a statement: spaces, perhaps a comment, and a
    line break or the end of the document. -/
def skipLineEnd (s : List Char) : Option (List Char) :=
  let rest := match skipSpaces s with
    | '#' :: comment => comment.dropWhile isPlain
    | other => other
  match rest with
  | [] => some []
  | '\n' :: rest => some rest
  | '\r' :: '\n' :: rest => some rest
  | _ => none

/-! ## Section 2: Keys -/

/-- Whether a character may stand in a key without quotes. -/
def isBareKeyChar (c : Char) : Bool :=
  c.isAlphanum || c == '_' || c == '-'

/-- Reads one part of a key. -/
def readKeyPart (s : List Char) : Read String :=
  match s with
  | '"' :: _ => (readShort s).map fun p => (String.ofList p.1, p.2)
  | '\'' :: _ => (readShort s).map fun p => (String.ofList p.1, p.2)
  | _ =>
    let bare := s.takeWhile isBareKeyChar
    if bare = [] then none else some (String.ofList bare, s.dropWhile isBareKeyChar)

/-- Reads a dotted key of at most the given number of parts: the parts before
    the last, and the last. -/
def readKeyParts : Nat → List Char → Read (List String × String)
  | 0, _ => none
  | n + 1, s =>
    match readKeyPart s with
    | none => none
    | some (part, rest) =>
      match skipSpaces rest with
      | '.' :: more =>
        (readKeyParts n (skipSpaces more)).map fun p => ((part :: p.1.1, p.1.2), p.2)
      | rest => some (([], part), rest)

/-- Reads a dotted key; the spaces behind it go with it. -/
def readKey (s : List Char) : Read (List String × String) :=
  readKeyParts depthLimit s

/-! ## Section 3: Values -/

/-- Reads items between commas up to a closing bracket.  The first argument
    bounds the number of items. -/
def readItems {α : Type} (close : Char) (item : List Char → Read α) :
    Nat → List Char → Read (List α)
  | 0, _ => none
  | n + 1, s =>
    match skipGap false s with
    | none => none
    | some [] => none
    | some (c :: s) =>
      if c = close then some ([], s)
      else
        match item (c :: s) with
        | none => none
        | some (a, s) =>
          match skipGap false s with
          | some (d :: s) =>
            if d = ',' then (readItems close item n s).map fun p => (a :: p.1, p.2)
            else if d = close then some ([a], s)
            else none
          | _ => none

/-- Reads a key, the equals sign and a value. -/
def readPair (value : List Char → Read Value) (s : List Char) :
    Read ((List String × String) × Value) :=
  match readKey s with
  | some (key, '=' :: s) => (value (skipSpaces s)).map fun p => ((key, p.1), p.2)
  | _ => none

/-- The table that pairs make, one after the other. -/
def tableOf? (pairs : List ((List String × String) × Value)) : Option Table :=
  (pairs.foldlM (fun es p => Entries.assign p.1.1 p.1.2 p.2 .header es) []).map finishEntries

/-- Reads a value that nests at most so deep. -/
def readValue : Nat → List Char → Read Value
  | 0, s =>
    match s with
    | '[' :: _ => none
    | '\x7b' :: _ => none
    | '"' :: _ => (readString s).map fun p => (.string (String.ofList p.1), p.2)
    | '\'' :: _ => (readString s).map fun p => (.string (String.ofList p.1), p.2)
    | _ => readScalar s
  | depth + 1, s =>
    match s with
    | '[' :: rest =>
      (readItems ']' (readValue depth) rest.length rest).map fun p => (.array p.1, p.2)
    | '\x7b' :: rest =>
      match readItems '\x7d' (readPair (readValue depth)) rest.length rest with
      | some (pairs, rest) => (tableOf? pairs).map fun t => (.table t, rest)
      | none => none
    | '"' :: _ => (readString s).map fun p => (.string (String.ofList p.1), p.2)
    | '\'' :: _ => (readString s).map fun p => (.string (String.ofList p.1), p.2)
    | _ => readScalar s

/-! ## Section 4: Statements -/

/-- A document read so far: its tables, and the path of the open one. -/
structure Progress where
  root : Entries
  header : List String

/-- Reads one statement. -/
def readStatement (p : Progress) (s : List Char) : Option (Progress × List Char) :=
  match s with
  | '[' :: '[' :: s =>
    match readKey (skipSpaces s) with
    | some ((path, k), ']' :: ']' :: s) =>
      (Entries.openElement path k p.root).map fun root => (⟨root, path ++ [k]⟩, s)
    | _ => none
  | '[' :: s =>
    match readKey (skipSpaces s) with
    | some ((path, k), ']' :: s) =>
      (Entries.openTable path k p.root).map fun root => (⟨root, path ++ [k]⟩, s)
    | _ => none
  | s =>
    match readPair (readValue depthLimit) s with
    | some (((path, k), v), s) =>
      (Entries.assignIn p.header path k v p.root).map fun root => (⟨root, p.header⟩, s)
    | none => none

/-- Reads at most so many statements, up to the end of the text. -/
def readStatements : Nat → Progress → List Char → Option Entries
  | 0, _, _ => none
  | n + 1, p, s =>
    match skipGap false s with
    | none => none
    | some [] => some p.root
    | some s =>
      match readStatement p s with
      | none => none
      | some (p, s) => (skipLineEnd s).bind (readStatements n p)

/-- A byte order mark before the document does not count. -/
def skipMark : List Char → List Char
  | '\uFEFF' :: s => s
  | s => s

/-- Reads a document. -/
def read (text : String) : Option Table :=
  let s := skipMark text.toList
  (readStatements (s.length + 1) ⟨[], []⟩ s).map finishEntries

end BenchSweep.Toml
