import BenchSweep.Tool.Word

/-! # Shell Scripts

    The scripts that tools are often wrapped in: commands with redirections,
    put together by sequences, conditions, loops and pipes.  Patterns of file
    names, functions and selections by pattern are not read. -/

namespace BenchSweep.Tool

/-! ## Section 1: Scripts -/

/-- Where a command reads from and writes to. -/
inductive Redirect where
  | input (source : Word)
  | output (fd : Nat) (append : Bool) (target : Word)
  /-- One output goes where another one goes. -/
  | duplicate (fd source : Nat)
deriving DecidableEq, Repr

inductive Script where
  | nothing
  | simple (assignments : List (String × Word)) (words : List Word) (redirects : List Redirect)
  | redirected (s : Script) (redirects : List Redirect)
  /-- Commands whose variables are their own. -/
  | apart (s : Script)
  | sequence (first second : Script)
  | both (first second : Script)
  | either (first second : Script)
  | negate (s : Script)
  | pipe (first second : Script)
  | choice (condition yes no : Script)
  /-- A loop over words, or over the arguments of the script. -/
  | each (name : String) (words : Option (List Word)) (body : Script)
  /-- A loop for as long as the condition holds or fails, as `expected` says. -/
  | loop (expected : Bool) (condition body : Script)
deriving DecidableEq, Repr

/-! ## Section 2: Tokens -/

inductive Token where
  | word (w : Word)
  | redirect (r : Redirect)
  | separator
  | both
  | either
  | pipe
  | opening
  | closing
deriving DecidableEq, Repr

/-- The number of an output, as a duplication names it. -/
def Word.fd? : Word → Option Nat
  | [.text [c] false] => if c.isDigit then some (c.toNat - 48) else none
  | _ => none

/-- A redirection of an output, behind its first angle bracket. -/
def readOutput (n fd : Nat) : List Char → Option (Redirect × List Char)
  | '>' :: s => do
    let (w, rest) ← readWhole n (s.dropWhile (· == ' '))
    return (.output fd true w, rest)
  | '&' :: s => do
    let (w, rest) ← readWord n s
    return (.duplicate fd (← Word.fd? w), rest)
  | s => do
    let (w, rest) ← readWhole n (s.dropWhile (· == ' '))
    return (.output fd false w, rest)

/-- The tokens of a script; `none` where a quote is left open. -/
def tokens : Nat → List Char → Option (List Token)
  | 0, _ => some []
  | _, [] => some []
  | n + 1, ' ' :: s | n + 1, '\t' :: s => tokens n s
  | n + 1, '\\' :: '\n' :: s => tokens n s
  | n + 1, '#' :: s => tokens n (s.dropWhile (· ≠ '\n'))
  | n + 1, '\n' :: s | n + 1, ';' :: s => (.separator :: ·) <$> tokens n s
  | n + 1, '&' :: '&' :: s => (.both :: ·) <$> tokens n s
  | n + 1, '|' :: '|' :: s => (.either :: ·) <$> tokens n s
  | n + 1, '|' :: s => (.pipe :: ·) <$> tokens n s
  | n + 1, '&' :: s => (.separator :: ·) <$> tokens n s
  | n + 1, '(' :: s => (.opening :: ·) <$> tokens n s
  | n + 1, ')' :: s => (.closing :: ·) <$> tokens n s
  | n + 1, '<' :: s => do
    let (w, rest) ← readWhole n (s.dropWhile (· == ' '))
    (.redirect (.input w) :: ·) <$> tokens n rest
  | n + 1, '>' :: s => do
    let (r, rest) ← readOutput n 1 s
    (.redirect r :: ·) <$> tokens n rest
  | n + 1, '1' :: '>' :: s => do
    let (r, rest) ← readOutput n 1 s
    (.redirect r :: ·) <$> tokens n rest
  | n + 1, '2' :: '>' :: s => do
    let (r, rest) ← readOutput n 2 s
    (.redirect r :: ·) <$> tokens n rest
  | n + 1, s => do
    let (w, rest) ← readWhole (n + 1) s
    (.word w :: ·) <$> tokens n rest

/-! ## Section 3: Reading scripts -/

/-- The characters of a word without quotes and parameters. -/
def Word.bare? (w : Word) : Option String :=
  match w with
  | [.text s false] => some (String.ofList s)
  | _ => none

/-- The reserved word that tokens begin with. -/
def keyword? : List Token → Option String
  | .word w :: _ =>
    match Word.bare? w with
    | some s =>
      if s ∈ ["if", "then", "elif", "else", "fi", "for", "in", "do", "done", "while", "until",
        "!", "\x7b", "\x7d"] then some s else none
    | none => none
  | _ => none

def skipSeparators : List Token → List Token
  | .separator :: ts => skipSeparators ts
  | ts => ts

/-- Passes a reserved word. -/
def expect (s : String) (ts : List Token) : Option (List Token) :=
  if keyword? ts = some s then some ts.tail else none

/-- The assignment that a word makes. -/
def Word.assignment? : Word → Option (String × Word)
  | .text s false :: rest =>
    match s.dropWhile isNameRest with
    | '=' :: value =>
      let name := s.takeWhile isNameRest
      match name with
      | c :: _ =>
        if isNameStart c then some (String.ofList name, .text value true :: rest) else none
      | [] => none
    | _ => none
  | _ => none

/-- The words and redirections of a simple command, and what follows it. -/
def readSimple : List Token → List Word × List Redirect × List Token
  | .word w :: ts =>
    let (ws, rs, rest) := readSimple ts
    (w :: ws, rs, rest)
  | .redirect r :: ts =>
    let (ws, rs, rest) := readSimple ts
    (ws, r :: rs, rest)
  | ts => ([], [], ts)

/-- The redirections behind a command that is not a simple one. -/
def Script.readRedirects (s : Script) : List Token → Script × List Token
  | .redirect r :: ts =>
    let (more, rest) := readSimple ts |>.2
    (.redirected s (r :: more), rest)
  | ts => (s, ts)

/-- The assignments that a simple command begins with, and its other words. -/
def splitAssignments : List Word → List (String × Word) × List Word
  | [] => ([], [])
  | w :: ws =>
    match Word.assignment? w with
    | some a => let (more, rest) := splitAssignments ws; (a :: more, rest)
    | none => ([], w :: ws)

mutual

/-- A list of commands up to a reserved word that closes it. -/
def readList : Nat → List Token → Option (Script × List Token)
  | 0, _ => none
  | n + 1, ts => do
    match skipSeparators ts with
    | [] => some (.nothing, [])
    | ts =>
      match ts, keyword? ts with
      | .closing :: _, _ => some (.nothing, ts)
      | _, some "then" | _, some "elif" | _, some "else" | _, some "fi" | _, some "do"
      | _, some "done" | _, some "\x7d" => some (.nothing, ts)
      | _, _ =>
        let (first, rest) ← readChain n ts
        let (second, rest) ← readList n rest
        return (if second = .nothing then first else .sequence first second, rest)

/-- Commands that depend on how those before them ended. -/
def readChain : Nat → List Token → Option (Script × List Token)
  | 0, _ => none
  | n + 1, ts => do
    let (first, rest) ← readPipe n ts
    readChainFrom n first rest

def readChainFrom : Nat → Script → List Token → Option (Script × List Token)
  | 0, _, _ => none
  | n + 1, first, .both :: ts => do
    let (second, rest) ← readPipe n (skipSeparators ts)
    readChainFrom n (.both first second) rest
  | n + 1, first, .either :: ts => do
    let (second, rest) ← readPipe n (skipSeparators ts)
    readChainFrom n (.either first second) rest
  | _, first, ts => some (first, ts)

/-- Commands of which each reads what the one before it writes. -/
def readPipe : Nat → List Token → Option (Script × List Token)
  | 0, _ => none
  | n + 1, ts => do
    match expect "!" ts with
    | some ts =>
      let (s, rest) ← readPipe n ts
      return (.negate s, rest)
    | none =>
      let (first, rest) ← readCommand n ts
      match rest with
      | .pipe :: rest =>
        let (second, rest) ← readPipe n (skipSeparators rest)
        return (.pipe first second, rest)
      | rest => return (first, rest)

def readCommand : Nat → List Token → Option (Script × List Token)
  | 0, _ => none
  | n + 1, ts =>
    let compound (r : Option (Script × List Token)) := r.map fun p => p.1.readRedirects p.2
    match ts, keyword? ts with
    | .opening :: ts, _ =>
      match readList n ts with
      | some (s, .closing :: rest) => compound (some (.apart s, rest))
      | _ => none
    | _, some "\x7b" => do
      let (s, rest) ← readList n ts.tail
      compound (some (s, ← expect "\x7d" rest))
    | _, some "if" => compound (readChoice n ts.tail)
    | _, some "while" => compound (readLoop n true ts.tail)
    | _, some "until" => compound (readLoop n false ts.tail)
    | _, some "for" => compound (readEach n ts.tail)
    | _, some _ => none
    | _, none =>
      match readSimple ts with
      | ([], [], _) => none
      | (ws, rs, rest) =>
        let (given, ws) := splitAssignments ws
        some (.simple given ws rs, rest)

/-- A choice behind its `if` or `elif`. -/
def readChoice : Nat → List Token → Option (Script × List Token)
  | 0, _ => none
  | n + 1, ts => do
    let (condition, rest) ← readList n ts
    let (yes, rest) ← readList n (← expect "then" rest)
    match keyword? rest with
    | some "fi" => return (.choice condition yes .nothing, rest.tail)
    | some "else" =>
      let (no, rest) ← readList n rest.tail
      return (.choice condition yes no, ← expect "fi" rest)
    | some "elif" =>
      let (no, rest) ← readChoice n rest.tail
      return (.choice condition yes no, rest)
    | _ => none

def readLoop : Nat → Bool → List Token → Option (Script × List Token)
  | 0, _, _ => none
  | n + 1, expected, ts => do
    let (condition, rest) ← readList n ts
    let (body, rest) ← readList n (← expect "do" rest)
    return (.loop expected condition body, ← expect "done" rest)

def readEach : Nat → List Token → Option (Script × List Token)
  | 0, _ => none
  | n + 1, .word w :: ts => do
    let name ← Word.bare? w
    let (words, rest) := match expect "in" ts with
      | some ts => let (ws, _, rest) := readSimple ts; (some ws, rest)
      | none => (none, ts)
    let (body, rest) ← readList n (← expect "do" (skipSeparators rest))
    return (.each name words body, ← expect "done" rest)
  | _, _ => none

end

/-- What is wrong with the text of a script. -/
inductive ScriptError where
  | openQuote
  | brokenOff
deriving DecidableEq, Repr

/-- The words for an error. -/
def ScriptError.message : ScriptError → String
  | openQuote => "Syntax error: Unterminated quoted string"
  | brokenOff => "Syntax error: end of file unexpected"

/-- The script of a text. -/
def Script.read (text : List Char) : Except ScriptError Script :=
  match tokens (text.length + 1) text with
  | none => .error .openQuote
  | some ts =>
    match readList (10 * ts.length + 10) ts with
    | some (s, []) => .ok s
    | _ => .error .brokenOff

end BenchSweep.Tool
