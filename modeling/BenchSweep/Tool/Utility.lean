import BenchSweep.Decimal.Fixed
import BenchSweep.Text.Bytes
import BenchSweep.Tool.Process

/-! # Utilities

    The small commands that scripts are made of. -/

namespace BenchSweep.Tool

/-- What tools say of an error. -/
def reason : IoError → String
  | .notFound => "No such file or directory"
  | .accessDenied => "Permission denied"
  | .alreadyExists => "File exists"
  | .notDirectory => "Not a directory"
  | .isDirectory => "Is a directory"
  | .nameTooLong => "File name too long"
  | e => e.message

/-! ## Section 1: Escapes -/

def octalValue (s : List Char) : Nat :=
  s.foldl (fun n c => 8 * n + (c.toNat - 48)) 0

def isOctal (c : Char) : Bool := '0' ≤ c && c ≤ '7'

def utf8 (s : List Char) : ByteArray := (String.ofList s).toUTF8

/-- The byte that an octal number of at most three digits stands for, and what
    follows it. -/
def octalByte (s : List Char) : ByteArray × List Char :=
  let digits := (s.takeWhile isOctal).take 3
  (⟨#[UInt8.ofNat (octalValue digits)]⟩, s.drop digits.length)

/-- The character that a letter behind a backslash stands for. -/
def escapeOf (c : Char) : Option Char :=
  [('a', '\x07'), ('b', '\x08'), ('f', '\x0c'), ('n', '\n'), ('r', '\r'), ('t', '\t'),
    ('v', '\x0b'), ('\\', '\\')].lookup c

/-- The bytes of a text with escapes as `echo` has them, and whether a line
    break follows. -/
def echoBytes : Nat → List Char → ByteArray × Bool
  | 0, _ => (.empty, true)
  | _, [] => (.empty, true)
  | _, '\\' :: 'c' :: _ => (.empty, false)
  | n + 1, '\\' :: '0' :: s =>
    let (b, rest) := octalByte s
    let (more, line) := echoBytes n rest
    (b ++ more, line)
  | n + 1, '\\' :: c :: s =>
    let (more, line) := echoBytes n s
    match escapeOf c with
    | some e => (utf8 [e] ++ more, line)
    | none => (utf8 ['\\', c] ++ more, line)
  | n + 1, c :: s =>
    let (more, line) := echoBytes n s
    (utf8 [c] ++ more, line)

/-- One field of a `printf` format: its flags and width, its precision, and how
    it is converted. -/
structure Field where
  left : Bool
  zeros : Bool
  width : Nat
  precision : Option Nat
  conversion : Char

/-- Reads a field behind its percent sign. -/
def readField (s : List Char) : Option (Field × List Char) :=
  let isFlag (c : Char) : Bool := c ∈ ['-', '0', '+', ' ', '#']
  let flags := s.takeWhile isFlag
  let s := s.dropWhile isFlag
  let width := Decimal.naturalOf (s.takeWhile Char.isDigit)
  let s := s.dropWhile Char.isDigit
  let (precision, s) := match s with
    | '.' :: s => (some (Decimal.naturalOf (s.takeWhile Char.isDigit)), s.dropWhile Char.isDigit)
    | s => (none, s)
  match s with
  | c :: rest => some (⟨flags.contains '-', flags.contains '0', width, precision, c⟩, rest)
  | [] => none

/-- Brings a text to the width of its field. -/
def Field.fit (f : Field) (numeric : Bool) (s : List Char) : List Char :=
  let gap := f.width - s.length
  if f.left then s ++ List.replicate gap ' '
  else if f.zeros && numeric then List.replicate gap '0' ++ s
  else List.replicate gap ' ' ++ s

/-- The text of an argument in a field. -/
def Field.text (f : Field) (arg : String) : ByteArray :=
  let whole : Int := (arg.toInt?).getD 0
  match f.conversion with
  | 'd' | 'i' | 'u' => utf8 (f.fit true (toString whole).toList)
  | 'x' => utf8 (f.fit true (Nat.toDigits 16 whole.toNat))
  | 'o' => utf8 (f.fit true (Nat.toDigits 8 whole.toNat))
  | 'f' =>
    let x := (Decimal.readNumber arg.toList).getD 0
    utf8 (f.fit true (Decimal.fixedText (f.precision.getD 6) x).toList)
  | 'c' => utf8 (f.fit false (arg.toList.take 1))
  | 'b' => (echoBytes (arg.length + 1) arg.toList).1
  | _ =>
    let s := arg.toList
    utf8 (f.fit false (match f.precision with | some n => s.take n | none => s))

/-- Goes through a `printf` format once: the bytes, and the arguments left. -/
def printfOnce : Nat → List Char → List String → ByteArray × List String
  | 0, _, args => (.empty, args)
  | _, [], args => (.empty, args)
  | n + 1, '%' :: '%' :: s, args =>
    let (more, rest) := printfOnce n s args
    (utf8 ['%'] ++ more, rest)
  | n + 1, '%' :: s, args =>
    match readField s with
    | some (f, s) =>
      let (more, rest) := printfOnce n s args.tail
      (f.text (args.headD "") ++ more, rest)
    | none => (utf8 ['%'], args)
  | n + 1, '\\' :: c :: s, args =>
    if isOctal c then
      let (b, s) := octalByte (c :: s)
      let (more, rest) := printfOnce n s args
      (b ++ more, rest)
    else
      let (more, rest) := printfOnce n s args
      match escapeOf c with
      | some e => (utf8 [e] ++ more, rest)
      | none => (utf8 (if c = '"' then [c] else ['\\', c]) ++ more, rest)
  | n + 1, c :: s, args =>
    let (more, rest) := printfOnce n s args
    (utf8 [c] ++ more, rest)

/-- Goes through a format as often as there are arguments for it. -/
def printfBytes : Nat → List Char → List String → ByteArray
  | 0, _, _ => .empty
  | n + 1, format, args =>
    let (bytes, rest) := printfOnce (format.length + 1) format args
    if rest = [] ∨ rest.length = args.length then bytes
    else bytes ++ printfBytes n format rest

/-! ## Section 2: Conditions -/

/-- Whether two numbers are in a relation. -/
def compare? (op : String) (a b : Int) : Option Bool :=
  match op with
  | "-eq" => some (a = b)
  | "-ne" => some (a ≠ b)
  | "-lt" => some (a < b)
  | "-le" => some (a ≤ b)
  | "-gt" => some (a > b)
  | "-ge" => some (a ≥ b)
  | _ => none

/-- Whether a condition holds, if it can be read. -/
def holds? (d : Disk) : List String → Option Bool
  | [] => some false
  | [a] => some (a ≠ "")
  | ["!", a] => some (a = "")
  | [op, a] =>
    match op with
    | "-n" => some (a ≠ "")
    | "-z" => some (a = "")
    | "-e" | "-r" => some (d.isPresent ⟨a⟩)
    | "-d" => some (d.isDir ⟨a⟩)
    | "-f" => some (d.read ⟨a⟩).isOk
    | "-s" => some (match d.read ⟨a⟩ with | .ok b => b.size ≠ 0 | .error _ => d.isDir ⟨a⟩)
    | "-x" => some (d.isDir ⟨a⟩)
    | _ => none
  | ["!", op, a] => (holds? d [op, a]).map not
  | [a, op, b] =>
    match op with
    | "=" | "==" => some (a = b)
    | "!=" => some (a ≠ b)
    | op => do compare? op (← a.toInt?) (← b.toInt?)
  | "!" :: rest => (holds? d rest).map not
  | _ => none

/-! ## Section 3: Commands -/

/-- A command: what it does with its arguments. -/
abbrev Utility := List String → Process → Process

/-- Writes its arguments; escapes mean something in the shell's own. -/
def echo (escapes : Bool) : Utility := fun args p =>
  let (line, args) := match args with
    | "-n" :: rest => (false, rest)
    | args => (true, args)
  let (escapes, args) := match args with
    | "-e" :: rest => if escapes then (true, args) else (true, rest)
    | args => (escapes, args)
  let text := (String.intercalate " " args).toList
  if escapes then
    let (bytes, more) := echoBytes (text.length + 1) text
    (p.write (if line && more then bytes ++ "\n".toUTF8 else bytes)).finish 0
  else (p.write (utf8 text ++ (if line then "\n" else "").toUTF8)).finish 0

def printf : Utility := fun args p =>
  match args with
  | [] => p.complain (p.name ++ ": 1: printf: usage: printf format [arg ...]") 2
  | format :: rest => (p.write (printfBytes (rest.length + 1) format.toList rest)).finish 0

/-- Writes the content of a file, or the input. -/
def catOne (p : Process) (file : String) : Process :=
  if file = "-" then { p.write p.input with input := .empty }
  else match p.disk.read ⟨file⟩ with
    | .ok content => p.write content
    | .error e => p.complain ("cat: " ++ file ++ ": " ++ reason e) 1

def cat : Utility := fun args p =>
  (if args = [] then ["-"] else args).foldl catOne (p.finish 0)

/-- The seconds that a duration takes; its last letter may name a unit. -/
def secondsOf? (s : String) : Option Float :=
  let unit (digits : List Char) (scale : Float) := (Decimal.readNumber digits).map (· * scale)
  match s.toList.reverse with
  | 's' :: rest => unit rest.reverse 1
  | 'm' :: rest => unit rest.reverse 60
  | 'h' :: rest => unit rest.reverse 3600
  | 'd' :: rest => unit rest.reverse 86400
  | rest => unit rest.reverse 1

def sleep : Utility := fun args p =>
  match args.mapM secondsOf? with
  | some (s :: rest) => (p.wait (rest.foldl (· + ·) s)).finish 0
  | some [] => p.complain "sleep: missing operand" 1
  | none => p.complain ("sleep: invalid time interval '" ++ args.headD "" ++ "'") 1

def seq : Utility := fun args p =>
  let range (first last : Int) : String :=
    String.join ((List.range (last - first + 1).toNat).map fun (n : Nat) =>
      toString (first + n) ++ "\n")
  match args.mapM String.toInt? with
  | some [last] => (p.print (range 1 last)).finish 0
  | some [first, last] => (p.print (range first last)).finish 0
  | _ => p.complain "seq: missing operand" 1

def pwd : Utility := fun _ p =>
  (p.print ("/" ++ String.intercalate "/" p.disk.here.reverse ++ "\n")).finish 0

/-- Writes the last segment of a path. -/
def basename : Utility := fun args p =>
  (p.print ((Path.segments ⟨args.headD ""⟩).getLastD "/" ++ "\n")).finish 0

/-- Writes the path above a path. -/
def dirname : Utility := fun args p =>
  let above := match (Path.mk (args.headD "")).lineage with
    | _ :: above :: _ => above.text
    | _ => "."
  (p.print (above ++ "\n")).finish 0

def printenv : Utility := fun args p =>
  match args.mapM p.env.find? with
  | some values => (p.print (String.join (values.map (· ++ "\n")))).finish 0
  | none => p.finish 1

/-- Sets the variables that are given a value. -/
def exportVariables : Utility := fun args p =>
  let one (p : Process) (arg : String) : Process :=
    match arg.toList.dropWhile (· ≠ '=') with
    | _ :: value =>
      let name := String.ofList (arg.toList.takeWhile (· ≠ '='))
      { p with env := p.env.insert name (String.ofList value) }
    | [] => p
  args.foldl one (p.finish 0)

/-- Gives each name a word of a line; the last one gets all that is left. -/
def assignWords (env : Shell.Environment) : List String → List Char → Shell.Environment
  | [], _ => env
  | [name], line => env.insert name (String.ofList (Text.trim line))
  | name :: names, line =>
    let line := line.dropWhile Text.isBlank
    assignWords (env.insert name (String.ofList (line.takeWhile (!Text.isBlank ·)))) names
      (line.dropWhile (!Text.isBlank ·))

/-- Reads a line of the input into variables; it fails where the input ends
    before the line does. -/
def readLine : Utility := fun args p =>
  let bytes := p.input.toList
  let line := bytes.takeWhile (· ≠ 10)
  { p with
    env := assignWords p.env (args.filter (· ≠ "-r")) (Text.decode ⟨line.toArray⟩).toList
    input := ⟨(bytes.drop (line.length + 1)).toArray⟩
    status := if line.length < bytes.length then 0 else 1 }

/-- Ends with the status of a condition. -/
def test : Utility := fun args p =>
  match holds? p.disk args with
  | some b => p.finish (if b then 0 else 1)
  | none => p.complain (p.name ++ ": 1: test: unexpected operator") 2

/-- The condition between brackets. -/
def bracket : Utility := fun args p =>
  if args.getLast? = some "]" then test args.dropLast p
  else p.complain (p.name ++ ": 1: [: missing ]") 2

end BenchSweep.Tool
