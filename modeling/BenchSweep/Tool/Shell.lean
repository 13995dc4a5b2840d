import BenchSweep.Text.Bytes
import BenchSweep.Tool.Arithmetic
import BenchSweep.Tool.Programs
import BenchSweep.Tool.Script

/-! # The Shell

    Runs scripts.  A script that does not end within many steps counts as one
    that overruns every budget. -/

namespace BenchSweep.Tool

/-! ## Section 1: Values -/

namespace Process

/-- The values of a parameter.  Only the list of all arguments has several. -/
def valuesOf (p : Process) (name : List Char) : List String :=
  match name with
  | ['@'] | ['*'] => p.args
  | ['#'] => [toString p.args.length]
  | ['?'] => [toString p.status]
  | ['$'] => ["1"]
  | ['0'] => [p.name]
  | _ =>
    if name.all Char.isDigit then [(p.args[Decimal.naturalOf name - 1]?).getD ""]
    else [(p.env.find? (String.ofList name)).getD ""]

/-- The value of a parameter as one text. -/
def textOf (p : Process) (name : List Char) : List Char :=
  ((p.valuesOf name).map String.toList).intersperse [' '] |>.flatten

/-- Whether a parameter has a value. -/
def isSet (p : Process) (name : List Char) : Bool :=
  if name.all Char.isDigit then name = ['0'] || Decimal.naturalOf name ≤ p.args.length
  else if name.all isNameRest then p.env.contains (String.ofList name)
  else true

/-- How the text of a script runs as a part of a process. -/
abbrev Nested := List Char → Process → Process

/-- Goes on behind commands that had a state of their own. -/
def backTo (p before : Process) : Process :=
  { p with
    env := before.env
    name := before.name
    args := before.args
    disk := { p.disk with here := before.disk.here }
    flow := if p.flow = .overran then .overran else before.flow }

/-- The text without the line breaks at its end. -/
def withoutLastBreaks (s : List Char) : List Char :=
  (s.reverse.dropWhile (· = '\n')).reverse

/-- What a script writes, which runs with a state of its own. -/
def outputOf (nested : Nested) (p : Process) (script : List Char) : Process × List Char :=
  let q := (nested script { p with out := .pipe, piped := .empty }).backTo p
  ({ q with out := p.out, piped := p.piped }, withoutLastBreaks (Text.decode q.piped).toList)

/-- The value of a subject as one text. -/
def evaluate (nested : Nested) (p : Process) : Subject → Process × List Char
  | .parameter name => (p, p.textOf name)
  | .fallback name evenEmpty text =>
    if p.isSet name && !(evenEmpty && (p.textOf name).isEmpty) then (p, p.textOf name)
    else (p, text)
  | .length name => (p, (toString (p.textOf name).length).toList)
  | .output script => p.outputOf nested script
  | .number expression =>
    let value (name : String) : String := String.ofList (p.textOf name.toList)
    match Arithmetic.eval? value expression with
    | some n => (p, (toString n).toList)
    | none => (p.complain (p.name ++ ": 1: arithmetic expression: syntax error") 2, [])

/-! ## Section 2: Words -/

/-- A word that is being put together: the words before it, the open one, and
    whether it counts even when it is empty. -/
structure Fields where
  done : List (List Char)
  text : List Char
  counts : Bool

/-- Ends the open word. -/
def Fields.close (f : Fields) : Fields :=
  if f.counts || f.text ≠ [] then ⟨f.done ++ [f.text], [], false⟩ else ⟨f.done, [], false⟩

/-- Adds a text to the open word; where it is quoted the word counts. -/
def Fields.add (f : Fields) (s : List Char) (quoted : Bool) : Fields :=
  { f with text := f.text ++ s, counts := f.counts || quoted }

/-- Adds a text whose blanks separate words. -/
def Fields.addSplit (f : Fields) (s : List Char) : Fields :=
  s.foldl
    (fun f c => if c = ' ' ∨ c = '\t' ∨ c = '\n' then f.close else f.add [c] false)
    f

/-- Adds texts of which each stands in a word of its own. -/
def Fields.addEach (f : Fields) : List (List Char) → Fields
  | [] => f
  | [s] => f.add s true
  | s :: rest => ((f.add s true).close).addEach rest

/-- Adds a piece of a word. -/
def addPiece (nested : Nested) (state : Process × Fields) (piece : Piece) : Process × Fields :=
  let (p, f) := state
  match piece with
  | .text s quoted => (p, f.add s quoted)
  | .home => (p, f.add (p.env.home?.getD "~").toList true)
  | .value (.parameter ['@']) true => (p, f.addEach (p.args.map String.toList))
  | .value subject quoted =>
    let (p, s) := p.evaluate nested subject
    (p, if quoted then f.add s true else f.addSplit s)

/-- The words that a word stands for. -/
def expandWord (nested : Nested) (p : Process) (w : Word) : Process × List String :=
  let (p, f) := w.foldl (addPiece nested) (p, ⟨[], [], false⟩)
  (p, f.close.done.map String.ofList)

def expandWords (nested : Nested) (p : Process) : List Word → Process × List String
  | [] => (p, [])
  | w :: ws =>
    let (p, first) := p.expandWord nested w
    let (p, rest) := p.expandWords nested ws
    (p, first ++ rest)

/-- The one text that a word stands for. -/
def expandText (nested : Nested) (p : Process) (w : Word) : Process × String :=
  let (p, words) := p.expandWord nested w
  (p, String.intercalate " " words)

/-! ## Section 3: Redirections -/

/-- Where a file of the system that stands for an output leads. -/
def standing? (p : Process) (path : String) : Option Sink :=
  [("/dev/null", Sink.nowhere), ("/dev/stdout", p.out), ("/dev/stderr", p.err)].lookup path

/-- Opens a file for writing. -/
def openFile (p : Process) (append : Bool) (path : Path) : Except IoError (Process × Sink) :=
  match p.standing? path.text with
  | some s => .ok (p, s)
  | none =>
    let content := match p.disk.read path with
      | .ok b => if append then b else .empty
      | .error _ => .empty
    (p.disk.write path content).map fun disk => ({ p with disk }, .file path)

/-- Sends an output somewhere else. -/
def setSink (p : Process) (fd : Nat) (s : Sink) : Process :=
  if fd = 2 then { p with err := s } else { p with out := s }

def sinkOf (p : Process) (fd : Nat) : Sink :=
  if fd = 2 then p.err else p.out

/-- Applies a redirection; one that fails ends the command. -/
def redirect (nested : Nested) (p : Process) : Redirect → Except Process Process
  | .duplicate fd source => .ok (p.setSink fd (p.sinkOf source))
  | .input source =>
    let (p, path) := p.expandText nested source
    if path = "/dev/null" then .ok { p with input := .empty }
    else match p.disk.read ⟨path⟩ with
      | .ok input => .ok { p with input }
      | .error _ =>
        .error (p.complain (p.name ++ ": 1: cannot open " ++ path ++ ": No such file") 2)
  | .output fd append target =>
    let (p, path) := p.expandText nested target
    match p.openFile append ⟨path⟩ with
    | .ok (p, s) => .ok (p.setSink fd s)
    | .error .isDirectory =>
      .error (p.complain (p.name ++ ": 1: cannot create " ++ path ++ ": Is a directory") 2)
    | .error _ =>
      .error (p.complain
        (p.name ++ ": 1: cannot create " ++ path ++ ": Directory nonexistent") 2)

def Redirect.isInput : Redirect → Bool
  | .input _ => true
  | _ => false

/-- Puts the outputs back, and the input if it was another one. -/
def restore (p before : Process) (redirects : List Redirect) : Process :=
  { p with
    out := before.out
    err := before.err
    input := if redirects.any Redirect.isInput then before.input else p.input }

/-- Does something under redirections. -/
def under (nested : Nested) (p : Process) (redirects : List Redirect) (f : Process → Process) :
    Process :=
  match redirects.foldlM (redirect nested) p with
  | .ok q => (f q).restore p redirects
  | .error q => q.restore p redirects

/-! ## Section 4: Commands -/

/-- Sets variables. -/
def assign (nested : Nested) (p : Process) (given : List (String × Word)) : Process :=
  given.foldl
    (fun p a =>
      let (p, value) := p.expandText nested a.2
      { p with env := p.env.insert a.1 value })
    p

/-- Ends the script with a status. -/
def leave (p : Process) (status : Nat) : Process :=
  { p with status, flow := if p.flow = .overran then .overran else .exited }

/-- Drops the first argument. -/
def shift (p : Process) : Process :=
  if p.args = [] then (p.complain (p.name ++ ": 1: shift: can't shift that many") 2).leave 2
  else { p with args := p.args.drop 1, status := 0 }

/-- Goes to another directory. -/
def enter (p : Process) (dir : String) : Process :=
  match p.disk.isDir ⟨dir⟩, p.disk.locate ⟨dir⟩ with
  | true, .ok here => { p with disk := { p.disk with here }, status := 0 }
  | _, _ => p.complain (p.name ++ ": 1: cd: can't cd to " ++ dir) 2

/-- Runs the shell: a script as its argument, in a file, or on its input. -/
def shell (nested : Nested) (invoked : String) (args : List String) (p : Process) : Process :=
  match args with
  | "-c" :: text :: name :: args => nested text.toList { p with name, args }
  | ["-c", text] => nested text.toList { p with name := invoked, args := [] }
  | file :: args =>
    match p.disk.read ⟨file⟩ with
    | .ok content => nested (Text.decode content).toList { p with name := file, args }
    | .error _ => p.complain (invoked ++ ": 0: cannot open " ++ file ++ ": No such file") 2
  | [] => nested (Text.decode p.input).toList { p with name := invoked, args := [] }

/-- Runs a command by its name.  One without a name does nothing. -/
def command (nested : Nested) (p : Process) : List String → Process
  | [] => p
  | "exit" :: args => p.leave (((args.head?.bind String.toNat?).getD p.status) % 256)
  | "kill" :: _ => p.leave 137
  | "shift" :: _ => p.shift
  | ["cd", dir] => p.enter dir
  | "unset" :: names => { p with env := p.env.without names, status := 0 }
  | "eval" :: words => nested (String.intercalate " " words).toList p
  | "break" :: _ => { p with flow := .left, status := 0 }
  | "continue" :: _ => { p with flow := .passed, status := 0 }
  | "exec" :: name :: args =>
    match (builtins ++ programs).lookup name with
    | some run => let p := run args p; p.leave p.status
    | none => (p.complain (p.name ++ ": 1: exec: " ++ name ++ ": not found") 127).leave 127
  | name :: args =>
    if name ∈ shellNames then (p.shell nested name args).backTo p
    else match (builtins ++ programs).lookup name with
      | some run => run args p
      | none => p.complain (p.name ++ ": 1: " ++ name ++ ": not found") 127

/-- Runs a simple command.  The redirections of an `exec` alone stay. -/
def simple (nested : Nested) (p : Process) (given : List (String × Word)) (words : List Word)
    (redirects : List Redirect) : Process :=
  let (p, words) := { p with status := if words = [] then 0 else p.status }.expandWords nested words
  if words = ["exec"] then
    match redirects.foldlM (redirect nested) p with
    | .ok q => q.finish 0
    | .error q => q.leave 2
  else p.under nested redirects fun q => (q.assign nested given).command nested words

/-! ## Section 5: Scripts -/

/-- Begins a round of a loop. -/
def nextRound (p : Process) : Process :=
  if p.flow = .passed then { p with flow := .running } else p

/-- Goes on behind a loop. -/
def afterLoop (p : Process) : Process :=
  if p.flow = .passed ∨ p.flow = .left then { p with flow := .running } else p

/-- Runs a script in so many steps. -/
def run : Nat → Script → Process → Process
  | 0, _, p => { p with flow := .overran }
  | n + 1, s, p =>
    if p.flow ≠ .running then p
    else
      let nested : Nested := fun text p =>
        match Script.read text with
        | .ok s => run n s p
        | .error e => p.complain (p.name ++ ": 1: " ++ e.message) 2
      match s with
      | .nothing => p
      | .simple given words redirects => p.simple nested given words redirects
      | .redirected s redirects => p.under nested redirects (run n s)
      | .apart s => (run n s p).backTo p
      | .sequence first second => run n second (run n first p)
      | .both first second =>
        let p := run n first p
        if p.status = 0 then run n second p else p
      | .either first second =>
        let p := run n first p
        if p.status = 0 then p else run n second p
      | .negate s =>
        let p := run n s p
        p.finish (if p.status = 0 then 1 else 0)
      | .pipe first second =>
        let q := (run n first { p with out := .pipe, piped := .empty }).backTo p
        let q := (run n second { q with out := p.out, input := q.piped, piped := p.piped }).backTo p
        { q with input := p.input }
      | .choice condition yes no =>
        let p := run n condition p
        if p.status = 0 then run n yes p else run n no (p.finish 0)
      | .each name words body =>
        let (p, values) := match words with
          | some ws => p.expandWords nested ws
          | none => (p, p.args)
        let round (p : Process) (v : String) : Process :=
          if p.nextRound.flow ≠ .running then p
          else run n body { p.nextRound with env := p.env.insert name v }
        (values.foldl round (p.finish 0)).afterLoop
      | .loop expected condition body =>
        let q := run n condition p
        if (q.status == 0) = expected then
          let q := (run n body q).nextRound
          if q.flow = .running then run n (.loop expected condition body) q else q.afterLoop
        else q.finish 0

end Process

/-! ## Section 6: The shell as a program -/

/-- How many steps a script may take. -/
def maxSteps : Nat := 10000

/-- Runs the text of a script. -/
def runScript (text : List Char) (p : Process) : Process :=
  match Script.read text with
  | .ok s => p.run maxSteps s
  | .error e => p.complain (p.name ++ ": 1: " ++ e.message) 2

/-- The shell under the name that it is called by. -/
def shell (invoked : String) : Utility :=
  Process.shell runScript invoked

end BenchSweep.Tool
