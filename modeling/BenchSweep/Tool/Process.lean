import BenchSweep.Decimal.Numeral
import BenchSweep.Disk.Access
import BenchSweep.Shell.Expand

/-! # Processes

    The state of a running tool: its variables, its outputs, the disk, and the
    time it has taken. -/

namespace BenchSweep.Tool

/-- Where an output goes. -/
inductive Sink where
  /-- The log of the trial. -/
  | log
  | file (path : Path)
  /-- The input of the next command. -/
  | pipe
  | nowhere
deriving DecidableEq, Repr

/-- Whether a tool goes on. -/
inductive Flow where
  | running
  /-- The loop is left. -/
  | left
  /-- The rest of the loop's body is passed over. -/
  | passed
  | exited
  /-- The budget is used up. -/
  | overran
deriving DecidableEq, Repr

/-- A running tool. -/
structure Process where
  env : Shell.Environment
  /-- The name that messages begin with. -/
  name : String
  args : List String
  disk : Disk
  /-- Seconds that may pass. -/
  budget : Float
  elapsed : Float
  out : Sink
  err : Sink
  input : ByteArray
  log : ByteArray
  piped : ByteArray
  status : Nat
  flow : Flow

namespace Process

/-- Adds bytes to the end of a file. -/
def appendTo (d : Disk) (p : Path) (content : ByteArray) : Disk :=
  let before := match d.read p with
    | .ok b => b
    | .error _ => .empty
  match d.write p (before ++ content) with
  | .ok d => d
  | .error _ => d

/-- Writes to a sink. -/
def writeTo (p : Process) (content : ByteArray) : Sink → Process
  | .log => { p with log := p.log ++ content }
  | .pipe => { p with piped := p.piped ++ content }
  | .file path => { p with disk := appendTo p.disk path content }
  | .nowhere => p

/-- Writes to the output. -/
def write (p : Process) (content : ByteArray) : Process :=
  p.writeTo content p.out

/-- Writes a text to the output. -/
def print (p : Process) (s : String) : Process :=
  p.write s.toUTF8

/-- Ends a command with a status. -/
def finish (p : Process) (status : Nat) : Process :=
  { p with status }

/-- Ends a command with a message and a status. -/
def complain (p : Process) (message : String) (status : Nat) : Process :=
  (p.writeTo (message ++ "\n").toUTF8 p.err).finish status

/-- Lets time pass. -/
def wait (p : Process) (seconds : Float) : Process :=
  let elapsed := p.elapsed + seconds
  { p with elapsed, flow := if p.budget < elapsed then .overran else p.flow }

end Process

end BenchSweep.Tool
