import BenchSweep.Run.Trial
import BenchSweep.Tool.Shell

/-! # Built-in Tools

    A host whose tools run inside the program: shell scripts and the utilities
    that they are made of, under the names that a system has them by. -/

namespace BenchSweep.Tool

/-! ## Section 1: Finding programs -/

/-- Where a system keeps its programs. -/
def programDirs : List String := ["/usr/bin", "/bin"]

/-- Where programs are looked for if the environment does not say. -/
def defaultPath : String := "/bin:/usr/bin"

/-- The program of a name. -/
def programOf? (invoked name : String) : Option Utility :=
  if name ∈ shellNames then some (shell invoked) else programs.lookup name

/-- Splits a list of directories at its colons. -/
def splitColons : List Char → List (List Char)
  | [] => [[]]
  | c :: s =>
    if c = ':' then [] :: splitColons s
    else match splitColons s with
      | [] => [[c]]
      | w :: ws => (c :: w) :: ws

/-- A program by its path.  Files of the disk can never be run. -/
def findByPath (d : Disk) (path : String) : Except IoError Utility :=
  let known := programDirs.findSome? fun dir =>
    (programs.map Prod.fst ++ shellNames).findSome? fun name =>
      if dir ++ "/" ++ name = path then programOf? path name else none
  match known with
  | some run => .ok run
  | none => do
    let _ ← d.find ⟨path⟩
    .error .accessDenied

/-- A program by its name, in the first directory that has it.  One that was
    found but cannot be run is remembered. -/
def findByName (env : Shell.Environment) (d : Disk) (name : String) : Except IoError Utility :=
  let dirs := (splitColons ((env.find? "PATH").getD defaultPath).toList).map String.ofList
  let known := if dirs.any (programDirs.contains ·) then programOf? name name else none
  match known with
  | some run => .ok run
  | none =>
    if Disk.maxName < name.utf8ByteSize then .error .nameTooLong
    else if name ∈ [".", ".."] || dirs.any fun dir => d.isPresent (Path.join ⟨dir⟩ name) then
      .error .accessDenied
    else .error .notFound

/-- The program that an invocation launches. -/
def find (env : Shell.Environment) (d : Disk) (i : Invocation) : Except IoError Utility :=
  if i.words.any fun w => w.toList.contains '\x00' then .error .nulInWord
  else if i.program.toList.contains '/' then findByPath d i.program
  else findByName env d i.program

/-! ## Section 2: The host -/

/-- A process that is about to run under a budget of seconds. -/
def start (env : Shell.Environment) (budget : UInt64) (d : Disk) (name : String) : Process where
  env
  name
  args := []
  disk := d
  budget := budget.toFloat
  elapsed := 0
  out := .log
  err := .log
  input := .empty
  log := .empty
  piped := .empty
  status := 0
  flow := .running

/-- Runs the tool of an experiment.  Where the operator has already asked to
    stop, it is stopped before it does anything. -/
def launch (env : Shell.Environment) (stopped : Bool) (x : Descriptor) (budget : UInt64)
    (d : Disk) : Except IoError ToolRun := do
  let run ← find env d x.invocation
  if stopped then return { output := .empty, ending := .stopped, disk := d }
  let p := run x.invocation.args (start env budget d x.invocation.program)
  return {
    output := p.log
    ending := if p.flow = .overran then .overran else .exited
    disk := { p.disk with here := d.here } }

/-- The host of these tools, which runs the experiments in the order that they
    have. -/
def host (env : Shell.Environment) (stopped : Bool) : Host where
  launch _ x budget d := launch env stopped x budget d
  stop _ := stopped
  order _ xs := xs
  order_perm _ xs := .refl xs

/-- A number that looks like chance, for an experiment in a sweep. -/
def lot (seed n : Nat) (x : Descriptor) : UInt64 :=
  mixHash (mixHash (hash seed) (hash n)) (hash x.name)

/-- The host with the experiments in an order that looks like chance. -/
def shuffled (h : Host) (seed : Nat) : Host :=
  { h with
    order := fun n xs => xs.mergeSort fun x y => lot seed n x ≤ lot seed n y
    order_perm := fun _ xs => List.mergeSort_perm xs _ }

end BenchSweep.Tool
