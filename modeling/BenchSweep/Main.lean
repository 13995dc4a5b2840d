import BenchSweep.Cli.Program
import BenchSweep.Report.Timestamp
import BenchSweep.Tool.Host

/-! # The Outer Layer

    Reads the surroundings and the files below the working directory, runs the
    program, and brings the files and the texts out again. -/

namespace BenchSweep.Outer

/-- The absolute path of a place. -/
def pathOf (l : Location) : String :=
  "/" ++ String.intercalate "/" l.reverse

/-- The place of an absolute path. -/
def placeOf (path : String) : Location :=
  Path.locate ⟨path⟩ []

/-- The files and directories below a place. -/
partial def load (place : Location) : IO (List (Location × FileNode)) := do
  let here ← IO.FS.realPath (pathOf place)
  let mut nodes := []
  for e in ← here.readDir do
    let l := e.fileName :: place
    match (← e.path.symlinkMetadata).type with
    | .dir => nodes := (l, .dir) :: (← load l) ++ nodes
    | .file => nodes := (l, .file (← IO.FS.readBinFile e.path)) :: nodes
    | _ => pure ()
  return nodes

/-- Writes what has changed between two disks: what is gone goes from the inside
    out, and what is new comes from the outside in. -/
def store (before after : Disk) : IO Unit := do
  for e in before.nodes.mergeSort fun a b => b.1.length ≤ a.1.length do
    if after.node? e.1 = none then
      match e.2 with
      | .dir => IO.FS.removeDir (pathOf e.1)
      | .file _ => IO.FS.removeFile (pathOf e.1)
  for e in after.nodes.mergeSort fun a b => a.1.length ≤ b.1.length do
    if before.node? e.1 ≠ some e.2 then
      match e.2 with
      | .dir => IO.FS.createDirAll (pathOf e.1)
      | .file content => IO.FS.writeBinFile (pathOf e.1) content

/-- The variables in a block of them. -/
def varsOf (block : String) : Keyed String :=
  Keyed.ofList ((block.splitOn "\x00").filterMap fun e =>
    match e.splitOn "=" with
    | name :: value :: rest => some (name, String.intercalate "=" (value :: rest))
    | _ => none)

/-- The number of the user whom a process runs for, in the status of the process. -/
def userOf? (status : String) : Option String :=
  (status.splitOn "\n").findSome? fun line =>
    match line.splitOn "\t" with
    | "Uid:" :: user :: _ => some user
    | _ => none

/-- The home directory of a user in the table of users. -/
def homeOf? (users user : String) : Option String :=
  (users.splitOn "\n").findSome? fun line =>
    match line.splitOn ":" with
    | [_, _, number, _, _, home, _] => if number = user then some home else none
    | _ => none

/-- The home directory on record for the user of this process. -/
def account : IO (Option String) := do
  try
    let status ← IO.FS.readFile "/proc/self/status"
    let users ← IO.FS.readFile "/etc/passwd"
    return (userOf? status).bind (homeOf? users)
  catch _ => return none

/-- The environment of this process. -/
def environment : IO Shell.Environment := do
  let block ← IO.FS.readBinFile "/proc/self/environ"
  return { vars := varsOf (Text.decode block), account := ← account }

/-- The seconds and nanoseconds since the beginning of 1970, read off a file
    that is made for it. -/
def moment : IO (Int × Nat) := do
  let (_, path) ← IO.FS.createTempFile
  let ⟨seconds, nanos⟩ := (← path.metadata).modified
  IO.FS.removeFile path
  return (seconds, nanos.toNat)

end BenchSweep.Outer

open BenchSweep in
/-- Runs the program. -/
def main (args : List String) : IO UInt32 := do
  let here := Outer.placeOf (← IO.currentDir).toString
  let before : Disk :=
    { here, nodes := (Disk.emptyAt here).nodes ++ (← Outer.load here) }
  let env ← Outer.environment
  let terminal ← (← IO.getStdout).isTty
  let (seconds, nanos) ← Outer.moment
  let surroundings : Surroundings :=
    { env
      colors := Cli.wantsColors env terminal
      now := Timestamp.text seconds nanos
      host := fun seed => Tool.shuffled (Tool.host env false) (seed.getD nanos) }
  let e := Cli.execute surroundings terminal args before
  Outer.store before e.disk
  IO.print e.out
  IO.eprint e.err
  return e.code.toUInt32
