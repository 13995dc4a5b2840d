import BenchSweep.Tool.Utility

/-! # Utilities on Files

    The commands that make, remove, move and list files and directories. -/

namespace BenchSweep.Tool

/-! ## Section 1: Arguments -/

/-- Whether an argument gives options, each by a letter behind the dash. -/
def isFlags (arg : String) : Bool :=
  match arg.toList with
  | '-' :: _ :: _ => true
  | _ => false

/-- Whether one of some letters is among the options. -/
def hasFlag (letters : List Char) (args : List String) : Bool :=
  args.any fun a => isFlags a && a.toList.any letters.contains

/-- The arguments that are not options. -/
def operands (args : List String) : List String :=
  args.filter (!isFlags ·)

/-! ## Section 2: Making and removing -/

/-- Changes the disk for one of the arguments, or complains. -/
def changeFor (trouble : String) (f : Disk → Path → Except IoError Disk)
    (p : Process) (file : String) : Process :=
  match f p.disk ⟨file⟩ with
  | .ok disk => { p with disk }
  | .error e => p.complain (trouble ++ " '" ++ file ++ "': " ++ reason e) 1

def touch : Utility := fun args p =>
  let change (d : Disk) (file : Path) :=
    if d.isPresent file then .ok d else d.write file .empty
  args.foldl (changeFor "touch: cannot touch" change) (p.finish 0)

def rm : Utility := fun args p =>
  let change (d : Disk) (file : Path) :=
    match if hasFlag ['r', 'R'] args then d.removeAll file else d.remove file with
    | .error .notFound => if hasFlag ['f'] args then .ok d else .error .notFound
    | r => r
  (operands args).foldl (changeFor "rm: cannot remove" change) (p.finish 0)

def mkdir : Utility := fun args p =>
  let parents := hasFlag ['p'] args
  let one (d : Disk) (file : Path) :=
    match d.makeDir file with
    | .error .alreadyExists => if parents && d.isDir file then .ok d else .error .alreadyExists
    | r => r
  let change (d : Disk) (file : Path) :=
    if parents then file.lineage.reverse.foldlM one d else one d file
  (operands args).foldl (changeFor "mkdir: cannot create directory" change) (p.finish 0)

/-! ## Section 3: Moving and listing -/

/-- Where a file arrives: in a directory it keeps its name. -/
def arrival (d : Disk) (source target : Path) : Path :=
  if d.isDir target then target.join (source.segments.getLastD "") else target

def cp : Utility := fun args p =>
  match operands args with
  | [source, target] =>
    match p.disk.read ⟨source⟩ with
    | .ok content =>
      changeFor "cp: cannot create regular file"
        (fun d target => d.write (arrival d ⟨source⟩ target) content) (p.finish 0) target
    | .error e => p.complain ("cp: cannot stat '" ++ source ++ "': " ++ reason e) 1
  | _ => p.complain "cp: missing file operand" 1

def mv : Utility := fun args p =>
  match operands args with
  | [source, target] =>
    changeFor "mv: cannot stat"
      (fun d source => d.rename source (arrival d source ⟨target⟩)) (p.finish 0) source
  | _ => p.complain "mv: missing file operand" 1

def ls : Utility := fun args p =>
  let one (p : Process) (file : String) :=
    match p.disk.list ⟨file⟩ with
    | .ok names => p.print (String.join (names.map (· ++ "\n")))
    | .error e => p.complain ("ls: cannot access '" ++ file ++ "': " ++ reason e) 2
  (match operands args with
    | [] => ["."]
    | files => files).foldl one (p.finish 0)

/-! ## Section 4: Contents -/

/-- The contents of files one after the other, or the input if there are none. -/
def contentOf (trouble : String) (p : Process) : List String → Process × ByteArray
  | [] => ({ p with input := .empty }, p.input)
  | files =>
    files.foldl
      (fun (p, content) file =>
        match p.disk.read ⟨file⟩ with
        | .ok more => (p, content ++ more)
        | .error e => (p.complain (trouble ++ " '" ++ file ++ "': " ++ reason e) 1, content))
      (p, .empty)

/-- The first lines of some bytes, so many of them. -/
def firstLines : Nat → List UInt8 → List UInt8
  | 0, _ => []
  | n + 1, bytes =>
    let line := bytes.takeWhile (· ≠ 10)
    match bytes.drop line.length with
    | [] => line
    | c :: rest => line ++ c :: firstLines n rest

/-- Passes on the first lines, or the first bytes, of what it reads. -/
def head : Utility := fun args p =>
  let (bytes, count, files) := match args with
    | "-c" :: n :: files => (true, n.toNat?, files)
    | "-n" :: n :: files => (false, n.toNat?, files)
    | files => (false, some 10, files)
  let (p, content) := contentOf "head: cannot open" (p.finish 0) files
  let part := (if bytes then List.take else firstLines) (count.getD 10) content.toList
  p.write ⟨part.toArray⟩

/-- Passes on what it reads, and keeps it in files. -/
def tee : Utility := fun args p =>
  let content := p.input
  let keep (d : Disk) (file : Path) :=
    match d.read file with
    | .ok before => d.write file (if hasFlag ['a'] args then before ++ content else content)
    | .error _ => d.write file content
  (operands args).foldl (changeFor "tee:" keep)
    { (p.write content).finish 0 with input := .empty }

/-- Counts the lines or the bytes of what it reads. -/
def wc : Utility := fun args p =>
  let (p, content) := contentOf "wc:" (p.finish 0) (operands args)
  let count := if hasFlag ['c'] args then content.size else (content.toList.filter (· = 10)).length
  p.print (String.intercalate " " (toString count :: operands args) ++ "\n")

end BenchSweep.Tool
