import BenchSweep.Disk.Basic

/-! # Access by Path

    Reading and changing a disk by path, with the reasons for which it may be
    refused.  An access either changes the disk as a whole or not at all. -/

namespace BenchSweep

/-- Why an access is refused. -/
inductive IoError where
  | notFound
  | accessDenied
  | alreadyExists
  | notDirectory
  | isDirectory
  | nameTooLong
  /-- The text of a path holds a NUL. -/
  | nulInPath
  /-- A word of a command holds a NUL. -/
  | nulInWord
  /-- A file that should hold text does not. -/
  | notText
deriving DecidableEq, Repr

/-- The words for an error. -/
def IoError.message : IoError → String
  | notFound => "No such file or directory (os error 2)"
  | accessDenied => "Permission denied (os error 13)"
  | alreadyExists => "File exists (os error 17)"
  | notDirectory => "Not a directory (os error 20)"
  | isDirectory => "Is a directory (os error 21)"
  | nameTooLong => "File name too long (os error 36)"
  | nulInPath => "file name contained an unexpected NUL byte"
  | nulInWord => "nul byte found in provided data"
  | notText => "stream did not contain valid UTF-8"

namespace Disk

/-! ## Section 1: Finding the place of a path -/

/-- How many bytes a name may have. -/
def maxName : Nat := 255

/-- How many bytes a path may have. -/
def maxPath : Nat := 4095

/-- Refuses a place that is not a directory. -/
def enter (d : Disk) (l : Location) : Except IoError Unit :=
  match d.node? l with
  | some .dir => .ok ()
  | some (.file _) => .error .notDirectory
  | none => .error .notFound

/-- Refuses a name that is too long. -/
def checkName (s : String) : Except IoError Unit :=
  if maxName < s.utf8ByteSize then .error .nameTooLong else .ok ()

/-- Follows segments from a place.  Every place that is left on the way must be
    a directory. -/
def walk (d : Disk) : Location → List String → Except IoError Location
  | l, [] => .ok l
  | l, s :: rest => do
    d.enter l
    checkName s
    d.walk (Path.follow l s) rest

/-- The place of a path, if its directory can be reached. -/
def locate (d : Disk) (p : Path) : Except IoError Location :=
  if p.text.toList.contains '\x00' then .error .nulInPath
  else if p.text = "" then .error .notFound
  else if maxPath < p.text.utf8ByteSize then .error .nameTooLong
  else d.walk (p.start d.here) p.segments

theorem walk_ok {d : Disk} {l m : Location} {segments : List String}
    (h : d.walk l segments = .ok m) : m = segments.foldl Path.follow l := by
  induction segments generalizing l with
  | nil =>
    cases h
    rfl
  | cons s rest ih =>
    rw [walk] at h
    cases he : d.enter l with
    | error e => simp [he, bind, Except.bind] at h
    | ok u =>
      cases hn : checkName s with
      | error e => simp [he, hn, bind, Except.bind] at h
      | ok v =>
        simp only [he, hn, bind, Except.bind] at h
        exact ih h

/-- A path that can be reached leads to the place that it names. -/
theorem locate_ok {d : Disk} {p : Path} {l : Location} (h : d.locate p = .ok l) :
    l = p.locate d.here := by
  unfold locate at h
  split at h
  · cases h
  · split at h
    · cases h
    · split at h
      · cases h
      · exact walk_ok h

/-- Whether a path names its place by a name, and not by the root or by a
    segment that leads nowhere or up. -/
def isNamed (p : Path) : Bool :=
  match p.segments.getLast? with
  | some s => s ≠ "." && s ≠ ".."
  | none => false

/-! ## Section 2: Reading -/

/-- What a path leads to. -/
def find (d : Disk) (p : Path) : Except IoError FileNode := do
  let l ← d.locate p
  match d.node? l with
  | none => .error .notFound
  | some (.file content) =>
    if p.endsInSlash then .error .notDirectory else .ok (.file content)
  | some .dir => .ok .dir

/-- The content of the file at a path. -/
def read (d : Disk) (p : Path) : Except IoError ByteArray := do
  match ← d.find p with
  | .file content => .ok content
  | .dir => .error .isDirectory

/-- Whether anything is at a path. -/
def isPresent (d : Disk) (p : Path) : Bool :=
  (d.find p).isOk

/-- Whether a directory is at a path. -/
def isDir (d : Disk) (p : Path) : Bool :=
  match d.find p with
  | .ok .dir => true
  | _ => false

/-! ## Section 3: Changing -/

/-- Puts a file with the given content at a path, in place of any file there. -/
def write (d : Disk) (p : Path) (content : ByteArray) : Except IoError Disk := do
  let l ← d.locate p
  if !isNamed p || p.endsInSlash then .error .isDirectory
  else match d.node? l with
    | some .dir => .error .isDirectory
    | _ => .ok (d.put l (.file content))

/-- Removes the file at a path. -/
def remove (d : Disk) (p : Path) : Except IoError Disk := do
  let l ← d.locate p
  if !isNamed p then .error .isDirectory
  else match d.node? l with
    | none => .error .notFound
    | some .dir => .error .isDirectory
    | some (.file _) => if p.endsInSlash then .error .notDirectory else .ok (d.erase l)

/-- Moves the file at a path to another path, in place of any file there. -/
def rename (d : Disk) (p q : Path) : Except IoError Disk := do
  let content ← d.read p
  let l ← d.locate p
  let m ← d.locate q
  match d.node? m with
  | some .dir => .error .isDirectory
  | _ =>
    if q.endsInSlash then .error .notDirectory
    else .ok ((d.erase l).put m (.file content))

/-- Makes a directory at a path, in a directory that exists. -/
def makeDir (d : Disk) (p : Path) : Except IoError Disk := do
  let l ← d.locate p
  match d.node? l with
  | some _ => .error .alreadyExists
  | none => if isNamed p then .ok (d.put l .dir) else .error .notFound

/-- Removes whatever is at a path, with all that is below it. -/
def removeAll (d : Disk) (p : Path) : Except IoError Disk := do
  let _ ← d.find p
  let l ← d.locate p
  if isNamed p then .ok (d.prune l) else .error .accessDenied

/-- The names in the directory at a path, in order; hidden ones are left out. -/
def list (d : Disk) (p : Path) : Except IoError (List String) := do
  match ← d.find p with
  | .file _ => .ok [p.text]
  | .dir =>
    let names := (d.namesIn (← d.locate p)).filter fun name => name.toList.head? ≠ some '.'
    .ok (names.mergeSort fun a b => decide (a ≤ b))

/-- Gives a file that is still at a path a new content. -/
def refill (d : Disk) (p : Path) (content : ByteArray) : Disk :=
  match d.locate p with
  | .ok l =>
    match d.node? l with
    | some (.file _) => d.put l (.file content)
    | _ => d
  | .error _ => d

end Disk

end BenchSweep
