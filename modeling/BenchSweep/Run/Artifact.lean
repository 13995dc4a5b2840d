import BenchSweep.Decimal.Numeral
import BenchSweep.Disk.Access
import BenchSweep.Experiment.Descriptor
import BenchSweep.Run.Record
import BenchSweep.Text.Bytes
import BenchSweep.Text.Quoted

/-! # Artifacts

    The files of a trial, and what they say of it.  The log of the last attempt
    stands under the name of the experiment and the number of the iteration;
    beside it may stand a marker with the budget that the last attempt overran,
    and the log of an attempt that was interrupted.  No status is ever stored. -/

namespace BenchSweep

/-! ## Section 1: Names -/

namespace Artifact

/-- The log of an experiment at an iteration. -/
def log (outdir : Path) (experiment : String) (iteration : Nat) : Path :=
  outdir.join (experiment ++ "-" ++ toString iteration)

/-- The marker beside a log. -/
def marker (log : Path) : Path :=
  log.withSuffix "timeout"

/-- Where an interrupted log is set aside. -/
def aside (log : Path) : Path :=
  log.withSuffix "interrupted"

end Artifact

/-! ## Section 2: Errors -/

/-- Why the status of a trial is unknown. -/
inductive StoreError where
  | unreadable (path : Path) (cause : IoError)
  /-- A marker holds something else than a budget. -/
  | corruptMarker (path : Path) (content : String)
deriving DecidableEq, Repr

/-- The words for an error. -/
def StoreError.message : StoreError → String
  | unreadable path cause => "cannot read artifact " ++ path.text ++ ": " ++ cause.message
  | corruptMarker path content =>
    "timeout marker " ++ path.text ++ " does not hold an integer number of seconds: "
      ++ Text.quoted content

/-! ## Section 3: Status -/

namespace Artifact

/-- The text of a file that need not exist. -/
def readText? (d : Disk) (p : Path) : Except IoError (Option String) :=
  match d.read p with
  | .ok content => .ok (some (Text.decode content))
  | .error .notFound => .ok none
  | .error e => .error e

/-- The text of an artifact. -/
def content? (d : Disk) (p : Path) : Except StoreError (Option String) :=
  (readText? d p).mapError (.unreadable p)

/-- The budget that a marker holds. -/
def budgetOf? (content : String) : Option UInt64 :=
  (Decimal.boundedNatural (UInt64.size - 1) (Text.trim content.toList)).map UInt64.ofNat

/-- What a marker holds for a budget. -/
def budgetText (seconds : UInt64) : ByteArray :=
  (toString seconds.toNat).toUTF8

/-- The record that a log alone proves. -/
def proof? (x : Descriptor) (content : Option String) : Option RunRecord :=
  (content.bind x.read).bind RunRecord.ofMetrics?

/-- The record that a marker alone tells. -/
def marked (path : Path) : Option String → Except StoreError RunRecord
  | none => .ok .notDone
  | some content =>
    match budgetOf? content with
    | some seconds => .ok (.timeout seconds)
    | none => .error (.corruptMarker path content)

end Artifact

/-- What the files of a trial say of it.  A log that proves a completed run
    comes before any marker; a log that does not counts for nothing. -/
def Disk.status (d : Disk) (x : Descriptor) (log : Path) : Except StoreError RunRecord := do
  match Artifact.proof? x (← Artifact.content? d log) with
  | some record => return record
  | none => Artifact.marked (Artifact.marker log) (← Artifact.content? d (Artifact.marker log))

/-! ## Section 4: Changes -/

/-- Removes the file at a path if there is one. -/
def Disk.discard (d : Disk) (p : Path) : Except IoError Disk :=
  match d.remove p with
  | .error .notFound => .ok d
  | r => r

/-- Notes beside a log that the attempt overran a budget. -/
def Disk.mark (d : Disk) (log : Path) (seconds : UInt64) : Except IoError Disk :=
  d.write (Artifact.marker log) (Artifact.budgetText seconds)

end BenchSweep
