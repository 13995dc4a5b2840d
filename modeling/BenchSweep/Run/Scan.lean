import BenchSweep.Run.Artifact
import BenchSweep.Run.Progress

/-! # Scans

    The history of a sweep, as the output directory tells it.  A line of trials
    holds those of all experiments at one iteration.  The first line in which
    nothing is recorded ends the scan: nothing behind it was ever attempted. -/

namespace BenchSweep

/-- A trial of an experiment and what is known of it. -/
structure Trial where
  experiment : Descriptor
  record : RunRecord
deriving DecidableEq

namespace Trial

/-- The measurements of a completed trial, under the experiment's name. -/
def result? (t : Trial) : Option (String × Metrics) :=
  match t.record with
  | .done _ metrics => some (t.experiment.name, metrics)
  | _ => none

/-- The budget that the trial overran, under the experiment's name. -/
def timeout? (t : Trial) : Option (String × UInt64) :=
  t.record.timeoutSecs.map fun seconds => (t.experiment.name, seconds)

/-- Whether nothing is recorded. -/
def isBlank (t : Trial) : Bool :=
  t.record = .notDone

def isPending (t : Trial) (budget : UInt64) : Bool :=
  t.record.isPending budget

end Trial

namespace Disk

/-- The trials of all experiments at one iteration. -/
def trialsAt (d : Disk) (outdir : Path) (xs : List Descriptor) (iteration : Nat) :
    Except StoreError (List Trial) :=
  xs.mapM fun x => do
    return ⟨x, ← d.status x (Artifact.log outdir x.name iteration)⟩

/-- The trials from an iteration on, up to the first line without a record, or
    of so many iterations. -/
def historyFrom (d : Disk) (outdir : Path) (xs : List Descriptor) :
    Nat → Nat → Except StoreError (List (List Trial))
  | 0, _ => .ok []
  | n + 1, iteration => do
    let line ← d.trialsAt outdir xs iteration
    if line.all Trial.isBlank then return []
    return line :: (← d.historyFrom outdir xs n (iteration + 1))

/-- The trials of every iteration.  Each takes a file of its own, so there are
    no more iterations than files. -/
def history (d : Disk) (outdir : Path) (xs : List Descriptor) :
    Except StoreError (List (List Trial)) :=
  d.historyFrom outdir xs (d.size + 1) 0

end Disk

/-- The progress that a history shows at a budget. -/
def Progress.ofHistory (budget : UInt64) (lines : List (List Trial)) : Progress where
  iterations := lines.length
  notDone := (lines.flatten.filter Trial.isBlank).length
  results := lines.flatten.filterMap Trial.result?
  timeouts := lines.flatten.filterMap Trial.timeout?
  nextIteration := lines.findIdx fun line => line.any fun t => t.isPending budget

/-- The progress of experiments in an output directory. -/
def Disk.scan (d : Disk) (outdir : Path) (budget : UInt64) (xs : List Descriptor) :
    Except StoreError Progress :=
  (d.history outdir xs).map (Progress.ofHistory budget)

end BenchSweep
