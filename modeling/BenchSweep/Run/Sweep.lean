import BenchSweep.Report.Console
import BenchSweep.Run.Scan
import BenchSweep.Run.Trial

/-! # Sweeps

    A sweep reports the progress so far, then runs every experiment once at the
    first iteration with work left.  Trials never overlap, so no tool disturbs
    the timing of another. -/

namespace BenchSweep

/-- What a sweep did. -/
structure SweepReport where
  /-- The progress before the sweep. -/
  progress : Progress
  /-- The iteration that the sweep worked on. -/
  iteration : Nat
  /-- The outcome of each experiment, in the order in which they were run. -/
  outcomes : List (String × TrialOutcome)
deriving DecidableEq

/-- How many tools the sweep launched. -/
def SweepReport.launched (s : SweepReport) : Nat :=
  (s.outcomes.filter fun o => o.2.ran).length

/-! ## Section 1: Directories -/

/-- Makes a directory where there is none. -/
def Disk.haveDir (d : Disk) (p : Path) : Except IoError Disk :=
  match d.makeDir p with
  | .error .alreadyExists => if d.isDir p then .ok d else .error .alreadyExists
  | r => r

/-- Makes the first of some paths a directory, after those that it needs of the
    others, which stand above it. -/
def Act.makeDirs : List Path → Act IoError Unit
  | [] => pure ()
  | p :: above => do
    match ← (Act.change (·.haveDir p)).outcome with
    | .ok () => pure ()
    | .error .notFound => do
      Act.makeDirs above
      Act.change (·.haveDir p)
    | .error e => Act.fail e

/-- Makes a directory and those above it where there are none. -/
def Act.ensureDir (p : Path) : Act IoError Unit :=
  Act.makeDirs p.lineage

/-! ## Section 2: Running -/

namespace Runner

/-- Runs the experiments of a list one after the other. -/
def trials (r : Runner) (outdir : Path) (budget : UInt64) (iteration : Nat) :
    List Descriptor → Act TrialError (List (String × TrialOutcome))
  | [] => return []
  | x :: xs => do
    if ← Act.ask r.host.stop then Act.fail (.interrupted x.name)
    let outcome ← r.trial x budget (Artifact.log outdir x.name iteration)
    return (x.name, outcome) :: (← r.trials outdir budget iteration xs)

/-- The opening of a sweep: it tells the progress so far and draws the order in
    which the experiments are run. -/
def opening (r : Runner) (outdir : Path) (budget : UInt64) (xs : List Descriptor) :
    Act TrialError (Progress × List Descriptor) := do
  let progress ← Act.look fun d => (d.scan outdir budget xs).mapError .store
  Act.print (Console.progressLine r.voice progress)
  r.tell .bold (.iteration progress.nextIteration)
  let order ← Act.ask fun n => r.host.order n xs
  return (progress, order)

/-- One sweep.  The experiments come back in the order in which they were run. -/
def sweep (r : Runner) (outdir : Path) (budget : UInt64) (xs : List Descriptor) :
    Act TrialError (SweepReport × List Descriptor) := do
  let (progress, order) ← r.opening outdir budget xs
  let outcomes ← r.trials outdir budget progress.nextIteration order
  return (⟨progress, progress.nextIteration, outcomes⟩, order)

/-- So many sweeps, one after the other. -/
def sweeps (r : Runner) (outdir : Path) (budget : UInt64) :
    Nat → List Descriptor → Act TrialError Unit
  | 0, _ => return ()
  | n + 1, xs => do
    let (_, order) ← r.sweep outdir budget xs
    r.sweeps outdir budget n order

/-- More sweeps than iterations can be numbered. -/
def endless : Nat := UInt64.size

/-- Makes the output directory and runs sweeps, so many or without end. -/
def run (r : Runner) (outdir : Path) (budget : UInt64) (limit : Option Nat)
    (xs : List Descriptor) : Act TrialError Unit := do
  (Act.ensureDir outdir).blame (.artifact outdir)
  if xs = [] then r.tell .yellow .noExperiments
  else r.sweeps outdir budget (limit.getD endless) xs

end Runner

end BenchSweep
