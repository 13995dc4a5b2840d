import BenchSweep.Catalog.Settings
import BenchSweep.Locale.Voice
import BenchSweep.Run.Artifact
import BenchSweep.Run.World

/-! # Trials

    One attempt at one experiment, bounded by a budget.  Running is idempotent:
    a trial that is done, or that overran this budget or a larger one, is
    skipped without touching the disk.  What a tool does is up to the host. -/

namespace BenchSweep

/-! ## Section 1: Hosts -/

/-- How an attempt ended. -/
inductive Ending where
  /-- The tool ended by itself. -/
  | exited
  /-- The budget ran out and the tool was stopped. -/
  | overran
  /-- The operator stopped it. -/
  | stopped
  /-- The system could not tell how it ended. -/
  | lost (cause : IoError)
deriving DecidableEq, Repr

/-- What a tool did. -/
structure ToolRun where
  /-- Everything it wrote to its two outputs. -/
  output : ByteArray
  ending : Ending
  /-- The disk as it left it, its log aside. -/
  disk : Disk

/-- The surroundings of a sweep: the tools, the operator, and chance.  What they
    do may depend on how often they were asked before. -/
structure Host where
  /-- Runs the tool of an experiment under a budget of seconds. -/
  launch : Nat → Descriptor → UInt64 → Disk → Except IoError ToolRun
  /-- Whether the operator has asked to stop. -/
  stop : Nat → Bool
  /-- The order in which a sweep runs the experiments. -/
  order : Nat → List Descriptor → List Descriptor
  order_perm : ∀ n xs, (order n xs).Perm xs

/-! ## Section 2: Outcomes and errors -/

/-- What running a trial came to. -/
inductive TrialOutcome where
  /-- Nothing was to be done. -/
  | skipped (status : RunStatus)
  /-- The log proves a completed run of so many seconds. -/
  | completed (time : Float)
  | timedOut (seconds : UInt64)
  /-- The tool ended, but its log proves nothing. -/
  | incomplete
deriving DecidableEq

/-- Whether a tool was launched. -/
def TrialOutcome.ran : TrialOutcome → Bool
  | skipped _ => false
  | _ => true

/-- Why a sweep ends early. -/
inductive TrialError where
  | interrupted (experiment : String)
  | launch (experiment program : String) (cause : IoError)
  | store (cause : StoreError)
  /-- Changing the files of a trial failed. -/
  | artifact (path : Path) (cause : IoError)
deriving DecidableEq, Repr

/-- The words for an error. -/
def TrialError.message : TrialError → String
  | interrupted experiment =>
    "sweep interrupted by operator while running '" ++ experiment ++ "'"
  | launch experiment program cause =>
    "failed to launch '" ++ program ++ "' for experiment '" ++ experiment ++ "': "
      ++ cause.message
  | store cause => cause.message
  | artifact path cause => "artifact operation failed on " ++ path.text ++ ": " ++ cause.message

/-! ## Section 3: Running -/

/-- How trials are run. -/
structure Runner where
  host : Host
  voice : Voice
  /-- The rest after each launched trial. -/
  settle : Delay
  onInterrupt : InterruptPolicy

namespace Runner

/-- Tells the operator a phrase on a line of its own. -/
def tell {ε : Type} (r : Runner) (style : Text.Style) (p : Phrase) : Act ε Unit :=
  Act.printLine (r.voice.painted style p)

/-- Changes the files of a trial in one step. -/
def change (log : Path) (f : Disk → Except IoError Disk) : Act TrialError Unit :=
  (Act.change f).blame (.artifact log)

/-- What is known of a trial. -/
def record (x : Descriptor) (log : Path) : Act TrialError RunRecord :=
  Act.look fun d => (d.status x log).mapError .store

/-- Removes the log and then the marker of a trial. -/
def clear (log : Path) : Act TrialError Unit := do
  change log (·.discard log)
  change log (·.discard (Artifact.marker log))

/-- Announces a trial; the line is ended by its outcome. -/
def announce (r : Runner) (x : Descriptor) : Act TrialError Unit :=
  Act.print (r.voice.painted .blue (.performing x.name) ++ " "
    ++ r.voice.paint .dimmed ("[" ++ x.invocation.commandLine ++ "]") ++ " ")

/-- Runs the tool, which writes to the log. -/
def launch (r : Runner) (x : Descriptor) (budget : UInt64) (log : Path) : Act IoError Ending :=
  ExceptT.mk fun w =>
    match r.host.launch w.asked x budget w.disk with
    | .error e => (.error e, { w with asked := w.asked + 1 })
    | .ok run =>
      (.ok run.ending, { w.advance (run.disk.refill log run.output) with asked := w.asked + 1 })

/-- Takes an interrupted log out of the way. -/
def dropInterrupted (r : Runner) (log : Path) : Act TrialError Unit :=
  match r.onInterrupt with
  | .rename => change log (·.rename log (Artifact.aside log))
  | .discard => change log (·.discard log)

/-- What follows from the way in which the tool ended.  When the budget ran out
    the log goes before the marker comes, so that there are never both. -/
def conclude (r : Runner) (x : Descriptor) (budget : UInt64) (log : Path) :
    Except IoError Ending → Act TrialError TrialOutcome
  | .error cause => do
    change log (·.discard log)
    r.tell .boldRed .launchFailed
    Act.fail (.launch x.name x.invocation.program cause)
  | .ok .stopped => do
    r.dropInterrupted log
    r.tell .boldYellow .interrupted
    Act.fail (.interrupted x.name)
  | .ok .overran => do
    change log (·.discard log)
    change log (·.mark log budget)
    r.tell .red .timeout
    return .timedOut budget
  | .ok (.lost cause) => do
    -- Should the log stay, then nothing is said of that.
    let _ ← (change log (·.discard log)).outcome
    r.tell .boldRed .launchFailed
    Act.fail (.artifact log cause)
  | .ok .exited => do
    match ← record x log with
    | .done time _ =>
      r.tell .green (.done time)
      return .completed time
    | _ =>
      r.tell .yellow .notDone
      return .incomplete

/-- Rests after a trial, unless the operator asks to stop. -/
def rest (r : Runner) (x : Descriptor) : Act TrialError Unit := do
  if r.settle.isZero then return ()
  if ← Act.ask r.host.stop then Act.fail (.interrupted x.name)

/-- Runs an experiment once with its output in a log, unless what is known of
    the trial settles the matter at this budget. -/
def trial (r : Runner) (x : Descriptor) (budget : UInt64) (log : Path) :
    Act TrialError TrialOutcome := do
  let known ← record x log
  if !known.isPending budget then return .skipped known.status
  clear log
  r.announce x
  change log (·.write log .empty)
  let outcome ← r.conclude x budget log (← (r.launch x budget log).outcome)
  r.rest x
  return outcome

end Runner

end BenchSweep
