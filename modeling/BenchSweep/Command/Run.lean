import BenchSweep.Command.Session
import BenchSweep.Run.Sweep

/-! # The Run Command

    Runs sweeps over a catalog until the operator stops it, or so many. -/

namespace BenchSweep

/-- What the operator asks of a run. -/
structure RunRequest where
  config : Path
  language : Option String := none
  outdir : Option Path := none
  timeout : Option UInt64 := none
  settleSecs : Option Float := none
  /-- Fixes the order in which experiments are run. -/
  seed : Option Nat := none
  /-- How many sweeps to run; without end if absent. -/
  sweeps : Option Nat := none

/-- The runner of a session. -/
def Session.runner (session : Session) (settings : Settings) (host : Host) : Runner where
  host
  voice := session.voice
  settle := settings.settle
  onInterrupt := settings.onInterrupt

/-- Runs the command. -/
def Command.run (s : Surroundings) (r : RunRequest) : Act Failure Unit := do
  let session ← Act.look fun d => d.loadSession s r.config r.language
  Act.printLine (session.voice.say (.loadingCatalog r.config.text))
  let settings ← Act.look fun _ =>
    (Settings.resolve s.env session.catalog
      { outdir := r.outdir, timeout := r.timeout, settleSecs := r.settleSecs }).mapError
      Failure.settings
  Act.printLine (session.voice.painted .bold
    (.plan session.experiments.length settings.outdir.text settings.timeout.toNat))
  ((session.runner settings (s.host r.seed)).run settings.outdir settings.timeout r.sweeps
    session.experiments).blame .trial
  if let some n := r.sweeps then
    Act.printLine ("\n" ++ session.voice.painted .boldGreen (.finished n))

end BenchSweep
