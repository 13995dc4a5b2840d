import BenchSweep.Locale.Voice
import BenchSweep.Report.Analysis
import BenchSweep.Stats.Value

/-! # Console Reports

    The tables as text: the progress line, one line for each experiment, and
    the tables of the families in fields of fixed width. -/

namespace BenchSweep.Console

open Text (padLeft padRight)

/-- A text on a line of its own. -/
def line (s : String) : String :=
  s ++ "\n"

/-! ## Section 1: Progress and summary -/

/-- The progress of a sweep in one phrase. -/
def progressPhrase (p : Progress) : Phrase :=
  .progress p.iterations p.successful p.timedOut p.notDone

def progressLine (v : Voice) (p : Progress) : String :=
  line (v.painted .cyan (progressPhrase p))

/-- The five fields of a summary line. -/
def summaryLine (experiment runs mean stdDev timeouts : String) : String :=
  line ("  " ++ padRight 40 experiment ++ " " ++ padLeft 5 runs ++ " " ++ padLeft 10 mean ++ " "
    ++ padLeft 10 stdDev ++ " " ++ timeouts)

/-- The summary line of an experiment. -/
def experimentLine (v : Voice) (a : Analysis) (name : String) : String :=
  let time := a.aggregate.summary? name timeKey
  let timeouts := (a.timeouts.find? name).getD 0
  let field := padLeft 8 (toString timeouts)
  summaryLine name (toString ((time.map Summary.count).getD 0))
    (valueText (time.bind Summary.mean)) (valueText (time.bind Summary.stdDev))
    (if 0 < timeouts then v.paint .red field else field)

/-- The runs, mean, deviation and timeouts of every experiment. -/
def summary (v : Voice) (a : Analysis) : String :=
  line ("\n" ++ v.painted .bold .summaryBanner)
    ++ summaryLine (v.say .headerExperiment) (v.say .headerRuns) (v.say .headerMean)
      (v.say .headerStdDev) (padLeft 8 (v.say .headerTimeouts))
    ++ String.join (a.names.map (experimentLine v a))

/-! ## Section 2: Family tables -/

/-- The text of a cell: the mean and the runs, or what else is known. -/
def cellText : Option Cell → String
  | some c =>
    if c.value.count = 0 ∧ 0 < c.timeouts then "T/O"
    else valueText c.value.mean ++ " (" ++ toString c.value.count ++ ")"
  | none => ""

/-- The text of a phase: its mean and its share. -/
def phaseText : Option PhaseCell → String
  | some c =>
    match c.percent with
    | some p => valueText c.mean ++ " (" ++ Decimal.fixedText 0 p ++ "%)"
    | none => valueText none
  | none => ""

/-- The line of column labels. -/
def headerLine (v : Voice) (t : FamilyTable) : String :=
  line (v.paint .bold
    ("  " ++ padRight 24 (v.say .headerModel)
      ++ String.join (t.columns.map fun c => " " ++ padLeft 16 c)
      ++ String.join (t.speedups.map fun s => " " ++ padLeft 10 s)))

/-- The line of a model. -/
def rowLine (v : Voice) (r : Row) : String :=
  line ("  " ++ padRight 24 r.model
    ++ String.join (r.cells.map fun c => " " ++ padLeft 16 (cellText c))
    ++ String.join (r.speedups.map fun s => " " ++ v.paint .green (padLeft 10 (valueText s))))

/-- The line of a phase of a model. -/
def phaseLine (v : Voice) (model phase : String) (cells : List (Option PhaseCell)) : String :=
  line (v.paint .dimmed
    ("  " ++ padRight 24 (model ++ " " ++ phase)
      ++ String.join (cells.map fun c => " " ++ padLeft 16 (phaseText c))))

/-- The lines of the phases of a model. -/
def rowPhases (v : Voice) (t : FamilyTable) (r : Row) : String :=
  String.join ((t.phases.zip r.phases).map fun p => phaseLine v r.model p.1 p.2)

/-- The phases of a table, if it shows any. -/
def phases (v : Voice) (t : FamilyTable) : String :=
  if t.phases = [] then ""
  else line ("  " ++ v.painted .dimmed .phaseBanner) ++ String.join (t.rows.map (rowPhases v t))

/-- One table. -/
def table (v : Voice) (t : FamilyTable) : String :=
  line ("\n" ++ v.painted .boldUnderline (.familyBanner t.family t.metric))
    ++ headerLine v t ++ String.join (t.rows.map (rowLine v)) ++ phases v t

/-- All tables. -/
def tables (v : Voice) (a : Analysis) : String :=
  String.join (a.tables.map (table v))

end BenchSweep.Console
