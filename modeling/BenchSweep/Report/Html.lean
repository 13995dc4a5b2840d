import BenchSweep.Locale.Phrase
import BenchSweep.Report.Analysis
import BenchSweep.Report.Markup
import BenchSweep.Report.StyleSheet
import BenchSweep.Report.Console

/-! # HTML Reports

    The tables as one page that needs nothing beside it: the counts of the
    sweep, the statistics of every experiment and metric, and the tables of the
    families. -/

namespace BenchSweep.Html

open Markup (Node)

/-! ## Section 1: Cells -/

/-- A table cell that holds a text. -/
def td (s : String) : Node :=
  .plain "td" [.text s]

/-- An empty table cell. -/
def blank : Node :=
  .plain "td" []

/-- A table cell of a class. -/
def tdOf (kind s : String) : Node :=
  .element "td" [("class", kind)] [.text s]

/-- A cell of the header. -/
def th (s : String) : Node :=
  .plain "th" [.text s]

/-- A table of header cells and rows. -/
def grid (header rows : List Node) : Node :=
  .plain "table" [.plain "thead" [.plain "tr" header], .plain "tbody" rows]

/-! ## Section 2: The counts of the sweep -/

/-- One count with its label. -/
def countBox (l : Locale) (count : Nat) (kind : String) (label : Phrase) : Node :=
  .element "div" [("class", "summary-item")] [
    .element "span" [("class", "count " ++ kind)] [.text (toString count)],
    .element "span" [("class", "label")] [.text (l.say label)]]

def counts (l : Locale) (p : Progress) : Node :=
  .element "div" [("class", "summary-container")] [
    countBox l p.iterations "" .countIterations,
    countBox l p.successful "done-text" .countSuccessful,
    countBox l p.timedOut "timeout-text" .countTimeouts,
    countBox l p.notDone "pending-text" .countNotDone]

/-! ## Section 3: The statistics of the experiments -/

/-- The metrics of an experiment, the total time first. -/
def metricKeys (a : Analysis) (name : String) : List String :=
  timeKey :: (((a.aggregate.find? name).map Keyed.keys).getD []).filter (· ≠ timeKey)

/-- The row of one metric of an experiment.  The name and the timeouts stand in
    the first row only. -/
def metricRow (a : Analysis) (name key : String) : Node :=
  let timeouts := (a.timeouts.find? name).getD 0
  let s := a.aggregate.summary? name key
  let first := key = timeKey
  .plain "tr" [
    if first then td name else blank,
    td key,
    tdOf "num" (toString ((s.map Summary.count).getD 0)),
    tdOf "num" (valueText (s.bind Summary.mean)),
    tdOf "num" (valueText (s.bind Summary.stdDev)),
    if first then tdOf (if 0 < timeouts then "timeout" else "num") (toString timeouts) else blank]

/-- The statistics of every experiment. -/
def experiments (l : Locale) (a : Analysis) : Node :=
  grid
    ([.headerExperiment, .headerMetric, .headerRuns, .headerMean, .headerStdDev,
      .headerTimeouts].map fun p => th (l.say p))
    (a.names.flatMap fun name => (metricKeys a name).map (metricRow a name))

/-! ## Section 4: Family tables -/

/-- The cell of an experiment. -/
def cell : Option Cell → Node
  | some c =>
    if c.value.count = 0 ∧ 0 < c.timeouts then tdOf "timeout" "T/O"
    else
      .element "td" [("class", "num"), ("title", "n=" ++ toString c.value.count)]
        [.text (valueText c.value.mean)]
  | none => blank

/-- The row of a model. -/
def modelRow (r : Row) : Node :=
  .plain "tr" (td r.model :: r.cells.map cell ++ r.speedups.map fun s => tdOf "num" (valueText s))

/-- The row of a phase; the places of the speedups stay empty. -/
def phaseRow (t : FamilyTable) (phase : String) (cells : List (Option PhaseCell)) : Node :=
  .element "tr" [("class", "phase")]
    (td phase :: (cells.map fun c => tdOf "num" (Console.phaseText c))
      ++ t.speedups.map fun _ => blank)

/-- The rows of a model and its phases. -/
def rowsOf (t : FamilyTable) (r : Row) : List Node :=
  modelRow r :: (t.phases.zip r.phases).map fun p => phaseRow t p.1 p.2

/-- One table under its heading. -/
def table (l : Locale) (t : FamilyTable) : List Node :=
  [.plain "h2" [.text (l.say (.familyBanner t.family t.metric))],
    grid (th (l.say .headerModel) :: (t.columns ++ t.speedups).map th) (t.rows.flatMap (rowsOf t))]

/-! ## Section 5: The page -/

/-- The page as a tree. -/
def document (l : Locale) (a : Analysis) : Node :=
  .plain "html" [
    .plain "head" [
      .void "meta" [("charset", "utf-8")],
      .plain "title" [.text (l.say .pageTitle)],
      .style StyleSheet.text],
    .plain "body" (
      [.plain "h1" [.text (l.say .pageHeader)],
        counts l a.progress,
        .plain "h2" [.text (l.say .summaryBanner)],
        experiments l a]
      ++ a.tables.flatMap (table l))]

/-- The text of the page. -/
def page (l : Locale) (a : Analysis) : String :=
  Markup.page (document l a)

end BenchSweep.Html
