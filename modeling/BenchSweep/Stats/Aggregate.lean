import BenchSweep.Log.Format
import BenchSweep.Stats.Welford

/-! # Grouped Results

    Completed trials, grouped by experiment and metric.  A metric that a trial
    does not report contributes nothing to its group. -/

namespace BenchSweep

/-- For every experiment, a summary of each of its metrics. -/
abbrev Aggregate := Keyed (Keyed (Summary Float))

namespace Aggregate

/-- The running groups of one experiment. -/
abbrev Groups := Keyed (Welford Float)

/-- Takes the metrics of one more trial into the groups of its experiment. -/
def addMetrics (groups : Groups) (metrics : Metrics) : Groups :=
  metrics.foldl (fun g e => Keyed.update g e.1 fun w => (w.getD Welford.empty).push e.2) groups

/-- Takes one more trial in. -/
def addResult (all : Keyed Groups) (result : String × Metrics) : Keyed Groups :=
  all.update result.1 fun groups => addMetrics (groups.getD []) result.2

/-- Groups completed trials by experiment and metric. -/
def ofResults (results : List (String × Metrics)) : Aggregate :=
  Keyed.mapValues (Keyed.mapValues Welford.summary) (results.foldl addResult [])

/-- The summary of one metric of one experiment. -/
def summary? (a : Aggregate) (experiment metric : String) : Option (Summary Float) :=
  (a.find? experiment).bind (Keyed.find? · metric)

/-- The mean of one metric of one experiment, if there is one. -/
def mean? (a : Aggregate) (experiment metric : String) : Option Float :=
  (a.summary? experiment metric).bind Summary.mean

end Aggregate

/-- How often each name stands in a list. -/
def tally (names : List String) : Keyed Nat :=
  names.foldl (fun m name => m.update name fun n => n.getD 0 + 1) []

end BenchSweep
