import BenchSweep.Log.Format

/-! # Sweep Progress

    What one scan of the output directory finds. -/

namespace BenchSweep

/-- The outcomes recorded on disk. -/
structure Progress where
  /-- How many rows were scanned; the row where the scan stopped is not one of
      them. -/
  iterations : Nat
  /-- How many trials of these rows have no outcome. -/
  notDone : Nat
  /-- The completed trials in scan order. -/
  results : List (String × Metrics)
  /-- The trials that overran a budget, in scan order. -/
  timeouts : List (String × UInt64)
  /-- The first row with work left at the budget of the scan. -/
  nextIteration : Nat
deriving DecidableEq

namespace Progress

def successful (p : Progress) : Nat :=
  p.results.length

def timedOut (p : Progress) : Nat :=
  p.timeouts.length

end Progress

end BenchSweep
