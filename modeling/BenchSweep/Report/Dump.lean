import BenchSweep.Report.Analysis
import BenchSweep.Report.JsonText

/-! # JSON Reports

    Everything that reports show, for other programs to read.  What is
    undefined is `null`. -/

namespace BenchSweep.Dump

/-- A value that may be undefined. -/
def maybe (x : Option Float) : Json :=
  match x with
  | some x => .number x
  | none => .null

/-- A count that may be unknown. -/
def count (n : Option Nat) : Json :=
  match n with
  | some n => .natural n
  | none => .null

def strings (xs : List String) : Json :=
  .array (xs.map Json.string)

def summary (s : Summary Float) : Json :=
  .object [("count", .natural s.count), ("mean", maybe s.mean), ("variance", maybe s.variance)]

def cell : Option Cell → Json
  | some c => .object [("value", summary c.value), ("timeouts", .natural c.timeouts)]
  | none => .null

def phaseCell : Option PhaseCell → Json
  | some c => .object [("mean", maybe c.mean), ("percent", maybe c.percent)]
  | none => .null

def row (r : Row) : Json :=
  .object [
    ("model", .string r.model),
    ("states", count r.states),
    ("blocks", count r.blocks),
    ("cells", .array (r.cells.map cell)),
    ("speedups", .array (r.speedups.map maybe)),
    ("phases", .array (r.phases.map fun p => .array (p.map phaseCell)))]

def table (t : FamilyTable) : Json :=
  .object [
    ("family", .string t.family),
    ("metric", .string t.metric),
    ("columns", strings t.columns),
    ("speedups", strings t.speedups),
    ("phases", strings t.phases),
    ("rows", .array (t.rows.map row))]

/-- An object with a value for each key. -/
def keyed {α : Type} (f : α → Json) (m : Keyed α) : Json :=
  .object (m.mapValues f)

/-- The report of an analysis that was made at a time. -/
def report (generatedAt : String) (a : Analysis) : Json :=
  .object [
    ("generated_at", .string generatedAt),
    ("iterations", .natural a.progress.iterations),
    ("successful", .natural a.progress.successful),
    ("timeouts", .natural a.progress.timedOut),
    ("not_done", .natural a.progress.notDone),
    ("experiments", keyed (keyed summary) a.aggregate),
    ("timeouts_per_experiment", keyed .natural a.timeouts),
    ("families", .array (a.tables.map table))]

end BenchSweep.Dump
