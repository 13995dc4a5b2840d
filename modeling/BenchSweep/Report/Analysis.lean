import BenchSweep.Experiment.Expansion
import BenchSweep.Run.Progress
import BenchSweep.Stats.Aggregate

/-! # Family Tables

    Recorded outcomes, laid out for reports: one table for each family and each
    of its metrics, with a row for each model and a column for each variant.
    Speedups compare the means of the table's metric, and the table of the
    total time also shows the phases as shares of it. -/

namespace BenchSweep

/-! ## Section 1: Tables -/

/-- The statistics of one experiment in a table. -/
structure Cell where
  value : Summary Float
  timeouts : Nat
deriving DecidableEq

/-- The mean of a phase and its percentage of the total time. -/
structure PhaseCell where
  mean : Option Float
  percent : Option Float
deriving DecidableEq

/-- The row of one model. -/
structure Row where
  model : String
  states : Option Nat
  blocks : Option Nat
  /-- One for each column; `none` where the variant skips the model. -/
  cells : List (Option Cell)
  /-- One for each speedup. -/
  speedups : List (Option Float)
  /-- For each phase, one for each column. -/
  phases : List (List (Option PhaseCell))
deriving DecidableEq

/-- One metric of one family. -/
structure FamilyTable where
  family : String
  metric : String
  columns : List String
  speedups : List String
  phases : List String
  rows : List Row
deriving DecidableEq

/-- All that reports show. -/
structure Analysis where
  progress : Progress
  aggregate : Aggregate
  /-- How many trials of each experiment overran. -/
  timeouts : Keyed Nat
  tables : List FamilyTable
deriving DecidableEq

/-! ## Section 2: The experiments of a family -/

/-- The experiments that a family's reports show, with their places. -/
def members (family : String) (ds : List Descriptor) : List (String × Origin) :=
  ds.filterMap fun d =>
    match d.origin with
    | some o => if o.family = family then some (d.name, o) else none
    | none => none

/-- The columns of a family, each once, in the order of its experiments. -/
def columnsOf (ms : List (String × Origin)) : List String :=
  (ms.map fun m => m.2.column).eraseDups

/-- The experiment of a model in a column. -/
def memberAt? (ms : List (String × Origin)) (model column : String) : Option String :=
  (ms.find? fun m => m.2.model == model && m.2.column == column).map Prod.fst

/-! ## Section 3: Filling the tables -/

/-- What the tables are filled from. -/
structure Measured where
  aggregate : Aggregate
  timeouts : Keyed Nat

/-- The cell of an experiment. -/
def Measured.cell (m : Measured) (metric name : String) : Cell where
  value := (m.aggregate.summary? name metric).getD (Summary.of [])
  timeouts := (m.timeouts.find? name).getD 0

/-- The cell of a phase of an experiment. -/
def Measured.phaseCell (m : Measured) (phase name : String) : PhaseCell :=
  let mean := m.aggregate.mean? name phase
  { mean, percent := (ratio mean (m.aggregate.mean? name timeKey)).map fun r => 100.0 * r }

/-- The speedup of a model. -/
def Measured.speedup (m : Measured) (metric : String) (s : Speedup) (model : Model) :
    Option Float :=
  match Template.speedupName s.numerator model, Template.speedupName s.denominator model with
  | .ok top, .ok bottom => ratio (m.aggregate.mean? top metric) (m.aggregate.mean? bottom metric)
  | _, _ => none

/-- The phases that the table of a metric shows. -/
def Family.tablePhases (f : Family) (metric : String) : List String :=
  if metric = timeKey then f.phases else []

/-- The row of a model. -/
def Measured.row (m : Measured) (f : Family) (metric : String) (ms : List (String × Origin))
    (columns : List String) (model : Model) : Row :=
  let names := columns.map (memberAt? ms model.name)
  { model := model.name
    states := model.states
    blocks := model.blocks
    cells := names.map fun name => name.map (m.cell metric)
    speedups := f.speedups.map fun s => m.speedup metric s model
    phases := (f.tablePhases metric).map fun phase =>
      names.map fun name => name.map (m.phaseCell phase) }

/-- The models of a family in the order of their names. -/
def Family.sortedModels (f : Family) : List Model :=
  f.models.mergeSort fun a b => decide (a.name ≤ b.name)

/-- The table of one metric of a family. -/
def Measured.table (m : Measured) (ds : List Descriptor) (f : Family) (metric : String) :
    FamilyTable :=
  let ms := members f.name ds
  let columns := columnsOf ms
  { family := f.name
    metric
    columns
    speedups := f.speedups.map Speedup.label
    phases := f.tablePhases metric
    rows := f.sortedModels.map (m.row f metric ms columns) }

/-- Lays out recorded outcomes. -/
def analyse (c : Catalog) (ds : List Descriptor) (progress : Progress) : Analysis :=
  let aggregate := Aggregate.ofResults progress.results
  let timeouts := tally (progress.timeouts.map Prod.fst)
  { progress, aggregate, timeouts
    tables := c.families.flatMap fun f =>
      f.metrics.map (Measured.table { aggregate, timeouts } ds f) }

/-- The names of all experiments with an outcome, in order. -/
def Analysis.names (a : Analysis) : List String :=
  ((a.aggregate.keys ++ a.timeouts.keys).mergeSort fun x y => decide (x ≤ y)).eraseDups

end BenchSweep
