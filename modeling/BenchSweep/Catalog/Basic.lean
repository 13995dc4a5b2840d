import BenchSweep.Log.Format

/-! # Catalogs

    A catalog says what a sweep measures: the settings of the sweep, and
    families of experiments.  A family crosses its models with the variants of
    its tools, and each variant with its worker counts. -/

namespace BenchSweep

/-- What happens to the log of a trial that the operator interrupts. -/
inductive InterruptPolicy where
  /-- It is moved aside. -/
  | rename
  /-- It is deleted. -/
  | discard
deriving DecidableEq, Repr

def InterruptPolicy.name : InterruptPolicy → String
  | rename => "rename"
  | discard => "discard"

/-- One input of a family. -/
structure Model where
  name : String
  /-- The arguments that stand for the input on a command line. -/
  input : List String
  /-- How many states the input has, if known. -/
  states : Option Nat
  /-- How many blocks its quotient has, if known. -/
  blocks : Option Nat
deriving DecidableEq, Repr

/-- One way of running a tool on the models of a family. -/
structure Variant where
  /-- Template of the experiment names. -/
  name : String
  /-- Template of the command line. -/
  command : String
  format : LogFormat
  /-- Template of the report columns; derived from the name if absent. -/
  label : Option String
  workers : List Nat
  /-- Names of models that the variant skips. -/
  exclude : List String
deriving DecidableEq, Repr

/-- A report column with the quotient of two means. -/
structure Speedup where
  label : String
  /-- Template of the experiment on top. -/
  numerator : String
  /-- Template of the experiment below. -/
  denominator : String
deriving DecidableEq, Repr

/-- Experiments that are reported together. -/
structure Family where
  name : String
  models : List Model
  variants : List Variant
  speedups : List Speedup
  /-- Metrics that are shown as shares of the total time. -/
  phases : List String
  /-- Metrics that get a table each. -/
  metrics : List String
deriving DecidableEq, Repr

/-- A whole catalog. -/
structure Catalog where
  /-- The language of the output; the system's if absent. -/
  language : Option String
  outdir : String
  /-- Seconds that a trial may take. -/
  timeout : UInt64
  /-- Seconds of rest after each trial that was launched. -/
  settleSecs : Float
  onInterrupt : InterruptPolicy
  families : List Family
deriving DecidableEq

/-- What a catalog holds where it is silent. -/
def Catalog.default : Catalog where
  language := none
  outdir := "out"
  timeout := 1200
  settleSecs := 2
  onInterrupt := .rename
  families := []

/-- The file that holds the catalog unless another is named. -/
def Catalog.defaultFile : String := "Sweep.toml"

/-- The catalog that a new project starts from: one family with two worker
    counts and the speedup between them. -/
def Catalog.starter (language : String) : Catalog :=
  { Catalog.default with
    language := some language
    families := [
      { name := "lts"
        models := [{
          name := "kanban01"
          input := ["models/kanban01.bdd"]
          states := none
          blocks := none }]
        variants := [{
          name := "\x7bmodel\x7d-s-\x7bworkers\x7d"
          command := "./sigrefmc \x7binput\x7d -w \x7bworkers\x7d -l s"
          format := .mc
          label := none
          workers := [1, 4]
          exclude := [] }]
        speedups := [{
          label := "Speedup"
          numerator := "\x7bmodel\x7d-s-1"
          denominator := "\x7bmodel\x7d-s-4" }]
        phases := ["tsig", "tref"]
        metrics := [timeKey] }] }

end BenchSweep
