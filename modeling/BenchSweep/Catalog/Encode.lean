import BenchSweep.Catalog.Basic
import BenchSweep.Toml.Writer

/-! # Catalogs to TOML

    A catalog as a table.  Options that are unset and lists that may be left
    out when empty are left out. -/

namespace BenchSweep.Catalog

open Toml (Value Table)

def strings (xs : List String) : Value :=
  .array (xs.map Value.string)

/-- An entry that is left out when it is unset. -/
def ifSet (k : String) (v : Option Value) : Table :=
  match v with
  | some v => [(k, v)]
  | none => []

/-- An entry that is left out when it is empty. -/
def ifAny {α : Type} (k : String) (xs : List α) (f : α → Value) : Table :=
  if xs.isEmpty then [] else [(k, .array (xs.map f))]

def ofModel (m : Model) : Value :=
  .table (
    [("name", .string m.name), ("input", strings m.input)]
      ++ ifSet "states" (m.states.map fun n => .integer n)
      ++ ifSet "blocks" (m.blocks.map fun n => .integer n))

def ofVariant (v : Variant) : Value :=
  .table (
    [("name", .string v.name), ("command", .string v.command), ("parser", .string v.format.name)]
      ++ ifSet "label" (v.label.map Value.string)
      ++ ifAny "workers" v.workers (fun n => .integer n)
      ++ ifAny "exclude" v.exclude Value.string)

def ofSpeedup (s : Speedup) : Value :=
  .table [("label", .string s.label), ("numerator", .string s.numerator),
    ("denominator", .string s.denominator)]

def ofFamily (f : Family) : Value :=
  .table (
    [("name", .string f.name), ("models", .array (f.models.map ofModel)),
      ("variants", .array (f.variants.map ofVariant))]
      ++ ifAny "speedups" f.speedups ofSpeedup
      ++ ifAny "phases" f.phases Value.string
      ++ [("metrics", strings f.metrics)])

/-- The table of a catalog. -/
def toTable (c : Catalog) : Table :=
  ifSet "language" (c.language.map Value.string)
    ++ [("outdir", .string c.outdir), ("timeout", .integer c.timeout.toNat),
      ("settle_secs", .float c.settleSecs), ("on_interrupt", .string c.onInterrupt.name),
      ("families", .array (c.families.map ofFamily))]

/-- The text of a catalog file. -/
def toText (c : Catalog) : String :=
  Toml.write c.toTable

end BenchSweep.Catalog
