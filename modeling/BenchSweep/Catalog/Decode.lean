import BenchSweep.Catalog.Basic
import BenchSweep.Toml.Document

/-! # Catalogs from TOML

    A catalog is a table whose entries may be left out where there is a
    default.  Entries with other keys are ignored.  A record may also be given
    as an array of its entries in order, and a choice as a table that holds
    nothing but its name. -/

namespace BenchSweep.Catalog

open Toml (Value Table)

/-! ## Section 1: Simple values -/

def asString? : Value → Option String
  | .string s => some s
  | _ => none

/-- A whole number from zero to a bound. -/
def asNat? (bound : Nat) : Value → Option Nat
  | .integer n => if 0 ≤ n ∧ n ≤ bound then some n.toNat else none
  | _ => none

/-- A number of at most 64 bits. -/
def asNat64? : Value → Option Nat :=
  asNat? (UInt64.size - 1)

/-- A float, or a whole number of at most 64 bits. -/
def asFloat? : Value → Option Float
  | .float x => some x
  | .integer n =>
    if 0 ≤ n then
      if n < UInt64.size then some (UInt64.ofNat n.toNat).toFloat else none
    else if -(Decimal.twoPow 63 : Int) ≤ n then some (UInt64.ofNat n.natAbs).toFloat.neg
    else none
  | _ => none

/-- An array whose items all fit. -/
def asList? {α : Type} (item : Value → Option α) : Value → Option (List α)
  | .array items => items.mapM item
  | _ => none

/-- One of several names, written as a string or as a table that holds it alone
    over nothing. -/
def asChoice? {α : Type} (ofName? : String → Option α) : Value → Option α
  | .string s => ofName? s
  | .table [(s, .table [])] => ofName? s
  | .table [(s, .array [])] => ofName? s
  | _ => none

/-! ## Section 2: Records -/

/-- The entries of a record: a table, or an array in the order of the keys. -/
def asRecord? (keys : List String) : Value → Option Table
  | .table entries => some entries
  | .array items => some (keys.zip items)
  | _ => none

/-- An entry that must be there. -/
def required {α : Type} (t : Table) (k : String) (item : Value → Option α) : Option α :=
  (t.get? k).bind item

/-- An entry that has a default. -/
def optional {α : Type} (t : Table) (k : String) (item : Value → Option α) (default : α) :
    Option α :=
  match t.get? k with
  | some v => item v
  | none => some default

/-- An entry that may be absent. -/
def maybe {α : Type} (t : Table) (k : String) (item : Value → Option α) : Option (Option α) :=
  optional t k (fun v => (item v).map some) none

def asModel? (v : Value) : Option Model := do
  let t ← asRecord? ["name", "input", "states", "blocks"] v
  return {
    name := ← required t "name" asString?
    input := ← optional t "input" (asList? asString?) []
    states := ← maybe t "states" asNat64?
    blocks := ← maybe t "blocks" asNat64? }

def asVariant? (v : Value) : Option Variant := do
  let t ← asRecord? ["name", "command", "parser", "label", "workers", "exclude"] v
  return {
    name := ← required t "name" asString?
    command := ← required t "command" asString?
    format := ← required t "parser" (asChoice? LogFormat.ofName?)
    label := ← maybe t "label" asString?
    workers := ← optional t "workers" (asList? (asNat? (UInt32.size - 1))) []
    exclude := ← optional t "exclude" (asList? asString?) [] }

def asSpeedup? (v : Value) : Option Speedup := do
  let t ← asRecord? ["label", "numerator", "denominator"] v
  return {
    label := ← required t "label" asString?
    numerator := ← required t "numerator" asString?
    denominator := ← required t "denominator" asString? }

def asFamily? (v : Value) : Option Family := do
  let t ← asRecord? ["name", "models", "variants", "speedups", "phases", "metrics"] v
  return {
    name := ← required t "name" asString?
    models := ← optional t "models" (asList? asModel?) []
    variants := ← optional t "variants" (asList? asVariant?) []
    speedups := ← optional t "speedups" (asList? asSpeedup?) []
    phases := ← optional t "phases" (asList? asString?) []
    metrics := ← optional t "metrics" (asList? asString?) [timeKey] }

def policyOfName? (s : String) : Option InterruptPolicy :=
  [InterruptPolicy.rename, .discard].find? fun p => p.name == s

/-- The catalog of a document. -/
def ofTable? (t : Table) : Option Catalog := do
  return {
    language := ← maybe t "language" asString?
    outdir := ← optional t "outdir" asString? Catalog.default.outdir
    timeout := ← optional t "timeout" (fun v => (asNat64? v).map UInt64.ofNat)
      Catalog.default.timeout
    settleSecs := ← optional t "settle_secs" asFloat? Catalog.default.settleSecs
    onInterrupt := ← optional t "on_interrupt" (asChoice? policyOfName?)
      Catalog.default.onInterrupt
    families := ← optional t "families" (asList? asFamily?) [] }

end BenchSweep.Catalog
