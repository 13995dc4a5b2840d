import BenchSweep.Catalog.Basic
import BenchSweep.Catalog.Error
import BenchSweep.Decimal.Fixed
import BenchSweep.Disk.Path

/-! # Sweep Settings

    The settings a sweep runs with: those of the catalog, unless the operator
    gives others. -/

namespace BenchSweep

/-! ## Section 1: Delays -/

/-- A delay in nanoseconds. -/
structure Delay where
  nanos : Nat
deriving DecidableEq, Repr

/-- The delay of a number of seconds, to the nearest nanosecond.  There is none
    for a negative or infinite number, for NaN, or from `2 ^ 64` seconds on. -/
def Delay.ofSeconds? (seconds : Float) : Option Delay :=
  match Decimal.meaning seconds with
  | .finite negative b =>
    let v := b.toQuotient
    if negative ∧ v.num ≠ 0 then none
    else if v.den * UInt64.size ≤ v.num then none
    else some ⟨Decimal.roundDiv (v.num * Decimal.tenPow 9) v.den⟩
  | _ => none

def Delay.isZero (d : Delay) : Bool :=
  d.nanos == 0

/-! ## Section 2: Checks -/

/-- Whether a name can be part of a file name in one directory. -/
def isFileStem (name : String) : Bool :=
  name ≠ "" && name ≠ "." && name ≠ ".." && !name.toList.any fun c => c == '/' || c == '\\'

/-- The first name of a family that cannot be part of a report's file name. -/
def Family.badStem? (f : Family) : Option String :=
  (f.name :: f.metrics).find? fun name => !isFileStem name

/-- The delay of a number of seconds that was asked for. -/
def settleDelay (seconds : Float) : Except CatalogError Delay :=
  match Delay.ofSeconds? seconds with
  | some d => .ok d
  | none => .error (.invalidSettle seconds)

/-- Checks what does not depend on the environment: the delay, and the names
    that reports are filed under. -/
def Catalog.validate (c : Catalog) : Except CatalogError Unit := do
  let _ ← settleDelay c.settleSecs
  match c.families.findSome? Family.badStem? with
  | some name => .error (.invalidFileStem name)
  | none => .ok ()

/-! ## Section 3: Settings -/

/-- What the operator asks for instead of the catalog's settings. -/
structure Overrides where
  outdir : Option Path := none
  timeout : Option UInt64 := none
  settleSecs : Option Float := none

/-- The settings of a sweep.  No trial could end within a budget of zero. -/
structure Settings where
  outdir : Path
  timeout : UInt64
  settle : Delay
  onInterrupt : InterruptPolicy
  timeout_ne : timeout ≠ 0
deriving DecidableEq, Repr

/-- Settings, unless the budget is zero. -/
def Settings.of (outdir : Path) (timeout : UInt64) (settle : Delay)
    (onInterrupt : InterruptPolicy) : Except CatalogError Settings :=
  if h : timeout = 0 then .error .zeroTimeout
  else .ok { outdir, timeout, settle, onInterrupt, timeout_ne := h }

/-- Why there are no settings. -/
inductive SettingsError where
  /-- The output directory names a variable that is not set. -/
  | outdir (text : String) (cause : Shell.UnsetVariable)
  | catalog (cause : CatalogError)
deriving DecidableEq

/-- The words for an error, each cause behind what it caused. -/
def SettingsError.message : SettingsError → String
  | outdir text cause =>
    "Failed to expand output directory: " ++ text ++ ": " ++ cause.message ++ ": "
      ++ Shell.UnsetVariable.cause
  | catalog cause => cause.message

/-- The output directory of a catalog, expanded. -/
def Catalog.expandOutdir (env : Shell.Environment) (c : Catalog) : Except SettingsError Path :=
  match Shell.expand env c.outdir with
  | .ok path => .ok ⟨path⟩
  | .error cause => .error (.outdir c.outdir cause)

/-- The settings of a catalog under overrides. -/
def Settings.resolve (env : Shell.Environment) (c : Catalog) (o : Overrides) :
    Except SettingsError Settings := do
  let outdir ← match o.outdir with
    | some path => .ok path
    | none => c.expandOutdir env
  let settle ← (settleDelay (o.settleSecs.getD c.settleSecs)).mapError .catalog
  (Settings.of outdir (o.timeout.getD c.timeout) settle c.onInterrupt).mapError .catalog

end BenchSweep
