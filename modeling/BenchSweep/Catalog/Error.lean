import BenchSweep.Decimal.Shortest
import BenchSweep.Shell.Expand

/-! # Catalog Errors

    Everything that can be wrong with a catalog whose text is well formed, and
    the words for it. -/

namespace BenchSweep

/-- Why a catalog is refused. -/
inductive CatalogError where
  /-- Two experiments have one name. -/
  | duplicateName (name : String)
  /-- A command has no program. -/
  | emptyCommand (family variant : String)
  /-- The quotes of a command do not close. -/
  | unbalancedQuotes (command : String)
  /-- A command names a variable that is not set. -/
  | expansion (command : String) (cause : Shell.UnsetVariable)
  | unknownPlaceholder (template placeholder : String)
  /-- A template asks for the worker count of a variant that has none. -/
  | missingWorkers (template variant : String)
  /-- A speedup names no experiment of its family. -/
  | unknownSpeedupReference (family label name : String)
  | zeroTimeout
  | invalidSettle (seconds : Float)
  /-- A name cannot be part of a report's file name. -/
  | invalidFileStem (name : String)
deriving DecidableEq

/-- The words for an error. -/
def CatalogError.message : CatalogError → String
  | duplicateName name => "duplicate experiment name '" ++ name ++ "'"
  | emptyCommand family variant =>
    "variant '" ++ variant ++ "' in family '" ++ family ++ "' expands to an empty command"
  | unbalancedQuotes command => "cannot split command template '" ++ command ++ "'"
  | expansion command cause => "cannot expand '" ++ command ++ "': " ++ cause.message
  | unknownPlaceholder template placeholder =>
    "unknown placeholder '" ++ placeholder ++ "' in '" ++ template ++ "'"
  | missingWorkers template variant =>
    "template '" ++ template ++ "' uses \x7bworkers\x7d but variant '" ++ variant
      ++ "' declares no workers"
  | unknownSpeedupReference family label name =>
    "speedup '" ++ label ++ "' in family '" ++ family ++ "' references unknown experiment '"
      ++ name ++ "'"
  | zeroTimeout => "timeout must be at least one second"
  | invalidSettle seconds =>
    "settle delay must be a finite, non-negative number of seconds, got "
      ++ Decimal.plainText seconds
  | invalidFileStem name => "'" ++ name ++ "' cannot be used in a report file name"

end BenchSweep
