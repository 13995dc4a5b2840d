import BenchSweep.Catalog.File
import BenchSweep.Run.Trial

/-! # Failures

    Why a command ends without having done its work: a cause, with what was
    being done around it.  A failure is told level by level, from the outermost
    one down to the cause of the cause. -/

namespace BenchSweep

/-- Why a command fails. -/
inductive Failure where
  /-- What was being done when a failure came. -/
  | during (doing : String) (cause : Failure)
  /-- A text that says it all. -/
  | refused (text : String)
  | io (cause : IoError)
  | catalogText (cause : CatalogTextError)
  | settings (cause : SettingsError)
  | trial (cause : TrialError)
  /-- A question to the operator, who cannot be reached. -/
  | noTerminal
deriving DecidableEq

/-- The causes that a store error names as levels of their own. -/
def StoreError.causes : StoreError → List String
  | unreadable _ cause => [cause.message]
  | corruptMarker .. => []

/-- The causes that a trial error names as levels of their own. -/
def TrialError.causes : TrialError → List String
  | interrupted _ => []
  | launch _ _ cause => [cause.message]
  | store cause => cause.causes
  | artifact _ cause => [cause.message]

/-- How a text that is not TOML is named. -/
def CatalogTextError.message : CatalogTextError → String
  | malformed => "TOML parse error"
  | invalid cause => cause.message

namespace Failure

/-- The levels of a failure, the outermost first. -/
def levels : Failure → List String
  | during doing cause => doing :: cause.levels
  | refused text => [text]
  | io cause => [cause.message]
  | catalogText cause => [cause.message]
  | settings cause => [cause.message]
  | trial cause => cause.message :: cause.causes
  | noTerminal => ["IO error: not a terminal", "not a terminal"]

/-- The innermost failure. -/
def root : Failure → Failure
  | during _ cause => cause.root
  | f => f

/-- The words for a failure. -/
def message (f : Failure) : String :=
  String.intercalate ": " f.levels

end Failure

end BenchSweep
