import BenchSweep.Catalog.Error
import BenchSweep.Log.Format
import BenchSweep.Shell.Words

/-! # Experiment Descriptors

    The identity of one experiment: its name, the command that is launched, and
    the format of the log that proves completion. -/

namespace BenchSweep

/-! ## Section 1: Invocations -/

/-- A program and its arguments.  The program has a name. -/
structure Invocation where
  program : String
  args : List String
  program_ne : program ≠ ""
deriving DecidableEq

/-- The program and its arguments as one list. -/
def Invocation.words (i : Invocation) : List String :=
  i.program :: i.args

/-- The invocation of a list of words, if its first word names a program. -/
def Invocation.ofWords? : List String → Option Invocation
  | [] => none
  | program :: args => if h : program = "" then none else some ⟨program, args, h⟩

theorem Invocation.words_of_ofWords? {ws : List String} {i : Invocation}
    (h : ofWords? ws = some i) : i.words = ws := by
  cases ws with
  | nil => simp [ofWords?] at h
  | cons p args =>
    rw [ofWords?] at h
    split at h
    · cases h
    · cases h
      rfl

/-- The command as it would be typed. -/
def Invocation.commandLine (i : Invocation) : String :=
  String.ofList (Shell.commandLine (i.words.map String.toList))

/-! ## Section 2: Descriptors -/

/-- The place of an experiment in the reports. -/
structure Origin where
  family : String
  model : String
  column : String
deriving DecidableEq, Repr

/-- One experiment. -/
structure Descriptor where
  name : String
  invocation : Invocation
  format : LogFormat
  origin : Option Origin
deriving DecidableEq

/-- An experiment outside of any catalog. -/
def Descriptor.standalone (name : String) (words : List String) (format : LogFormat) :
    Except CatalogError Descriptor :=
  match Invocation.ofWords? words with
  | some invocation => .ok { name, invocation, format, origin := none }
  | none => .error (.emptyCommand "" name)

/-- The metrics of a log of this experiment. -/
def Descriptor.read (d : Descriptor) (log : String) : Option Metrics :=
  d.format.readText log

end BenchSweep
