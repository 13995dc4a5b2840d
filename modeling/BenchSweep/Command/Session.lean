import BenchSweep.Command.Failure
import BenchSweep.Experiment.Expansion
import BenchSweep.Run.World

/-! # Sessions

    What the commands on a catalog begin with: the catalog is read, a language
    is chosen, and the experiments are expanded. -/

namespace BenchSweep

/-- What surrounds a command. -/
structure Surroundings where
  env : Shell.Environment
  /-- Whether colors are on. -/
  colors : Bool
  /-- The time of day, as reports show it. -/
  now : String
  /-- The host, given the operator's seed for the order of experiments. -/
  host : Option Nat → Host

/-- A catalog with its experiments, and the voice to speak in. -/
structure Session where
  catalog : Catalog
  experiments : List Descriptor
  voice : Voice

/-- The text of a file. -/
def Disk.readText (d : Disk) (p : Path) : Except IoError String := do
  match String.fromUTF8? (← d.read p) with
  | some text => .ok text
  | none => .error .notText

/-- The catalog in a file. -/
def Disk.loadCatalog (d : Disk) (p : Path) : Except Failure Catalog := do
  let text ← (d.readText p).mapError fun cause =>
    .during ("Failed to read catalog file: " ++ p.text) (.io cause)
  (Catalog.ofText text).mapError fun cause =>
    .during ("Failed to parse catalog file: " ++ p.text) (.catalogText cause)

/-- Begins a session on the catalog in a file. -/
def Disk.loadSession (d : Disk) (s : Surroundings) (config : Path) (language : Option String) :
    Except Failure Session := do
  let catalog ← d.loadCatalog config
  let locale := Locale.activated
    (Locale.requested language catalog.language (Locale.system s.env))
  let voice : Voice := { locale, colors := s.colors }
  let experiments ← (catalog.descriptors s.env).mapError fun cause =>
    .during (voice.say (.configInvalid config.text)) (.catalogText (.invalid cause))
  return { catalog, experiments, voice }

end BenchSweep
