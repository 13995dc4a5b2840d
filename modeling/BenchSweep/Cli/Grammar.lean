import BenchSweep.Catalog.Basic
import BenchSweep.Locale.Phrase

/-! # The Grammar of the Command Line

    The commands of the program and the options that each of them takes. -/

namespace BenchSweep.Cli

/-- What the value of an option may be. -/
inductive ValueKind where
  | text
  /-- A text that is not empty. -/
  | path
  | natural
  /-- A natural number other than zero. -/
  | positive
  | number
deriving DecidableEq, Repr

/-- An option.  One without a value is a switch. -/
structure Opt where
  name : String
  short : Option Char
  /-- The placeholder of the value in help texts, and what it may be. -/
  value : Option (String × ValueKind)
  help : Phrase
  /-- The value that stands in for a missing one, as help texts show it. -/
  fallback : Option String

/-- An option with a value. -/
def Opt.valued (name placeholder : String) (kind : ValueKind) (help : Phrase) : Opt where
  name
  short := none
  value := some (placeholder, kind)
  help
  fallback := none

/-- The commands. -/
inductive Verb where
  | run
  | report
  | init
deriving DecidableEq, Repr

namespace Verb

def name : Verb → String
  | run => "run"
  | report => "report"
  | init => "init"

def about : Verb → Phrase
  | run => .runAbout
  | report => .reportAbout
  | init => .initAbout

def all : List Verb := [run, report, init]

/-- The command of a name. -/
def ofName? (s : String) : Option Verb :=
  all.find? fun v => v.name == s

@[simp] theorem ofName?_name (v : Verb) : ofName? v.name = some v := by
  cases v <;> decide

end Verb

/-- The option that every command takes. -/
def langOpt : Opt := .valued "lang" "LANGUAGE" .text .cliLang

def configOpt : Opt where
  name := "config"
  short := some 'c'
  value := some ("CONFIG", .path)
  help := .argConfig
  fallback := some Catalog.defaultFile

def outdirOpt : Opt := .valued "outdir" "DIR" .path .argOutdir

/-- The options of a command, as help texts list them. -/
def Verb.options : Verb → List Opt
  | run =>
    [configOpt, langOpt, outdirOpt, .valued "timeout" "SECONDS" .positive .argTimeout,
      .valued "settle" "SECONDS" .number .argSettle, .valued "seed" "SEED" .natural .argSeed,
      .valued "sweeps" "N" .natural .argSweeps]
  | report =>
    [configOpt, langOpt, outdirOpt, .valued "latex" "DIR" .path .argLatex,
      .valued "html" "HTML" .path .argHtml, .valued "json" "JSON" .path .argJson]
  | init =>
    [langOpt,
      { name := "non-interactive"
        short := none
        value := none
        help := .argNonInteractive
        fallback := none }]

/-- What options may be given at a point: before the name of a command, or
    behind it. -/
inductive Level where
  | top
  | under (v : Verb)
deriving DecidableEq, Repr

/-- The options of a level, apart from help and version. -/
def Level.options : Level → List Opt
  | top => [langOpt]
  | under v => v.options

/-- The name of the program. -/
def programName : String := "sweep-runner"

def version : String := "0.1.0"

end BenchSweep.Cli
