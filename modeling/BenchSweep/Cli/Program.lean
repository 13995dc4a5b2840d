import BenchSweep.Cli.Help
import BenchSweep.Command.Init
import BenchSweep.Command.Report
import BenchSweep.Command.Run

/-! # The Program

    From the arguments to the texts that are shown and the number that the
    program ends with. -/

namespace BenchSweep.Cli

/-- How the program ends. -/
structure Exit where
  code : UInt8
  /-- What it has shown as its output. -/
  out : String
  /-- What it has shown beside its output. -/
  err : String
  disk : Disk

/-! ## Section 1: Colors -/

/-- Whether output is colored.  The operator can force colors, else forbid
    them; else a terminal has them unless they are switched off. -/
def wantsColors (env : Shell.Environment) (terminal : Bool) : Bool :=
  let isOn (v : String) : Bool := v ≠ "0"
  if (env.find? "CLICOLOR_FORCE").any isOn then true
  else if env.contains "NO_COLOR" then false
  else terminal && (env.find? "CLICOLOR").all isOn

/-- Whether help texts are colored.  Here forbidding comes first. -/
def helpColors (env : Shell.Environment) (terminal : Bool) : Bool :=
  if (env.find? "NO_COLOR").any (· ≠ "") then false
  else if (env.find? "CLICOLOR_FORCE").any (· ≠ "0") then true
  else terminal && (env.find? "CLICOLOR").all (· ≠ "0")

/-! ## Section 2: Commands -/

/-- The path given by an option. -/
def Given.path? (g : Given) (name : String) : Option Path :=
  (g.text? name).map Path.mk

/-- The catalog file that is given, or the usual one. -/
def Given.config (g : Given) : Path :=
  (g.path? "config").getD ⟨Catalog.defaultFile⟩

/-- What a command does.  The explicit language is the one found before the
    arguments were read. -/
def perform (s : Surroundings) (explicit : Option String) (locale : Locale) (v : Verb)
    (g : Given) : Act Failure Unit :=
  match v with
  | .run => Command.run s {
      config := g.config
      language := explicit
      outdir := g.path? "outdir"
      timeout := (g.natural? "timeout").map UInt64.ofNat
      settleSecs := g.number? "settle"
      seed := g.natural? "seed"
      sweeps := g.natural? "sweeps" }
  | .report => Command.report s {
      config := g.config
      language := explicit
      outdir := g.path? "outdir"
      latex := g.path? "latex"
      html := g.path? "html"
      json := g.path? "json" }
  | .init => do
    let interactive := !g.isOn "non-interactive"
    if explicit.isNone && interactive then
      Act.printLine ("🌐 " ++ locale.say (.languageDetected locale.tag))
    Command.init s locale.tag interactive

/-! ## Section 3: Endings -/

/-- The number that a failure ends the program with.  An interruption has the
    number that a shell gives it. -/
def Failure.code (f : Failure) : UInt8 :=
  match f.root with
  | .trial (.interrupted _) => 130
  | _ => 1

/-- What a failure shows.  An interruption has told the operator already. -/
def Failure.text (f : Failure) : String :=
  match f.root with
  | .trial (.interrupted _) => ""
  | _ => "Error: " ++ f.message ++ "\n"

/-- Runs the program. -/
def execute (s : Surroundings) (terminal : Bool) (args : List String) (d : Disk) : Exit :=
  let explicit := languageOf args
  let locale := Locale.activated (explicit.getD ((Locale.system s.env).getD Locale.en.tag))
  let colors := helpColors s.env terminal
  match readArguments args with
  | .help topic => { code := 0, out := topic.text colors locale, err := "", disk := d }
  | .version => { code := 0, out := programName ++ " " ++ version ++ "\n", err := "", disk := d }
  | .misuse => { code := 2, out := "", err := Topic.program.text colors locale, disk := d }
  | .perform v given =>
    let (r, w) := (perform s explicit locale v given).perform (.fresh d)
    match r with
    | .ok () => { code := 0, out := w.shown, err := "", disk := w.disk }
    | .error f =>
      { code := Failure.code f, out := w.shown, err := Failure.text f, disk := w.disk }

end BenchSweep.Cli
