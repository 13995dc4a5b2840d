import BenchSweep.Cli.Arguments
import BenchSweep.Text.Paint

/-! # Help Texts

    A help text says what a command is for, how it is called, and what may be
    given to it, in two columns. -/

namespace BenchSweep.Cli

open Text (padRight paint)

/-! ## Section 1: Sections of two columns -/

/-- A line of a section: a term, how wide it is, and what it means. -/
structure Entry where
  term : String
  width : Nat
  help : String

/-- A term without emphasis. -/
def Entry.plain (term help : String) : Entry := ⟨term, term.length, help⟩

/-- A section under its heading. -/
def sectionText (colors : Bool) (heading : String) (entries : List Entry) : String :=
  let width := (entries.map Entry.width).foldl max 0
  "\n" ++ paint colors .heading (heading ++ ":") ++ "\n"
    ++ String.join (entries.map fun e =>
      "  " ++ e.term ++ Text.spaces (width - e.width) ++ "  " ++ e.help ++ "\n")

/-! ## Section 2: Entries -/

/-- The entry of an option with its spellings. -/
def spellings (colors : Bool) (short : Option Char) (name placeholder help : String) : Entry :=
  let dash := match short with
    | some c => "-" ++ String.singleton c
    | none => ""
  let lead := match short with
    | some _ => paint colors .bold dash ++ ", "
    | none => "    "
  { term := lead ++ paint colors .bold ("--" ++ name) ++ placeholder
    width := 6 + name.length + placeholder.length
    help }

def Opt.entry (colors : Bool) (l : Locale) (o : Opt) : Entry :=
  spellings colors o.short o.name
    (match o.value with
      | some (placeholder, _) => " <" ++ placeholder ++ ">"
      | none => "")
    (l.say o.help ++ match o.fallback with
      | some v => " [default: " ++ v ++ "]"
      | none => "")

def helpEntry (colors : Bool) : Entry :=
  spellings colors (some 'h') "help" "" "Print help"

def versionEntry (colors : Bool) : Entry :=
  spellings colors (some 'V') "version" "" "Print version"

/-- What the command `help` is for. -/
def helpAbout : String := "Print this message or the help of the given subcommand(s)"

def verbEntry (colors : Bool) (name help : String) : Entry :=
  ⟨paint colors .bold name, name.length, help⟩

/-! ## Section 3: Texts -/

/-- How a command is called. -/
def usage (colors : Bool) (call rest : String) : String :=
  paint colors .heading "Usage:" ++ " " ++ paint colors .bold call ++ rest ++ "\n"

/-- The help text of a topic. -/
def Topic.text (colors : Bool) (l : Locale) : Topic → String
  | program =>
    l.say .cliAbout ++ "\n\n" ++ usage colors programName " [OPTIONS] <COMMAND>"
      ++ sectionText colors "Commands"
        ((Verb.all.map fun v => verbEntry colors v.name (l.say v.about))
          ++ [verbEntry colors "help" helpAbout])
      ++ sectionText colors "Options"
        (Level.top.options.map (Opt.entry colors l) ++ [helpEntry colors, versionEntry colors])
  | verb v =>
    l.say v.about ++ "\n\n" ++ usage colors (programName ++ " " ++ v.name) " [OPTIONS]"
      ++ sectionText colors "Options" (v.options.map (Opt.entry colors l) ++ [helpEntry colors])
  | help =>
    helpAbout ++ "\n\n" ++ usage colors (programName ++ " help") " [COMMAND]..."
      ++ sectionText colors "Arguments"
        [.plain "[COMMAND]..." "Print help for the subcommand(s)"]

end BenchSweep.Cli
