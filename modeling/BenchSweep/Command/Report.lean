import BenchSweep.Command.Session
import BenchSweep.Report.Dump
import BenchSweep.Report.Html
import BenchSweep.Report.Latex
import BenchSweep.Run.Sweep

/-! # The Report Command

    Shows what the output directory tells, and writes reports where they are
    asked for.  It launches nothing, and all that can be wrong with catalog and
    output directory is found before the first file is written. -/

namespace BenchSweep

/-- What the operator asks of a report. -/
structure ReportRequest where
  config : Path
  language : Option String := none
  outdir : Option Path := none
  /-- The directory for LaTeX tables. -/
  latex : Option Path := none
  /-- The file for the HTML page. -/
  html : Option Path := none
  /-- The file for the JSON dump. -/
  json : Option Path := none

namespace Report

/-- Writes a text into a file. -/
def writeText (doing : String) (p : Path) (text : String) : Act Failure Unit :=
  (Act.change (·.write p text.toUTF8)).blame fun cause => .during doing (.io cause)

/-! ## Section 1: LaTeX tables -/

/-- The file of a table. -/
def tablePath (dir : Path) (t : FamilyTable) : Path :=
  dir.join (Latex.fileName t)

/-- Writes one table. -/
def writeTable (dir : Path) (t : FamilyTable) : Act Failure Path := do
  writeText ("Failed to write LaTeX table: " ++ (tablePath dir t).text) (tablePath dir t)
    (Latex.table t)
  return tablePath dir t

/-- Writes every table into a directory, which is made if need be. -/
def writeTables (dir : Path) (ts : List FamilyTable) : Act Failure (List Path) := do
  (Act.ensureDir dir).blame fun cause =>
    .during ("Failed to create LaTeX output directory: " ++ dir.text) (.io cause)
  ts.mapM (writeTable dir)

/-! ## Section 2: Everything that is asked for -/

/-- Tells the operator that a file was written. -/
def tellWritten (v : Voice) (p : Path) : Act Failure Unit :=
  Act.printLine (v.painted .green (.written p.text))

/-- Writes the reports that are asked for, and tells so. -/
def writeAll (s : Surroundings) (v : Voice) (r : ReportRequest) (a : Analysis) :
    Act Failure Unit := do
  if let some dir := r.latex then
    (← writeTables dir a.tables).forM (tellWritten v)
  if let some p := r.html then
    writeText ("Failed to write HTML report: " ++ p.text) p (Html.page v.locale a)
    tellWritten v p
  if let some p := r.json then
    writeText ("Failed to write JSON report: " ++ p.text) p (Dump.report s.now a).text
    tellWritten v p

/-- What a report is about, read off the disk. -/
def gather (s : Surroundings) (r : ReportRequest) (d : Disk) :
    Except Failure (Voice × Analysis) := do
  let session ← d.loadSession s r.config r.language
  let settings ← (Settings.resolve s.env session.catalog { outdir := r.outdir }).mapError .settings
  if !d.isDir settings.outdir then
    .error (.refused (session.voice.say (.outdirMissing settings.outdir.text)))
  let progress ← (d.scan settings.outdir settings.timeout session.experiments).mapError fun e =>
    .trial (.store e)
  return (session.voice, analyse session.catalog session.experiments progress)

end Report

/-- Runs the command. -/
def Command.report (s : Surroundings) (r : ReportRequest) : Act Failure Unit := do
  let (v, a) ← Act.look (Report.gather s r)
  Act.print (Console.progressLine v a.progress)
  Act.print (Console.summary v a)
  Act.print (Console.tables v a)
  Report.writeAll s v r a

end BenchSweep
