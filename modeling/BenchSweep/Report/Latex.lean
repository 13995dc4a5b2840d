import BenchSweep.Report.Analysis
import BenchSweep.Stats.Value

/-! # LaTeX Reports

    Every table as a `tabular` environment.  What the catalog names is escaped,
    so that it can neither end a cell nor a row. -/

namespace BenchSweep.Latex

/-! ## Section 1: Escaping -/

/-- One character of a text inside a cell. -/
def escapeChar (c : Char) : List Char :=
  if c ∈ ['_', '%', '&', '#', '$', '\x7b', '\x7d'] then ['\\', c]
  else if c = '\\' then "\\textbackslash\x7b\x7d".toList
  else if c = '^' then "\\textasciicircum\x7b\x7d".toList
  else if c = '~' then "\\textasciitilde\x7b\x7d".toList
  else [c]

/-- A text as it is written inside a cell. -/
def escape (s : String) : String :=
  String.ofList (s.toList.flatMap escapeChar)

/-! ## Section 2: Tables -/

/-- Whether the model of some row has a known number of states. -/
def showsStates (t : FamilyTable) : Bool :=
  t.rows.any fun r => r.states.isSome

/-- Whether the model of some row has a known number of blocks. -/
def showsBlocks (t : FamilyTable) : Bool :=
  t.rows.any fun r => r.blocks.isSome

/-- A number, or the placeholder. -/
def countText : Option Nat → String
  | some n => toString n
  | none => placeholder

/-- The text of a cell. -/
def cellText : Option Cell → String
  | some c => if c.value.count = 0 ∧ 0 < c.timeouts then "T/O" else valueText c.value.mean
  | none => placeholder

/-- The cells of the header. -/
def headerCells (t : FamilyTable) : List String :=
  escape "Model" :: (if showsStates t then ["States"] else [])
    ++ (if showsBlocks t then ["Blocks"] else [])
    ++ t.columns.map escape ++ t.speedups.map escape

/-- The cells of a row. -/
def rowCells (t : FamilyTable) (r : Row) : List String :=
  escape r.model :: (if showsStates t then [countText r.states] else [])
    ++ (if showsBlocks t then [countText r.blocks] else [])
    ++ r.cells.map cellText ++ r.speedups.map valueText

/-- The alignment of the columns: names to the left, numbers to the right. -/
def alignment (t : FamilyTable) : String :=
  "l" ++ (if showsStates t then "r" else "") ++ (if showsBlocks t then "r" else "")
    ++ String.ofList (List.replicate (t.columns.length + t.speedups.length) 'r')

/-- Cells as a line of a table. -/
def line (cells : List String) : String :=
  String.intercalate " & " cells ++ " \\\\\n"

/-- One table. -/
def table (t : FamilyTable) : String :=
  "\\begin\x7btabular\x7d\x7b" ++ alignment t ++ "\x7d\n\\toprule\n" ++ line (headerCells t)
    ++ "\\midrule\n" ++ String.join (t.rows.map fun r => line (rowCells t r))
    ++ "\\bottomrule\n\\end\x7btabular\x7d\n"

/-- The file name of a table.  The table of the total time is the family's own. -/
def fileName (t : FamilyTable) : String :=
  if t.metric = timeKey then "results_" ++ t.family ++ ".tex"
  else "results_" ++ t.family ++ "_" ++ t.metric ++ ".tex"

end BenchSweep.Latex
