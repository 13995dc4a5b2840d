/-! # Style Sheet

    How the report page looks. -/

namespace BenchSweep.StyleSheet

/-- A rule of the sheet, over several lines or on one. -/
structure Rule where
  selector : String
  declarations : List (String × String)
  short : Bool := false

def Rule.write (r : Rule) : String :=
  let declare (d : String × String) := d.1 ++ ": " ++ d.2 ++ ";"
  if r.short then
    r.selector ++ " \x7b " ++ String.intercalate " " (r.declarations.map declare) ++ " \x7d\n"
  else
    r.selector ++ " \x7b\n" ++ String.join (r.declarations.map fun d => "    " ++ declare d ++ "\n")
      ++ "\x7d\n"

/-- The rules of the report page. -/
def rules : List Rule := [
  { selector := "body"
    declarations := [
      ("font-family", "-apple-system, BlinkMacSystemFont, \"Segoe UI\", Roboto, sans-serif"),
      ("margin", "2em"), ("color", "#24292e"), ("background", "#fafbfc")] },
  { selector := "h1, h2"
    declarations := [("border-bottom", "1px solid #e1e4e8"), ("padding-bottom", "0.3em")] },
  { selector := ".summary-container"
    declarations := [("display", "flex"), ("gap", "1.5em"), ("margin", "1.5em 0")] },
  { selector := ".summary-item"
    declarations := [
      ("background", "#fff"), ("border", "1px solid #e1e4e8"), ("border-radius", "6px"),
      ("padding", "1em 1.5em"), ("text-align", "center")] },
  { selector := ".summary-item .count"
    declarations := [("display", "block"), ("font-size", "2em"), ("font-weight", "600")] },
  { selector := ".summary-item .label", declarations := [("color", "#586069")] },
  { selector := ".done-text", declarations := [("color", "#28a745")], short := true },
  { selector := ".timeout-text", declarations := [("color", "#d73a49")], short := true },
  { selector := ".pending-text", declarations := [("color", "#b08800")], short := true },
  { selector := "table"
    declarations := [
      ("border-collapse", "collapse"), ("width", "100%"), ("margin-bottom", "2em"),
      ("background", "#fff")] },
  { selector := "th, td"
    declarations := [("border", "1px solid #e1e4e8"), ("padding", "6px 12px")] },
  { selector := "th", declarations := [("background", "#f6f8fa"), ("text-align", "left")] },
  { selector := "td.num"
    declarations := [("text-align", "right"), ("font-variant-numeric", "tabular-nums")] },
  { selector := "td.timeout"
    declarations := [("color", "#d73a49"), ("text-align", "right")] },
  { selector := "tr.phase td"
    declarations := [("color", "#586069"), ("font-size", "0.9em")] }]

/-- The text of the sheet. -/
def text : String :=
  String.join (rules.map Rule.write)

end BenchSweep.StyleSheet
