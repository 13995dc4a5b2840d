/-! # Markup

    An HTML page as a tree.  Text is escaped when the tree is written, and an
    element is closed where it was opened, so that no text can add to the
    structure of a page. -/

namespace BenchSweep.Markup

/-- One character of a text or attribute. -/
def escapeChar (c : Char) : List Char :=
  if c = '&' then "&amp;".toList
  else if c = '<' then "&lt;".toList
  else if c = '>' then "&gt;".toList
  else if c = '"' then "&quot;".toList
  else if c = '\'' then "&#39;".toList
  else [c]

/-- A text as it is written on a page. -/
def escape (s : String) : String :=
  String.ofList (s.toList.flatMap escapeChar)

/-- The attributes of an element. -/
abbrev Attributes := List (String × String)

/-- A part of a page. -/
inductive Node where
  | text (s : String)
  /-- An element with its content. -/
  | element (tag : String) (attributes : Attributes) (content : List Node)
  /-- An element that has no content and no closing tag. -/
  | void (tag : String) (attributes : Attributes)
  /-- A style sheet, written as it is. -/
  | style (sheet : String)

/-- An element without attributes. -/
def Node.plain (tag : String) (content : List Node) : Node :=
  .element tag [] content

/-- The attributes in an opening tag. -/
def writeAttributes (attributes : Attributes) : String :=
  String.join (attributes.map fun a => " " ++ a.1 ++ "='" ++ escape a.2 ++ "'")

mutual

/-- The text of a part of a page. -/
def Node.write : Node → String
  | .text s => escape s
  | .element tag attributes content =>
    "<" ++ tag ++ writeAttributes attributes ++ ">" ++ writeAll content ++ "</" ++ tag ++ ">"
  | .void tag attributes => "<" ++ tag ++ writeAttributes attributes ++ ">"
  | .style sheet => "<style>" ++ sheet ++ "</style>"

/-- The text of consecutive parts of a page. -/
def writeAll : List Node → String
  | [] => ""
  | n :: ns => n.write ++ writeAll ns

end

/-- The text of a whole page. -/
def page (root : Node) : String :=
  "<!DOCTYPE html>" ++ root.write

end BenchSweep.Markup
