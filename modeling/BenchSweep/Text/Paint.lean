/-! # Painted Text

    Emphasis on a terminal: a style is a control sequence before the text and a
    reset behind it, or nothing at all where colors are off.  Fields of a fixed
    width are padded by the number of their characters. -/

namespace BenchSweep.Text

/-! ## Section 1: Fields -/

/-- `n` spaces. -/
def spaces (n : Nat) : String :=
  String.ofList (List.replicate n ' ')

/-- A field with its text at the left end. -/
def padRight (width : Nat) (s : String) : String :=
  s ++ spaces (width - s.length)

/-- A field with its text at the right end. -/
def padLeft (width : Nat) (s : String) : String :=
  spaces (width - s.length) ++ s

/-! ## Section 2: Styles -/

/-- How a text is emphasised. -/
inductive Style where
  | bold
  | dimmed
  | boldUnderline
  | red
  | green
  | yellow
  | blue
  | cyan
  | boldRed
  | boldGreen
  | boldYellow
  | boldCyan
  /-- The heading of a help text. -/
  | heading
deriving DecidableEq, Repr

/-- The parameters of a style's control sequences. -/
def Style.codes : Style → List String
  | bold => ["1"]
  | dimmed => ["2"]
  | boldUnderline => ["1;4"]
  | red => ["31"]
  | green => ["32"]
  | yellow => ["33"]
  | blue => ["34"]
  | cyan => ["36"]
  | boldRed => ["1;31"]
  | boldGreen => ["1;32"]
  | boldYellow => ["1;33"]
  | boldCyan => ["1;36"]
  | heading => ["1", "4"]

/-- The control sequences that begin a style. -/
def Style.start (style : Style) : String :=
  String.join (style.codes.map fun code => "\x1b[" ++ code ++ "m")

/-- The control sequence that ends every style. -/
def Style.reset : String := "\x1b[0m"

/-- Begins the style again behind every reset that the text itself holds. -/
def resume (start : List Char) : List Char → List Char
  | '\x1b' :: '[' :: '0' :: 'm' :: s => Style.reset.toList ++ start ++ resume start s
  | c :: s => c :: resume start s
  | [] => []

/-- The text in a style, where colors are on. -/
def paint (colors : Bool) (style : Style) (s : String) : String :=
  if colors then
    style.start ++ String.ofList (resume style.start.toList s.toList) ++ Style.reset
  else s

@[simp] theorem paint_off (style : Style) (s : String) : paint false style s = s := rfl

end BenchSweep.Text
