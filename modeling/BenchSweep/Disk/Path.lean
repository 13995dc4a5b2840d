/-! # Paths

    A path is a text.  The place that it names is found segment by segment,
    from the root or from the place where relative paths begin. -/

namespace BenchSweep

/-- The text of a path. -/
structure Path where
  text : String
deriving DecidableEq, Repr

/-- A place on the disk: the names that lead to it, the last one first.  The
    root is the empty list. -/
abbrev Location := List String

namespace Path

/-! ## Section 1: Texts -/

/-- Whether the path begins at the root. -/
def isAbsolute (p : Path) : Bool :=
  p.text.toList.head? == some '/'

/-- Whether the path can only name a directory. -/
def endsInSlash (p : Path) : Bool :=
  p.text.toList.getLast? == some '/'

/-- The path of a name below a path.  An absolute name stands for itself. -/
def join (p : Path) (name : String) : Path :=
  if isAbsolute ⟨name⟩ then ⟨name⟩
  else if p.text = "" ∨ p.endsInSlash then ⟨p.text ++ name⟩
  else ⟨p.text ++ "/" ++ name⟩

/-- The path with a suffix behind a dot, whatever dots it has already. -/
def withSuffix (p : Path) (suffix : String) : Path :=
  ⟨p.text ++ "." ++ suffix⟩

/-! ## Section 2: Segments -/

/-- The pieces between slashes. -/
def pieces : List Char → List (List Char)
  | [] => [[]]
  | c :: s =>
    if c = '/' then [] :: pieces s
    else match pieces s with
      | [] => [[c]]
      | w :: ws => (c :: w) :: ws

/-- The pieces that say something; slashes in a row count as one. -/
def segments (p : Path) : List String :=
  ((pieces p.text.toList).filter (· ≠ [])).map String.ofList

/-- Where a segment leads from a place: nowhere, up, or down to a name. -/
def follow (l : Location) (s : String) : Location :=
  if s = "." then l else if s = ".." then l.tail else s :: l

/-- Where a path begins. -/
def start (p : Path) (here : Location) : Location :=
  if p.isAbsolute then [] else here

/-- The place that a path names if relative paths begin at `here`. -/
def locate (p : Path) (here : Location) : Location :=
  p.segments.foldl follow (p.start here)

/-! ## Section 3: Paths above a path -/

/-- Joins pieces with slashes between them. -/
def ofPieces : List (List Char) → List Char
  | [] => []
  | [w] => w
  | w :: ws => w ++ '/' :: ofPieces ws

/-- Whether a piece leads nowhere. -/
def isIdle (piece : List Char) : Bool :=
  piece == [] || piece == ['.']

/-- The paths that end in one of the pieces, which are given from the last one
    on, except those that end in an idle piece. -/
def upward : List (List Char) → List Path
  | [] => []
  | w :: ws =>
    if isIdle w then upward ws
    else ⟨String.ofList (ofPieces (w :: ws).reverse)⟩ :: upward ws

/-- A path and the paths above it, the longest first. -/
def lineage (p : Path) : List Path :=
  match (pieces p.text.toList).reverse.dropWhile isIdle with
  | [] => if p.text = "" then [] else [p]
  | _ :: above => p :: upward above

/-! ## Section 4: What texts denote -/

@[simp] theorem withSuffix_text (p : Path) (suffix : String) :
    (p.withSuffix suffix).text = p.text ++ "." ++ suffix := rfl

theorem locate_eq (p : Path) (here : Location) :
    p.locate here = p.segments.foldl follow (p.start here) := rfl

end Path

end BenchSweep
