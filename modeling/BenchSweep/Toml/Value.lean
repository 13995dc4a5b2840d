/-! # TOML Values

    What a TOML document denotes: a table of values.  Dates and times are kept
    as text, since nothing in a catalog has a date. -/

namespace BenchSweep.Toml

/-- A value of a TOML document. -/
inductive Value where
  | string (s : String)
  | integer (n : Int)
  | float (x : Float)
  | boolean (b : Bool)
  | moment (text : String)
  | array (items : List Value)
  | table (entries : List (String × Value))

/-- The entries of a table. -/
abbrev Table := List (String × Value)

/-- The value under a key. -/
def Table.get? (t : Table) (k : String) : Option Value :=
  List.lookup k t

end BenchSweep.Toml
