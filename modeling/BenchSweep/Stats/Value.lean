import BenchSweep.Decimal.Fixed

/-! # Values in Reports

    Reports show a value with two places, and one sign for whatever has no
    value. -/

namespace BenchSweep

/-- Stands for an undefined value. -/
def placeholder : String := "--"

/-- A value with two places; infinities and NaN are undefined. -/
def valueText : Option Float → String
  | some x => if x.isFinite then Decimal.fixedText 2 x else placeholder
  | none => placeholder

end BenchSweep
