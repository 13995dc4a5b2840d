import BenchSweep.Locale.Phrase
import BenchSweep.Text.Paint

/-! # Voices

    How the program speaks to its operator: in a language, with or without
    colors. -/

namespace BenchSweep

/-- A language, and whether colors are on. -/
structure Voice where
  locale : Locale
  colors : Bool
deriving DecidableEq, Repr

namespace Voice

/-- A phrase. -/
def say (v : Voice) (p : Phrase) : String :=
  v.locale.say p

/-- A text in a style. -/
def paint (v : Voice) (style : Text.Style) (s : String) : String :=
  Text.paint v.colors style s

/-- A phrase in a style. -/
def painted (v : Voice) (style : Text.Style) (p : Phrase) : String :=
  v.paint style (v.say p)

end Voice

end BenchSweep
