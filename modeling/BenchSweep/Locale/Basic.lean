import BenchSweep.Shell.Expand

/-! # Locales

    The languages the program speaks, and how one is chosen: from the command
    line, else the catalog, else the system. -/

namespace BenchSweep

/-- A language with a full set of phrases. -/
inductive Locale where
  | en
  | zhCN
deriving DecidableEq, Repr

namespace Locale

/-- The tag of a locale. -/
def tag : Locale → String
  | en => "en"
  | zhCN => "zh-CN"

/-- The locale of exactly this tag. -/
def ofTag? (s : String) : Option Locale :=
  [en, zhCN].find? fun l => l.tag == s

@[simp] theorem ofTag?_tag (l : Locale) : ofTag? l.tag = some l := by
  cases l <;> decide

/-- The locale to speak when a tag is asked for: the tag's own, else that of
    its language alone, else English. -/
def activated (requested : String) : Locale :=
  match ofTag? requested with
  | some l => l
  | none => (ofTag? (String.ofList (requested.toList.takeWhile (· ≠ '-')))).getD en

/-- The tag without its last part. -/
def parentTag (tag : List Char) : List Char :=
  ((tag.reverse.dropWhile (· ≠ '-')).drop 1).reverse

/-- The locale of a tag or of the longest tag it begins with; English if there
    is none.  At most so many parts are dropped. -/
def nearestFrom : Nat → List Char → Locale
  | 0, _ => en
  | n + 1, tag =>
    match ofTag? (String.ofList tag) with
    | some l => l
    | none => nearestFrom n (parentTag tag)

/-- The locale whose phrases are used for a tag. -/
def nearest (tag : String) : Locale :=
  nearestFrom (tag.toList.length + 1) tag.toList

/-- The tag that is asked for: the operator's, else the catalog's, else the
    system's. -/
def requested (explicit catalog system : Option String) : String :=
  (explicit <|> catalog <|> system).getD "en"

/-! ## Section 2: The system's locale -/

/-- The locale variables of an environment, most important first.  The first of
    them is a list, of which only the head counts. -/
def candidates (env : Shell.Environment) : List (List Char) :=
  let value (k : String) := ((env.find? k).getD "").toList
  ["LANGUAGE", "LC_ALL", "LC_MESSAGES", "LANG"].filterMap fun k =>
    if value k = [] then none
    else if k = "LANGUAGE" then some ((value k).takeWhile (· ≠ ':'))
    else some (value k)

/-- The tag of a locale variable: no encoding or modifier, and hyphens for
    underscores. -/
def tagOfVariable (s : List Char) : String :=
  String.ofList ((s.takeWhile fun c => c ≠ '.' && c ≠ '@').map fun c => if c = '_' then '-' else c)

/-- The tag the system asks for. -/
def system (env : Shell.Environment) : Option String :=
  (candidates env).head?.map tagOfVariable

end Locale

end BenchSweep
