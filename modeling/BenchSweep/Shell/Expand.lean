import BenchSweep.Keyed
import BenchSweep.Text.Alphanumeric

/-! # Variable and Home Expansion

    Before a command line is split into words, `$NAME` and `${NAME}` in it are
    replaced by variables of the environment, and a leading `~` by the home
    directory.  Quotes make no difference here, and nothing that was inserted
    is looked at again. -/

namespace BenchSweep.Shell

/-- What a program sees of its surroundings. -/
structure Environment where
  vars : Keyed String := []
  /-- The home directory on record for the user, if there is one. -/
  account : Option String := none
deriving DecidableEq, Repr

namespace Environment

/-- Variables alone are the environment of a user without a home on record. -/
instance : Coe (Keyed String) Environment where
  coe vars := { vars }

/-- The value of a variable. -/
def find? (env : Environment) (name : String) : Option String :=
  env.vars.find? name

/-- Whether a variable is set. -/
def contains (env : Environment) (name : String) : Bool :=
  env.vars.contains name

/-- Sets a variable. -/
def insert (env : Environment) (name value : String) : Environment :=
  { env with vars := env.vars.insert name value }

/-- Unsets variables. -/
def without (env : Environment) (names : List String) : Environment :=
  { env with vars := env.vars.filter fun e => !names.contains e.1 }

/-- The home directory: the variable for it, unless that is empty, else the one on
    record. -/
def home? (env : Environment) : Option String :=
  (env.find? "HOME").filter (· ≠ "") <|> env.account

end Environment

/-- A variable that has no value and no default. -/
structure UnsetVariable where
  name : String
deriving DecidableEq, Repr

/-- What is wrong with a variable that is not set. -/
def UnsetVariable.cause : String := "environment variable not found"

/-- The message for a variable that is not set. -/
def UnsetVariable.message (e : UnsetVariable) : String :=
  "error looking key '" ++ e.name ++ "' up: " ++ UnsetVariable.cause

/-! ## Section 1: Variables -/

/-- Splits at the first occurrence of a character: what stands before and
    behind it. -/
def splitAt? (c : Char) : List Char → Option (List Char × List Char)
  | [] => none
  | d :: s => if d = c then some ([], s) else (splitAt? c s).map fun p => (d :: p.1, p.2)

theorem splitAt?_length {c : Char} {s before after : List Char}
    (h : splitAt? c s = some (before, after)) : after.length < s.length := by
  induction s generalizing before after with
  | nil => simp [splitAt?] at h
  | cons d s ih =>
    rw [splitAt?] at h
    split at h
    · simp only [Option.some.injEq, Prod.mk.injEq] at h
      simp [← h.2]
    · obtain ⟨⟨b, a⟩, hs, he⟩ := Option.map_eq_some_iff.1 h
      simp only [Prod.mk.injEq] at he
      have := ih hs
      simp only [List.length_cons, ← he.2]
      omega

/-- Splits the inside of braces into a name and a default, at the first `:-`
    that has a name before it. -/
def splitDefault (inside : List Char) : List Char × Option (List Char) :=
  let rec go : List Char → List Char → Option (List Char × List Char)
    | _, [] => none
    | seen, ':' :: '-' :: s => some (seen.reverse, s)
    | seen, c :: s => go (c :: seen) s
  match go [] inside with
  | some ([], _) => (inside, none)
  | some (name, fallback) => (name, some fallback)
  | none => (inside, none)

/-- The value of a variable, or its default. -/
def valueOf (env : Environment) (name : List Char) (fallback : Option (List Char)) :
    Except UnsetVariable (List Char) :=
  match env.find? (String.ofList name), fallback with
  | some v, _ => .ok v.toList
  | none, some d => .ok d
  | none, none => .error ⟨String.ofList name⟩

/-- Replaces the variables of a text.  A dollar sign that begins no variable
    stays, and of two in a row one does. -/
def expandVariables (env : Environment) : List Char → Except UnsetVariable (List Char)
  | [] => .ok []
  | '$' :: '\x7b' :: s =>
    match _h : splitAt? '\x7d' s with
    | none => ('$' :: '\x7b' :: ·) <$> expandVariables env s
    | some (inside, rest) => do
      let (name, fallback) := splitDefault inside
      let v ← valueOf env name fallback
      (v ++ ·) <$> expandVariables env rest
  | '$' :: '$' :: s => ('$' :: ·) <$> expandVariables env s
  | '$' :: c :: s =>
    if Text.isNameChar c then do
      let v ← valueOf env (c :: s.takeWhile Text.isNameChar) none
      (v ++ ·) <$> expandVariables env (s.dropWhile Text.isNameChar)
    else ('$' :: ·) <$> expandVariables env (c :: s)
  | c :: s => (c :: ·) <$> expandVariables env s
termination_by s => s.length
decreasing_by
  · simp only [List.length_cons]
    omega
  · have := splitAt?_length ‹_›
    simp only [List.length_cons]
    omega
  · simp only [List.length_cons]
    omega
  · have := (List.dropWhile_sublist Text.isNameChar (l := s)).length_le
    simp only [List.length_cons]
    omega
  · simp only [List.length_cons]
    omega
  · simp only [List.length_cons]
    omega

/-! ## Section 2: The home directory -/

/-- Replaces a leading tilde that stands alone or before a slash, if the user has
    a home. -/
def expandHome (env : Environment) (s : List Char) : List Char :=
  match env.home?, s with
  | some home, ['~'] => home.toList
  | some home, '~' :: '/' :: s => home.toList ++ '/' :: s
  | _, s => s

/-- Expands variables, then a tilde that the text itself begins with. -/
def expand (env : Environment) (text : String) : Except UnsetVariable String := do
  let s := text.toList
  let t ← expandVariables env s
  if s.head? = some '~' then return String.ofList (expandHome env t)
  else return String.ofList t

end BenchSweep.Shell
