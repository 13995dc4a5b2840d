import BenchSweep.Cli.Grammar
import BenchSweep.Decimal.Numeral

/-! # Reading Arguments

    Arguments are read from left to right.  The first one that asks for help or
    cannot be understood settles the matter. -/

namespace BenchSweep.Cli

/-! ## Section 1: Values -/

/-- The value of an option. -/
inductive Value where
  | text (s : String)
  | natural (n : Nat)
  | number (x : Float)
  /-- A switch. -/
  | on
deriving DecidableEq

/-- Reads a value. -/
def ValueKind.read? (k : ValueKind) (s : String) : Option Value :=
  match k with
  | text => some (.text s)
  | path => if s = "" then none else some (.text s)
  | natural => (Decimal.boundedNatural (UInt64.size - 1) s.toList).map .natural
  | positive =>
    (Decimal.boundedNatural (UInt64.size - 1) s.toList).bind fun n =>
      if n = 0 then none else some (.natural n)
  | number => (Decimal.readNumber s.toList).map .number

/-- The options that were given, the latest first. -/
abbrev Given := List (String × Value)

namespace Given

def text? (g : Given) (name : String) : Option String :=
  match List.lookup name g with
  | some (.text s) => some s
  | _ => none

def natural? (g : Given) (name : String) : Option Nat :=
  match List.lookup name g with
  | some (.natural n) => some n
  | _ => none

def number? (g : Given) (name : String) : Option Float :=
  match List.lookup name g with
  | some (.number x) => some x
  | _ => none

def isOn (g : Given) (name : String) : Bool :=
  (List.lookup name g).isSome

end Given

/-! ## Section 2: The shape of an argument -/

/-- What an argument looks like. -/
inductive Shape where
  /-- Nothing behind it is an option. -/
  | escape
  /-- A long option, and the value behind its equals sign. -/
  | long (name : String) (value : Option String)
  /-- A short option, and the characters behind it. -/
  | short (c : Char) (rest : List Char)
  | plain
deriving DecidableEq, Repr

/-- The shape of an argument. -/
def shapeOf (arg : String) : Shape :=
  match arg.toList with
  | ['-', '-'] => .escape
  | '-' :: '-' :: s =>
    .long (String.ofList (s.takeWhile (· ≠ '=')))
      (match s.dropWhile (· ≠ '=') with
        | _ :: v => some (String.ofList v)
        | [] => none)
  | '-' :: c :: s => .short c s
  | _ => .plain

/-- The value that stands behind a short option in the same argument. -/
def attachedValue : List Char → Option String
  | [] => none
  | '=' :: s => some (String.ofList s)
  | s => some (String.ofList s)

/-! ## Section 3: Reading -/

/-- What an argument means where no value is awaited. -/
inductive Meaning where
  | help
  | version
  | option (o : Opt) (value : Option String)
  /-- The name of a command. -/
  | word
  | unknown

/-- The meaning of an argument at a level. -/
def Level.meaning (l : Level) (arg : String) : Meaning :=
  match shapeOf arg with
  | .long "help" none => .help
  | .long "version" none => if l = .top then .version else .unknown
  | .long name value =>
    match l.options.find? fun o => o.name == name with
    | some o => .option o value
    | none => .unknown
  | .short 'h' _ => .help
  | .short 'V' _ => if l = .top then .version else .unknown
  | .short c rest =>
    match l.options.find? fun o => o.short == some c with
    | some o => .option o (attachedValue rest)
    | none => .unknown
  | .plain => .word
  | .escape => .unknown

/-- What the arguments of a level ask for. -/
inductive Request where
  /-- To go on with what is given, and with the arguments behind the name of a
      command, if there is one. -/
  | proceed (given : Given) (command : Option (String × List String))
  | help
  | version
  | misuse
deriving DecidableEq

/-- Adds an option, which may be given only once. -/
def give? (g : Given) (o : Opt) (value : Option String) : Option Given :=
  if (List.lookup o.name g).isSome then none
  else match o.value, value with
    | none, none => some ((o.name, .on) :: g)
    | some (_, kind), some s => (kind.read? s).map fun v => (o.name, v) :: g
    | _, _ => none

/-- Reads the arguments of a level.  `awaiting` is an option whose value must be
    the next argument; nothing that looks like an option can be. -/
def Level.read (l : Level) : Option Opt → Given → List String → Request
  | none, g, [] => .proceed g none
  | some _, _, [] => .misuse
  | some o, g, arg :: args =>
    if shapeOf arg = .plain then
      match give? g o (some arg) with
      | some g => l.read none g args
      | none => .misuse
    else .misuse
  | none, g, arg :: args =>
    match l.meaning arg with
    | .help => .help
    | .version => .version
    | .word => if l = .top then .proceed g (some (arg, args)) else .misuse
    | .unknown => if shapeOf arg = .escape ∧ args = [] then .proceed g none else .misuse
    | .option o value =>
      if o.value.isSome ∧ value = none then l.read (some o) g args
      else match give? g o value with
        | some g => l.read none g args
        | none => .misuse

/-! ## Section 4: The whole command line -/

/-- Whose help is asked for. -/
inductive Topic where
  | program
  | verb (v : Verb)
  /-- The command that shows help. -/
  | help
deriving DecidableEq, Repr

/-- What the operator asks for. -/
inductive Order where
  | perform (v : Verb) (given : Given)
  | help (topic : Topic)
  | version
  | misuse
deriving DecidableEq

/-- What is asked for behind the command `help`. -/
def readTopic : List String → Order
  | [] => .help .program
  | ["help"] => .help .help
  | [name] =>
    match Verb.ofName? name with
    | some v => .help (.verb v)
    | none => .misuse
  | _ => .misuse

/-- Reads what stands behind the name of a command. -/
def readVerb (name : String) (args : List String) : Order :=
  if name = "help" then readTopic args
  else match Verb.ofName? name with
    | none => .misuse
    | some v =>
      match (Level.under v).read none [] args with
      | .proceed given _ => .perform v given
      | .help => .help (.verb v)
      | .version => .version
      | .misuse => .misuse

/-- Reads the arguments of the program. -/
def readArguments (args : List String) : Order :=
  match Level.top.read none [] args with
  | .proceed _ (some (name, rest)) => readVerb name rest
  | .proceed _ none => .misuse
  | .help => .help .program
  | .version => .version
  | .misuse => .misuse

/-- The language that arguments ask for, wherever they do.  It is needed before
    the arguments are read, for the language of help texts. -/
def languageOf (args : List String) : Option String :=
  match args.dropWhile (· ≠ "--lang") with
  | _ :: rest => rest.head?
  | [] => args.findSome? fun arg =>
      match shapeOf arg with
      | .long "lang" (some value) => some value
      | _ => none

end BenchSweep.Cli
