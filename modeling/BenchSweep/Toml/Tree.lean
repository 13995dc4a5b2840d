import BenchSweep.Toml.Value

/-! # Tables under Construction

    While a document is read, its tables grow: headers open them, dotted keys
    reach into them, and which of these may still happen depends on how each
    table came to be.  A `Node` remembers that, and `Node.value` forgets it
    when the document ends. -/

namespace BenchSweep.Toml

/-! ## Section 1: Nodes -/

/-- How a table came to be. -/
inductive Origin where
  /-- A header names it, or it is the root. -/
  | header
  /-- It stands inside the path of a header. -/
  | implied
  /-- A dotted key made it. -/
  | dotted
deriving DecidableEq, Repr

/-- A value, a table that may still grow, or a list of tables whose last one
    may. -/
inductive Node where
  | value (v : Value)
  | table (origin : Origin) (entries : List (String × Node))
  | tables (elements : List (List (String × Node)))

/-- The entries of a growing table. -/
abbrev Entries := List (String × Node)

namespace Entries

def get? (es : Entries) (k : String) : Option Node :=
  List.lookup k es

/-- The entries with a node under a key. -/
def set (k : String) (n : Node) (es : Entries) : Entries :=
  if (es.get? k).isSome then List.map (fun e => if e.1 = k then (k, n) else e) es
  else es ++ [(k, n)]

/-! ## Section 2: Reaching into tables -/

/-- Changes the table that a path leads to, making the tables on the way.  A
    dotted path may not enter a table that a header named. -/
def alterAt (byDots : Bool) (f : Origin → Entries → Option Entries) :
    List String → Origin → Entries → Option Entries
  | [], origin, es => f origin es
  | k :: path, _, es =>
    match es.get? k with
    | none =>
      let origin := if byDots then Origin.dotted else .implied
      (alterAt byDots f path origin []).map fun t => es.set k (.table origin t)
    | some (.table origin t) =>
      if byDots && origin = .header then none
      else (alterAt byDots f path origin t).map fun t => es.set k (.table origin t)
    | some (.tables elements) =>
      match elements.getLast? with
      | some last =>
        (alterAt byDots f path .header last).map fun t =>
          es.set k (.tables (elements.dropLast ++ [t]))
      | none => none
    | some (.value _) => none

/-- Adds a value under a dotted key.  The key must be new, and the table it
    goes to must be the one that is open or one that dotted keys made. -/
def assign (path : List String) (k : String) (v : Value) (origin : Origin) (es : Entries) :
    Option Entries :=
  alterAt true
    (fun reached t =>
      if (reached = .dotted ↔ path ≠ []) ∧ (t.get? k).isNone then some (t.set k (.value v))
      else none)
    path origin es

/-- Adds a value under a dotted key of the table that a header opened. -/
def assignIn (header path : List String) (k : String) (v : Value) (root : Entries) :
    Option Entries :=
  alterAt false (assign path k v) header .header root

/-- Opens the table that a header names.  It may have been implied before, but
    not made. -/
def openTable (path : List String) (k : String) (root : Entries) : Option Entries :=
  alterAt false
    (fun _ t =>
      match t.get? k with
      | none => some (t.set k (.table .header []))
      | some (.table .implied inner) => some (t.set k (.table .header inner))
      | some _ => none)
    path .header root

/-- Opens one more table in the list that a header names. -/
def openElement (path : List String) (k : String) (root : Entries) : Option Entries :=
  alterAt false
    (fun _ t =>
      match t.get? k with
      | none => some (t.set k (.tables [[]]))
      | some (.tables elements) => some (t.set k (.tables (elements ++ [[]])))
      | some _ => none)
    path .header root

end Entries

/-! ## Section 3: The finished value -/

mutual

/-- The value of a node. -/
def Node.finish : Node → Value
  | .value v => v
  | .table _ es => .table (finishEntries es)
  | .tables elements => .array (finishElements elements)

/-- The table of growing entries. -/
def finishEntries : List (String × Node) → Table
  | [] => []
  | (k, n) :: es => (k, n.finish) :: finishEntries es

/-- The values of a list of growing tables. -/
def finishElements : List (List (String × Node)) → List Value
  | [] => []
  | es :: rest => .table (finishEntries es) :: finishElements rest

end

end BenchSweep.Toml
