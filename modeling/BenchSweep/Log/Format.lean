import BenchSweep.Keyed
import BenchSweep.Log.Pattern

/-! # Log Formats

    Each family of analysis tools reports its measurements in its own words.  A
    `LogFormat` turns the output of one trial into its metrics, or refuses a
    log that does not prove a completed run. -/

namespace BenchSweep

/-- Measured values under their metric names. -/
abbrev Metrics := Keyed Float

/-- The metric that every completed run reports. -/
def timeKey : String := "time"

/-- The output format of one family of tools. -/
inductive LogFormat where
  /-- The multi-core symbolic tool: total time, phase times and quotient sizes. -/
  | mc
  /-- The same, but a run counts only once its quotient time is reported. -/
  | mcQuotient
  /-- The sequential reference tool: total time only. -/
  | rw
  /-- The exact-arithmetic tool: refinement time only. -/
  | gmp
deriving DecidableEq, Repr

namespace LogFormat

/-- The name of a format in a catalog. -/
def name : LogFormat → String
  | mc => "mc"
  | mcQuotient => "mc-quotient"
  | rw => "rw"
  | gmp => "gmp"

/-- All formats. -/
def all : List LogFormat := [mc, mcQuotient, rw, gmp]

/-- The format of a given name. -/
def ofName? (s : String) : Option LogFormat :=
  all.find? fun f => f.name == s

@[simp] theorem ofName?_name (f : LogFormat) : ofName? f.name = some f := by
  cases f <;> decide

/-- Where a format reports the total time. -/
def time : LogFormat → Log.Measure
  | mc | mcQuotient => .after "Time for computing the bisimulation relation: " true
  | rw =>
    { pattern := [.text "Time for computing the bisimulation relation =".toList, .blanks,
        .run false]
      group := 0 }
  | gmp => .after "Time for refinement: " false

/-- Where a format reports its other metrics.  A later entry replaces an
    earlier one of the same name: newer tools dropped the word "needed". -/
def details : LogFormat → List (String × Log.Measure)
  | mc | mcQuotient =>
    [("tsig", .after "Time needed for signature computation: " true),
      ("tref", .after "Time needed for partition refinement: " true),
      ("tsig", .after "Time for signature computation: " true),
      ("tref", .after "Time for partition refinement: " true),
      ("tquot", .after "Time for computing the quotient of the transition relation: " true),
      ("newmarkov", .nodes "New Markov transition relation: "),
      ("newtrans", .nodes "New interactive transition relation: ")]
  | rw | gmp => []

/-- Whether the metrics prove a completed run. -/
def isComplete (f : LogFormat) (m : Metrics) : Bool :=
  match f with
  | mcQuotient => m.contains "tquot"
  | _ => true

/-- Adds a metric if the log reports it. -/
def addDetail (log : List Char) (m : Metrics) (detail : String × Log.Measure) : Metrics :=
  match detail.2.value? log with
  | some v => m.insert detail.1 v
  | none => m

/-- The metrics of a log, or `none` if it does not prove a completed run. -/
def read (f : LogFormat) (log : List Char) : Option Metrics :=
  match f.time.value? log with
  | none => none
  | some t =>
    let m := f.details.foldl (addDetail log) (Keyed.insert [] timeKey t)
    if f.isComplete m then some m else none

/-- The metrics of a log given as text. -/
def readText (f : LogFormat) (log : String) : Option Metrics :=
  f.read log.toList

/-- What holds of a time alone and lasts when a metric is added holds of all that
    is read. -/
theorem of_read {P : Metrics → Prop} (htime : ∀ t, P (Keyed.insert [] timeKey t))
    (hadd : ∀ m k v, P m → P (m.insert k v)) {f : LogFormat} {log : List Char} {m : Metrics}
    (h : f.read log = some m) : P m := by
  have hdetails : ∀ (details : List (String × Log.Measure)) (m : Metrics), P m →
      P (details.foldl (addDetail log) m) := by
    intro details
    induction details with
    | nil => exact fun _ hm => hm
    | cons detail details ih =>
      intro m hm
      apply ih
      unfold addDetail
      split
      · exact hadd _ _ _ hm
      · exact hm
  unfold read at h
  split at h
  · cases h
  · dsimp only at h
    split at h
    · cases h
      exact hdetails _ _ (htime _)
    · cases h

/-- Whatever is read holds a time. -/
theorem find?_timeKey_read {f : LogFormat} {log : List Char} {m : Metrics}
    (h : f.read log = some m) : (m.find? timeKey).isSome = true := by
  refine of_read (P := fun m => (m.find? timeKey).isSome = true) (fun t => ?_) ?_ h
  · rw [Keyed.find?_insert_self]
    rfl
  · intro m k v hm
    by_cases hk : timeKey = k
    · rw [hk, Keyed.find?_insert_self]
      rfl
    · rw [Keyed.find?_insert_ne _ _ _ _ hk]
      exact hm

end LogFormat

end BenchSweep
