import BenchSweep.Decimal.Precision
import BenchSweep.Log.Format

/-! # Run Records

    What is known of one trial.  A record is never stored; it is derived from
    the trial's files whenever it is asked for. -/

namespace BenchSweep

/-- The outcome of one trial, as its files tell it. -/
inductive RunRecord where
  /-- Never tried, interrupted, or without a usable log. -/
  | notDone
  /-- The log proves a completed run of the given time. -/
  | done (time : Float) (metrics : Metrics)
  /-- The last attempt overran a budget of so many seconds. -/
  | timeout (seconds : UInt64)
deriving DecidableEq

/-- A record without its contents. -/
inductive RunStatus where
  | notDone
  | done
  | timeout
deriving DecidableEq, Repr

/-- How a status is written. -/
def RunStatus.text : RunStatus → String
  | notDone => "not done"
  | done => "done"
  | timeout => "timeout"

namespace RunRecord

/-- The record of a completed run, if its metrics hold a time. -/
def ofMetrics? (metrics : Metrics) : Option RunRecord :=
  (metrics.find? timeKey).map fun t => .done t metrics

def status : RunRecord → RunStatus
  | notDone => .notDone
  | done .. => .done
  | timeout _ => .timeout

def isDone (r : RunRecord) : Bool :=
  r.status = .done

/-- The measured time, or the budget that was overrun, or zero. -/
def value : RunRecord → Float
  | notDone => 0
  | done t _ => t
  | timeout s => s.toFloat

/-- The whole seconds of a recorded budget.  The value of a record is a double,
    so a budget is held to 53 significant bits and stays within 64. -/
def heldSeconds (seconds : UInt64) : UInt64 :=
  UInt64.ofNat (min (Decimal.heldBits seconds.toNat) (UInt64.size - 1))

/-- The recorded budget of a timeout. -/
def timeoutSecs : RunRecord → Option UInt64
  | timeout s => some (heldSeconds s)
  | _ => none

/-- Whether another attempt at the given budget could change the record.  A
    completed run is final, and a timeout yields only to a larger budget. -/
def isPending (r : RunRecord) (budget : UInt64) : Bool :=
  match r with
  | notDone => true
  | done .. => false
  | timeout s => heldSeconds s < budget

/-- A budget of at most `2 ^ 53` seconds is recorded exactly. -/
theorem heldSeconds_of_le {s : UInt64} (h : s.toNat ≤ Decimal.twoPow 53) : heldSeconds s = s := by
  have hs : min s.toNat (UInt64.size - 1) = s.toNat := by
    have := s.toNat_lt_size
    omega
  rw [heldSeconds, Decimal.heldBits_of_le h, hs, UInt64.ofNat_toNat]

end RunRecord

end BenchSweep
