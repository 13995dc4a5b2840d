/-! # Mean and Variance in One Pass

    Welford's accumulator: each value moves the mean by its share of the
    distance, and adds the product of the distances to the old and to the new
    mean.  The accumulator is written once for any arithmetic, so that the
    algorithm can be read over the rationals while trials are measured in
    doubles. -/

namespace BenchSweep

/-! ## Section 1: Arithmetic -/

/-- What the accumulator needs of its numbers. -/
class Scalar (α : Type) extends Add α, Sub α, Mul α, Div α where
  ofCount : Nat → α

instance : Scalar Float where
  ofCount := Float.ofNat

/-! ## Section 2: The accumulator -/

/-- Running count, mean, and sum of squared distances from the mean. -/
structure Welford (α : Type) where
  count : Nat
  mean : α
  spread : α
deriving Repr

/-- What is known of a group of values.  An empty group has no mean, and a
    variance takes two values. -/
structure Summary (α : Type) where
  count : Nat
  mean : Option α
  variance : Option α
deriving Repr, DecidableEq

namespace Welford

variable {α : Type} [Scalar α]

/-- Nothing seen so far. -/
def empty : Welford α where
  count := 0
  mean := Scalar.ofCount 0
  spread := Scalar.ofCount 0

/-- Takes one more value in. -/
def push (w : Welford α) (x : α) : Welford α :=
  let count := w.count + 1
  let delta := x - w.mean
  let mean := w.mean + delta / Scalar.ofCount count
  { count, mean, spread := w.spread + delta * (x - mean) }

/-- The summary of the values seen so far. -/
def summary (w : Welford α) : Summary α where
  count := w.count
  mean := if w.count = 0 then none else some w.mean
  variance := if w.count ≤ 1 then none else some (w.spread / Scalar.ofCount (w.count - 1))

/-- The accumulator after a list of values. -/
def ofList (xs : List α) : Welford α :=
  xs.foldl push empty

@[simp] theorem ofList_nil : ofList ([] : List α) = empty := rfl

@[simp] theorem ofList_append_singleton (xs : List α) (x : α) :
    ofList (xs ++ [x]) = (ofList xs).push x := by
  simp [ofList]

@[simp] theorem count_push (w : Welford α) (x : α) : (w.push x).count = w.count + 1 := rfl

end Welford

/-! ## Section 3: Summaries -/

/-- The summary of a list of values. -/
def Summary.of {α : Type} [Scalar α] (xs : List α) : Summary α :=
  (Welford.ofList xs).summary

/-- The sample standard deviation. -/
def Summary.stdDev (s : Summary Float) : Option Float :=
  s.variance.map Float.sqrt

/-- The quotient of two values, where it means something: not with an undefined
    or NaN operand, and not by zero. -/
def ratio (numerator denominator : Option Float) : Option Float :=
  match numerator, denominator with
  | some n, some d => if n.isNaN || d.isNaN || d == 0 then none else some (n / d)
  | _, _ => none

end BenchSweep
