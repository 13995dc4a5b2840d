import Mathlib.Algebra.Order.BigOperators.Group.List
import Mathlib.Algebra.Order.Field.Rat
import Mathlib.Data.List.Induction
import Mathlib.Tactic.FieldSimp
import Mathlib.Tactic.LinearCombination
import Mathlib.Tactic.Linarith
import Mathlib.Tactic.Positivity
import Mathlib.Tactic.Ring
import BenchSweep.Stats.Welford

/-! # One Pass Is Exact

    Read over the rationals, the accumulator holds the mean of the values seen so
    far and the sum of their squared distances from it.  So its summary is the
    textbook's, whatever the order of the values. -/

namespace BenchSweep

instance : Scalar ℚ where
  ofCount n := n

/-! ## Section 1: Mean and variance by definition -/

/-- The sum of the values over their number. -/
def average (xs : List ℚ) : ℚ :=
  xs.sum / xs.length

/-- The squared distances of the values from a point, summed. -/
def squaresAbout (c : ℚ) (xs : List ℚ) : ℚ :=
  (xs.map fun x => (x - c) ^ 2).sum

/-- The squared distances from the mean, over one less than the number of values. -/
def sampleVariance (xs : List ℚ) : ℚ :=
  squaresAbout (average xs) xs / (xs.length - 1)

section Moments

variable (xs : List ℚ) (c : ℚ)

theorem average_mul_length : average xs * xs.length = xs.sum := by
  cases xs with
  | nil => simp
  | cons x xs =>
    have hlength : ((x :: xs).length : ℚ) ≠ 0 := Nat.cast_ne_zero.2 (Nat.succ_ne_zero xs.length)
    exact div_mul_cancel₀ _ hlength

theorem squaresAbout_nonneg : 0 ≤ squaresAbout c xs := by
  refine List.sum_nonneg fun y hy => ?_
  obtain ⟨x, -, rfl⟩ := List.mem_map.1 hy
  positivity

theorem squaresAbout_concat (x : ℚ) :
    squaresAbout c (xs ++ [x]) = squaresAbout c xs + (x - c) ^ 2 := by
  simp [squaresAbout]

/-- Squares about a point, in terms of the powers of the values. -/
theorem squaresAbout_expand :
    squaresAbout c xs = (xs.map fun x => x ^ 2).sum - 2 * c * xs.sum + xs.length * c ^ 2 := by
  induction xs with
  | nil => simp [squaresAbout]
  | cons x xs ih =>
    simp only [squaresAbout, List.map_cons, List.sum_cons, List.length_cons, Nat.cast_add,
      Nat.cast_one] at ih ⊢
    linear_combination ih

/-- About any other point than the mean the squares sum to more, by the number of
    values times the square of the shift. -/
theorem squaresAbout_eq :
    squaresAbout c xs = squaresAbout (average xs) xs + xs.length * (average xs - c) ^ 2 := by
  rw [squaresAbout_expand, squaresAbout_expand]
  linear_combination (2 * c - 2 * average xs) * average_mul_length xs

/-- One more value moves the mean by its share of the distance. -/
theorem average_concat (x : ℚ) :
    average (xs ++ [x]) = average xs + (x - average xs) / ((xs.length + 1 : ℕ) : ℚ) := by
  have hlength : ((xs.length + 1 : ℕ) : ℚ) ≠ 0 := by positivity
  have hsum : (xs ++ [x]).sum = average xs * xs.length + x := by
    rw [average_mul_length]
    simp
  rw [average, hsum, List.length_append, List.length_singleton]
  field_simp
  push_cast
  ring

end Moments

/-! ## Section 2: What the accumulator holds -/

/-- The accumulator has seen the values: it holds their number, their mean, and the
    sum of their squared distances from it. -/
structure Welford.Holds (w : Welford ℚ) (xs : List ℚ) : Prop where
  count : w.count = xs.length
  mean : w.mean = average xs
  spread : w.spread = squaresAbout (average xs) xs

theorem Welford.holds_empty : (Welford.empty : Welford ℚ).Holds [] where
  count := rfl
  mean := by simp [empty, Scalar.ofCount, average]
  spread := by simp [empty, Scalar.ofCount, squaresAbout]

/-- Taking in one more value keeps what is held.  The product of its distances to the
    old and the new mean is its own square and what the shift of the mean adds to the
    squares of the others. -/
theorem Welford.Holds.push {w : Welford ℚ} {xs : List ℚ} (h : w.Holds xs) (x : ℚ) :
    (w.push x).Holds (xs ++ [x]) := by
  have hmean : (w.push x).mean = average (xs ++ [x]) := by
    rw [average_concat, ← h.mean, ← h.count]
    rfl
  refine ⟨?_, hmean, ?_⟩
  · rw [Welford.count_push, h.count, List.length_append, List.length_singleton]
  · have hspread : (w.push x).spread = w.spread + (x - w.mean) * (x - (w.push x).mean) := rfl
    have hlength : ((xs.length + 1 : ℕ) : ℚ) ≠ 0 := by positivity
    rw [hspread, hmean, h.mean, h.spread, squaresAbout_concat, squaresAbout_eq xs (average (xs ++ [x])),
      average_concat]
    field_simp
    push_cast
    ring

theorem Welford.holds_ofList (xs : List ℚ) : (Welford.ofList xs).Holds xs := by
  induction xs using List.reverseRecOn with
  | nil => exact Welford.holds_empty
  | append_singleton xs x ih =>
    rw [Welford.ofList_append_singleton]
    exact ih.push x

/-! ## Section 3: Summaries -/

theorem average_perm {xs ys : List ℚ} (h : ys.Perm xs) : average ys = average xs := by
  rw [average, average, h.sum_eq, h.length_eq]

theorem sampleVariance_perm {xs ys : List ℚ} (h : ys.Perm xs) :
    sampleVariance ys = sampleVariance xs := by
  rw [sampleVariance, sampleVariance, squaresAbout, squaresAbout, average_perm h,
    (h.map _).sum_eq, h.length_eq]

theorem sampleVariance_nonneg {xs : List ℚ} (h : 2 ≤ xs.length) : 0 ≤ sampleVariance xs := by
  have hlength : (2 : ℚ) ≤ xs.length := by exact_mod_cast h
  exact div_nonneg (squaresAbout_nonneg _ _) (by linarith)

/-- **One pass is exact.**  Over the rationals the summary of any list of values has
    their number, their mean unless there is none, and their sample variance from two
    values on, which is never negative; and every order of the values has the same
    summary. -/
theorem summary_exact (xs : List ℚ) :
    Summary.of xs =
      { count := xs.length
        mean := if xs.length = 0 then none else some (average xs)
        variance := if xs.length ≤ 1 then none else some (sampleVariance xs) } ∧
      (∀ v, (Summary.of xs).variance = some v → 0 ≤ v) ∧
      ∀ ys, ys.Perm xs → Summary.of ys = Summary.of xs := by
  have hof : ∀ ys : List ℚ, Summary.of ys =
      { count := ys.length
        mean := if ys.length = 0 then none else some (average ys)
        variance := if ys.length ≤ 1 then none else some (sampleVariance ys) } := by
    intro ys
    obtain ⟨hcount, hmean, hspread⟩ := Welford.holds_ofList ys
    rw [Summary.of, Welford.summary, hcount, hmean, hspread]
    congr 1
    split
    · rfl
    · have hpred : ((ys.length - 1 : ℕ) : ℚ) = ys.length - 1 := Nat.cast_pred (by omega)
      rw [sampleVariance, ← hpred]
      rfl
  refine ⟨hof xs, fun v hv => ?_, fun ys hperm => ?_⟩
  · rw [hof xs] at hv
    dsimp only at hv
    split at hv
    · cases hv
    · cases hv
      exact sampleVariance_nonneg (by omega)
  · rw [hof, hof, hperm.length_eq, average_perm hperm, sampleVariance_perm hperm]

theorem summary_exact_reordered :
    [7, 1 / 2, 3].Perm [(1 / 2 : ℚ), 3, 7] ∧
      Summary.of [(1 / 2 : ℚ), 3, 7] = ⟨3, some (7 / 2), some (43 / 4)⟩ ∧
      (0 : ℚ) ≤ 43 / 4 ∧
      Summary.of [(7 : ℚ), 1 / 2, 3] = ⟨3, some (7 / 2), some (43 / 4)⟩ := by
  have hperm : [7, 1 / 2, 3].Perm [(1 / 2 : ℚ), 3, 7] := by decide +kernel
  obtain ⟨hsummary, hnonneg, horder⟩ := summary_exact [(1 / 2 : ℚ), 3, 7]
  have hvalues : Summary.of [(1 / 2 : ℚ), 3, 7] = ⟨3, some (7 / 2), some (43 / 4)⟩ := by
    rw [hsummary]
    norm_num [average, sampleVariance, squaresAbout]
  exact ⟨hperm, hvalues, hnonneg _ (by rw [hvalues]), (horder _ hperm).trans hvalues⟩

end BenchSweep
