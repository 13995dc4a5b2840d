import Mathlib.Order.Bounds.Defs
import BenchSweep.Proofs.Run.Settled
import BenchSweep.Proofs.Run.Rows

/-! # Scans at Two Budgets

    A scan reads the same records at every budget.  A larger budget makes a trial
    pending that overran a smaller one, and it makes no other trial pending or
    settled.  So all that changes is the row that is next, and it moves to the first
    row that is reopened. -/

namespace BenchSweep

open Artifact

variable {d : Disk} {outdir : Path} {xs : List Descriptor} {b b' : UInt64} {i k : Nat}

/-! ## Section 1: One record -/

namespace RunRecord

variable {r : RunRecord} {t : UInt64}

theorem isPending_of_timeoutSecs (h : r.timeoutSecs = some t) :
    r.isPending b = true ↔ t < b := by
  cases r with
  | notDone => cases h
  | done time metrics => cases h
  | timeout s =>
    cases h
    exact decide_eq_true_iff

/-- What is pending stays so when the budget grows. -/
theorem isPending_mono (h : b ≤ b') (hr : r.isPending b = true) : r.isPending b' = true := by
  cases r with
  | notDone => rfl
  | done time metrics => cases hr
  | timeout s =>
    have hs : (timeout s).timeoutSecs = some (heldSeconds s) := rfl
    rw [isPending_of_timeoutSecs hs] at hr ⊢
    exact UInt64.lt_of_lt_of_le hr h

/-- What becomes pending overran a budget that is not larger than the new one only. -/
theorem timeoutSecs_of_isPending (hr : r.isPending b = false) (hr' : r.isPending b' = true) :
    ∃ t, r.timeoutSecs = some t ∧ b ≤ t ∧ t < b' := by
  cases r with
  | notDone => cases hr
  | done time metrics => cases hr'
  | timeout s =>
    have hs : (timeout s).timeoutSecs = some (heldSeconds s) := rfl
    refine ⟨heldSeconds s, hs, UInt64.not_lt.1 fun hlt => ?_, (isPending_of_timeoutSecs hs).1 hr'⟩
    rw [(isPending_of_timeoutSecs hs).2 hlt] at hr
    cases hr

end RunRecord

/-! ## Section 2: One row -/

namespace Disk

/-- A trial of the row overran a budget that the first of two budgets does not exceed
    and the second one does. -/
def ReopenedRow (d : Disk) (outdir : Path) (b b' : UInt64) (xs : List Descriptor) (i : Nat) :
    Prop :=
  ∃ x ∈ xs, ∃ r t, d.status x (log outdir x.name i) = .ok r ∧ r.timeoutSecs = some t ∧
    b ≤ t ∧ t < b'

theorem OpenRow.mono (h : b ≤ b') (hopen : d.OpenRow outdir b xs i) : d.OpenRow outdir b' xs i := by
  obtain ⟨x, hx, r, hr, hpending⟩ := hopen
  exact ⟨x, hx, r, hr, RunRecord.isPending_mono h hpending⟩

theorem ReopenedRow.openRow (h : d.ReopenedRow outdir b b' xs i) : d.OpenRow outdir b' xs i := by
  obtain ⟨x, hx, r, t, hr, ht, -, hlt⟩ := h
  exact ⟨x, hx, r, hr, (RunRecord.isPending_of_timeoutSecs ht).2 hlt⟩

/-- A settled row that the larger budget opens is reopened. -/
theorem SettledRow.reopenedRow (h : d.SettledRow outdir b xs i) (hopen : d.OpenRow outdir b' xs i) :
    d.ReopenedRow outdir b b' xs i := by
  obtain ⟨x, hx, r, hr, hpending⟩ := hopen
  obtain ⟨r', hr', hsettled⟩ := h x hx
  obtain rfl := Except.ok.inj (hr'.symm.trans hr)
  obtain ⟨t, ht, hle, hlt⟩ := RunRecord.timeoutSecs_of_isPending hsettled hpending
  exact ⟨x, hx, _, t, hr, ht, hle, hlt⟩

/-! ## Section 3: The scan -/

/-- The next row at the larger budget is the first one reopened, if one is reopened
    before the next row at the smaller budget. -/
theorem isLeast_nextIteration (h : b ≤ b') (hbelow : ∀ j < k, d.Recorded outdir xs j) :
    IsLeast {i | d.ReopenedRow outdir b b' xs i ∨ i = (d.progress outdir b xs k).nextIteration}
      (d.progress outdir b' xs k).nextIteration := by
  obtain ⟨hle, hsettled, hopen⟩ := nextIteration_first b hbelow
  obtain ⟨hle', hsettled', hopen'⟩ := nextIteration_first b' hbelow
  generalize (d.progress outdir b xs k).nextIteration = n at hle hsettled hopen ⊢
  generalize (d.progress outdir b' xs k).nextIteration = n' at hle' hsettled' hopen' ⊢
  have hnn : n' ≤ n := by
    by_contra hlt
    -- A row that is open at the smaller budget is not settled at the larger one.
    have hlt' : n < n' := Nat.lt_of_not_le hlt
    have hrow := (hopen (by omega)).mono h
    exact (hsettled' n hlt').not_openRow hrow
  constructor
  · rcases Nat.lt_or_eq_of_le hnn with hlt | heq
    · exact Or.inl ((hsettled n' hlt).reopenedRow (hopen' (by omega)))
    · exact Or.inr heq
  · intro i hi
    rcases hi with hi | rfl
    · by_contra hlt
      exact (hsettled' i (Nat.lt_of_not_le hlt)).not_openRow hi.openRow
    · exact hnn

end Disk

/-- **A larger budget only reopens work.**  A scan fails at both budgets, with the same
    error, or at none.  If it succeeds, all that the budget changes is the next row: it
    is not a later one, it is the same if no row up to it is reopened, and in general it
    is the first row that is reopened or that was next before. -/
theorem larger_budget_reopens (d : Disk) (outdir : Path) (xs : List Descriptor) {b b' : UInt64}
    (h : b ≤ b') :
    (∀ e, d.scan outdir b xs = .error e ↔ d.scan outdir b' xs = .error e) ∧
    ∀ p, d.scan outdir b xs = .ok p → ∃ n ≤ p.nextIteration,
      d.scan outdir b' xs = .ok { p with nextIteration := n } ∧
      ((∀ i ≤ p.nextIteration, ¬ d.ReopenedRow outdir b b' xs i) → n = p.nextIteration) ∧
      IsLeast {i | d.ReopenedRow outdir b b' xs i ∨ i = p.nextIteration} n := by
  constructor
  · intro e
    unfold Disk.scan
    cases d.history outdir xs with
    | error e' => rfl
    | ok lines => exact ⟨nofun, nofun⟩
  · intro p hp
    obtain ⟨k, hbelow, hblank, rfl⟩ := Disk.scan_ok hp
    have hleast := Disk.isLeast_nextIteration h hbelow
    refine ⟨_, hleast.2 (Or.inr rfl), Disk.scan_of_blank hbelow hblank, fun hnone => ?_, hleast⟩
    rcases hleast.1 with hreopened | heq
    · exact absurd hreopened (hnone _ (hleast.2 (Or.inr rfl)))
    · exact heq

/-- One experiment that overran a budget of one second and was measured after that. -/
def Disk.withTimeoutBelow : Disk where
  here := []
  nodes := [(["a-1", "out"], .file measured), (["a-0.timeout", "out"], .file "1".toUTF8),
    (["out"], .dir)]

theorem larger_budget_reopens_firstRow :
    (1 : UInt64) ≤ 2 ∧ ∃ p, Disk.withTimeoutBelow.scan ⟨"out"⟩ 1 [.plain "a"] = .ok p ∧
      p.nextIteration = 2 ∧
      Disk.withTimeoutBelow.scan ⟨"out"⟩ 2 [.plain "a"] = .ok { p with nextIteration := 0 } := by
  have hle : (1 : UInt64) ≤ 2 := by decide
  obtain ⟨p, hscan, hnext⟩ : ∃ p, Disk.withTimeoutBelow.scan ⟨"out"⟩ 1 [.plain "a"] = .ok p ∧
      p.nextIteration = 2 := Disk.exists_scan_ok (by decide +kernel)
  have hfirst : Disk.withTimeoutBelow.status (.plain "a") (log ⟨"out"⟩ "a" 0) = .ok (.timeout 1) := by
    decide +kernel
  obtain ⟨n, -, hscan', -, hleast⟩ := (larger_budget_reopens _ ⟨"out"⟩ _ hle).2 p hscan
  -- The first row is reopened, so no later one is next.
  have hreopened : Disk.withTimeoutBelow.ReopenedRow ⟨"out"⟩ 1 2 [.plain "a"] 0 :=
    ⟨_, List.mem_cons_self, _, 1, hfirst, rfl, UInt64.le_refl 1, by decide⟩
  have hzero : n = 0 := Nat.le_zero.1 (hleast.2 (Or.inl hreopened))
  rw [hzero] at hscan'
  exact ⟨hle, p, hscan, hnext, hscan'⟩

end BenchSweep
