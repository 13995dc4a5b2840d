import Mathlib.Data.Set.Card
import BenchSweep.Proofs.Run.Account

/-! # How Far a Scan Goes

    A scan has no bound of its own: it reads row after row until one of them ends
    it.  Every row that does not end it has a log or a marker, and no two rows have
    the same one.  So the files that are there bound the rows that are read. -/

namespace BenchSweep

open Artifact

variable {d : Disk} {outdir : Path} {xs : List Descriptor} {budget : UInt64} {i n : Nat}

namespace Disk

/-! ## Section 1: Rows in numbers -/

/-- A scan that goes on from a row and reads at most so many rows.  It comes to
    nothing if none of them ends it, or if the blank trials of its last row cannot
    be taken off the books. -/
def scanRows (d : Disk) (outdir : Path) (budget : UInt64) (xs : List Descriptor) :
    Nat → Nat → Ledger → Option (Except StoreError Progress)
  | 0, _, _ => none
  | rows + 1, i, l =>
    match d.bookRow outdir budget i xs { l with stop := true } with
    | .error e => some (.error e)
    | .ok l' =>
      if l'.stop = false then d.scanRows outdir budget xs rows (i + 1) l'
      else if l'.blanks < xs.length then none
      else
        some (.ok
          { iterations := i
            notDone := l'.blanks - xs.length
            results := l'.results
            timeouts := l'.timeouts
            nextIteration := l'.next.getD i })

theorem legible_of_bookRow {l l' : Ledger} (h : d.bookRow outdir budget i xs l = .ok l') :
    d.Legible outdir xs i := by
  rw [legible_iff_failures]
  cases hfail : d.failures outdir xs i with
  | nil => rfl
  | cons e es =>
    have herror : d.bookRow outdir budget i xs l = .error e := by
      apply bookRow_of_failures
      rw [hfail]
      rfl
    rw [herror] at h
    cases h

/-- A row that does not end the scan has a record. -/
theorem recorded_of_bookRow {l l' : Ledger}
    (h : d.bookRow outdir budget i xs { l with stop := true } = .ok l') (hstop : l'.stop = false) :
    d.Recorded outdir xs i := by
  have hlegible := legible_of_bookRow h
  refine ⟨hlegible, fun hblank => ?_⟩
  -- The trials of a blank row leave the mark on the books as it was.
  rw [bookRow_of_legible hlegible, Ledger.foldl_book] at h
  have hl' : l'.stop = (d.row outdir xs i).all Trial.isBlank := by
    rw [← Except.ok.inj h]
    exact Bool.true_and _
  rw [hl', hlegible.blank_iff.2 hblank] at hstop
  cases hstop

/-! ## Section 2: The rows of a scan -/

/-- A scan that comes to a result reads rows with a record and then one more. -/
theorem ScansFrom.rows {l : Ledger} {result : Except StoreError Progress}
    (h : d.ScansFrom outdir budget xs i l result) :
    ∃ n, (∀ j, i ≤ j → j < i + n → d.Recorded outdir xs j) ∧
      (∀ p, result = .ok p → p.iterations = i + n) ∧
      ∀ rows, d.scanRows outdir budget xs rows i l = if n < rows then some result else none := by
  induction h with
  | fails hrow =>
    refine ⟨0, by omega, nofun, fun rows => ?_⟩
    cases rows with
    | zero => rfl
    | succ rows =>
      unfold scanRows
      rw [hrow, if_pos (Nat.succ_pos rows)]
  | @ends i notDone l l' hrow hstop hblanks =>
    refine ⟨0, by omega, ?_, fun rows => ?_⟩
    · rintro p ⟨⟩
      rfl
    · cases rows with
      | zero => rfl
      | succ rows =>
        have hdone : l'.blanks - xs.length = notDone := by omega
        unfold scanRows
        rw [hrow, if_pos (Nat.succ_pos rows)]
        show (if l'.stop = false then _ else _) = _
        rw [if_neg (by simp [hstop]), if_neg (by omega), hdone]
  | @goes i l l' result hrow hstop _ ih =>
    obtain ⟨n, hbelow, hiterations, hrows⟩ := ih
    refine ⟨n + 1, fun j hij hj => ?_, fun p hp => ?_, fun rows => ?_⟩
    · by_cases hfirst : j = i
      · rw [hfirst]
        exact recorded_of_bookRow hrow hstop
      · exact hbelow j (by omega) (by omega)
    · rw [hiterations p hp]
      omega
    · cases rows with
      | zero => rfl
      | succ rows =>
        unfold scanRows
        rw [hrow]
        show (if l'.stop = false then _ else _) = _
        rw [if_pos hstop, hrows rows]
        simp only [Nat.add_lt_add_iff_right]

/-! ## Section 3: Rows and files -/

theorem finite_recordFiles (d : Disk) (outdir : Path) (xs : List Descriptor) :
    (d.recordFiles outdir xs).Finite :=
  (List.finite_toSet (d.nodes.map Prod.fst)).subset fun _ hl => mem_nodes_of_recordFiles hl

/-- There are no more rows with a record than logs and markers. -/
theorem rows_le_ncard (h : ∀ j < n, d.Recorded outdir xs j) :
    n ≤ (d.recordFiles outdir xs).ncard := by
  obtain ⟨places, hnodup, hlength, hplaces⟩ :=
    exists_places List.nodup_range fun j hj => h j (List.mem_range.1 hj)
  have hsub : (places.toFinset : Set Location) ⊆ d.recordFiles outdir xs := by
    intro l hl
    exact hplaces l (List.mem_toFinset.1 hl)
  have hle := Set.ncard_le_ncard hsub (finite_recordFiles d outdir xs)
  rwa [Set.ncard_coe_finset, List.toFinset_card_of_nodup hnodup, hlength,
    List.length_range] at hle

end Disk

/-- **A scan ends.**  It goes row after row without a bound of its own, and there are
    only so many logs and markers.  The scan comes to its result in the row behind at
    most that many others, and it reads exactly the rows up to there; if it succeeds,
    the rows before that one are the iterations that it tells. -/
theorem scan_ends (d : Disk) (outdir : Path) (budget : UInt64) (xs : List Descriptor) :
    (d.recordFiles outdir xs).Finite ∧
    ∃ stop ≤ (d.recordFiles outdir xs).ncard,
      (∀ rows, d.scanRows outdir budget xs rows 0 .empty
        = if stop < rows then some (d.scan outdir budget xs) else none) ∧
      ∀ p, d.scan outdir budget xs = .ok p → p.iterations = stop := by
  refine ⟨Disk.finite_recordFiles d outdir xs, ?_⟩
  obtain ⟨stop, hbelow, hiterations, hrows⟩ := (Disk.scansFrom_scan d outdir budget xs).rows
  refine ⟨stop, ?_, hrows, fun p hp => ?_⟩
  · apply Disk.rows_le_ncard
    intro j hj
    exact hbelow j (Nat.zero_le j) (by omega)
  · rw [hiterations p hp, Nat.zero_add]

end BenchSweep
