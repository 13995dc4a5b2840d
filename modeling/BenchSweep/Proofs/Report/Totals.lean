import BenchSweep.Proofs.Run.Account
import BenchSweep.Proofs.Run.Status
import BenchSweep.Proofs.Report.Tables

/-! # Totals Add Up

    Between a scan and a report nothing is dropped and nothing is counted twice:
    every trial of the rows is a result, a timeout or blank, every result is in
    the group of its experiment, and every group holds a time for each value of
    another metric. -/

namespace BenchSweep

open Artifact

/-- The sums over the experiments of an analysis are the totals of its progress. -/
structure Analysis.AddsUp (a : Analysis) (xs : List Descriptor) : Prop where
  /-- Each trial of the rows is a result, a timeout or not done. -/
  trials : a.progress.successful + a.progress.timedOut + a.progress.notDone
    = a.progress.iterations * xs.length
  experiments_nodup : a.aggregate.keys.Nodup
  successful : (a.aggregate.keys.map fun name =>
    ((a.aggregate.summary? name timeKey).map Summary.count).getD 0).sum = a.progress.successful
  overrunning_nodup : a.timeouts.keys.Nodup
  timedOut : (a.timeouts.keys.map fun name => (a.timeouts.find? name).getD 0).sum
    = a.progress.timedOut
  names : ∀ name, name ∈ a.aggregate.keys ∨ name ∈ a.timeouts.keys → name ∈ xs.map Descriptor.name
  /-- No metric of an experiment has more values than its time. -/
  counts : ∀ name ∈ a.aggregate.keys, ∃ t, a.aggregate.summary? name timeKey = some t ∧
    ∀ metric s, a.aggregate.summary? name metric = some s → s.count ≤ t.count

/-! ## Section 1: How many values a group has -/

theorem Summary.count_of (values : List Float) : (Summary.of values).count = values.length := by
  have hfold : ∀ (values : List Float) (w : Welford Float),
      (values.foldl Welford.push w).count = w.count + values.length := by
    intro values
    induction values with
    | nil => exact fun _ => rfl
    | cons x values ih =>
      intro w
      rw [List.foldl_cons, ih, Welford.count_push, List.length_cons]
      omega
  show (values.foldl Welford.push Welford.empty).count = _
  rw [hfold]
  exact Nat.zero_add _

namespace Aggregate

variable {results : List (String × Metrics)}

/-- How many values a group has. -/
theorem count_summary? (h : ∀ r ∈ results, r.2.keys.Nodup) {name metric : String}
    {s : Summary Float} (hs : (ofResults results).summary? name metric = some s) :
    s.count = (results.filterMap (reported name metric)).length := by
  rw [summary?_ofResults h] at hs
  split at hs
  · cases hs
  · rw [← Option.some.inj hs, Summary.count_of]

/-- An experiment reports no metric more often than it has results. -/
theorem length_reported_le (results : List (String × Metrics)) (name metric : String) :
    (results.filterMap (reported name metric)).length ≤ (results.map Prod.fst).count name := by
  rw [List.length_filterMap_eq_countP, List.count, List.countP_map]
  refine List.countP_mono_left fun r _ hr => ?_
  unfold reported at hr
  split at hr
  · rename_i hname
    exact beq_iff_eq.2 hname
  · cases hr

section Timed

variable (htimed : ∀ r ∈ results, (r.2.find? timeKey).isSome = true)

include htimed

/-- An experiment reports a time as often as it has results. -/
theorem length_reported_time (name : String) :
    (results.filterMap (reported name timeKey)).length = (results.map Prod.fst).count name := by
  rw [List.length_filterMap_eq_countP, List.count, List.countP_map]
  refine List.countP_congr fun r hr => ?_
  unfold reported
  by_cases hname : r.1 = name
  · simp [hname, htimed r hr]
  · simp [hname]

/-- The summary of the times of an experiment that has a result. -/
theorem summary?_time (h : ∀ r ∈ results, r.2.keys.Nodup) {name : String}
    (hname : name ∈ results.map Prod.fst) :
    ∃ t, (ofResults results).summary? name timeKey = some t ∧
      t.count = (results.map Prod.fst).count name := by
  have hne : results.filterMap (reported name timeKey) ≠ [] := by
    intro hnil
    have hlength := length_reported_time htimed name
    rw [hnil, List.length_nil] at hlength
    exact absurd hlength.symm (Nat.ne_of_gt (List.count_pos_iff.2 hname))
  refine ⟨Summary.of (results.filterMap (reported name timeKey)), ?_, ?_⟩
  · rw [summary?_ofResults h, if_neg hne]
  · rw [Summary.count_of, length_reported_time htimed]

end Timed

end Aggregate

/-! ## Section 2: Totals -/

/-- **Totals add up.**  The analysis of what a scan found, whatever the catalog:
    all trials of the rows are accounted for, the experiments' times and timeouts
    add up to the totals, only experiments have any, and none has more values of
    another metric than times. -/
theorem totals_add_up {d : Disk} {outdir : Path} {budget : UInt64} {xs : List Descriptor}
    {p : Progress} (c : Catalog) (hscan : d.scan outdir budget xs = .ok p) :
    (analyse c xs p).AddsUp xs := by
  obtain ⟨k, hrecorded, hblank, hprogress⟩ := Disk.scan_ok hscan
  have haccounts : p.Accounts d outdir budget xs k := by
    rw [hprogress]
    exact Disk.accounts_progress hrecorded hblank
  -- What holds of completed trials holds of the results.
  have hnodup : ∀ r ∈ p.results, r.2.keys.Nodup := by
    intro r hr
    obtain ⟨i, -, x, -, -, t, hdone⟩ := haccounts.of_mem_results hr
    exact (Disk.metrics_of_done hdone).1
  have htimed : ∀ r ∈ p.results, (r.2.find? timeKey).isSome = true := by
    intro r hr
    obtain ⟨i, -, x, -, -, t, hdone⟩ := haccounts.of_mem_results hr
    rw [(Disk.metrics_of_done hdone).2]
    rfl
  obtain ⟨hexperiments, hmem⟩ := Aggregate.keys_ofResults p.results
  obtain ⟨hoverrunning, hmem'⟩ := keys_tally (p.timeouts.map Prod.fst)
  refine ⟨?_, hexperiments, ?_, hoverrunning, ?_, ?_, ?_⟩
  · show p.successful + p.timedOut + p.notDone = p.iterations * xs.length
    rw [haccounts.iterations]
    exact haccounts.total fun j hj => (hrecorded j hj).1
  · show ((Aggregate.ofResults p.results).keys.map _).sum = p.results.length
    rw [← List.length_map Prod.fst, ← sum_count_names hexperiments hmem]
    congr 1
    refine List.map_congr_left fun name hname => ?_
    obtain ⟨t, ht, hcount⟩ := Aggregate.summary?_time htimed hnodup ((hmem name).1 hname)
    show ((Aggregate.summary? (Aggregate.ofResults p.results) name timeKey).map _).getD 0 = _
    rw [ht, Option.map_some, Option.getD_some, hcount]
  · show ((tally (p.timeouts.map Prod.fst)).keys.map _).sum = p.timeouts.length
    rw [← List.length_map Prod.fst, ← sum_count_names hoverrunning hmem']
    congr 1
    exact List.map_congr_left fun name _ => find?_tally _ name
  · intro name hname
    rcases hname with hname | hname
    · obtain ⟨r, hr, rfl⟩ := List.mem_map.1 ((hmem name).1 hname)
      obtain ⟨i, -, x, hx, hname, -⟩ := haccounts.of_mem_results hr
      exact List.mem_map.2 ⟨x, hx, hname.symm⟩
    · obtain ⟨r, hr, rfl⟩ := List.mem_map.1 ((hmem' name).1 hname)
      obtain ⟨x, hx, hname⟩ := haccounts.of_mem_timeouts hr
      exact List.mem_map.2 ⟨x, hx, hname.symm⟩
  · intro name hname
    obtain ⟨t, ht, hcount⟩ := Aggregate.summary?_time htimed hnodup ((hmem name).1 hname)
    refine ⟨t, ht, fun metric s hs => ?_⟩
    rw [hcount, Aggregate.count_summary? hnodup hs]
    exact Aggregate.length_reported_le p.results name metric

/-- A second row with only one of the trials after the first row of a new project. -/
def Disk.withStarterRows : Disk where
  here := []
  nodes :=
    (["kanban01-s-4-1", "out"],
      .file "Time for computing the bisimulation relation: 3\nTime for partition refinement: 2".toUTF8)
    :: Disk.withStarterRow.nodes

theorem totals_add_up_starter :
    ∃ p, Disk.withStarterRows.scan ⟨"out"⟩ 1200 starterExperiments = .ok p ∧
      p.successful = 2 ∧ p.timedOut = 1 ∧ p.notDone = 1 ∧
      (analyse (Catalog.starter "en") starterExperiments p).AddsUp starterExperiments := by
  have htotals : (Disk.withStarterRows.scan ⟨"out"⟩ 1200 starterExperiments).toOption.map
      (fun p => (p.successful, p.timedOut, p.notDone)) = some (2, 1, 1) := by decide +kernel
  obtain ⟨p, hp, hcounts⟩ := Option.map_eq_some_iff.1 htotals
  simp only [Prod.mk.injEq] at hcounts
  have hscan : Disk.withStarterRows.scan ⟨"out"⟩ 1200 starterExperiments = .ok p := by
    cases hscan : Disk.withStarterRows.scan ⟨"out"⟩ 1200 starterExperiments with
    | error e => rw [hscan] at hp; cases hp
    | ok q => rw [hscan] at hp; cases hp; rfl
  exact ⟨p, hscan, hcounts.1, hcounts.2.1, hcounts.2.2, totals_add_up (Catalog.starter "en") hscan⟩

end BenchSweep
