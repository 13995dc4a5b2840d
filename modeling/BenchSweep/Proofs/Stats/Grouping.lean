import Mathlib.Algebra.BigOperators.Group.List.Lemmas
import Mathlib.Algebra.GroupWithZero.Nat
import BenchSweep.Proofs.Keyed
import BenchSweep.Stats.Aggregate

/-! # What Grouping Keeps

    A group of the aggregate holds the values that the trials of an experiment
    report of a metric, in the order of the trials, whatever stands between them.
    No value is taken twice, as a trial reports a metric at most once, and a name
    is tallied as often as it stands in the list. -/

namespace BenchSweep

/-- A log reports a metric at most once. -/
theorem LogFormat.nodup_keys_read {f : LogFormat} {log : List Char} {m : Metrics}
    (h : f.read log = some m) : m.keys.Nodup :=
  (of_read (P := Keyed.Ordered) (fun _ => Keyed.ordered_nil.insert _ _)
    (fun _ _ _ hm => hm.insert _ _) h).nodup

/-! ## Section 1: Groups -/

namespace Aggregate

/-- The values of a metric in the results of an experiment, in the order of the
    list. -/
def values (results : List (String × Metrics)) (name metric : String) : List Float :=
  (Keyed.under name results).flatMap (Keyed.under metric)

/-- A group after some more values. -/
def feed (group : Option (Welford Float)) (values : List Float) : Option (Welford Float) :=
  values.foldl (fun w x => some ((w.getD Welford.empty).push x)) group

/-- What a trial contributes to a group. -/
def reported (name metric : String) (result : String × Metrics) : Option Float :=
  if result.1 = name then result.2.find? metric else none

/-- The group of a metric of an experiment. -/
def group (all : Keyed Groups) (name metric : String) : Option (Welford Float) :=
  (all.find? name).bind (Keyed.find? · metric)

theorem feed_append (w : Option (Welford Float)) (xs ys : List Float) :
    feed w (xs ++ ys) = feed (feed w xs) ys :=
  List.foldl_append

/-- A group begins with its first value. -/
theorem feed_none (values : List Float) :
    feed none values = if values = [] then none else some (Welford.ofList values) := by
  have hsome : ∀ (values : List Float) (w : Welford Float),
      feed (some w) values = some (values.foldl Welford.push w) := by
    intro values
    induction values with
    | nil => exact fun _ => rfl
    | cons x values ih => exact fun w => ih (w.push x)
  cases values with
  | nil => rfl
  | cons x values =>
    rw [if_neg (List.cons_ne_nil x values)]
    exact hsome values (Welford.empty.push x)

theorem values_cons (result : String × Metrics) (results : List (String × Metrics))
    (name metric : String) :
    values (result :: results) name metric
      = (if result.1 = name then Keyed.under metric result.2 else [])
        ++ values results name metric := by
  unfold values
  rw [Keyed.under_cons]
  split <;> simp

theorem mem_values {results : List (String × Metrics)} {name metric : String} {x : Float} :
    x ∈ values results name metric ↔ ∃ metrics, (name, metrics) ∈ results ∧ (metric, x) ∈ metrics := by
  simp only [values, List.mem_flatMap, Keyed.mem_under]

/-- Where no result has a metric twice, the values are what each result contributes. -/
theorem values_eq_filterMap {results : List (String × Metrics)}
    (h : ∀ r ∈ results, r.2.keys.Nodup) (name metric : String) :
    values results name metric = results.filterMap (reported name metric) := by
  induction results with
  | nil => rfl
  | cons r results ih =>
    have hfirst : (if r.1 = name then Keyed.under metric r.2 else [])
        = (reported name metric r).toList := by
      rw [Keyed.under_eq_find? (h r List.mem_cons_self), reported]
      split <;> rfl
    rw [values_cons, hfirst, ih fun s hs => h s (List.mem_cons_of_mem r hs), List.filterMap_cons]
    cases reported name metric r <;> rfl

/-- The metrics of a trial go into the groups of their names. -/
theorem find?_addMetrics (groups : Groups) (metrics : Metrics) (metric : String) :
    (addMetrics groups metrics).find? metric
      = feed (groups.find? metric) (Keyed.under metric metrics) := by
  unfold addMetrics
  induction metrics generalizing groups with
  | nil => rfl
  | cons e metrics ih =>
    rw [List.foldl_cons, ih, Keyed.under_cons]
    by_cases hmetric : e.1 = metric
    · rw [if_pos hmetric, ← hmetric, Keyed.find?_update_self]
      rfl
    · rw [if_neg hmetric, Keyed.find?_update_ne _ _ _ _ (Ne.symm hmetric)]

/-- One more trial adds to the groups of its experiment. -/
theorem group_addResult (all : Keyed Groups) (result : String × Metrics) (name metric : String) :
    group (addResult all result) name metric
      = feed (group all name metric)
          (if result.1 = name then Keyed.under metric result.2 else []) := by
  unfold group addResult
  by_cases hname : result.1 = name
  · rw [if_pos hname, ← hname, Keyed.find?_update_self, Option.bind_some, find?_addMetrics]
    cases all.find? result.1 with
    | none => rfl
    | some groups => rfl
  · rw [if_neg hname, Keyed.find?_update_ne _ _ _ _ (Ne.symm hname)]
    rfl

/-- The trials' values go into their groups one after the other. -/
theorem group_foldl (results : List (String × Metrics)) (all : Keyed Groups)
    (name metric : String) :
    group (results.foldl addResult all) name metric
      = feed (group all name metric) (values results name metric) := by
  induction results generalizing all with
  | nil => rfl
  | cons r results ih => rw [List.foldl_cons, ih, values_cons, feed_append, group_addResult]

/-- The summary of a metric is that of its values, if there are any. -/
theorem summary?_values (results : List (String × Metrics)) (name metric : String) :
    (ofResults results).summary? name metric =
      if values results name metric = [] then none
      else some (Summary.of (values results name metric)) := by
  have hgroup : (ofResults results).summary? name metric
      = (group (results.foldl addResult []) name metric).map Welford.summary := by
    unfold summary? ofResults group
    rw [Keyed.find?_mapValues, Option.bind_map, Option.map_bind]
    congr 1
    funext groups
    exact Keyed.find?_mapValues _ _ _
  have hnone : group [] name metric = none := rfl
  rw [hgroup, group_foldl, hnone, feed_none]
  split <;> rfl

/-- The summary of a metric is that of the values reported, if there are any. -/
theorem summary?_ofResults {results : List (String × Metrics)}
    (h : ∀ r ∈ results, r.2.keys.Nodup) (name metric : String) :
    (ofResults results).summary? name metric =
      if results.filterMap (reported name metric) = [] then none
      else some (Summary.of (results.filterMap (reported name metric))) := by
  rw [summary?_values, values_eq_filterMap h]

/-- The mean of a metric is that of the values reported. -/
theorem mean?_ofResults {results : List (String × Metrics)}
    (h : ∀ r ∈ results, r.2.keys.Nodup) (name metric : String) :
    (ofResults results).mean? name metric
      = (Summary.of (results.filterMap (reported name metric))).mean := by
  rw [mean?, summary?_ofResults h]
  split
  · rename_i hnil
    rw [hnil]
    rfl
  · rfl

/-! ## Section 2: The names of the groups -/

theorem ordered_ofResults (results : List (String × Metrics)) : (ofResults results).Ordered :=
  (Keyed.keys_foldl_update Prod.fst
    (fun (r : String × Metrics) groups => addMetrics (groups.getD []) r.2) results []
    Keyed.ordered_nil).1.mapValues _

/-- The aggregate holds each experiment with a result once. -/
theorem keys_ofResults (results : List (String × Metrics)) :
    (ofResults results).keys.Nodup ∧
      ∀ name, name ∈ (ofResults results).keys ↔ name ∈ results.map Prod.fst := by
  have hfold := Keyed.keys_foldl_update Prod.fst
    (fun (r : String × Metrics) groups => addMetrics (groups.getD []) r.2) results []
    Keyed.ordered_nil
  refine ⟨(ordered_ofResults results).nodup, fun name => ?_⟩
  rw [ofResults, Keyed.keys_mapValues]
  exact (hfold.2 name).trans (by simp [Keyed.keys])

theorem ordered_addMetrics {groups : Groups} (h : groups.Ordered) (metrics : Metrics) :
    (addMetrics groups metrics).Ordered :=
  (Keyed.keys_foldl_update Prod.fst
    (fun (e : String × Float) (w : Option (Welford Float)) => (w.getD Welford.empty).push e.2)
    metrics groups h).1

/-- The groups of every experiment are in order. -/
theorem ordered_groups {results : List (String × Metrics)} {name : String}
    {summaries : Keyed (Summary Float)} (h : (ofResults results).find? name = some summaries) :
    summaries.Ordered := by
  have hfold : ∀ (results : List (String × Metrics)) (all : Keyed Groups),
      (∀ groups, all.find? name = some groups → groups.Ordered) →
      ∀ groups, (results.foldl addResult all).find? name = some groups → groups.Ordered := by
    intro results
    induction results with
    | nil => exact fun _ hall => hall
    | cons r results ih =>
      intro all hall
      refine ih _ fun groups hgroups => ?_
      by_cases hname : name = r.1
      · rw [hname, addResult, Keyed.find?_update_self, Option.some.injEq] at hgroups
        rw [← hgroups]
        apply ordered_addMetrics
        cases hfind : all.find? r.1 with
        | none => exact Keyed.ordered_nil
        | some before => exact hall before (hname ▸ hfind)
      · rw [addResult, Keyed.find?_update_ne _ _ _ _ hname] at hgroups
        exact hall groups hgroups
  rw [ofResults, Keyed.find?_mapValues] at h
  obtain ⟨groups, hgroups, rfl⟩ := Option.map_eq_some_iff.1 h
  exact (hfold results [] nofun groups hgroups).mapValues _

/-- What is found of an experiment is its summaries. -/
theorem find?_of_find? {results : List (String × Metrics)} {name : String}
    {summaries : Keyed (Summary Float)} (h : (ofResults results).find? name = some summaries)
    (metric : String) :
    summaries.find? metric =
      if values results name metric = [] then none
      else some (Summary.of (values results name metric)) := by
  rw [← summary?_values, summary?, h, Option.bind_some]

theorem mem_names {results : List (String × Metrics)} {name : String} :
    name ∈ results.map Prod.fst ↔ ∃ metrics, (name, metrics) ∈ results := by
  simp only [List.mem_map, Prod.exists, exists_and_right, exists_eq_right]

/-- An experiment has a group for each metric that one of its results has. -/
theorem values_ne_nil {results : List (String × Metrics)} {name metric : String} :
    values results name metric ≠ [] ↔
      ∃ metrics, (name, metrics) ∈ results ∧ metric ∈ metrics.keys := by
  rw [Ne, List.eq_nil_iff_forall_not_mem, not_forall]
  simp only [not_not, mem_values]
  constructor
  · intro h
    obtain ⟨x, metrics, hresult, hx⟩ := h
    exact ⟨metrics, hresult, List.mem_map_of_mem hx⟩
  · intro h
    obtain ⟨metrics, hresult, hmetric⟩ := h
    obtain ⟨⟨_, x⟩, hx, rfl⟩ := List.mem_map.1 hmetric
    exact ⟨x, metrics, hresult, hx⟩

/-- **Grouping is filtering.**  The aggregate holds the experiments with a result, each
    once and in order, and for each of them the metrics that one of its results has.  The
    summary of a metric is that of the experiment's own values, in the order of the list,
    whatever stands between them. -/
theorem grouping_is_filtering (results : List (String × Metrics)) :
    (ofResults results).Ordered ∧
    (∀ name, name ∈ (ofResults results).keys ↔ ∃ metrics, (name, metrics) ∈ results) ∧
    ∀ name summaries, (ofResults results).find? name = some summaries →
      summaries.Ordered ∧
      (∀ metric, metric ∈ summaries.keys ↔
        ∃ metrics, (name, metrics) ∈ results ∧ metric ∈ metrics.keys) ∧
      ∀ metric ∈ summaries.keys,
        summaries.find? metric = some (Summary.of (values results name metric)) := by
  refine ⟨ordered_ofResults results, fun name => ?_, fun name summaries h => ?_⟩
  · rw [(keys_ofResults results).2, mem_names]
  -- A metric is there if it has values, and what is found is their summary.
  have hfind := find?_of_find? h
  have hkeys : ∀ metric, metric ∈ summaries.keys ↔ values results name metric ≠ [] := by
    intro metric
    rw [← Keyed.exists_find?_iff, hfind]
    by_cases hnil : values results name metric = []
    · simp [hnil]
    · simp [hnil]
  refine ⟨ordered_groups h, fun metric => ?_, fun metric hmetric => ?_⟩
  · rw [hkeys, values_ne_nil]
  · rw [hfind, if_neg ((hkeys metric).1 hmetric)]

/-- Results of two experiments by turns, one of them with a metric more. -/
def interleaved : List (String × Metrics) :=
  [("a", [("Time", 1.5)]), ("b", [("Time", 7.5)]), ("a", [("States", 12.0), ("Time", 2.5)])]

theorem grouping_is_filtering_interleaved :
    ∃ summaries, (ofResults interleaved).find? "a" = some summaries ∧ summaries.Ordered ∧
      "States" ∈ summaries.keys ∧ "Time" ∈ summaries.keys ∧
      summaries.find? "States" = some (Summary.of [12.0]) ∧
      summaries.find? "Time" = some (Summary.of [1.5, 2.5]) := by
  obtain ⟨-, hnames, hgroups⟩ := grouping_is_filtering interleaved
  have hname : "a" ∈ (ofResults interleaved).keys :=
    (hnames "a").2 ⟨[("Time", 1.5)], List.mem_cons_self⟩
  obtain ⟨summaries, hfind⟩ := Keyed.exists_find?_iff.2 hname
  obtain ⟨hordered, hmetrics, hvalues⟩ := hgroups "a" summaries hfind
  have hresult : ("a", [("States", 12.0), ("Time", 2.5)]) ∈ interleaved := by
    simp [interleaved]
  have hstates : "States" ∈ summaries.keys :=
    (hmetrics "States").2 ⟨_, hresult, by simp [Keyed.keys]⟩
  have htime : "Time" ∈ summaries.keys := (hmetrics "Time").2 ⟨_, hresult, by simp [Keyed.keys]⟩
  exact ⟨summaries, hfind, hordered, hstates, htime, hvalues "States" hstates, hvalues "Time" htime⟩

/-- The aggregate depends on nothing but the results of each experiment by itself. -/
theorem ofResults_congr {results results' : List (String × Metrics)}
    (h : ∀ name, Keyed.under name results = Keyed.under name results') :
    ofResults results = ofResults results' := by
  have hname : ∀ name, name ∈ results.map Prod.fst ↔ name ∈ results'.map Prod.fst := by
    intro name
    simp only [mem_names, ← Keyed.mem_under, h]
  have hvalues : ∀ name metric, values results name metric = values results' name metric :=
    fun name metric => by rw [values, values, h]
  refine (ordered_ofResults results).ext (ordered_ofResults results') fun name => ?_
  by_cases hmem : name ∈ results.map Prod.fst
  · obtain ⟨s, hs⟩ := Keyed.exists_find?_iff.2 (((keys_ofResults results).2 name).2 hmem)
    obtain ⟨s', hs'⟩ :=
      Keyed.exists_find?_iff.2 (((keys_ofResults results').2 name).2 ((hname name).1 hmem))
    have heq : s = s' := (ordered_groups hs).ext (ordered_groups hs') fun metric => by
      rw [find?_of_find? hs, find?_of_find? hs', hvalues]
    rw [hs, hs', heq]
  · have hmem' : name ∉ results'.map Prod.fst := fun hin => hmem ((hname name).2 hin)
    rw [Keyed.find?_eq_none.2 fun hin => hmem (((keys_ofResults results).2 name).1 hin),
      Keyed.find?_eq_none.2 fun hin => hmem' (((keys_ofResults results').2 name).1 hin)]

end Aggregate

/-! ## Section 3: Tallies -/

/-- A name is tallied as often as it stands in the list. -/
theorem find?_tally (names : List String) (name : String) :
    ((tally names).find? name).getD 0 = names.count name := by
  have hfold : ∀ (names : List String) (m : Keyed Nat),
      ((names.foldl (fun m name => m.update name fun n => n.getD 0 + 1) m).find? name).getD 0
        = (m.find? name).getD 0 + names.count name := by
    intro names
    induction names with
    | nil => exact fun _ => rfl
    | cons n names ih =>
      intro m
      rw [List.foldl_cons, ih, List.count_cons]
      by_cases hn : n = name
      · subst hn
        simp
        omega
      · rw [Keyed.find?_update_ne _ _ _ _ (Ne.symm hn)]
        simp [hn]
  have hempty : ((Keyed.find? ([] : Keyed Nat) name).getD 0) = 0 := rfl
  rw [tally, hfold, hempty, Nat.zero_add]

theorem ordered_tally (names : List String) : (tally names).Ordered :=
  (Keyed.keys_foldl_update id (fun _ n => n.getD 0 + 1) names [] Keyed.ordered_nil).1

/-- A tally holds each name of the list once. -/
theorem keys_tally (names : List String) :
    (tally names).keys.Nodup ∧ ∀ name, name ∈ (tally names).keys ↔ name ∈ names := by
  have hfold := Keyed.keys_foldl_update id (fun _ n => n.getD 0 + 1) names [] Keyed.ordered_nil
  refine ⟨(ordered_tally names).nodup, fun name => (hfold.2 name).trans ?_⟩
  simp [Keyed.keys]

/-- The order of the names does not matter to a tally. -/
theorem tally_perm {names names' : List String} (h : names.Perm names') :
    tally names = tally names' := by
  refine (ordered_tally names).ext (ordered_tally names') fun name => ?_
  -- A name that is there is tallied as often in both, and no other one is there.
  have hfind : ∀ names : List String, (tally names).find? name
      = if name ∈ names then some (names.count name) else none := by
    intro names
    by_cases hname : name ∈ names
    · obtain ⟨n, hn⟩ := Keyed.exists_find?_iff.2 (((keys_tally names).2 name).2 hname)
      have hcount := find?_tally names name
      rw [hn, Option.getD_some] at hcount
      rw [hn, if_pos hname, hcount]
    · rw [if_neg hname, Keyed.find?_eq_none, (keys_tally names).2]
      exact hname
  rw [hfind, hfind, h.count_eq]
  simp only [h.mem_iff]

/-- How often the names of a list stand in it, added up over the names. -/
theorem sum_count_names {names distinct : List String} (h : distinct.Nodup)
    (hmem : ∀ name, name ∈ distinct ↔ name ∈ names) :
    (distinct.map fun name => names.count name).sum = names.length := by
  have hperm : distinct.Perm names.dedup := by
    refine (List.perm_ext_iff_of_nodup h names.nodup_dedup).2 fun name => ?_
    rw [hmem, List.mem_dedup]
  rw [(hperm.map _).sum_eq]
  exact List.sum_map_count_dedup_eq_length names

end BenchSweep
