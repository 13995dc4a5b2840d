import Mathlib.Data.List.Forall2
import BenchSweep.Proofs.Experiment.Accepted
import BenchSweep.Proofs.Run.Settled
import BenchSweep.Proofs.Run.Rows
import BenchSweep.Proofs.Stats.Grouping
import BenchSweep.Report.Analysis

/-! # Tables Tell What the Logs Say

    Between the logs and a table stand the scan, the grouping of its results, the
    columns of the family and the search for the experiment of a place.  A cell
    still shows what the logs of one experiment say, of those that have the
    place. -/

namespace BenchSweep

open Artifact

/-! ## Section 1: What logs say of an experiment -/

/-- The value of a metric, if the run is completed and reports it. -/
def RunRecord.metric? (metric : String) : RunRecord → Option Float
  | done _ metrics => metrics.find? metric
  | _ => none

/-- Whether the last attempt overran a budget. -/
def RunRecord.overran : RunRecord → Bool
  | timeout _ => true
  | _ => false

/-- What is measured of a completed trial has distinct names, and a time is among
    them. -/
theorem Disk.metrics_of_done {d : Disk} {x : Descriptor} {log : Path} {t : Float} {m : Metrics}
    (h : d.status x log = .ok (.done t m)) : m.keys.Nodup ∧ m.find? timeKey = some t := by
  obtain ⟨content, -, hproof⟩ := status_eq_done_iff.1 h
  obtain ⟨metrics, hread, hm⟩ := Option.bind_eq_some_iff.1 hproof
  obtain ⟨time, htime, hdone⟩ := Option.map_eq_some_iff.1 hm
  cases hdone
  exact ⟨LogFormat.nodup_keys_read hread, htime⟩

/-- The logs and markers of experiments up to a row. -/
structure Logs where
  disk : Disk
  outdir : Path
  experiments : List Descriptor
  /-- The row where a scan stops. -/
  stop : Nat

namespace Logs

/-- The values of a metric that the completed runs of an experiment report, row
    after row. -/
def values (l : Logs) (metric : String) (x : Descriptor) : List Float :=
  (List.range l.stop).filterMap fun i => (l.disk.recordAt l.outdir i x).metric? metric

/-- In how many rows the experiment overran its budget. -/
def overruns (l : Logs) (x : Descriptor) : Nat :=
  (List.range l.stop).countP fun i => (l.disk.recordAt l.outdir i x).overran

/-- The mean of a metric, if any completed run of the experiment reports it. -/
def mean (l : Logs) (metric : String) (x : Descriptor) : Option Float :=
  (Summary.of (l.values metric x)).mean

/-- The experiment of a name. -/
def named? (l : Logs) (name : String) : Option Descriptor :=
  l.experiments.find? fun x => x.name == name

/-- The cell of an experiment in the table of a metric. -/
def cell (l : Logs) (metric : String) (x : Descriptor) : Cell where
  value := Summary.of (l.values metric x)
  timeouts := l.overruns x

/-- The cell of a phase of an experiment. -/
def phaseCell (l : Logs) (phase : String) (x : Descriptor) : PhaseCell where
  mean := l.mean phase x
  percent := (ratio (l.mean phase x) (l.mean timeKey x)).map fun r => 100.0 * r

/-- What a scan at a budget finds in the logs. -/
def progress (l : Logs) (budget : UInt64) : Progress :=
  l.disk.progress l.outdir budget l.experiments l.stop

end Logs

/-! ## Section 2: From the logs to the groups -/

section Grouping

variable {l : Logs} {budget : UInt64} {x : Descriptor}

/-- Of experiments with distinct names only one answers to a name. -/
theorem filterMap_named {β : Type} {xs : List Descriptor} (h : (xs.map Descriptor.name).Nodup)
    (name : String) (g : Descriptor → Option β) :
    xs.filterMap (fun x => if x.name = name then g x else none)
      = ((xs.find? fun x => x.name == name).bind g).toList := by
  induction xs with
  | nil => rfl
  | cons x xs ih =>
    obtain ⟨hnew, hrest⟩ := List.nodup_cons.1 h
    rw [List.filterMap_cons, List.find?_cons, ih hrest]
    by_cases hx : x.name = name
    · -- No later experiment has the name again.
      have hnone : (xs.find? fun y => y.name == name) = none := by
        rw [List.find?_eq_none]
        intro y hy hname
        apply hnew
        rw [hx, ← beq_iff_eq.1 hname]
        exact List.mem_map_of_mem hy
      rw [hnone, if_pos hx, beq_iff_eq.2 hx]
      cases hg : g x <;> simp [hg]
    · rw [if_neg hx, beq_eq_false_iff_ne.2 hx]

/-- What the rows say of a name is what they say of the experiment of that name. -/
theorem filterMap_rows {β : Type} (h : (l.experiments.map Descriptor.name).Nodup) (name : String)
    (g : RunRecord → Option β) :
    (((List.range l.stop).map (l.disk.row l.outdir l.experiments)).flatten.filterMap fun t =>
        if t.experiment.name = name then g t.record else none)
      = (List.range l.stop).filterMap fun i =>
        (l.named? name).bind fun x => g (l.disk.recordAt l.outdir i x) := by
  rw [List.filterMap_flatten, List.map_map, List.filterMap_eq_flatMap_toList, List.flatMap_def]
  congr 1
  refine List.map_congr_left fun i _ => ?_
  rw [Function.comp_apply, Disk.row, List.filterMap_map]
  exact filterMap_named h name fun x => g (l.disk.recordAt l.outdir i x)

theorem Logs.of_named? {name : String} (h : l.named? name = some x) :
    x ∈ l.experiments ∧ x.name = name := by
  unfold named? at h
  exact ⟨List.mem_of_find?_eq_some h, by simpa using List.find?_some h⟩

theorem Logs.named?_of_mem (h : (l.experiments.map Descriptor.name).Nodup) (hx : x ∈ l.experiments) :
    l.named? x.name = some x := by
  cases hnamed : l.named? x.name with
  | none =>
    have hne := List.find?_eq_none.1 hnamed x hx
    exact absurd (beq_self_eq_true x.name) hne
  | some y =>
    obtain ⟨hy, hname⟩ := Logs.of_named? hnamed
    rw [List.inj_on_of_nodup_map h hy hx hname]

/-- The results of a name are the values of the experiment of that name. -/
theorem filterMap_results (h : (l.experiments.map Descriptor.name).Nodup) (name metric : String) :
    (l.progress budget).results.filterMap (Aggregate.reported name metric)
      = ((l.named? name).map (l.values metric)).getD [] := by
  have hreported : ∀ t : Trial, t.result?.bind (Aggregate.reported name metric)
      = if t.experiment.name = name then t.record.metric? metric else none := by
    intro t
    unfold Trial.result?
    cases t.record with
    | notDone => simp [RunRecord.metric?]
    | timeout s => simp [RunRecord.metric?]
    | done time metrics => rfl
  show ((((List.range l.stop).map (l.disk.row l.outdir l.experiments)).flatten.filterMap
    Trial.result?).filterMap _) = _
  rw [List.filterMap_filterMap]
  simp only [hreported]
  rw [filterMap_rows h]
  cases l.named? name with
  | none => simp
  | some x => rfl

/-- A name is among the timeouts as often as the experiment of that name overran. -/
theorem count_timeouts (h : (l.experiments.map Descriptor.name).Nodup) (hx : x ∈ l.experiments) :
    ((l.progress budget).timeouts.map Prod.fst).count x.name = l.overruns x := by
  have hname : ∀ t : Trial, ((t.timeout?.map Prod.fst).filter fun name => name == x.name)
      = if t.experiment.name = x.name then t.record.timeoutSecs.map fun _ => x.name else none := by
    intro t
    unfold Trial.timeout?
    cases t.record.timeoutSecs with
    | none => simp
    | some s =>
      by_cases ht : t.experiment.name = x.name
      · simp [ht]
      · simp [ht]
  have hoverran : ∀ r : RunRecord, (r.timeoutSecs.map fun _ => x.name).isSome = r.overran := by
    intro r
    cases r <;> rfl
  show ((((List.range l.stop).map (l.disk.row l.outdir l.experiments)).flatten.filterMap
    Trial.timeout?).map Prod.fst).count x.name = _
  rw [List.count_eq_length_filter, List.map_filterMap, List.filter_filterMap]
  simp only [hname]
  rw [filterMap_rows h x.name fun r => r.timeoutSecs.map fun _ => x.name, Logs.named?_of_mem h hx,
    List.length_filterMap_eq_countP]
  simp only [Option.bind_some, hoverran]
  rfl

/-- No result of a scan reports a metric twice. -/
theorem nodup_keys_results : ∀ r ∈ (l.progress budget).results, r.2.keys.Nodup := by
  intro r hr
  obtain ⟨t, ht, hresult⟩ := List.mem_filterMap.1 hr
  obtain ⟨row, hrow, ht⟩ := List.mem_flatten.1 ht
  obtain ⟨i, -, rfl⟩ := List.mem_map.1 hrow
  obtain ⟨x, -, rfl⟩ := List.mem_map.1 ht
  cases hrecord : l.disk.recordAt l.outdir i x with
  | notDone => simp [Trial.result?, hrecord] at hresult
  | timeout s => simp [Trial.result?, hrecord] at hresult
  | done time metrics =>
    -- A record of a completed run comes from a log.
    have hstatus : l.disk.status x (log l.outdir x.name i) = .ok (.done time metrics) := by
      unfold Disk.recordAt at hrecord
      split at hrecord
      · rename_i r hr
        rw [hr, hrecord]
      · cases hrecord
    simp only [Trial.result?, hrecord, Option.some.injEq] at hresult
    rw [← hresult]
    exact (Disk.metrics_of_done hstatus).1

end Grouping

/-! ## Section 3: From the groups to the cells -/

/-- The groups that the tables of a progress are filled from. -/
def Progress.measured (p : Progress) : Measured where
  aggregate := .ofResults p.results
  timeouts := tally (p.timeouts.map Prod.fst)

theorem analyse_tables (c : Catalog) (xs : List Descriptor) (p : Progress) :
    (analyse c xs p).tables = c.families.flatMap fun f => f.metrics.map (p.measured.table xs f) :=
  rfl

section Cells

variable {l : Logs} {budget : UInt64} {x : Descriptor}
  (h : (l.experiments.map Descriptor.name).Nodup)

include h

/-- A mean is that of the experiment of the name. -/
theorem mean?_measured (name metric : String) :
    (l.progress budget).measured.aggregate.mean? name metric
      = (l.named? name).bind (l.mean metric) := by
  show (Aggregate.ofResults (l.progress budget).results).mean? name metric = _
  rw [Aggregate.mean?_ofResults nodup_keys_results, filterMap_results h]
  cases l.named? name with
  | none => rfl
  | some x => rfl

theorem cell_measured (hx : x ∈ l.experiments) (metric : String) :
    (l.progress budget).measured.cell metric x.name = l.cell metric x := by
  have hvalue : (((Aggregate.ofResults (l.progress budget).results).summary? x.name metric).getD
      (Summary.of [])) = Summary.of (l.values metric x) := by
    rw [Aggregate.summary?_ofResults nodup_keys_results, filterMap_results h, Logs.named?_of_mem h hx,
      Option.map_some, Option.getD_some]
    split
    · rename_i hnil
      rw [hnil]
      rfl
    · rfl
  have htimeouts : ((tally ((l.progress budget).timeouts.map Prod.fst)).find? x.name).getD 0
      = l.overruns x := by
    rw [find?_tally, count_timeouts h hx]
  unfold Measured.cell Logs.cell
  rw [← hvalue, ← htimeouts]
  rfl

theorem phaseCell_measured (hx : x ∈ l.experiments) (phase : String) :
    (l.progress budget).measured.phaseCell phase x.name = l.phaseCell phase x := by
  unfold Measured.phaseCell Logs.phaseCell
  rw [mean?_measured h, mean?_measured h, Logs.named?_of_mem h hx]
  rfl

end Cells

/-! ## Section 4: The experiment of a place -/

/-- The first experiment of a place. -/
def experimentAt? (xs : List Descriptor) (family model column : String) : Option Descriptor :=
  xs.find? fun x => x.origin == some { family, model, column }

theorem of_experimentAt? {xs : List Descriptor} {x : Descriptor} {family model column : String}
    (h : experimentAt? xs family model column = some x) :
    x ∈ xs ∧ x.origin = some { family, model, column } := by
  unfold experimentAt? at h
  exact ⟨List.mem_of_find?_eq_some h, by simpa using List.find?_some h⟩

theorem members_eq (family : String) (xs : List Descriptor) :
    members family xs = xs.filterMap fun x =>
      (x.origin.filter fun o => o.family == family).map fun o => (x.name, o) := by
  refine List.filterMap_congr fun x _ => ?_
  cases x.origin with
  | none => rfl
  | some o => by_cases hfamily : o.family = family <;> simp [hfamily, Option.filter_some]

theorem mem_members {xs : List Descriptor} {family : String} {m : String × Origin} :
    m ∈ members family xs ↔
      ∃ x ∈ xs, x.origin = some m.2 ∧ m.2.family = family ∧ x.name = m.1 := by
  simp only [members_eq, List.mem_filterMap, Option.map_eq_some_iff, Option.filter_eq_some_iff,
    beq_iff_eq]
  constructor
  · rintro ⟨x, hx, o, ⟨horigin, hfamily⟩, rfl⟩
    exact ⟨x, hx, horigin, hfamily, rfl⟩
  · rintro ⟨x, hx, horigin, hfamily, hname⟩
    exact ⟨x, hx, m.2, ⟨horigin, hfamily⟩, by rw [hname]⟩

/-- What a place of a table is filled with belongs to the first experiment of the
    place. -/
theorem memberAt?_members (xs : List Descriptor) (family model column : String) :
    memberAt? (members family xs) model column
      = (experimentAt? xs family model column).map Descriptor.name := by
  have hplace : ∀ x : Descriptor, (((x.origin.filter fun o => o.family == family).map fun o =>
      (x.name, o)).any fun m => m.2.model == model && m.2.column == column)
        = (x.origin == some { family, model, column }) := by
    intro x
    rw [Bool.eq_iff_iff]
    cases x.origin with
    | none => simp
    | some o =>
      obtain ⟨f, m, col⟩ := o
      by_cases hf : f = family <;> simp [hf, Option.filter_some]
  rw [memberAt?, members_eq, List.find?_filterMap, experimentAt?]
  simp only [hplace]
  cases hfind : xs.find? fun x => x.origin == some { family, model, column } with
  | none => rfl
  | some x => simp [(of_experimentAt? hfind).2, Option.filter_some]

theorem mem_columnsOf {xs : List Descriptor} {family column : String} :
    column ∈ columnsOf (members family xs) ↔
      ∃ x ∈ xs, ∃ model, x.origin = some { family, model, column } := by
  rw [columnsOf, List.mem_eraseDups, List.mem_map]
  constructor
  · rintro ⟨⟨name, o⟩, hm, rfl⟩
    obtain ⟨x, hx, horigin, rfl, -⟩ := mem_members.1 hm
    exact ⟨x, hx, o.model, horigin⟩
  · rintro ⟨x, hx, model, horigin⟩
    exact ⟨(x.name, { family, model, column }), mem_members.2 ⟨x, hx, horigin, rfl, rfl⟩, rfl⟩

theorem nodup_eraseDups (names : List String) : names.eraseDups.Nodup := by
  -- The names behind the first one are those that differ from it, so they are fewer.
  induction hlen : names.length using Nat.strong_induction_on generalizing names with
  | _ n ih =>
    cases names with
    | nil => simp
    | cons name names =>
      rw [List.eraseDups_cons, List.nodup_cons]
      constructor
      · simp [List.mem_eraseDups]
      · refine ih _ ?_ _ rfl
        have := List.length_filter_le (fun b => !b == name) names
        rw [List.length_cons] at hlen
        omega

theorem nodup_columnsOf (ms : List (String × Origin)) : (columnsOf ms).Nodup :=
  nodup_eraseDups _

/-! ## Section 5: Tables -/

/-- What a place of a table is filled from: an experiment of the place, or nothing
    if there is none. -/
def Logs.FillsAt (l : Logs) (family model column : String) : Option Descriptor → Prop
  | some x => x ∈ l.experiments ∧ x.origin = some { family, model, column }
  | none => ∀ x ∈ l.experiments, x.origin ≠ some { family, model, column }

/-- The row of a model tells what the logs say. -/
structure Row.Tells (r : Row) (l : Logs) (t : FamilyTable) (f : Family) (m : Model) : Prop where
  model : r.model = m.name
  states : r.states = m.states
  blocks : r.blocks = m.blocks
  /-- The phases of a place are those of the experiment that its cell shows. -/
  cells : ∃ shown : List (Option Descriptor),
    List.Forall₂ (l.FillsAt f.name m.name) t.columns shown ∧
    r.cells = shown.map (Option.map (l.cell t.metric)) ∧
    r.phases = t.phases.map fun phase => shown.map (Option.map (l.phaseCell phase))
  speedups : List.Forall₂ (fun s quotient => ∃ top bottom,
      Template.speedupName s.numerator m = .ok top ∧
      Template.speedupName s.denominator m = .ok bottom ∧
      quotient = ratio ((l.named? top).bind (l.mean t.metric))
        ((l.named? bottom).bind (l.mean t.metric)))
    f.speedups r.speedups

/-- A table of a family tells what the logs say. -/
structure FamilyTable.Tells (t : FamilyTable) (l : Logs) (f : Family) : Prop where
  family : t.family = f.name
  columns : ∀ column, column ∈ t.columns ↔
    ∃ x ∈ l.experiments, ∃ model, x.origin = some { family := f.name, model, column }
  columns_nodup : t.columns.Nodup
  speedups : t.speedups = f.speedups.map Speedup.label
  phases : t.phases = if t.metric = timeKey then f.phases else []
  rows : ∃ models : List Model, models.Perm f.models ∧
    models.Pairwise (fun a b => a.name ≤ b.name) ∧
    List.Forall₂ (fun m r => Row.Tells r l t f m) models t.rows

section Tables

variable {l : Logs} {budget : UInt64} {f : Family}

theorem fillsAt_experimentAt? (family model column : String) :
    l.FillsAt family model column (experimentAt? l.experiments family model column) := by
  cases hat : experimentAt? l.experiments family model column with
  | none =>
    intro x hx horigin
    have hne := List.find?_eq_none.1 hat x hx
    exact hne (beq_iff_eq.2 horigin)
  | some x => exact of_experimentAt? hat

/-- A row tells what the logs say if the speedups of the family have names. -/
theorem row_tells (h : (l.experiments.map Descriptor.name).Nodup) {m : Model}
    (hspeedups : ∀ s ∈ f.speedups, ∃ top bottom,
      Template.speedupName s.numerator m = .ok top ∧
      Template.speedupName s.denominator m = .ok bottom) (metric : String) :
    ((l.progress budget).measured.row f metric (members f.name l.experiments)
      (columnsOf (members f.name l.experiments)) m).Tells l
      ((l.progress budget).measured.table l.experiments f metric) f m where
  model := rfl
  states := rfl
  blocks := rfl
  cells := by
    -- An experiment that is shown is one of the catalog, so its name finds its groups.
    have hfill : ∀ {α : Type} (g : String → α) (g' : Descriptor → α),
        (∀ x ∈ l.experiments, g x.name = g' x) → ∀ column,
          (memberAt? (members f.name l.experiments) m.name column).map g
            = (experimentAt? l.experiments f.name m.name column).map g' := by
      intro α g g' hg column
      rw [memberAt?_members]
      cases hat : experimentAt? l.experiments f.name m.name column with
      | none => rfl
      | some x => exact congrArg some (hg x (of_experimentAt? hat).1)
    refine ⟨(columnsOf (members f.name l.experiments)).map
      (experimentAt? l.experiments f.name m.name), ?_, ?_, ?_⟩
    · show List.Forall₂ _ (columnsOf (members f.name l.experiments)) _
      rw [List.forall₂_map_right_iff, List.forall₂_same]
      exact fun column _ => fillsAt_experimentAt? f.name m.name column
    · simp only [Measured.row, List.map_map]
      refine List.map_congr_left fun column _ => ?_
      exact hfill _ _ (fun x hx => cell_measured h hx metric) column
    · simp only [Measured.row, Measured.table, List.map_map]
      refine List.map_congr_left fun phase _ => List.map_congr_left fun column _ => ?_
      exact hfill _ _ (fun x hx => phaseCell_measured h hx phase) column
  speedups := by
    show List.Forall₂ _ f.speedups (f.speedups.map _)
    rw [List.forall₂_map_right_iff, List.forall₂_same]
    intro s hs
    obtain ⟨top, bottom, htop, hbottom⟩ := hspeedups s hs
    refine ⟨top, bottom, htop, hbottom, ?_⟩
    unfold Measured.speedup
    rw [htop, hbottom]
    show ratio _ _ = _
    rw [mean?_measured h, mean?_measured h]
    rfl

/-- A table tells what the logs say if the speedups have names for all models. -/
theorem table_tells (h : (l.experiments.map Descriptor.name).Nodup)
    (hspeedups : ∀ s ∈ f.speedups, ∀ m ∈ f.models, ∃ top bottom,
      Template.speedupName s.numerator m = .ok top ∧
      Template.speedupName s.denominator m = .ok bottom) (metric : String) :
    ((l.progress budget).measured.table l.experiments f metric).Tells l f where
  family := rfl
  columns := fun _ => mem_columnsOf
  columns_nodup := nodup_columnsOf _
  speedups := rfl
  phases := rfl
  rows := by
    have hperm : f.sortedModels.Perm f.models := List.mergeSort_perm _ _
    refine ⟨f.sortedModels, hperm, ?_, ?_⟩
    · have htrans : ∀ a b c : Model, decide (a.name ≤ b.name) = true →
          decide (b.name ≤ c.name) = true → decide (a.name ≤ c.name) = true := by
        simp only [decide_eq_true_eq]
        exact fun a b c => String.le_trans
      have htotal : ∀ a b : Model, (decide (a.name ≤ b.name) || decide (b.name ≤ a.name)) = true := by
        simp only [Bool.or_eq_true, decide_eq_true_eq]
        exact fun a b => String.le_total a.name b.name
      exact (List.pairwise_mergeSort htrans htotal f.models).imp of_decide_eq_true
    · show List.Forall₂ _ f.sortedModels (f.sortedModels.map _)
      rw [List.forall₂_map_right_iff, List.forall₂_same]
      intro m hm
      exact row_tells h (fun s hs => hspeedups s hs m (hperm.mem_iff.1 hm)) metric

end Tables

/-- The tables of a scan: one for each family and each of its metrics, in the order
    of the catalog, filled from the logs before the row where the scan stopped. -/
theorem tables_tell_logs {env : Shell.Environment} {c : Catalog} {xs : List Descriptor} {d : Disk}
    {outdir : Path} {budget : UInt64} {p : Progress} (h : c.descriptors env = .ok xs)
    (hscan : d.scan outdir budget xs = .ok p) :
    (∀ i < p.iterations, d.Recorded outdir xs i) ∧ d.Blank outdir xs p.iterations ∧
      List.Forall₂ (fun place t => t.metric = place.2 ∧
          t.Tells ⟨d, outdir, xs, p.iterations⟩ place.1)
        (c.families.flatMap fun f => f.metrics.map fun metric => (f, metric))
        (analyse c xs p).tables := by
  obtain ⟨groups, haccepted⟩ := Catalog.accepted h
  obtain ⟨k, hrecorded, hblank, rfl⟩ := Disk.scan_ok hscan
  rw [Disk.iterations_progress]
  refine ⟨hrecorded, hblank, ?_⟩
  have htables : (analyse c xs (d.progress outdir budget xs k)).tables
      = (c.families.flatMap fun f => f.metrics.map fun metric => (f, metric)).map fun place =>
        (Logs.progress ⟨d, outdir, xs, k⟩ budget).measured.table xs place.1 place.2 := by
    rw [analyse_tables, List.map_flatMap]
    simp only [List.map_map]
    rfl
  rw [htables, List.forall₂_map_right_iff, List.forall₂_same]
  rintro ⟨f, metric⟩ hplace
  obtain ⟨f', hf, hmetric⟩ := List.mem_flatMap.1 hplace
  obtain ⟨metric', -, hpair⟩ := List.mem_map.1 hmetric
  cases hpair
  obtain ⟨own, -, hown⟩ := haccepted.family hf
  refine ⟨rfl, table_tells (l := ⟨d, outdir, xs, k⟩) haccepted.distinct ?_ metric⟩
  exact fun s hs m hm => hown.speedupNames hs hm

/-- The first row of a new project: one experiment is measured, and the other one
    overran its budget. -/
def Disk.withStarterRow : Disk where
  here := []
  nodes := [
    (["kanban01-s-1-0", "out"],
      .file "Time for computing the bisimulation relation: 2\nTime for partition refinement: 1".toUTF8),
    (["kanban01-s-4-0.timeout", "out"], .file "1200".toUTF8),
    (["out"], .dir)]

theorem tables_tell_logs_starter :
    ∃ p, Disk.withStarterRow.scan ⟨"out"⟩ 1200 starterExperiments = .ok p ∧ p.iterations = 1 ∧
      List.Forall₂ (fun f t => t.metric = timeKey ∧
          t.Tells ⟨.withStarterRow, ⟨"out"⟩, starterExperiments, 1⟩ f)
        (Catalog.starter "en").families
        (analyse (Catalog.starter "en") starterExperiments p).tables := by
  have hone : (Disk.withStarterRow.scan ⟨"out"⟩ 1200 starterExperiments).toOption.map
      Progress.iterations = some 1 := by decide +kernel
  obtain ⟨p, hp, hiterations⟩ := Option.map_eq_some_iff.1 hone
  have hscan : Disk.withStarterRow.scan ⟨"out"⟩ 1200 starterExperiments = .ok p := by
    cases hscan : Disk.withStarterRow.scan ⟨"out"⟩ 1200 starterExperiments with
    | error e => rw [hscan] at hp; cases hp
    | ok q => rw [hscan] at hp; cases hp; rfl
  have hplaces : ((Catalog.starter "en").families.flatMap fun f =>
      f.metrics.map fun metric => (f, metric))
        = (Catalog.starter "en").families.map fun f => (f, timeKey) := rfl
  obtain ⟨-, -, htables⟩ := tables_tell_logs descriptors_starter hscan
  rw [hplaces, List.forall₂_map_left_iff, hiterations] at htables
  exact ⟨p, hscan, hiterations, htables⟩

end BenchSweep
