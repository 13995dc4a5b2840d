import BenchSweep.Proofs.Run.Account
import BenchSweep.Proofs.Report.Tables

/-! # Shuffled Experiments

    A sweep shuffles the experiments, and later scans go through them in the new
    order.  In each row this changes the order of what is found.  As names are
    distinct, a row says only one thing of a name, so for each experiment everything
    stays in its own order.  Groups are made of nothing else, and reports of groups. -/

namespace BenchSweep

open Artifact

variable {d : Disk} {outdir : Path} {xs ys : List Descriptor} {budget : UInt64} {k : Nat}

/-- What two scans tell that found the same in a different order: the counts are equal,
    and the entries of each name come in the same order. -/
structure Progress.Shuffled (p q : Progress) : Prop where
  iterations : p.iterations = q.iterations
  notDone : p.notDone = q.notDone
  nextIteration : p.nextIteration = q.nextIteration
  results : p.results.Perm q.results
  timeouts : p.timeouts.Perm q.timeouts
  results_of : ∀ name, Keyed.under name p.results = Keyed.under name q.results
  timeouts_of : ∀ name, Keyed.under name p.timeouts = Keyed.under name q.timeouts

/-! ## Section 1: One row -/

section Row

variable (hperm : ys.Perm xs) (hnames : (xs.map Descriptor.name).Nodup)

include hperm hnames

/-- Only one experiment has a name, so it is the same one in both orders. -/
theorem filter_name_of_perm (name : String) :
    (ys.filter fun x => x.name = name) = xs.filter fun x => x.name = name := by
  have hfilter := hperm.filter fun x => decide (x.name = name)
  have hone : (xs.filter fun x => x.name = name).length ≤ 1 := by
    have hcount := List.nodup_iff_count_le_one.1 hnames name
    rwa [List.count, List.countP_map, List.countP_eq_length_filter] at hcount
  cases hxs : xs.filter fun x => x.name = name with
  | nil =>
    rw [hxs] at hfilter
    exact List.perm_nil.1 hfilter
  | cons x rest =>
    rw [hxs, List.length_cons] at hone
    have hrest : rest = [] := List.length_eq_zero_iff.1 (by omega)
    rw [hxs, hrest] at hfilter
    rw [hrest]
    exact List.perm_singleton.1 hfilter

variable {β : Type} {g : Descriptor → Option (String × β)}

/-- What a row has under a name does not depend on the order of the experiments. -/
theorem under_filterMap_of_perm (hg : ∀ x e, g x = some e → e.1 = x.name) (name : String) :
    Keyed.under name (ys.filterMap g) = Keyed.under name (xs.filterMap g) := by
  have hfilter : ∀ zs : List Descriptor, (zs.filterMap g).filter (fun e => e.1 = name)
      = (zs.filter fun x => x.name = name).filterMap g := by
    intro zs
    rw [List.filter_filterMap, List.filterMap_filter]
    refine List.filterMap_congr fun x _ => ?_
    cases hx : g x with
    | none => simp
    | some e => simp [Option.filter_some, hg x e hx]
  rw [Keyed.under, Keyed.under, hfilter, hfilter, filter_name_of_perm hperm hnames]

end Row

/-! ## Section 2: All rows -/

theorem under_flatMap {α β : Type} (name : String) (l : List α) (f : α → List (String × β)) :
    Keyed.under name (l.flatMap f) = l.flatMap fun a => Keyed.under name (f a) := by
  unfold Keyed.under
  rw [List.filter_flatMap, List.map_flatMap]

namespace Disk

/-- What the rows show does not change but for the order in each row. -/
theorem shuffled_progress (hperm : ys.Perm xs) (hnames : (xs.map Descriptor.name).Nodup)
    (hbelow : ∀ j < k, d.Recorded outdir xs j) (hblank : d.Blank outdir xs k) :
    (d.progress outdir budget xs k).Shuffled (d.progress outdir budget ys k) where
  iterations := iterations_progress.trans iterations_progress.symm
  notDone := by
    rw [notDone_progress fun j hj => (hbelow j hj).1,
      notDone_progress fun j hj => (hbelow j hj).1.perm hperm, blanks, blanks]
    simp only [hperm.countP_eq]
  nextIteration := by
    have hnext : d.NextRow outdir budget xs (d.progress outdir budget xs k).nextIteration :=
      ⟨k, hbelow, hblank, nextIteration_first budget hbelow⟩
    obtain ⟨q, hq, hnext'⟩ := scan_nextIteration_iff.2 (hnext.perm hperm)
    rw [scan_of_blank (fun j hj => (hbelow j hj).perm hperm) (hblank.perm hperm)] at hq
    cases hq
    exact hnext'.symm
  results := by
    rw [results_progress, results_progress]
    exact List.Perm.flatMap_left _ fun i _ => (hperm.filterMap _).symm
  timeouts := by
    rw [timeouts_progress, timeouts_progress]
    exact List.Perm.flatMap_left _ fun i _ => (hperm.filterMap _).symm
  results_of name := by
    simp only [results_progress, under_flatMap,
      under_filterMap_of_perm hperm hnames fun _ _ => completed?_name]
  timeouts_of name := by
    simp only [timeouts_progress, under_flatMap,
      under_filterMap_of_perm hperm hnames fun _ _ => overrun?_name]

/-- A scan of shuffled experiments gets through the same rows. -/
theorem scan_of_perm {p : Progress} (hperm : ys.Perm xs) (hnames : (xs.map Descriptor.name).Nodup)
    (h : d.scan outdir budget xs = .ok p) :
    ∃ q, d.scan outdir budget ys = .ok q ∧ p.Shuffled q := by
  obtain ⟨k, hbelow, hblank, rfl⟩ := scan_ok h
  exact ⟨_, scan_of_blank (fun j hj => (hbelow j hj).perm hperm) (hblank.perm hperm),
    shuffled_progress hperm hnames hbelow hblank⟩

end Disk

/-! ## Section 3: Groups and reports -/

namespace Progress.Shuffled

variable {p q : Progress} (h : p.Shuffled q)

include h

/-- The groups that reports are filled from are the same. -/
theorem measured : p.measured = q.measured := by
  unfold Progress.measured
  rw [Aggregate.ofResults_congr h.results_of, tally_perm (h.timeouts.map Prod.fst)]

end Progress.Shuffled

/-- **Shuffling changes no report.**  Scans of experiments with distinct names in two
    orders both succeed or both fail.  If they succeed, they tell the same counts and
    the same next row, and the same results and timeouts, with those of each experiment
    in the same order.  So the groups are equal, with every mean and variance, and so
    are the numbers of timeouts and the tables of every catalog. -/
theorem shuffling_keeps_reports {xs ys : List Descriptor} (hperm : ys.Perm xs)
    (hnames : (xs.map Descriptor.name).Nodup) (d : Disk) (outdir : Path) (budget : UInt64) :
    ((∃ p, d.scan outdir budget xs = .ok p) ↔ ∃ q, d.scan outdir budget ys = .ok q) ∧
    ∀ p q, d.scan outdir budget xs = .ok p → d.scan outdir budget ys = .ok q →
      p.Shuffled q ∧
      Aggregate.ofResults p.results = Aggregate.ofResults q.results ∧
      tally (p.timeouts.map Prod.fst) = tally (q.timeouts.map Prod.fst) ∧
      ∀ c ds, (analyse c ds p).tables = (analyse c ds q).tables := by
  have hnames' : (ys.map Descriptor.name).Nodup := (hperm.map _).nodup_iff.2 hnames
  refine ⟨⟨?_, ?_⟩, ?_⟩
  · intro h
    obtain ⟨p, hp⟩ := h
    obtain ⟨q, hq, -⟩ := Disk.scan_of_perm hperm hnames hp
    exact ⟨q, hq⟩
  · intro h
    obtain ⟨q, hq⟩ := h
    obtain ⟨p, hp, -⟩ := Disk.scan_of_perm hperm.symm hnames' hq
    exact ⟨p, hp⟩
  · intro p q hp hq
    obtain ⟨q', hq', hshuffled⟩ := Disk.scan_of_perm hperm hnames hp
    obtain rfl := Except.ok.inj (hq'.symm.trans hq)
    have hmeasured := hshuffled.measured
    refine ⟨hshuffled, congrArg Measured.aggregate hmeasured,
      congrArg Measured.timeouts hmeasured, fun c ds => ?_⟩
    rw [analyse_tables, analyse_tables, hmeasured]

theorem shuffling_keeps_reports_swapped :
    ∃ p q, Disk.withStarterRow.scan ⟨"out"⟩ 1200 starterExperiments = .ok p ∧
      Disk.withStarterRow.scan ⟨"out"⟩ 1200 starterExperiments.reverse = .ok q ∧
      p.successful = 1 ∧ p.Shuffled q ∧
      Aggregate.ofResults p.results = Aggregate.ofResults q.results ∧
      tally (p.timeouts.map Prod.fst) = tally (q.timeouts.map Prod.fst) ∧
      (analyse (Catalog.starter "en") starterExperiments p).tables
        = (analyse (Catalog.starter "en") starterExperiments q).tables := by
  obtain ⟨p, hp, hsuccessful⟩ : ∃ p,
      Disk.withStarterRow.scan ⟨"out"⟩ 1200 starterExperiments = .ok p ∧ p.successful = 1 :=
    Disk.exists_scan_ok (by decide +kernel)
  obtain ⟨hscans, hequal⟩ := shuffling_keeps_reports (List.reverse_perm starterExperiments)
    (by decide) Disk.withStarterRow ⟨"out"⟩ 1200
  obtain ⟨q, hq⟩ := hscans.1 ⟨p, hp⟩
  obtain ⟨hshuffled, haggregate, htally, htables⟩ := hequal p q hp hq
  exact ⟨p, q, hp, hq, hsuccessful, hshuffled, haggregate, htally, htables _ _⟩

end BenchSweep
