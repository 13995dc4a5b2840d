import Mathlib.Algebra.GroupWithZero.Nat
import Mathlib.Order.Bounds.Defs
import BenchSweep.Proofs.Run.Rows

/-! # What a Scan Accounts For

    A scan goes from row to row and keeps its books as it goes: what is completed,
    what overran, how many trials are blank, and the first row with work left.
    The row where it ends is on the books as well and is taken off at the end.
    What is left is an account of exactly the rows before. -/

namespace BenchSweep

open Artifact

variable {d : Disk} {outdir : Path} {xs : List Descriptor} {budget : UInt64} {i k n : Nat}

/-! ## Section 1: Accounts -/

namespace Disk

/-- A scan ends at a row with a trial whose status is unknown, or without any
    record. -/
def EndsAt (d : Disk) (outdir : Path) (xs : List Descriptor) (i : Nat) : Prop :=
  (∃ x ∈ xs, ∃ e, d.status x (log outdir x.name i) = .error e) ∨ d.Blank outdir xs i

/-- Why trials of a row have no status, in the order of the experiments. -/
def failures (d : Disk) (outdir : Path) (xs : List Descriptor) (i : Nat) : List StoreError :=
  xs.filterMap fun x =>
    match d.status x (log outdir x.name i) with
    | .error e => some e
    | .ok _ => none

/-- What a completed trial measured, under the experiment's name. -/
def completed? (d : Disk) (outdir : Path) (i : Nat) (x : Descriptor) : Option (String × Metrics) :=
  match d.status x (log outdir x.name i) with
  | .ok (.done _ metrics) => some (x.name, metrics)
  | _ => none

/-- The budget that a trial overran, under the experiment's name. -/
def overrun? (d : Disk) (outdir : Path) (i : Nat) (x : Descriptor) : Option (String × UInt64) :=
  match d.status x (log outdir x.name i) with
  | .ok (.timeout seconds) => some (x.name, RunRecord.heldSeconds seconds)
  | _ => none

/-- Whether a trial has a status, and it is that nothing is recorded. -/
def isBlankAt (d : Disk) (outdir : Path) (i : Nat) (x : Descriptor) : Bool :=
  match d.status x (log outdir x.name i) with
  | .ok .notDone => true
  | _ => false

/-- How many trials of the first rows are blank. -/
def blanks (d : Disk) (outdir : Path) (xs : List Descriptor) (k : Nat) : Nat :=
  ((List.range k).map fun i => xs.countP (d.isBlankAt outdir i)).sum

end Disk

/-- The progress is an account of the rows before the one where the scan ends. -/
structure Progress.Accounts (p : Progress) (d : Disk) (outdir : Path) (budget : UInt64)
    (xs : List Descriptor) (stop : Nat) : Prop where
  iterations : p.iterations = stop
  results : p.results = (List.range stop).flatMap fun i => xs.filterMap (d.completed? outdir i)
  timeouts : p.timeouts = (List.range stop).flatMap fun i => xs.filterMap (d.overrun? outdir i)
  notDone : p.notDone = d.blanks outdir xs stop
  nextIteration : IsLeast {i | d.OpenRow outdir budget xs i} p.nextIteration ∨
    (∀ i, ¬ d.OpenRow outdir budget xs i) ∧ p.nextIteration = stop

namespace Disk

theorem completed?_eq (d : Disk) (outdir : Path) (i : Nat) (x : Descriptor) :
    d.completed? outdir i x = Trial.result? ⟨x, d.recordAt outdir i x⟩ := by
  unfold completed? recordAt Trial.result?
  cases d.status x (log outdir x.name i) with
  | error e => rfl
  | ok r => cases r <;> rfl

theorem overrun?_eq (d : Disk) (outdir : Path) (i : Nat) (x : Descriptor) :
    d.overrun? outdir i x = Trial.timeout? ⟨x, d.recordAt outdir i x⟩ := by
  unfold overrun? recordAt Trial.timeout?
  cases d.status x (log outdir x.name i) with
  | error e => rfl
  | ok r => cases r <;> rfl

theorem isBlankAt_eq {x : Descriptor} {r : RunRecord}
    (h : d.status x (log outdir x.name i) = .ok r) :
    d.isBlankAt outdir i x = Trial.isBlank ⟨x, d.recordAt outdir i x⟩ := by
  rw [recordAt_eq h]
  unfold isBlankAt Trial.isBlank
  rw [h]
  cases r <;> rfl

theorem Legible.countP_isBlankAt (h : d.Legible outdir xs i) :
    xs.countP (d.isBlankAt outdir i)
      = xs.countP fun x => Trial.isBlank ⟨x, d.recordAt outdir i x⟩ := by
  refine List.countP_congr fun x hx => ?_
  obtain ⟨r, hr⟩ := h x hx
  rw [isBlankAt_eq hr]

theorem Blank.countP_isBlankAt (h : d.Blank outdir xs i) :
    xs.countP (d.isBlankAt outdir i) = xs.length := by
  rw [List.countP_eq_length]
  intro x hx
  unfold isBlankAt
  rw [h x hx]

theorem blanks_succ (d : Disk) (outdir : Path) (xs : List Descriptor) (k : Nat) :
    d.blanks outdir xs (k + 1) = d.blanks outdir xs k + xs.countP (d.isBlankAt outdir k) := by
  unfold blanks
  rw [List.range_succ, List.map_append, List.sum_append]
  simp

theorem legible_iff_failures : d.Legible outdir xs i ↔ d.failures outdir xs i = [] := by
  unfold Legible failures
  rw [List.filterMap_eq_nil_iff]
  refine forall_congr' fun x => forall_congr' fun _ => ?_
  cases d.status x (log outdir x.name i) with
  | error e => simp
  | ok r => simp

/-- A scan ends at the rows that are not recorded. -/
theorem endsAt_iff : d.EndsAt outdir xs i ↔ ¬ d.Recorded outdir xs i := by
  have hlegible : d.Legible outdir xs i ↔
      ¬ ∃ x ∈ xs, ∃ e, d.status x (log outdir x.name i) = .error e := by
    constructor
    · intro h hfails
      obtain ⟨x, hx, e, he⟩ := hfails
      obtain ⟨r, hr⟩ := h x hx
      rw [he] at hr
      cases hr
    · intro h x hx
      cases hx' : d.status x (log outdir x.name i) with
      | error e => exact absurd ⟨x, hx, e, hx'⟩ h
      | ok r => exact ⟨r, rfl⟩
  rw [EndsAt, Recorded, hlegible, not_and_or, Classical.not_not, Classical.not_not]

/-- Some row is the first one at which a scan ends. -/
theorem exists_isLeast_endsAt (d : Disk) (outdir : Path) (xs : List Descriptor) :
    ∃ k, IsLeast {i | d.EndsAt outdir xs i} k := by
  obtain ⟨k, hbelow, hk⟩ := exists_unrecorded d outdir xs
  refine ⟨k, endsAt_iff.2 hk, fun i hi => ?_⟩
  by_contra hlt
  exact endsAt_iff.1 hi (hbelow i (Nat.lt_of_not_le hlt))

theorem recorded_of_isLeast (h : IsLeast {i | d.EndsAt outdir xs i} k) :
    ∀ j < k, d.Recorded outdir xs j := by
  intro j hj
  by_contra hrow
  have hle : k ≤ j := h.2 (endsAt_iff.2 hrow)
  omega

/-- Where a scan ends the row is blank, if it can be read. -/
theorem blank_of_isLeast (h : IsLeast {i | d.EndsAt outdir xs i} k) (hk : d.Legible outdir xs k) :
    d.Blank outdir xs k :=
  hk.blank (endsAt_iff.1 h.1)

/-! ## Section 2: The progress of the first rows -/

theorem trialsAt_eq_error {e : StoreError} :
    d.trialsAt outdir xs i = .error e ↔ (d.failures outdir xs i).head? = some e := by
  induction xs with
  | nil => exact ⟨nofun, nofun⟩
  | cons x xs ih =>
    rw [trialsAt_cons, failures, List.filterMap_cons]
    cases hx : d.status x (log outdir x.name i) with
    | error e' =>
      show Except.error e' = _ ↔ some e' = some e
      rw [Except.error.injEq, Option.some.injEq]
    | ok r =>
      show _ ↔ (d.failures outdir xs i).head? = some e
      rw [← ih]
      cases d.trialsAt outdir xs i with
      | error e' => exact Iff.rfl
      | ok line => exact ⟨nofun, nofun⟩

theorem scan_of_failures {e : StoreError} (budget : UInt64) (h : ∀ j < k, d.Recorded outdir xs j)
    (he : (d.failures outdir xs k).head? = some e) : d.scan outdir budget xs = .error e := by
  rw [scan, history_add h, historyFrom, trialsAt_eq_error.2 he]
  rfl

theorem flatten_rows (d : Disk) (outdir : Path) (xs : List Descriptor) (k : Nat) :
    ((List.range k).map (d.row outdir xs)).flatten
      = (List.range k).flatMap fun i => xs.map fun x => ⟨x, d.recordAt outdir i x⟩ :=
  List.flatMap_def.symm

theorem results_progress : (d.progress outdir budget xs k).results
    = (List.range k).flatMap fun i => xs.filterMap (d.completed? outdir i) := by
  show ((List.range k).map (d.row outdir xs)).flatten.filterMap Trial.result? = _
  rw [flatten_rows, List.filterMap_flatMap]
  simp only [List.filterMap_map, completed?_eq, Function.comp_def]

theorem timeouts_progress : (d.progress outdir budget xs k).timeouts
    = (List.range k).flatMap fun i => xs.filterMap (d.overrun? outdir i) := by
  show ((List.range k).map (d.row outdir xs)).flatten.filterMap Trial.timeout? = _
  rw [flatten_rows, List.filterMap_flatMap]
  simp only [List.filterMap_map, overrun?_eq, Function.comp_def]

theorem notDone_progress (h : ∀ j < k, d.Legible outdir xs j) :
    (d.progress outdir budget xs k).notDone = d.blanks outdir xs k := by
  show (((List.range k).map (d.row outdir xs)).flatten.filter Trial.isBlank).length = _
  rw [flatten_rows, ← List.countP_eq_length_filter, List.countP_flatMap, blanks]
  congr 1
  refine List.map_congr_left fun i hi => ?_
  rw [Function.comp_apply, List.countP_map, (h i (List.mem_range.1 hi)).countP_isBlankAt]
  rfl

/-- The next iteration is the first open row, if there is one at all. -/
theorem nextIteration_least (h : ∀ j < k, d.Recorded outdir xs j) (hk : d.Blank outdir xs k) :
    IsLeast {i | d.OpenRow outdir budget xs i} (d.progress outdir budget xs k).nextIteration ∨
      (∀ i, ¬ d.OpenRow outdir budget xs i) ∧
        (d.progress outdir budget xs k).nextIteration = k := by
  have hscan : d.scan outdir budget xs = .ok (d.progress outdir budget xs k) := scan_of_blank h hk
  have hnext := scan_nextIteration_iff.1 ⟨_, hscan, rfl⟩
  generalize (d.progress outdir budget xs k).nextIteration = n at hnext
  by_cases hne : xs = []
  · -- Without experiments every row is blank, so the scan ends at the first one.
    have hzero : ∀ m, (∀ j < m, d.Recorded outdir xs j) → m = 0 := by
      intro m hm
      refine Nat.eq_zero_of_not_pos fun hpos => (hm 0 hpos).2 fun x hx => ?_
      rw [hne] at hx
      cases hx
    obtain ⟨k', hbelow, -, hle, -, -⟩ := hnext
    rw [hzero k' hbelow] at hle
    refine Or.inr ⟨fun i hi => ?_, (Nat.le_zero.1 hle).trans (hzero k h).symm⟩
    obtain ⟨x, hx, -⟩ := hi
    rw [hne] at hx
    cases hx
  · refine Or.inl ⟨hnext.openRow hne, fun i hi => ?_⟩
    obtain ⟨-, -, -, -, hsettled, -⟩ := hnext
    by_contra hlt
    exact (hsettled i (Nat.lt_of_not_le hlt)).not_openRow hi

theorem accounts_progress (h : ∀ j < k, d.Recorded outdir xs j) (hk : d.Blank outdir xs k) :
    (d.progress outdir budget xs k).Accounts d outdir budget xs k where
  iterations := iterations_progress
  results := results_progress
  timeouts := timeouts_progress
  notDone := notDone_progress fun j hj => (h j hj).1
  nextIteration := nextIteration_least h hk

/-- A trial with a status is completed, or overran, or is blank. -/
theorem one_of_three {x : Descriptor} {r : RunRecord}
    (h : d.status x (log outdir x.name i) = .ok r) :
    (if (d.completed? outdir i x).isSome then 1 else 0)
      + (if (d.overrun? outdir i x).isSome then 1 else 0)
      + (if d.isBlankAt outdir i x then 1 else 0) = 1 := by
  unfold completed? overrun? isBlankAt
  rw [h]
  cases r <;> rfl

theorem Legible.partition (h : d.Legible outdir xs i) :
    (xs.filterMap (d.completed? outdir i)).length + (xs.filterMap (d.overrun? outdir i)).length
      + xs.countP (d.isBlankAt outdir i) = xs.length := by
  rw [List.length_filterMap_eq_countP, List.length_filterMap_eq_countP]
  induction xs with
  | nil => rfl
  | cons x xs ih =>
    have hrest := ih fun y hy => h y (List.mem_cons_of_mem x hy)
    obtain ⟨r, hr⟩ := h x List.mem_cons_self
    have hone := one_of_three hr
    rw [List.countP_cons, List.countP_cons, List.countP_cons, List.length_cons]
    omega

/-- Entries that go under the names of their experiments stand there at most once. -/
theorem count_filterMap_names {β : Type} {g : Descriptor → Option (String × β)}
    (hg : ∀ y e, g y = some e → e.1 = y.name) (hxs : (xs.map Descriptor.name).Nodup)
    {x : Descriptor} (hx : x ∈ xs) :
    ((xs.filterMap g).map Prod.fst).count x.name = if (g x).isSome then 1 else 0 := by
  -- The names of the entries are those of the experiments that have one, in order.
  have hnames : (xs.filterMap g).map Prod.fst
      = (xs.filter fun y => (g y).isSome).map Descriptor.name := by
    clear hxs hx
    induction xs with
    | nil => rfl
    | cons y ys ih =>
      rw [List.filterMap_cons, List.filter_cons]
      cases hy : g y with
      | none => simpa using ih
      | some e => simpa [hg y e hy] using ih
  rw [hnames]
  have hnodup : ((xs.filter fun y => (g y).isSome).map Descriptor.name).Nodup :=
    hxs.sublist (List.filter_sublist.map _)
  cases hsome : (g x).isSome with
  | true =>
    refine List.count_eq_one_of_mem hnodup ?_
    exact List.mem_map_of_mem (List.mem_filter.2 ⟨hx, hsome⟩)
  | false =>
    refine List.count_eq_zero_of_not_mem fun hmem => ?_
    obtain ⟨y, hy, hname⟩ := List.mem_map.1 hmem
    obtain ⟨hy, hyg⟩ := List.mem_filter.1 hy
    rw [List.inj_on_of_nodup_map hxs hy hx hname, hsome] at hyg
    cases hyg

theorem completed?_name {e : String × Metrics} {x : Descriptor}
    (h : d.completed? outdir i x = some e) : e.1 = x.name := by
  unfold completed? at h
  split at h
  · cases h
    rfl
  · cases h

theorem overrun?_name {e : String × UInt64} {x : Descriptor}
    (h : d.overrun? outdir i x = some e) : e.1 = x.name := by
  unfold overrun? at h
  split at h
  · cases h
    rfl
  · cases h

end Disk

namespace Progress.Accounts

variable {p : Progress} {stop : Nat} (hp : p.Accounts d outdir budget xs stop)

include hp

/-- No trial of the rows is left out, and none is counted twice. -/
theorem total (h : ∀ j < stop, d.Legible outdir xs j) :
    p.successful + p.timedOut + p.notDone = stop * xs.length := by
  have hrows : ∀ k ≤ stop,
      ((List.range k).flatMap fun i => xs.filterMap (d.completed? outdir i)).length
        + ((List.range k).flatMap fun i => xs.filterMap (d.overrun? outdir i)).length
        + d.blanks outdir xs k = k * xs.length := by
    -- A row more adds all of its trials, each of them to one of the three sums.
    intro k hk
    induction k with
    | zero => simp [Disk.blanks]
    | succ k ih =>
      have hrest := ih (Nat.le_of_succ_le hk)
      have hrow := (h k hk).partition
      rw [List.range_succ, List.flatMap_append, List.flatMap_append, List.flatMap_singleton,
        List.flatMap_singleton, List.length_append, List.length_append, Disk.blanks_succ,
        Nat.succ_mul]
      omega
  rw [Progress.successful, Progress.timedOut, hp.results, hp.timeouts, hp.notDone]
  exact hrows stop (Nat.le_refl stop)

/-- The trials of one experiment are all accounted for. -/
theorem total_of (h : ∀ j < stop, d.Legible outdir xs j) (hxs : (xs.map Descriptor.name).Nodup)
    {x : Descriptor} (hx : x ∈ xs) :
    (p.results.map Prod.fst).count x.name + (p.timeouts.map Prod.fst).count x.name
      + (List.range stop).countP (fun i => d.isBlankAt outdir i x) = stop := by
  have hrows : ∀ k ≤ stop,
      (((List.range k).flatMap fun i => xs.filterMap (d.completed? outdir i)).map Prod.fst).count x.name
        + (((List.range k).flatMap fun i => xs.filterMap (d.overrun? outdir i)).map Prod.fst).count
          x.name
        + (List.range k).countP (fun i => d.isBlankAt outdir i x) = k := by
    -- A row more adds one to one of the three counts: names are distinct, so the
    -- others of the row do not count.
    intro k hk
    induction k with
    | zero => rfl
    | succ k ih =>
      have hrest := ih (Nat.le_of_succ_le hk)
      obtain ⟨r, hr⟩ := h k hk x hx
      have hone := Disk.one_of_three hr
      simp only [List.range_succ, List.flatMap_append, List.flatMap_singleton, List.map_append,
        List.count_append, List.countP_append, List.countP_singleton]
      rw [Disk.count_filterMap_names (fun _ _ => Disk.completed?_name) hxs hx,
        Disk.count_filterMap_names (fun _ _ => Disk.overrun?_name) hxs hx]
      omega
  rw [hp.results, hp.timeouts]
  exact hrows stop (Nat.le_refl stop)

/-- Each result is that of a completed trial. -/
theorem of_mem_results {r : String × Metrics} (hr : r ∈ p.results) :
    ∃ i < stop, ∃ x ∈ xs, r.1 = x.name ∧
      ∃ t, d.status x (log outdir x.name i) = .ok (.done t r.2) := by
  rw [hp.results] at hr
  obtain ⟨i, hi, hrow⟩ := List.mem_flatMap.1 hr
  obtain ⟨x, hx, hresult⟩ := List.mem_filterMap.1 hrow
  refine ⟨i, List.mem_range.1 hi, x, hx, ?_⟩
  unfold Disk.completed? at hresult
  split at hresult
  · rename_i t metrics hdone
    cases hresult
    exact ⟨rfl, t, hdone⟩
  · cases hresult

/-- Each timeout is that of a trial of some experiment. -/
theorem of_mem_timeouts {r : String × UInt64} (hr : r ∈ p.timeouts) : ∃ x ∈ xs, r.1 = x.name := by
  rw [hp.timeouts] at hr
  obtain ⟨i, -, hrow⟩ := List.mem_flatMap.1 hr
  obtain ⟨x, hx, htimeout⟩ := List.mem_filterMap.1 hrow
  exact ⟨x, hx, Disk.overrun?_name htimeout⟩

end Progress.Accounts

/-! ## Section 3: Keeping the books -/

/-- What a scan has on its books while it goes through the rows. -/
structure Ledger where
  results : List (String × Metrics)
  timeouts : List (String × UInt64)
  /-- Blank trials, those of the row where the scan ends among them. -/
  blanks : Nat
  /-- The first row with a pending trial, once one was seen. -/
  next : Option Nat
  /-- Whether nothing is recorded in the row so far. -/
  stop : Bool

namespace Ledger

def empty : Ledger where
  results := []
  timeouts := []
  blanks := 0
  next := none
  stop := true

/-- Books one more trial of a row. -/
def book (budget : UInt64) (i : Nat) (l : Ledger) (t : Trial) : Ledger :=
  let next := if t.isPending budget && l.next.isNone then some i else l.next
  match t.record with
  | .done _ metrics =>
    { l with results := l.results ++ [(t.experiment.name, metrics)], next, stop := false }
  | .timeout seconds =>
    { l with
      timeouts := l.timeouts ++ [(t.experiment.name, RunRecord.heldSeconds seconds)], next
      stop := false }
  | .notDone => { l with blanks := l.blanks + 1, next }

/-- What a trial adds to the books. -/
theorem book_eq (l : Ledger) (t : Trial) :
    l.book budget i t =
      { results := l.results ++ t.result?.toList
        timeouts := l.timeouts ++ t.timeout?.toList
        blanks := l.blanks + if t.isBlank then 1 else 0
        next := l.next.or (if t.isPending budget then some i else none)
        stop := l.stop && t.isBlank } := by
  have hnext : (if (t.isPending budget && l.next.isNone) = true then some i else l.next)
      = l.next.or (if t.isPending budget then some i else none) := by
    cases t.isPending budget <;> cases l.next <;> rfl
  unfold book
  rw [hnext]
  obtain ⟨x, record⟩ := t
  cases record with
  | notDone => simp [Trial.result?, Trial.timeout?, Trial.isBlank, RunRecord.timeoutSecs]
  | done time metrics => simp [Trial.result?, Trial.timeout?, Trial.isBlank, RunRecord.timeoutSecs]
  | timeout seconds => simp [Trial.result?, Trial.timeout?, Trial.isBlank, RunRecord.timeoutSecs]

/-- What the trials of a row add to the books. -/
theorem foldl_book (line : List Trial) (l : Ledger) :
    line.foldl (book budget i) l =
      { results := l.results ++ line.filterMap Trial.result?
        timeouts := l.timeouts ++ line.filterMap Trial.timeout?
        blanks := l.blanks + line.countP Trial.isBlank
        next := l.next.or (if line.any fun t => t.isPending budget then some i else none)
        stop := l.stop && line.all Trial.isBlank } := by
  induction line generalizing l with
  | nil => simp
  | cons t line ih =>
    -- Both sides add the same, one after the other or all at once.
    have hfirst : ∀ {β : Type} (f : Trial → Option β),
        (t :: line).filterMap f = (f t).toList ++ line.filterMap f := by
      intro β f
      rw [List.filterMap_cons]
      cases f t <;> rfl
    have hnext : ∀ a b : Bool, (if a then some i else none).or (if b then some i else none)
        = if a || b then some i else none := by
      intro a b
      cases a <;> cases b <;> rfl
    rw [List.foldl_cons, ih, book_eq, hfirst, hfirst, List.countP_cons, List.any_cons,
      List.all_cons]
    simp only [List.append_assoc, Option.or_assoc, hnext, Bool.and_assoc]
    rw [Nat.add_assoc, Nat.add_comm (if t.isBlank = true then 1 else 0)]

end Ledger

namespace Disk

/-- Books the trials of a row, up to the first one without a status. -/
def bookRow (d : Disk) (outdir : Path) (budget : UInt64) (i : Nat) :
    List Descriptor → Ledger → Except StoreError Ledger
  | [], l => .ok l
  | x :: xs, l => do
    let r ← d.status x (log outdir x.name i)
    d.bookRow outdir budget i xs (l.book budget i ⟨x, r⟩)

/-- A scan that goes on from a row without any bound comes to a result.  It ends
    only if the blank trials of its last row can be taken off the books. -/
inductive ScansFrom (d : Disk) (outdir : Path) (budget : UInt64) (xs : List Descriptor) :
    Nat → Ledger → Except StoreError Progress → Prop where
  /-- Some trial of the row has no status. -/
  | fails {i : Nat} {l : Ledger} {e : StoreError} :
      d.bookRow outdir budget i xs { l with stop := true } = .error e →
      ScansFrom d outdir budget xs i l (.error e)
  /-- Nothing is recorded in the row. -/
  | ends {i notDone : Nat} {l l' : Ledger} :
      d.bookRow outdir budget i xs { l with stop := true } = .ok l' → l'.stop = true →
      l'.blanks = notDone + xs.length →
      ScansFrom d outdir budget xs i l (.ok
        { iterations := i
          notDone
          results := l'.results
          timeouts := l'.timeouts
          nextIteration := l'.next.getD i })
  | goes {i : Nat} {l l' : Ledger} {result : Except StoreError Progress} :
      d.bookRow outdir budget i xs { l with stop := true } = .ok l' → l'.stop = false →
      ScansFrom d outdir budget xs (i + 1) l' result →
      ScansFrom d outdir budget xs i l result

/-- A scan comes to one result only. -/
theorem ScansFrom.unique {l : Ledger} {a b : Except StoreError Progress}
    (ha : d.ScansFrom outdir budget xs i l a) (hb : d.ScansFrom outdir budget xs i l b) :
    a = b := by
  -- A row is booked in one way only, so both scans go on alike after it.
  induction ha with
  | fails hrow =>
    cases hb with
    | fails hrow' => rw [Except.error.inj (hrow.symm.trans hrow')]
    | ends hrow' => cases hrow.symm.trans hrow'
    | goes hrow' => cases hrow.symm.trans hrow'
  | ends hrow hstop hblanks =>
    cases hb with
    | fails hrow' => cases hrow.symm.trans hrow'
    | ends hrow' _ hblanks' =>
      have heq := Except.ok.inj (hrow.symm.trans hrow')
      subst heq
      rw [Nat.add_right_cancel (hblanks.symm.trans hblanks')]
    | goes hrow' hstop' =>
      rw [← Except.ok.inj (hrow.symm.trans hrow'), hstop] at hstop'
      cases hstop'
  | goes hrow hstop _ ih =>
    cases hb with
    | fails hrow' => cases hrow.symm.trans hrow'
    | ends hrow' hstop' =>
      rw [← Except.ok.inj (hrow.symm.trans hrow'), hstop] at hstop'
      cases hstop'
    | goes hrow' _ hrest =>
      rw [← Except.ok.inj (hrow.symm.trans hrow')] at hrest
      exact ih hrest

theorem bookRow_of_failures {e : StoreError} (l : Ledger)
    (he : (d.failures outdir xs i).head? = some e) : d.bookRow outdir budget i xs l = .error e := by
  induction xs generalizing l with
  | nil => cases he
  | cons x xs ih =>
    rw [failures, List.filterMap_cons] at he
    unfold bookRow
    cases hx : d.status x (log outdir x.name i) with
    | error e' =>
      rw [hx] at he
      have hfirst : e' = e := Option.some.inj he
      rw [hfirst]
      rfl
    | ok r =>
      rw [hx] at he
      exact ih _ he

theorem bookRow_of_legible (h : d.Legible outdir xs i) (l : Ledger) :
    d.bookRow outdir budget i xs l = .ok ((d.row outdir xs i).foldl (Ledger.book budget i) l) := by
  induction xs generalizing l with
  | nil => rfl
  | cons x xs ih =>
    obtain ⟨r, hr⟩ := h x List.mem_cons_self
    unfold bookRow
    rw [hr]
    show d.bookRow outdir budget i xs _ = _
    rw [ih fun y hy => h y (List.mem_cons_of_mem x hy), row, row, List.map_cons, List.foldl_cons,
      recordAt_eq hr]

/-- The books when the first rows are through. -/
def ledger (d : Disk) (outdir : Path) (budget : UInt64) (xs : List Descriptor) (k : Nat) :
    Ledger where
  results := (List.range k).flatMap fun i => xs.filterMap (d.completed? outdir i)
  timeouts := (List.range k).flatMap fun i => xs.filterMap (d.overrun? outdir i)
  blanks := d.blanks outdir xs k
  next := (List.range k).find? fun i => (d.row outdir xs i).any fun t => t.isPending budget
  stop := true

/-- One more row on the books. -/
theorem bookRow_ledger (budget : UInt64) (h : d.Legible outdir xs k) :
    d.bookRow outdir budget k xs (d.ledger outdir budget xs k)
      = .ok { d.ledger outdir budget xs (k + 1) with
          stop := (d.row outdir xs k).all Trial.isBlank } := by
  have hresults : (d.row outdir xs k).filterMap Trial.result?
      = xs.filterMap (d.completed? outdir k) := by
    rw [row, List.filterMap_map]
    simp only [Function.comp_def, completed?_eq]
  have htimeouts : (d.row outdir xs k).filterMap Trial.timeout?
      = xs.filterMap (d.overrun? outdir k) := by
    rw [row, List.filterMap_map]
    simp only [Function.comp_def, overrun?_eq]
  have hblanks : (d.row outdir xs k).countP Trial.isBlank = xs.countP (d.isBlankAt outdir k) := by
    rw [h.countP_isBlankAt, row, List.countP_map]
    rfl
  rw [bookRow_of_legible h, Ledger.foldl_book, hresults, htimeouts, hblanks]
  simp only [ledger, List.range_succ, List.flatMap_append, List.flatMap_singleton,
    List.find?_append, List.find?_singleton, Bool.true_and, blanks_succ]

theorem findIdx_range (p : Nat → Bool) (k : Nat) :
    (List.range k).findIdx p = ((List.range k).find? p).getD k := by
  cases hfind : (List.range k).find? p with
  | none =>
    rw [List.findIdx_eq_length_of_false, List.length_range, Option.getD_none]
    intro i hi
    simpa using List.find?_eq_none.1 hfind i hi
  | some i =>
    obtain ⟨hi, hik, hbelow⟩ := List.find?_range_eq_some.1 hfind
    have hlt : i < (List.range k).length := by
      rw [List.length_range]
      exact List.mem_range.1 hik
    rw [Option.getD_some, List.findIdx_eq hlt]
    refine ⟨?_, fun j hj => ?_⟩
    · rw [List.getElem_range]
      exact hi
    · rw [List.getElem_range]
      simpa using hbelow j hj

/-- A blank row adds nothing to the books but its blank trials, and the row itself as
    the next one if there was none. -/
theorem ledger_of_blank (budget : UInt64) (hk : d.Blank outdir xs k) :
    (d.ledger outdir budget xs (k + 1)).results = (d.ledger outdir budget xs k).results ∧
    (d.ledger outdir budget xs (k + 1)).timeouts = (d.ledger outdir budget xs k).timeouts ∧
    (d.ledger outdir budget xs (k + 1)).next.getD k
      = (d.ledger outdir budget xs k).next.getD k := by
  have hresults : xs.filterMap (d.completed? outdir k) = [] := by
    rw [List.filterMap_eq_nil_iff]
    intro x hx
    unfold completed?
    rw [hk x hx]
  have htimeouts : xs.filterMap (d.overrun? outdir k) = [] := by
    rw [List.filterMap_eq_nil_iff]
    intro x hx
    unfold overrun?
    rw [hk x hx]
  refine ⟨?_, ?_, ?_⟩
  · simp [ledger, List.range_succ, hresults]
  · simp [ledger, List.range_succ, htimeouts]
  · show ((List.range (k + 1)).find? _).getD k = ((List.range k).find? _).getD k
    generalize (fun i => (d.row outdir xs i).any fun t => t.isPending budget) = p
    rw [List.range_succ, List.find?_append]
    cases (List.range k).find? p with
    | some i => rfl
    | none => cases hp : p k <;> simp [hp]

/-- When a blank row is taken off the books again, what is left is the progress of
    the rows before. -/
theorem progress_of_ledger (h : ∀ j < k, d.Recorded outdir xs j) (hk : d.Blank outdir xs k) :
    d.progress outdir budget xs k =
      { iterations := k
        notDone := d.blanks outdir xs k
        results := (d.ledger outdir budget xs (k + 1)).results
        timeouts := (d.ledger outdir budget xs (k + 1)).timeouts
        nextIteration := (d.ledger outdir budget xs (k + 1)).next.getD k } := by
  obtain ⟨hresults, htimeouts, hnext⟩ := ledger_of_blank budget hk
  rw [hresults, htimeouts, hnext]
  -- The books of the rows before say the same as their progress, field by field.
  have hiterations : (d.progress outdir budget xs k).iterations = k := iterations_progress
  have hblanks : (d.progress outdir budget xs k).notDone = d.blanks outdir xs k :=
    notDone_progress fun j hj => (h j hj).1
  have hcompleted : (d.progress outdir budget xs k).results
      = (d.ledger outdir budget xs k).results :=
    results_progress
  have hoverran : (d.progress outdir budget xs k).timeouts
      = (d.ledger outdir budget xs k).timeouts :=
    timeouts_progress
  have hfind : (d.progress outdir budget xs k).nextIteration
      = (d.ledger outdir budget xs k).next.getD k := by
    show ((List.range k).map (d.row outdir xs)).findIdx _ = _
    rw [List.findIdx_map, findIdx_range]
    rfl
  rw [← hcompleted, ← hoverran, ← hfind, ← hblanks]
  generalize d.progress outdir budget xs k = p at hiterations ⊢
  exact congrArg (Progress.mk · p.notDone p.results p.timeouts p.nextIteration) hiterations

/-- A scan goes on from the books of some rows to those of the rows before the one
    where it ends. -/
theorem scansFrom_ledger {result : Except StoreError Progress}
    (h : ∀ j < k, d.Recorded outdir xs j)
    (hend : ∀ l, { l with stop := true } = d.ledger outdir budget xs k →
      d.ScansFrom outdir budget xs k l result) (m : Nat) :
    ∀ i, i + m = k → ∀ l : Ledger, { l with stop := true } = d.ledger outdir budget xs i →
      d.ScansFrom outdir budget xs i l result := by
  -- The induction is on the number of rows left.
  induction m with
  | zero =>
    intro i hi l hl
    rw [Nat.add_zero] at hi
    rw [hi] at hl ⊢
    exact hend l hl
  | succ m ih =>
    intro i hi l hl
    have hrow := h i (by omega)
    have hgoes : (d.row outdir xs i).all Trial.isBlank = false := by
      rw [Bool.eq_false_iff]
      intro hall
      exact hrow.2 (hrow.1.blank_iff.1 hall)
    have hbook := bookRow_ledger budget hrow.1
    rw [← hl, hgoes] at hbook
    exact .goes hbook rfl (ih (i + 1) (by omega) _ rfl)

/-- A scan is what keeping the books from the first row on comes to. -/
theorem scansFrom_scan (d : Disk) (outdir : Path) (budget : UInt64) (xs : List Descriptor) :
    d.ScansFrom outdir budget xs 0 .empty (d.scan outdir budget xs) := by
  obtain ⟨k, hk⟩ := exists_isLeast_endsAt d outdir xs
  have hbelow := recorded_of_isLeast hk
  refine scansFrom_ledger hbelow (fun l hl => ?_) k 0 (Nat.zero_add k) .empty rfl
  cases hfail : (d.failures outdir xs k).head? with
  | some e =>
    rw [scan_of_failures budget hbelow hfail]
    exact .fails (bookRow_of_failures _ hfail)
  | none =>
    have hlegible := legible_iff_failures.2 (List.head?_eq_none_iff.1 hfail)
    have hblank := blank_of_isLeast hk hlegible
    have hbook := bookRow_ledger budget hlegible
    rw [← hl, hlegible.blank_iff.2 hblank] at hbook
    rw [scan_of_blank hbelow hblank, progress_of_ledger hbelow hblank]
    refine .ends hbook rfl ?_
    show d.blanks outdir xs (k + 1) = _
    rw [blanks_succ, hblank.countP_isBlankAt]

end Disk

/-- **The scan is an account.**  Let the first row with a trial whose status is
    unknown, or without any record, be the one where a scan ends.  The scan keeps
    its books row after row until there; it fails with the first error of that row
    if there is one, and otherwise it accounts for the rows before. -/
theorem scan_accounts (d : Disk) (outdir : Path) (budget : UInt64) (xs : List Descriptor) :
    (∀ result, d.ScansFrom outdir budget xs 0 .empty result ↔
      result = d.scan outdir budget xs) ∧
    ∃ stop, IsLeast {i | d.EndsAt outdir xs i} stop ∧
      match (d.failures outdir xs stop).head? with
      | some e => d.scan outdir budget xs = .error e
      | none => ∃ p, d.scan outdir budget xs = .ok p ∧ p.Accounts d outdir budget xs stop := by
  have hscan := Disk.scansFrom_scan d outdir budget xs
  constructor
  · intro result
    constructor
    · intro hresult
      exact hresult.unique hscan
    · intro hresult
      rw [hresult]
      exact hscan
  · obtain ⟨stop, hstop⟩ := Disk.exists_isLeast_endsAt d outdir xs
    refine ⟨stop, hstop, ?_⟩
    have hbelow := Disk.recorded_of_isLeast hstop
    cases hfail : (d.failures outdir xs stop).head? with
    | some e => exact Disk.scan_of_failures budget hbelow hfail
    | none =>
      have hlegible := Disk.legible_iff_failures.2 (List.head?_eq_none_iff.1 hfail)
      have hblank := Disk.blank_of_isLeast hstop hlegible
      exact ⟨_, Disk.scan_of_blank hbelow hblank, Disk.accounts_progress hbelow hblank⟩

end BenchSweep
