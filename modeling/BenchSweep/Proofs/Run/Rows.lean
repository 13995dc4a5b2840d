import Mathlib.Data.List.Nodup
import Mathlib.Data.List.Perm.Basic
import Mathlib.Data.Nat.Find
import BenchSweep.Proofs.Disk.Directory
import BenchSweep.Proofs.Run.Names
import BenchSweep.Run.Scan

/-! # Rows of a Scan

    A row holds the trials of all experiments at one iteration.  A scan reads
    row after row and stops at the first one without a record.  Each row before
    it has a file, and no two rows share one, so the scan gets there before it
    has read more rows than the disk has files. -/

namespace BenchSweep

open Artifact

variable {d : Disk} {outdir : Path} {xs : List Descriptor} {budget : UInt64} {i j k n : Nat}

/-! ## Section 1: Rows -/

namespace Disk

/-- What is known of a trial whose files can be read. -/
def recordAt (d : Disk) (outdir : Path) (i : Nat) (x : Descriptor) : RunRecord :=
  match d.status x (log outdir x.name i) with
  | .ok r => r
  | .error _ => .notDone

/-- The row of an iteration. -/
def row (d : Disk) (outdir : Path) (xs : List Descriptor) (i : Nat) : List Trial :=
  xs.map fun x => ⟨x, d.recordAt outdir i x⟩

/-- Every trial of the row has a status. -/
def Legible (d : Disk) (outdir : Path) (xs : List Descriptor) (i : Nat) : Prop :=
  ∀ x ∈ xs, ∃ r, d.status x (log outdir x.name i) = .ok r

/-- No trial of the row has a record. -/
def Blank (d : Disk) (outdir : Path) (xs : List Descriptor) (i : Nat) : Prop :=
  ∀ x ∈ xs, d.status x (log outdir x.name i) = .ok .notDone

/-- The row can be read and some trial of it has a record. -/
def Recorded (d : Disk) (outdir : Path) (xs : List Descriptor) (i : Nat) : Prop :=
  d.Legible outdir xs i ∧ ¬ d.Blank outdir xs i

theorem recordAt_eq {x : Descriptor} {r : RunRecord}
    (h : d.status x (log outdir x.name i) = .ok r) : d.recordAt outdir i x = r := by
  unfold recordAt
  simp only [h]

theorem Blank.legible (h : d.Blank outdir xs i) : d.Legible outdir xs i :=
  fun x hx => ⟨.notDone, h x hx⟩

theorem Legible.blank_iff (h : d.Legible outdir xs i) :
    (d.row outdir xs i).all Trial.isBlank = true ↔ d.Blank outdir xs i := by
  rw [row, List.all_map, List.all_eq_true]
  refine forall_congr' fun x => forall_congr' fun hx => ?_
  obtain ⟨r, hr⟩ := h x hx
  rw [hr, Function.comp_apply, Trial.isBlank, recordAt_eq hr, decide_eq_true_eq, Except.ok.injEq]

section Shuffled

variable {ys : List Descriptor} (hperm : ys.Perm xs)

include hperm

theorem Legible.perm (h : d.Legible outdir xs i) : d.Legible outdir ys i :=
  fun x hx => h x (hperm.mem_iff.1 hx)

theorem Blank.perm (h : d.Blank outdir xs i) : d.Blank outdir ys i :=
  fun x hx => h x (hperm.mem_iff.1 hx)

theorem Recorded.perm (h : d.Recorded outdir xs i) : d.Recorded outdir ys i :=
  ⟨h.1.perm hperm, fun hblank => h.2 (hblank.perm hperm.symm)⟩

end Shuffled

theorem trialsAt_cons (x : Descriptor) (xs : List Descriptor) :
    d.trialsAt outdir (x :: xs) i = (do
      let r ← d.status x (log outdir x.name i)
      let rest ← d.trialsAt outdir xs i
      return ⟨x, r⟩ :: rest) := by
  unfold trialsAt
  rw [List.mapM_cons]
  cases d.status x (log outdir x.name i) <;> rfl

theorem trialsAt_of_legible (h : d.Legible outdir xs i) :
    d.trialsAt outdir xs i = .ok (d.row outdir xs i) := by
  induction xs with
  | nil => rfl
  | cons x xs ih =>
    obtain ⟨r, hr⟩ := h x List.mem_cons_self
    rw [trialsAt_cons, hr, ih fun y hy => h y (List.mem_cons_of_mem x hy), row, row, List.map_cons,
      recordAt_eq hr]
    rfl

/-- A row that cannot be read has a trial whose status is an error. -/
theorem trialsAt_of_not_legible (h : ¬ d.Legible outdir xs i) :
    ∃ e, d.trialsAt outdir xs i = .error e ∧
      ∃ x ∈ xs, d.status x (log outdir x.name i) = .error e := by
  induction xs with
  | nil => exact absurd (fun _ hx => nomatch hx) h
  | cons x xs ih =>
    rw [trialsAt_cons]
    cases hx : d.status x (log outdir x.name i) with
    | error e => exact ⟨e, rfl, x, List.mem_cons_self, hx⟩
    | ok r =>
      have hxs : ¬ d.Legible outdir xs i := by
        intro hall
        apply h
        intro y hy
        rcases List.mem_cons.1 hy with rfl | hy
        · exact ⟨r, hx⟩
        · exact hall y hy
      obtain ⟨e, he, y, hy, hye⟩ := ih hxs
      refine ⟨e, ?_, y, List.mem_cons_of_mem x hy, hye⟩
      rw [he]
      rfl

/-! ## Section 2: Rows and files -/

/-- The places of the logs and markers of some experiments, at any iteration, that
    hold a file. -/
def recordFiles (d : Disk) (outdir : Path) (xs : List Descriptor) : Set Location :=
  {l | ∃ x ∈ xs, ∃ i k content, k ≠ .aside ∧ d.read (path outdir x.name i k) = .ok content ∧
    l = (path outdir x.name i k).locate d.here}

/-- A trial with a record has a log or a marker. -/
theorem file_of_status {x : Descriptor} {r : RunRecord}
    (h : d.status x (log outdir x.name i) = .ok r) (hr : r ≠ .notDone) :
    ∃ k content, k ≠ .aside ∧ d.read (path outdir x.name i k) = .ok content := by
  -- A text that was read comes from a file.
  have hfile : ∀ p c, content? d p = .ok (some c) → ∃ content, d.read p = .ok content := by
    intro p c hc
    unfold content? readText? at hc
    cases hread : d.read p with
    | ok content => exact ⟨content, rfl⟩
    | error e =>
      rw [hread] at hc
      cases e <;> cases hc
  unfold status at h
  cases hlog : content? d (log outdir x.name i) with
  | error e => rw [hlog] at h; cases h
  | ok c =>
    cases c with
    | some c =>
      obtain ⟨content, hcontent⟩ := hfile _ c hlog
      exact ⟨.log, content, by decide, by rw [path_log]; exact hcontent⟩
    | none =>
      cases hmarker : content? d (marker (log outdir x.name i)) with
      | error e => simp [hlog, hmarker, proof?, bind, Except.bind] at h
      | ok c' =>
        simp only [hlog, hmarker, proof?, bind, Except.bind, Option.bind_none] at h
        cases c' with
        | none => exact absurd (Except.ok.inj h).symm hr
        | some c' =>
          obtain ⟨content, hcontent⟩ := hfile _ c' hmarker
          exact ⟨.marker, content, by decide, by rw [path_marker]; exact hcontent⟩

theorem mem_nodes_of_node? {l : Location} {content : ByteArray}
    (h : d.node? l = some (.file content)) : l ∈ d.nodes.map Prod.fst := by
  have hroot : l ≠ [] := by
    rintro rfl
    cases h
  rw [node?_eq _ hroot, List.lookup_eq_some_iff] at h
  obtain ⟨front, back, hnodes, -⟩ := h
  rw [hnodes]
  simp

theorem mem_nodes_of_recordFiles {l : Location} (h : l ∈ d.recordFiles outdir xs) :
    l ∈ d.nodes.map Prod.fst := by
  obtain ⟨x, -, i, k, content, -, hread, rfl⟩ := h
  exact mem_nodes_of_node? (node?_of_read hread)

/-- Rows with a record have a log or a marker each, at different places. -/
theorem exists_places {rows : List Nat} (hnodup : rows.Nodup)
    (h : ∀ j ∈ rows, d.Recorded outdir xs j) :
    ∃ places : List Location, places.Nodup ∧ places.length = rows.length ∧
      ∀ l ∈ places, l ∈ d.recordFiles outdir xs := by
  have hplace : ∀ j ∈ rows, ∃ l ∈ d.recordFiles outdir xs,
      ∃ e kind, l = (path outdir e j kind).locate d.here := by
    intro j hj
    obtain ⟨hlegible, hblank⟩ := h j hj
    obtain ⟨x, hx⟩ := not_forall.1 hblank
    obtain ⟨hx, hne⟩ := Classical.not_imp.1 hx
    obtain ⟨r, hr⟩ := hlegible x hx
    have hr' : r ≠ .notDone := fun heq => hne (by rw [hr, heq])
    obtain ⟨kind, content, hkind, hread⟩ := file_of_status hr hr'
    exact ⟨_, ⟨x, hx, j, kind, content, hkind, hread, rfl⟩, x.name, kind, rfl⟩
  -- Different rows have files at different places, as the place tells the iteration.
  choose! place hmem hplace using hplace
  refine ⟨rows.map place, ?_, List.length_map place, ?_⟩
  · refine List.Nodup.map_on ?_ hnodup
    intro a ha b hb hab
    obtain ⟨e, kind, hea⟩ := hplace a ha
    obtain ⟨f, kind', hfb⟩ := hplace b hb
    rw [hea, hfb] at hab
    exact iteration_of_locate hab
  · intro l hl
    obtain ⟨j, hj, rfl⟩ := List.mem_map.1 hl
    exact hmem j hj

/-- There are no more rows with a record than files. -/
theorem length_le_size {rows : List Nat} (hnodup : rows.Nodup)
    (h : ∀ j ∈ rows, d.Recorded outdir xs j) : rows.length ≤ d.size := by
  obtain ⟨places, hplaces, hlength, hfiles⟩ := exists_places hnodup h
  have hsub : places ⊆ d.nodes.map Prod.fst := fun l hl => mem_nodes_of_recordFiles (hfiles l hl)
  have hle := (List.subperm_of_subset hplaces hsub).length_le
  rwa [hlength, List.length_map] at hle

theorem rows_le_size (h : ∀ j < k, d.Recorded outdir xs j) : k ≤ d.size := by
  have hle := length_le_size List.nodup_range fun j hj => h j (List.mem_range.1 hj)
  rwa [List.length_range] at hle

/-! ## Section 3: Where a scan stops -/

theorem historyFrom_of_recorded (h : d.Recorded outdir xs i) :
    d.historyFrom outdir xs (n + 1) i
      = (d.historyFrom outdir xs n (i + 1)).map (d.row outdir xs i :: ·) := by
  have hrow : ¬ (d.row outdir xs i).all Trial.isBlank = true := fun hall => h.2 (h.1.blank_iff.1 hall)
  rw [historyFrom, trialsAt_of_legible h.1]
  simp only [bind, Except.bind, if_neg hrow]
  cases d.historyFrom outdir xs n (i + 1) <;> rfl

theorem historyFrom_of_blank (h : d.Blank outdir xs i) :
    d.historyFrom outdir xs (n + 1) i = .ok [] := by
  have hrow : (d.row outdir xs i).all Trial.isBlank = true := h.legible.blank_iff.2 h
  rw [historyFrom, trialsAt_of_legible h.legible]
  simp only [bind, Except.bind, if_pos hrow]
  rfl

/-- A scan gets through the rows with a record. -/
theorem historyFrom_add (h : ∀ j, i ≤ j → j < i + k → d.Recorded outdir xs j) :
    d.historyFrom outdir xs (k + n) i
      = (d.historyFrom outdir xs n (i + k)).map ((List.range' i k).map (d.row outdir xs) ++ ·) := by
  induction k generalizing i with
  | zero =>
    rw [Nat.zero_add, Nat.add_zero]
    cases d.historyFrom outdir xs n i <;> rfl
  | succ k ih =>
    -- The induction is on the rows left, so the hypothesis begins one row further up.
    have hrest : ∀ j, i + 1 ≤ j → j < i + 1 + k → d.Recorded outdir xs j :=
      fun j hj hk => h j (by omega) (by omega)
    rw [Nat.add_right_comm, historyFrom_of_recorded (h i (Nat.le_refl i) (by omega)), ih hrest,
      Nat.add_assoc, Nat.add_comm 1 k]
    cases d.historyFrom outdir xs n (i + (k + 1)) <;> rfl

theorem history_add (h : ∀ j < k, d.Recorded outdir xs j) :
    d.history outdir xs
      = (d.historyFrom outdir xs (d.size - k + 1) k).map ((List.range k).map (d.row outdir xs) ++ ·) := by
  have hk : d.size + 1 = k + (d.size - k + 1) := by
    have := rows_le_size h
    omega
  rw [history, hk, historyFrom_add fun j _ hj => h j (by omega), Nat.zero_add, List.range_eq_range']

/-- The progress that the first rows show. -/
def progress (d : Disk) (outdir : Path) (budget : UInt64) (xs : List Descriptor) (k : Nat) :
    Progress :=
  .ofHistory budget ((List.range k).map (d.row outdir xs))

/-- A scan shows the rows before the first blank one. -/
theorem scan_of_blank (h : ∀ j < k, d.Recorded outdir xs j) (hk : d.Blank outdir xs k) :
    d.scan outdir budget xs = .ok (d.progress outdir budget xs k) := by
  rw [scan, history_add h, historyFrom_of_blank hk]
  simp only [Except.map, List.append_nil]
  rfl

/-- A scan fails at the first row that cannot be read if no blank one comes
    before it. -/
theorem scan_of_not_legible (budget : UInt64) (h : ∀ j < k, d.Recorded outdir xs j)
    (hk : ¬ d.Legible outdir xs k) :
    ∃ e, d.scan outdir budget xs = .error e ∧
      ∃ x ∈ xs, d.status x (log outdir x.name k) = .error e := by
  obtain ⟨e, he, hx⟩ := trialsAt_of_not_legible hk
  refine ⟨e, ?_, hx⟩
  rw [scan, history_add h, historyFrom, he]
  rfl

/-- Some row is the first one that is not recorded. -/
theorem exists_unrecorded (d : Disk) (outdir : Path) (xs : List Descriptor) :
    ∃ k, (∀ j < k, d.Recorded outdir xs j) ∧ ¬ d.Recorded outdir xs k := by
  have hstop : ∃ k, ¬ d.Recorded outdir xs k := by
    by_contra hall
    -- Otherwise there would be more rows with a record than files.
    have hall' : ∀ j < d.size + 1, d.Recorded outdir xs j :=
      fun j _ => Classical.not_not.1 fun hj => hall ⟨j, hj⟩
    have := rows_le_size hall'
    omega
  classical
  exact ⟨Nat.find hstop, fun j hj => Classical.not_not.1 (Nat.find_min hstop hj),
    Nat.find_spec hstop⟩

theorem Legible.blank (h : d.Legible outdir xs i) (hrow : ¬ d.Recorded outdir xs i) :
    d.Blank outdir xs i :=
  Classical.not_not.1 fun hblank => hrow ⟨h, hblank⟩

/-- A scan that succeeds stops at a blank row behind rows with a record. -/
theorem scan_ok {p : Progress} (h : d.scan outdir budget xs = .ok p) :
    ∃ k, (∀ j < k, d.Recorded outdir xs j) ∧ d.Blank outdir xs k ∧
      p = d.progress outdir budget xs k := by
  obtain ⟨k, hbelow, hk⟩ := exists_unrecorded d outdir xs
  by_cases hlegible : d.Legible outdir xs k
  · rw [scan_of_blank hbelow (hlegible.blank hk)] at h
    exact ⟨k, hbelow, hlegible.blank hk, (Except.ok.inj h).symm⟩
  · obtain ⟨e, he, -⟩ := scan_of_not_legible budget hbelow hlegible
    rw [he] at h
    cases h

/-- A scan of which something was evaluated has succeeded. -/
theorem exists_scan_ok {α : Type} {f : Progress → α} {a : α}
    (h : (d.scan outdir budget xs).toOption.map f = some a) :
    ∃ p, d.scan outdir budget xs = .ok p ∧ f p = a := by
  cases hscan : d.scan outdir budget xs with
  | error e =>
    rw [hscan] at h
    cases h
  | ok p =>
    rw [hscan] at h
    exact ⟨p, rfl, Option.some.inj h⟩

/-! ## Section 4: What a scan shows -/

/-- Every trial of the row has an outcome that is final at the budget. -/
def SettledRow (d : Disk) (outdir : Path) (budget : UInt64) (xs : List Descriptor) (i : Nat) :
    Prop :=
  ∀ x ∈ xs, ∃ r, d.status x (log outdir x.name i) = .ok r ∧ r.isPending budget = false

/-- Some trial of the row is pending at the budget. -/
def OpenRow (d : Disk) (outdir : Path) (budget : UInt64) (xs : List Descriptor) (i : Nat) :
    Prop :=
  ∃ x ∈ xs, ∃ r, d.status x (log outdir x.name i) = .ok r ∧ r.isPending budget = true

/-- A row that can be read is settled or open. -/
theorem Legible.openRow (h : d.Legible outdir xs i) (hrow : ¬ d.SettledRow outdir budget xs i) :
    d.OpenRow outdir budget xs i := by
  refine Classical.byContradiction fun hopen => hrow fun x hx => ?_
  obtain ⟨r, hr⟩ := h x hx
  refine ⟨r, hr, ?_⟩
  cases hpending : r.isPending budget with
  | false => rfl
  | true => exact absurd ⟨x, hx, r, hr, hpending⟩ hopen

theorem SettledRow.not_openRow (h : d.SettledRow outdir budget xs i) :
    ¬ d.OpenRow outdir budget xs i := by
  intro hopen
  obtain ⟨x, hx, r, hr, hpending⟩ := hopen
  obtain ⟨r', hr', hsettled⟩ := h x hx
  rw [hr] at hr'
  rw [← Except.ok.inj hr', hpending] at hsettled
  cases hsettled

theorem SettledRow.any_isPending (h : d.SettledRow outdir budget xs i) :
    ((d.row outdir xs i).any fun t => t.isPending budget) = false := by
  rw [row, List.any_map, List.any_eq_false]
  intro x hx
  obtain ⟨r, hr, hpending⟩ := h x hx
  rw [Function.comp_apply, Trial.isPending, recordAt_eq hr, hpending]
  exact Bool.false_ne_true

theorem OpenRow.any_isPending (h : d.OpenRow outdir budget xs i) :
    ((d.row outdir xs i).any fun t => t.isPending budget) = true := by
  obtain ⟨x, hx, r, hr, hpending⟩ := h
  rw [row, List.any_map, List.any_eq_true]
  refine ⟨x, hx, ?_⟩
  rw [Function.comp_apply, Trial.isPending, recordAt_eq hr, hpending]

theorem SettledRow.recorded (hne : xs ≠ []) (h : d.SettledRow outdir budget xs i) :
    d.Recorded outdir xs i := by
  refine ⟨fun x hx => (h x hx).imp fun r hr => hr.1, fun hblank => ?_⟩
  obtain ⟨x, hx⟩ := List.exists_mem_of_ne_nil xs hne
  obtain ⟨r, hr, hpending⟩ := h x hx
  rw [hblank x hx] at hr
  cases hr
  cases hpending

theorem iterations_progress : (d.progress outdir budget xs k).iterations = k := by
  show ((List.range k).map _).length = k
  rw [List.length_map, List.length_range]

/-- The next iteration is that of the first open row, or the one behind all rows
    if they are settled. -/
theorem nextIteration_progress (hle : n ≤ k) (hbelow : ∀ j < n, d.SettledRow outdir budget xs j)
    (hopen : n < k → d.OpenRow outdir budget xs n) :
    (d.progress outdir budget xs k).nextIteration = n := by
  show ((List.range k).map _).findIdx _ = n
  rw [List.findIdx_map]
  rcases Nat.lt_or_eq_of_le hle with hlt | rfl
  · rw [List.findIdx_eq (by rw [List.length_range]; exact hlt)]
    refine ⟨?_, fun j hj => ?_⟩
    · rw [List.getElem_range]
      exact (hopen hlt).any_isPending
    · rw [List.getElem_range]
      exact (hbelow j hj).any_isPending
  · have hlen : (List.range n).findIdx
        ((fun line => line.any fun t => t.isPending budget) ∘ d.row outdir xs)
          = (List.range n).length := by
      refine List.findIdx_eq_length_of_false fun j hj => ?_
      exact (hbelow j (List.mem_range.1 hj)).any_isPending
    rw [hlen, List.length_range]

/-- The rows before the next iteration are settled, and it is open if it is one of the
    rows. -/
theorem nextIteration_first (budget : UInt64) (h : ∀ j < k, d.Recorded outdir xs j) :
    (d.progress outdir budget xs k).nextIteration ≤ k ∧
      (∀ j < (d.progress outdir budget xs k).nextIteration, d.SettledRow outdir budget xs j) ∧
      ((d.progress outdir budget xs k).nextIteration < k →
        d.OpenRow outdir budget xs (d.progress outdir budget xs k).nextIteration) := by
  -- The first row that is not settled, or the one behind them if all are.
  have hstop : ∃ m, m = k ∨ ¬ d.SettledRow outdir budget xs m := ⟨k, Or.inl rfl⟩
  classical
  have hm := Nat.find_spec hstop
  have hle : Nat.find hstop ≤ k := Nat.find_min' hstop (Or.inl rfl)
  have hsettled : ∀ j < Nat.find hstop, d.SettledRow outdir budget xs j := fun j hj =>
    Classical.not_not.1 fun hrow => Nat.find_min hstop hj (Or.inr hrow)
  generalize Nat.find hstop = m at hm hle hsettled
  have hopen : m < k → d.OpenRow outdir budget xs m := fun hlt =>
    (h m hlt).1.openRow (hm.resolve_left (Nat.ne_of_lt hlt))
  rw [nextIteration_progress hle hsettled hopen]
  exact ⟨hle, hsettled, hopen⟩

/-- Every completed run in the rows is among the results. -/
theorem mem_results_progress {x : Descriptor} (hx : x ∈ xs) (hi : i < k) {t : Float}
    {m : Metrics} (hdone : d.status x (log outdir x.name i) = .ok (.done t m)) :
    (x.name, m) ∈ (d.progress outdir budget xs k).results := by
  show (x.name, m) ∈ (((List.range k).map (d.row outdir xs)).flatten.filterMap Trial.result?)
  refine List.mem_filterMap.2 ⟨⟨x, .done t m⟩, ?_, rfl⟩
  refine List.mem_flatten.2 ⟨d.row outdir xs i, ?_, ?_⟩
  · exact List.mem_map.2 ⟨i, List.mem_range.2 hi, rfl⟩
  · exact List.mem_map.2 ⟨x, hx, by rw [recordAt_eq hdone]⟩

/-! ## Section 5: The next row -/

/-- The row that a sweep works on: the first open one of those with a record, or
    the blank one behind them. -/
def NextRow (d : Disk) (outdir : Path) (budget : UInt64) (xs : List Descriptor) (n : Nat) : Prop :=
  ∃ k, (∀ j < k, d.Recorded outdir xs j) ∧ d.Blank outdir xs k ∧ n ≤ k ∧
    (∀ j < n, d.SettledRow outdir budget xs j) ∧ (n < k → d.OpenRow outdir budget xs n)

/-- A scan that succeeds chooses the next row. -/
theorem scan_nextIteration_iff : (∃ p, d.scan outdir budget xs = .ok p ∧ p.nextIteration = n) ↔
    d.NextRow outdir budget xs n := by
  constructor
  · rintro ⟨p, hscan, rfl⟩
    obtain ⟨k, hbelow, hblank, rfl⟩ := scan_ok hscan
    exact ⟨k, hbelow, hblank, nextIteration_first budget hbelow⟩
  · rintro ⟨k, hbelow, hblank, hle, hsettled, hopen⟩
    exact ⟨_, scan_of_blank hbelow hblank, nextIteration_progress hle hsettled hopen⟩

/-- Behind settled rows a blank one is next. -/
theorem nextRow_of_blank (hne : xs ≠ []) (hbelow : ∀ j < n, d.SettledRow outdir budget xs j)
    (hblank : d.Blank outdir xs n) : d.NextRow outdir budget xs n :=
  ⟨n, fun j hj => (hbelow j hj).recorded hne, hblank, Nat.le_refl n, hbelow, fun hlt =>
    absurd hlt (Nat.lt_irrefl n)⟩

theorem NextRow.legible (h : d.NextRow outdir budget xs n) : d.Legible outdir xs n := by
  obtain ⟨k, hbelow, hblank, hle, -, -⟩ := h
  rcases Nat.lt_or_eq_of_le hle with hlt | rfl
  · exact (hbelow n hlt).1
  · exact hblank.legible

/-- The next row has work left. -/
theorem NextRow.openRow (hne : xs ≠ []) (h : d.NextRow outdir budget xs n) :
    d.OpenRow outdir budget xs n := by
  obtain ⟨k, -, hblank, hle, -, hopen⟩ := h
  rcases Nat.lt_or_eq_of_le hle with hlt | rfl
  · exact hopen hlt
  -- In a blank row every trial is pending.
  · obtain ⟨x, hx⟩ := List.exists_mem_of_ne_nil xs hne
    exact ⟨x, hx, .notDone, hblank x hx, rfl⟩

/-- The order of the experiments does not matter. -/
theorem NextRow.perm {ys : List Descriptor} (h : d.NextRow outdir budget xs n)
    (hperm : ys.Perm xs) : d.NextRow outdir budget ys n := by
  obtain ⟨k, hbelow, hblank, hle, hsettled, hopen⟩ := h
  refine ⟨k, fun j hj => (hbelow j hj).perm hperm, hblank.perm hperm, hle,
    fun j hj x hx => hsettled j hj x (hperm.mem_iff.1 hx), fun hlt => ?_⟩
  obtain ⟨x, hx, hpending⟩ := hopen hlt
  exact ⟨x, hperm.mem_iff.2 hx, hpending⟩

end Disk

end BenchSweep
