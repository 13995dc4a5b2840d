import BenchSweep.Proofs.Run.Settled
import BenchSweep.Proofs.Run.Rows

/-! # Dense Rows

    Sweeps that begin in an empty directory fill row after row: the rows below
    some iteration are settled and nothing is recorded above it.  This holds as
    long as a row that is settled at the budget of a sweep stays settled at all
    budgets to come.  The scan stops at that iteration or right behind it, and
    chooses it for the next sweep. -/

namespace BenchSweep

open Artifact Act

/-! ## Section 1: The invariant -/

namespace Disk

/-- The directory is open and holds nothing. -/
structure Vacant (d : Disk) (outdir : Path) : Prop where
  opens : d.Opens outdir
  empty : ∀ s, d.held? outdir s = none

/-- A disk with nothing but an output directory. -/
def emptyOut : Disk where
  here := []
  nodes := [(["out"], .dir)]

theorem vacant_emptyOut : emptyOut.Vacant ⟨"out"⟩ where
  opens := ⟨rfl, rfl⟩
  empty s := by
    have hplace : Path.locate ⟨"out"⟩ emptyOut.here = ["out"] := rfl
    rw [held?, hplace, node?_eq _ (List.cons_ne_nil _ _), List.lookup_eq_none_iff]
    intro e he
    rw [List.mem_singleton.1 he]
    exact bne_iff_ne.2 fun heq => List.cons_ne_nil _ _ (List.cons.inj heq).2

/-- The rows below an iteration are settled at all budgets ahead, nothing is
    recorded above it, and the markers hold budgets that were seen. -/
structure Dense (outdir : Path) (xs : List Descriptor) (seen ahead : UInt64 → Prop) (n : Nat)
    (d : Disk) : Prop where
  opens : d.Opens outdir
  settled : ∀ b, ahead b → ∀ i < n, d.SettledRow outdir b xs i
  logs : ∀ x ∈ xs, ∀ i, d.held? outdir (fileName x.name i .log) ≠ some .dir
  markers : ∀ x ∈ xs, ∀ i, d.held? outdir (fileName x.name i .marker) = none ∨
    ∃ s, seen s ∧ d.held? outdir (fileName x.name i .marker) = some (.file (budgetText s))
  above : ∀ x ∈ xs, ∀ i, n < i → ∀ k, k ≠ .aside → d.held? outdir (fileName x.name i k) = none

/-- A row that is settled at a budget behind the seen ones is settled at all
    budgets ahead. -/
def Steadies (seen ahead : UInt64 → Prop) (budget : UInt64) : Prop :=
  ∀ s, seen s → budget ≤ RunRecord.heldSeconds s → ∀ c, ahead c → c ≤ RunRecord.heldSeconds s

/-- At a single budget every settled row stays settled. -/
theorem steadies_self (budget : UInt64) : Steadies (· = budget) (· = budget) budget := by
  rintro s rfl hs c rfl
  exact hs

/-- The status of a trial cannot be read because the system refuses the path of
    one of its files. -/
def Refused (d : Disk) (outdir : Path) (x : Descriptor) (i : Nat) (e : StoreError) : Prop :=
  d.status x (log outdir x.name i) = .error e ∧
    ∃ k io, k ≠ .aside ∧ (path outdir x.name i k).refusal? = some io ∧
      e = .unreadable (path outdir x.name i k) io

variable {d d' : Disk} {outdir : Path} {xs : List Descriptor} {x y : Descriptor}
  {seen ahead : UInt64 → Prop} {budget : UInt64} {i n : Nat}

theorem Vacant.dense (h : d.Vacant outdir) : d.Dense outdir xs seen ahead 0 where
  opens := h.opens
  settled _ _ _ hi := absurd hi (Nat.not_lt_zero _)
  logs _ _ _ := by
    rw [h.empty]
    exact nofun
  markers _ _ _ := Or.inl (h.empty _)
  above _ _ _ _ _ _ := h.empty _

namespace Dense

/-- With more budgets seen and fewer ahead the rows are still dense. -/
theorem mono {seen' ahead' : UInt64 → Prop} (h : d.Dense outdir xs seen ahead n)
    (hseen : ∀ s, seen s → seen' s) (hahead : ∀ b, ahead' b → ahead b) :
    d.Dense outdir xs seen' ahead' n where
  opens := h.opens
  settled b hb := h.settled b (hahead b hb)
  logs := h.logs
  markers x hx i := (h.markers x hx i).imp id fun ⟨s, hs, hheld⟩ => ⟨s, hseen s hs, hheld⟩
  above := h.above

/-- The order of the experiments does not matter. -/
theorem perm {ys : List Descriptor} (h : d.Dense outdir xs seen ahead n) (hperm : ys.Perm xs) :
    d.Dense outdir ys seen ahead n where
  opens := h.opens
  settled b hb i hi x hx := h.settled b hb i hi x (hperm.mem_iff.1 hx)
  logs x hx := h.logs x (hperm.mem_iff.1 hx)
  markers x hx := h.markers x (hperm.mem_iff.1 hx)
  above x hx := h.above x (hperm.mem_iff.1 hx)

/-- Every trial has a status unless the system refuses a path of it. -/
theorem status_cases (h : d.Dense outdir xs seen ahead n) (hxs : Apart xs) (hx : x ∈ xs) (i : Nat) :
    (∃ e, d.Refused outdir x i e) ∨
    (∃ t m, d.status x (log outdir x.name i) = .ok (.done t m)) ∨
    d.status x (log outdir x.name i) = .ok .notDone ∨
    ∃ s, seen s ∧ d.status x (log outdir x.name i) = .ok (.timeout s) := by
  have hmarker := h.markers x hx i
  rcases h.opens.status_cases (hxs.no_slash x hx) (h.logs x hx i)
      (hmarker.imp id fun ⟨s, _, hs⟩ => ⟨s, hs⟩) with
    ⟨k, e, hk, hr, hstatus⟩ | ⟨-, hdone⟩ | ⟨-, hblank⟩ | ⟨s, hheld, hs⟩
  · exact Or.inl ⟨_, hstatus, k, e, hk, hr, rfl⟩
  · exact Or.inr (Or.inl hdone)
  · exact Or.inr (Or.inr (Or.inl hblank))
  · rcases hmarker with hnone | ⟨s', hs', hheld'⟩
    · rw [hnone] at hheld
      cases hheld
    · refine Or.inr (Or.inr (Or.inr ⟨s, ?_, hs⟩))
      rw [hheld'] at hheld
      have htext : budgetText s' = budgetText s := FileNode.file.inj (Option.some.inj hheld)
      have hread := budgetOf?_budgetText s'
      rw [htext, budgetOf?_budgetText] at hread
      rw [Option.some.inj hread]
      exact hs'

/-- A trial above the rows has no record. -/
theorem status_above (h : d.Dense outdir xs seen ahead n) (hxs : Apart xs) (hx : x ∈ xs)
    (hi : n < i) :
    (∃ e, d.Refused outdir x i e) ∨ d.status x (log outdir x.name i) = .ok .notDone := by
  have hlog := h.above x hx i hi .log nofun
  have hmarker := h.above x hx i hi .marker nofun
  rcases h.opens.status_cases (hxs.no_slash x hx) (h.logs x hx i) (Or.inl hmarker) with
    ⟨k, e, hk, hr, hstatus⟩ | ⟨hheld, -⟩ | ⟨-, hblank⟩ | ⟨s, hheld, -⟩
  · exact Or.inl ⟨_, hstatus, k, e, hk, hr, rfl⟩
  · exact absurd hlog hheld
  · exact Or.inr hblank
  · rw [hmarker] at hheld
    cases hheld

/-- Once its last row is settled the rows are dense one further up. -/
theorem advance (h : d.Dense outdir xs seen ahead n) (hxs : Apart xs)
    (hsteady : Steadies seen ahead budget) (hrow : d.SettledRow outdir budget xs n) :
    d.Dense outdir xs seen ahead (n + 1) where
  opens := h.opens
  settled c hc i hi := by
    rcases Nat.lt_or_eq_of_le (Nat.le_of_lt_succ hi) with hlt | rfl
    · exact h.settled c hc i hlt
    · intro x hx
      obtain ⟨r, hr, hpending⟩ := hrow x hx
      refine ⟨r, hr, ?_⟩
      -- Only the budget of a marker matters at another budget, and it is among the seen.
      rcases h.status_cases hxs hx i with ⟨e, he, -⟩ | ⟨t, m, hdone⟩ | hblank | ⟨s, hs, hstatus⟩
      · rw [he] at hr
        cases hr
      · rw [hdone] at hr
        cases hr
        rfl
      · rw [hblank] at hr
        cases hr
        cases hpending
      · rw [hstatus] at hr
        cases hr
        have hheld : ¬ RunRecord.heldSeconds s < budget := of_decide_eq_false hpending
        exact decide_eq_false (UInt64.not_lt.2 (hsteady s hs (UInt64.not_lt.1 hheld) c hc))
  logs := h.logs
  markers := h.markers
  above x hx i hi := h.above x hx i (Nat.lt_of_succ_lt hi)

/-- Some row is the first one that is not settled, and the rows are dense there. -/
theorem next (h : d.Dense outdir xs seen ahead n) (hxs : Apart xs) (hne : xs ≠ [])
    (hsteady : Steadies seen ahead budget) :
    ∃ m, d.Dense outdir xs seen ahead m ∧ ¬ d.SettledRow outdir budget xs m := by
  by_cases hrow : d.SettledRow outdir budget xs n
  -- Nothing is recorded above the last row, so the row behind it is not settled.
  · refine ⟨n + 1, h.advance hxs hsteady hrow, fun hnext => ?_⟩
    obtain ⟨x, hx⟩ := List.exists_mem_of_ne_nil xs hne
    obtain ⟨r, hr, hpending⟩ := hnext x hx
    rcases h.status_above hxs hx (Nat.lt_succ_self n) with ⟨e, he, -⟩ | hblank
    · rw [he] at hr
      cases hr
    · rw [hblank] at hr
      cases hr
      cases hpending
  · exact ⟨n, h, hrow⟩

/-! ## Section 2: Scans of dense rows -/

/-- A row that cannot be read has a trial with a refused path. -/
theorem refused_of_not_legible (h : d.Dense outdir xs seen ahead n) (hxs : Apart xs) (hx : x ∈ xs)
    {e : StoreError} (he : d.status x (log outdir x.name i) = .error e) :
    d.Refused outdir x i e := by
  rcases h.status_cases hxs hx i with ⟨e', hrefused⟩ | ⟨t, m, hdone⟩ | hblank | ⟨s, -, hstatus⟩
  · have heq := hrefused.1
    rw [he] at heq
    rw [Except.error.inj heq]
    exact hrefused
  · rw [he] at hdone
    cases hdone
  · rw [he] at hblank
    cases hblank
  · rw [he] at hstatus
    cases hstatus

/-- A scan of dense rows stops at the first row that is not settled or right
    behind it, unless a path there is refused. -/
theorem scan_cases (h : d.Dense outdir xs seen ahead n) (hxs : Apart xs) (hne : xs ≠ [])
    {b : UInt64} (hb : ahead b) (c : UInt64) :
    (d.Blank outdir xs n ∧ d.scan outdir c xs = .ok (d.progress outdir c xs n)) ∨
    (d.Recorded outdir xs n ∧ d.scan outdir c xs = .ok (d.progress outdir c xs (n + 1))) ∨
    ∃ e, d.scan outdir c xs = .error e ∧ ∃ x ∈ xs, ∃ i, (i = n ∨ i = n + 1) ∧
      d.Refused outdir x i e := by
  have hbelow : ∀ j < n, d.Recorded outdir xs j :=
    fun j hj => (h.settled b hb j hj).recorded hne
  by_cases hlegible : d.Legible outdir xs n
  · by_cases hblank : d.Blank outdir xs n
    · exact Or.inl ⟨hblank, scan_of_blank hbelow hblank⟩
    -- The row has a record, so the scan goes on to the next one, which has none.
    · have hupto : ∀ j < n + 1, d.Recorded outdir xs j := by
        intro j hj
        rcases Nat.lt_or_eq_of_le (Nat.le_of_lt_succ hj) with hlt | rfl
        · exact hbelow j hlt
        · exact ⟨hlegible, hblank⟩
      by_cases hlegible' : d.Legible outdir xs (n + 1)
      · refine Or.inr (Or.inl ⟨⟨hlegible, hblank⟩, scan_of_blank hupto fun x hx => ?_⟩)
        rcases h.status_above hxs hx (Nat.lt_succ_self n) with ⟨e, he, -⟩ | hblank'
        · obtain ⟨r, hr⟩ := hlegible' x hx
          rw [he] at hr
          cases hr
        · exact hblank'
      · obtain ⟨e, hscan, x, hx, he⟩ := scan_of_not_legible c hupto hlegible'
        exact Or.inr (Or.inr ⟨e, hscan, x, hx, n + 1, Or.inr rfl, h.refused_of_not_legible hxs hx he⟩)
  · obtain ⟨e, hscan, x, hx, he⟩ := scan_of_not_legible c hbelow hlegible
    exact Or.inr (Or.inr ⟨e, hscan, x, hx, n, Or.inl rfl, h.refused_of_not_legible hxs hx he⟩)

/-- The next iteration is that of the first row that is not settled. -/
theorem nextIteration_eq (h : d.Dense outdir xs seen ahead n) (hxs : Apart xs) (hne : xs ≠ [])
    (hb : ahead budget) (hrow : ¬ d.SettledRow outdir budget xs n) {p : Progress}
    (hscan : d.scan outdir budget xs = .ok p) : p.nextIteration = n := by
  rcases h.scan_cases hxs hne hb budget with ⟨-, hp⟩ | ⟨hrecorded, hp⟩ | ⟨e, he, -⟩
  · rw [hp] at hscan
    rw [← Except.ok.inj hscan]
    exact nextIteration_progress (Nat.le_refl n) (h.settled budget hb) fun hlt => absurd hlt (lt_irrefl n)
  · rw [hp] at hscan
    rw [← Except.ok.inj hscan]
    exact nextIteration_progress (Nat.le_succ n) (h.settled budget hb) fun _ =>
      hrecorded.1.openRow hrow
  · rw [he] at hscan
    cases hscan

end Dense

end Disk

/-! ## Section 3: Sweeps keep the rows dense -/

variable {outdir : Path} {xs ys : List Descriptor} {seen ahead : UInt64 → Prop} {budget : UInt64}
  {n : Nat} {r : Runner}

/-- A trial of the row where the rows end keeps them dense. -/
theorem Runner.maintains_dense (hquiet : r.host.Quiet) (hxs : Apart xs) {y : Descriptor}
    (hy : y ∈ xs) (hseen : seen budget) :
    (r.trial y budget (log outdir y.name n)).Maintains
      (Disk.Dense outdir xs seen ahead n) := by
  refine maintains_trial (fun d d' h hstep => ?_) (hquiet.preserves _)
  -- The step changes files of row n alone; its markers hold the budget of the sweep.
  have hslash := hxs.no_slash y hy
  have hwithin := hstep.within hslash
  have hopens := hwithin.opens h.opens
  refine ⟨hopens, ?_, ?_, ?_, ?_⟩
  -- The rows below and those above hold what they held.
  · intro b hb i hi x hx
    obtain ⟨known, hknown, hsettled⟩ := h.settled b hb i hi x hx
    have hne : ¬ (y = x ∧ n = i) := fun heq => Nat.ne_of_gt hi heq.2
    have hsame := h.opens.status_congr (hxs.no_slash x hx) hopens
      (hxs.entries_within hx hy hne hwithin)
    exact ⟨known, hsame.trans hknown, hsettled⟩
  · intro x hx i hdir
    rw [Disk.held?, hwithin.here] at hdir
    exact h.logs x hx i ((hwithin.dirs _).1 hdir)
  · intro x hx i
    -- The marker of this trial is the old one, gone, or holds the budget of the sweep.
    by_cases heq : y = x ∧ n = i
    · obtain ⟨rfl, rfl⟩ := heq
      have hcases := hstep.marker_cases hslash
      rw [Disk.held?, hwithin.here]
      rcases hcases with hsame | hnone | hmarked
      · have hold := h.markers y hx n
        rw [Disk.held?] at hold
        rw [place] at hsame
        rw [hsame]
        exact hold
      · exact Or.inl hnone
      · exact Or.inr ⟨budget, hseen, hmarked⟩
    · rw [hxs.held?_within hx hy heq hwithin]
      exact h.markers x hx i
  · intro x hx i hi k hk
    have hne : ¬ (y = x ∧ n = i) := fun heq => Nat.ne_of_lt hi heq.2
    rw [hxs.held?_within hx hy hne hwithin]
    exact h.above x hx i hi k hk

/-- Rows that are dense up to some iteration. -/
def Disk.DenseRows (outdir : Path) (xs : List Descriptor) (seen ahead : UInt64 → Prop)
    (d : Disk) : Prop :=
  ∃ n, d.Dense outdir xs seen ahead n

theorem Runner.sweep_maintains_denseRows (hquiet : r.host.Quiet) (hxs : Apart xs)
    (hperm : ys.Perm xs) (hseen : seen budget) (hahead : ahead budget)
    (hsteady : Disk.Steadies seen ahead budget) :
    (r.sweep outdir budget ys).Maintains (Disk.DenseRows outdir xs seen ahead) := by
  by_cases hne : ys = []
  · rw [hne]
    exact maintains_sweep fun _ _ hx => nomatch hx
  · rintro w ⟨m, hm⟩
    obtain ⟨n, hn, hrow⟩ := (hm.perm hperm).next (hxs.perm hperm) hne hsteady
    unfold sweep
    refine passes_bind (passes_opening r outdir budget ys w) ?_
    rintro ⟨progress, order⟩ hopen
    obtain ⟨hscan, horder⟩ := opening_ok hopen
    -- The scan chose the row where the rows end, and only this row changes.
    have hnext : progress.nextIteration = n :=
      hn.nextIteration_eq (hxs.perm hperm) hne hahead hrow hscan
    simp only [hnext]
    have htrials : (r.trials outdir budget n order).Maintains (Disk.Dense outdir ys seen ahead n) :=
      maintains_trials fun x hx => maintains_dense hquiet (hxs.perm hperm) (horder.mem_iff.1 hx) hseen
    have hdisk := (passes_opening r outdir budget ys w).disk hn
    have hrows : ∀ d, Disk.Dense outdir ys seen ahead n d → Disk.DenseRows outdir xs seen ahead d :=
      fun d hd => ⟨n, hd.perm hperm.symm⟩
    refine Passes.mono ?_ hrows
    exact maintains_bind htrials (fun _ => maintains_pure _) _ hdisk

/-- The calls of a session keep the rows dense. -/
theorem Call.OfSession.maintains_denseRows {c : Call} (hc : c.OfSession budget xs)
    (hxs : Apart xs) (hseen : seen budget) (hahead : ahead budget)
    (hsteady : Disk.Steadies seen ahead budget) :
    c.Maintains outdir (Disk.DenseRows outdir xs seen ahead) := by
  intro w hw
  cases hc with
  | sweep hquiet hperm =>
    exact Runner.sweep_maintains_denseRows hquiet hxs hperm hseen hahead hsteady w hw
  | run hquiet hperm =>
    refine Runner.maintains_run (maintains_ensureDir_of_opens fun d hd => ?_) (fun zs hzs => ?_) w hw
    · obtain ⟨n, hn⟩ := hd
      exact hn.opens
    · exact Runner.sweep_maintains_denseRows hquiet hxs (hzs.trans hperm) hseen hahead hsteady

end BenchSweep
