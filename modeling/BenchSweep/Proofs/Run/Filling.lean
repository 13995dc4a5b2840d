import BenchSweep.Proofs.Run.Account
import BenchSweep.Proofs.Run.Frontier
import BenchSweep.Proofs.Run.Series

/-! # Sweeps Fill Rows

    Where every tool leaves a log that is accepted or overruns, and nobody stops
    it, a sweep that begins behind filled rows fills the next one: it launches a
    tool for every experiment, and after it no trial of the row is pending.  So
    many sweeps from an empty directory fill so many rows, and a scan accounts for
    each trial of them. -/

namespace BenchSweep

open Artifact Act

variable {outdir : Path} {xs ys : List Descriptor} {x : Descriptor} {budget : UInt64}
  {d d₀ d' : Disk} {i m n : Nat} {result : Option ByteArray} {r : Runner}

/-! ## Section 1: Accepted results -/

/-- A result that goes on record: a log that the parser of the experiment accepts,
    or nothing if the tool overran. -/
def Descriptor.Accepts (x : Descriptor) : Option ByteArray → Prop
  | some output => ∃ metrics, x.read (Text.decode output) = some metrics
  | none => True

theorem recordOf_of_read {output : ByteArray} {metrics : Metrics}
    (h : x.read (Text.decode output) = some metrics) (budget : UInt64) :
    ∃ t, recordOf x budget (some output) = .done t metrics := by
  obtain ⟨t, ht⟩ := proof?_of_read h
  refine ⟨t, ?_⟩
  rw [recordOf, ht]
  rfl

/-- An accepted result settles the trial, if the budget is recorded exactly. -/
theorem settled_of_accepts (h : x.Accepts result)
    (hbudget : RunRecord.heldSeconds budget = budget) :
    (recordOf x budget result).isPending budget = false := by
  cases result with
  | none =>
    -- A timeout is pending only where less than the budget is on record.
    show decide (RunRecord.heldSeconds budget < budget) = false
    rw [hbudget]
    exact decide_eq_false (UInt64.lt_irrefl budget)
  | some output =>
    obtain ⟨metrics, hread⟩ := h
    obtain ⟨t, ht⟩ := recordOf_of_read hread budget
    rw [ht]
    rfl

theorem recordOf_ne_notDone (h : x.Accepts result) (budget : UInt64) :
    recordOf x budget result ≠ .notDone := by
  cases result with
  | none => exact nofun
  | some output =>
    obtain ⟨metrics, hread⟩ := h
    obtain ⟨t, ht⟩ := recordOf_of_read hread budget
    rw [ht]
    exact nofun

/-! ## Section 2: Filled rows -/

namespace Disk

/-- The first rows hold accepted results, and there is nothing in the others. -/
structure Filled (outdir : Path) (budget : UInt64) (xs : List Descriptor) (n : Nat) (d : Disk) :
    Prop where
  opens : d.Opens outdir
  filled : ∀ x ∈ xs, ∀ i < n, ∃ result, x.Accepts result ∧
    d.entries outdir x i = .left budget result
  bare : ∀ x ∈ xs, ∀ i, n ≤ i → d.entries outdir x i = .bare

theorem Vacant.filled (h : d.Vacant outdir) : d.Filled outdir budget xs 0 where
  opens := h.opens
  filled _ _ _ hi := absurd hi (Nat.not_lt_zero _)
  bare x _ i _ := by
    rw [entries, h.empty, h.empty]
    rfl

namespace Filled

variable (hxs : Apart xs) (hwritable : ∀ x ∈ xs, ∀ i ≤ n, Writable outdir x i)

include hxs hwritable

/-- What is recorded in the first rows. -/
theorem status (h : d.Filled outdir budget xs n) (hx : x ∈ xs) (hi : i < n) :
    ∃ result, x.Accepts result ∧
      d.status x (log outdir x.name i) = .ok (recordOf x budget result) := by
  obtain ⟨result, haccepts, hleft⟩ := h.filled x hx i hi
  refine ⟨result, haccepts, ?_⟩
  exact h.opens.status_of_left (hxs.no_slash x hx) (hwritable x hx i (Nat.le_of_lt hi)) hleft

theorem settledRow (h : d.Filled outdir budget xs n)
    (hbudget : RunRecord.heldSeconds budget = budget) (hi : i < n) :
    d.SettledRow outdir budget xs i := by
  intro x hx
  obtain ⟨result, haccepts, hstatus⟩ := h.status hxs hwritable hx hi
  exact ⟨_, hstatus, settled_of_accepts haccepts hbudget⟩

/-- In the first rows no trial is blank. -/
theorem isBlankAt (h : d.Filled outdir budget xs n) (hx : x ∈ xs) (hi : i < n) :
    d.isBlankAt outdir i x = false := by
  obtain ⟨result, haccepts, hstatus⟩ := h.status hxs hwritable hx hi
  have hne := recordOf_ne_notDone haccepts budget
  unfold Disk.isBlankAt
  rw [hstatus]
  cases hrecord : recordOf x budget result with
  | notDone => exact absurd hrecord hne
  | done t metrics => rfl
  | timeout s => rfl

theorem blank (h : d.Filled outdir budget xs n) : d.Blank outdir xs n := by
  intro x hx
  exact h.opens.status_of_bare (hxs.no_slash x hx) (hwritable x hx n (Nat.le_refl n))
    (h.bare x hx n (Nat.le_refl n))

/-- The row behind the filled ones is next. -/
theorem nextRow (h : d.Filled outdir budget xs n) (hne : xs ≠ [])
    (hbudget : RunRecord.heldSeconds budget = budget) : d.NextRow outdir budget xs n :=
  nextRow_of_blank hne (fun _ hj => h.settledRow hxs hwritable hbudget hj) (h.blank hxs hwritable)

/-- What a scan accounts for: in each of the rows every experiment is completed or
    overran, and the work goes on behind them. -/
theorem scan (h : d.Filled outdir budget xs n) (hne : xs ≠ [])
    (hbudget : RunRecord.heldSeconds budget = budget) :
    ∃ p, d.scan outdir budget xs = .ok p ∧ p.iterations = n ∧ p.nextIteration = n ∧
      p.notDone = 0 ∧ ∀ x ∈ xs, (p.results.map Prod.fst).count x.name
        + (p.timeouts.map Prod.fst).count x.name = n := by
  have hrecorded : ∀ j < n, d.Recorded outdir xs j := fun j hj =>
    (h.settledRow hxs hwritable hbudget hj).recorded hne
  have hblank := h.blank hxs hwritable
  have haccounts : (d.progress outdir budget xs n).Accounts d outdir budget xs n :=
    accounts_progress hrecorded hblank
  refine ⟨_, scan_of_blank hrecorded hblank, iterations_progress, ?_, ?_, fun x hx => ?_⟩
  · refine nextIteration_progress (Nat.le_refl n) ?_ fun hlt => absurd hlt (Nat.lt_irrefl n)
    exact fun j hj => h.settledRow hxs hwritable hbudget hj
  · rw [haccounts.notDone, blanks, List.sum_eq_zero_iff_forall_eq_nat]
    intro count hcount
    obtain ⟨j, hj, rfl⟩ := List.mem_map.1 hcount
    rw [List.countP_eq_zero]
    intro x hx
    rw [h.isBlankAt hxs hwritable hx (List.mem_range.1 hj)]
    exact Bool.false_ne_true
  · -- None of its trials is blank, so all of them are results or timeouts.
    have htotal := haccounts.total_of (fun j hj => (hrecorded j hj).1) hxs.distinct hx
    have hnone : (List.range n).countP (fun j => d.isBlankAt outdir j x) = 0 := by
      rw [List.countP_eq_zero]
      intro j hj
      rw [h.isBlankAt hxs hwritable hx (List.mem_range.1 hj)]
      exact Bool.false_ne_true
    omega

omit hwritable in
/-- When each trial of the next row was left by a tool that is through, one row
    more is filled. -/
theorem advance (h : d.Filled outdir budget xs n) (hpending : ∀ x ∈ xs, d.Pending outdir budget x n)
    {outcomes : List (String × TrialOutcome)} (hperm : ys.Perm xs)
    (hattends : Attends outdir budget n (fun x result => x ∈ xs → x.Accepts result) d ys outcomes
      d') : d'.Filled outdir budget xs (n + 1) := by
  have hrow : RowBecomes outdir xs n (fun _ d' x => ∃ result, x.Accepts result ∧
      d'.entries outdir x n = .left budget result) d d' := by
    refine ⟨?_, fun x hx => ?_⟩
    · exact hattends.withinRow.mono fun _ ⟨x, hx, hl⟩ => ⟨x, hperm.mem_iff.1 hx, hl⟩
    · obtain ⟨outcome, -, hattended⟩ := hattends.of_mem (hperm.mem_iff.2 hx)
      -- The row was blank, so none of its trials can have been skipped.
      cases hattended with
      | skipped hknown hsettled _ => exact absurd (hpending x hx) (not_pending hknown hsettled)
      | attempted _ haccepts hleft => exact ⟨_, haccepts hx, hleft⟩
  refine ⟨hrow.within.opens h.opens, fun x hx i hi => ?_, fun x hx i hi => ?_⟩
  · by_cases hin : i = n
    · rw [hin]
      exact hrow.trials x hx
    · rw [hrow.entries_ne hxs hx hin]
      exact h.filled x hx i (by omega)
  · rw [hrow.entries_ne hxs hx (by omega)]
    exact h.bare x hx i (by omega)

end Filled

end Disk

/-! ## Section 3: Reports of a run -/

namespace Runner

/-- The reports of so many sweeps, one after the other. -/
def reports (r : Runner) (outdir : Path) (budget : UInt64) :
    Nat → List Descriptor → Act TrialError (List SweepReport)
  | 0, _ => return []
  | n + 1, xs => do
    let (report, order) ← r.sweep outdir budget xs
    return report :: (← r.reports outdir budget n order)

/-- The reports of the sweeps of a run. -/
def runReports (r : Runner) (outdir : Path) (budget : UInt64) (limit : Option Nat)
    (xs : List Descriptor) : Act TrialError (List SweepReport) := do
  (Act.ensureDir outdir).blame (.artifact outdir)
  if xs = [] then do
    r.tell .yellow .noExperiments
    return []
  else r.reports outdir budget (limit.getD endless) xs

theorem perform_sweeps (r : Runner) (outdir : Path) (budget : UInt64) (n : Nat)
    (xs : List Descriptor) (w : World) :
    (r.sweeps outdir budget n xs).perform w =
      (((r.reports outdir budget n xs).perform w).1.map fun _ => (),
        ((r.reports outdir budget n xs).perform w).2) := by
  induction n generalizing xs w with
  | zero => rfl
  | succ n ih =>
    rw [sweeps, reports, perform_bind, perform_bind]
    cases (r.sweep outdir budget xs).perform w with
    | mk result w' =>
      cases result with
      | error e => rfl
      | ok result =>
        obtain ⟨report, order⟩ := result
        simp only
        rw [ih order w', perform_bind]
        cases (r.reports outdir budget n order).perform w' with
        | mk rest w'' => cases rest <;> rfl

/-- A run is what its sweeps report. -/
theorem perform_run (r : Runner) (outdir : Path) (budget : UInt64) (limit : Option Nat)
    (xs : List Descriptor) (w : World) :
    (r.run outdir budget limit xs).perform w =
      (((r.runReports outdir budget limit xs).perform w).1.map fun _ => (),
        ((r.runReports outdir budget limit xs).perform w).2) := by
  rw [run, runReports, perform_bind, perform_bind]
  cases ((Act.ensureDir outdir).blame (TrialError.artifact outdir)).perform w with
  | mk result w' =>
    cases result with
    | error e => rfl
    | ok u =>
      simp only
      split
      · rfl
      · exact perform_sweeps r outdir budget _ xs w'

/-! ## Section 4: Sweeps that fill rows -/

/-- Making an output directory that is open changes nothing. -/
theorem meets_ensureDir (hopens : d₀.Opens outdir) {s : String} (hs : Path.IsFileName s)
    (hr : (outdir.join s).refusal? = none) {E : IoError → Disk → Prop} :
    Meets (· = d₀) (Act.ensureDir outdir) (fun _ d => d = d₀) E := by
  unfold Act.ensureDir
  rcases Path.lineage_cases outdir with ⟨-, hnil⟩ | ⟨hne, above, hcons⟩
  · rw [hnil]
    exact meets_pure fun _ hd => hd
  · rw [hcons]
    unfold Act.makeDirs
    refine meets_bind (Q := fun result d => d = d₀ ∧ result = .ok ()) ?_ fun result => ?_
    · refine meets_outcome (meets_change fun d hd => ?_)
      rw [hd, hopens.haveDir_self hs hr hne]
      exact ⟨rfl, rfl⟩
    · refine Meets.given fun hresult => ?_
      rw [hresult]
      exact meets_pure fun _ hd => hd

variable (hsteadfast : r.host.Steadfast)
  (hobeys : r.host.Obeys fun x result => x ∈ xs → x.Accepts result)
  (hxs : Apart xs) (hne : xs ≠ []) (hbudget : RunRecord.heldSeconds budget = budget)

include hsteadfast hobeys hxs hne hbudget

/-- A sweep behind filled rows is through, launched a tool for every experiment and
    filled one row more. -/
theorem meets_sweep_filled (hperm : ys.Perm xs)
    (hwritable : ∀ x ∈ xs, ∀ i ≤ n, Writable outdir x i) :
    Meets (Disk.Filled outdir budget xs n) (r.sweep outdir budget ys)
      (fun result d => d.Filled outdir budget xs (n + 1) ∧
        (result.1.launched = xs.length ∧ result.2.Perm xs)) (fun _ _ => False) := by
  refine Meets.pointwise fun d₀ hd₀ => ?_
  have hnext := hd₀.nextRow hxs hwritable hne hbudget
  have hpending : ∀ x ∈ xs, d₀.Pending outdir budget x n := fun x hx =>
    ⟨.notDone, hd₀.blank hxs hwritable x hx, rfl⟩
  refine (meets_sweep_attends hobeys hxs hperm (fun _ => hd₀.opens) hnext).mono (fun _ hd => hd)
    ?_ fun _ _ hd => hd.1 hsteadfast
  rintro ⟨report, order⟩ d ⟨-, horder, hattends⟩
  refine ⟨hd₀.advance hxs hpending horder hattends, ?_, horder⟩
  show (report.outcomes.filter fun o => o.2.ran).length = xs.length
  rw [hattends.length_ran fun x hx => hpending x (horder.mem_iff.1 hx), horder.length_eq]

/-- So many sweeps fill so many rows. -/
theorem meets_reports_filled (n : Nat) (hperm : ys.Perm xs)
    (hwritable : ∀ x ∈ xs, ∀ i ≤ m + n, Writable outdir x i) :
    Meets (Disk.Filled outdir budget xs m) (r.reports outdir budget n ys)
      (fun reports d => d.Filled outdir budget xs (m + n) ∧ reports.length = n ∧
        ∀ report ∈ reports, report.launched = xs.length) (fun _ _ => False) := by
  -- Each sweep begins where the one before it ended, one row further up.
  induction n generalizing m ys with
  | zero => exact meets_pure fun d hd => ⟨hd, rfl, nofun⟩
  | succ n ih =>
    have hsweep := meets_sweep_filled hsteadfast hobeys hxs hne hbudget hperm
      fun x hx i (hi : i ≤ m) => hwritable x hx i (by omega)
    unfold reports
    refine meets_bind hsweep ?_
    rintro ⟨report, order⟩
    refine Meets.given fun ⟨hlaunched, horder⟩ => ?_
    have hrest := ih (m := m + 1) horder fun x hx i hi => hwritable x hx i (by omega)
    refine meets_bind hrest fun rest => meets_pure ?_
    rintro d ⟨hfilled, hlength, hall⟩
    refine ⟨?_, ?_, fun report' hreport => ?_⟩
    · rw [Nat.add_right_comm, Nat.add_assoc] at hfilled
      exact hfilled
    · rw [List.length_cons, hlength]
    · rcases List.mem_cons.1 hreport with rfl | hreport
      · exact hlaunched
      · exact hall report' hreport

end Runner

/-- **So many sweeps fill so many rows.**  Let every tool leave a log that the
    parser accepts, or overrun a budget that is recorded exactly, and let nobody
    stop it.  Then a run of so many sweeps from an empty directory is through and
    launched a tool for every experiment in every sweep.  A scan finds exactly so
    many rows in which each experiment is completed or overran.  The system must
    take the paths of the files of these rows and of the one behind them. -/
theorem sweeps_fill_rows (outdir : Path) (hxs : Apart xs) (hne : xs ≠ []) (budget : UInt64)
    (hbudget : budget.toNat ≤ Decimal.twoPow 53) (n : Nat)
    (hwritable : ∀ x ∈ xs, ∀ i ≤ n, Writable outdir x i) (hsteadfast : r.host.Steadfast)
    (hobeys : r.host.Obeys fun x result => x ∈ xs → x.Accepts result) (w : World)
    (hstart : w.disk.Vacant outdir) :
    ∃ reports w', (r.runReports outdir budget (some n) xs).perform w = (.ok reports, w') ∧
      (r.run outdir budget (some n) xs).perform w = (.ok (), w') ∧
      reports.length = n ∧ (reports.map SweepReport.launched).sum = n * xs.length ∧
      ∃ p, w'.disk.scan outdir budget xs = .ok p ∧ p.iterations = n ∧ p.nextIteration = n ∧
        p.notDone = 0 ∧ ∀ x ∈ xs, (p.results.map Prod.fst).count x.name
          + (p.timeouts.map Prod.fst).count x.name = n := by
  have hheld := RunRecord.heldSeconds_of_le hbudget
  have hrun : Meets (· = w.disk) (r.runReports outdir budget (some n) xs)
      (fun reports d => d.Filled outdir budget xs n ∧ reports.length = n ∧
        ∀ report ∈ reports, report.launched = xs.length) (fun _ _ => False) := by
    obtain ⟨x, hx⟩ := List.exists_mem_of_ne_nil xs hne
    have hdir := Runner.meets_ensureDir (E := fun _ _ => False) hstart.opens
      (isFileName (hxs.no_slash x hx) 0 .log) (hwritable x hx 0 (Nat.zero_le n)).log
    have hreports := Runner.meets_reports_filled (m := 0) hsteadfast hobeys hxs hne hheld n
      (List.Perm.refl xs) (by rw [Nat.zero_add]; exact hwritable)
    rw [Nat.zero_add] at hreports
    unfold Runner.runReports
    refine meets_bind (meets_blame hdir) fun _ => ?_
    rw [if_neg hne]
    -- The directory was there already, so the first sweep begins with no row filled.
    refine hreports.mono (fun d hd => ?_) (fun _ _ hd => hd) fun _ _ hd => hd
    rw [hd]
    exact hstart.filled
  cases hperform : (r.runReports outdir budget (some n) xs).perform w with
  | mk result w' =>
    cases result with
    | error e => exact (hrun.error rfl (e := e) (by rw [hperform])).elim
    | ok reports =>
      have hpost := hrun.ok rfl (x := reports) (by rw [hperform])
      rw [hperform] at hpost
      obtain ⟨hfilled, hlength, hlaunched⟩ := hpost
      refine ⟨reports, w', rfl, ?_, hlength, ?_, hfilled.scan hxs hwritable hne hheld⟩
      · rw [Runner.perform_run, hperform]
        rfl
      · have hall : reports.map SweepReport.launched = List.replicate n xs.length := by
          rw [List.eq_replicate_iff, List.length_map]
          refine ⟨hlength, fun launched hmem => ?_⟩
          obtain ⟨report, hreport, rfl⟩ := List.mem_map.1 hmem
          exact hlaunched report hreport
        rw [hall, List.sum_replicate_nat]

theorem accepts_measured (name : String) : (Descriptor.plain name).Accepts (some measured) := by
  have hread : ∃ metrics, (Descriptor.plain name).read (Text.decode measured) = some metrics := by
    rw [measured, Text.decode_toUTF8]
    exact ⟨_, rfl⟩
  exact hread

/-- A runner whose tools overrun or measure by turns. -/
def Runner.byTurns : Runner :=
  { Runner.telling fun _ => none with
    host := { Host.telling fun _ => none with
      launch := fun n _ _ d =>
        .ok (if n % 3 = 1 then ⟨measured, .exited, d⟩ else ⟨.empty, .overran, d⟩) } }

theorem sweeps_fill_rows_byTurns :
    ∃ w', (Runner.byTurns.run ⟨"out"⟩ 5 (some 2) [.plain "a", .plain "b"]).perform
        (.fresh .emptyOut) = (.ok (), w') ∧
      ∃ p, w'.disk.scan ⟨"out"⟩ 5 [.plain "a", .plain "b"] = .ok p ∧ p.iterations = 2 ∧
        p.nextIteration = 2 ∧ p.notDone = 0 ∧ ∀ x ∈ [Descriptor.plain "a", .plain "b"],
          (p.results.map Prod.fst).count x.name + (p.timeouts.map Prod.fst).count x.name = 2 := by
  have hwritable : ∀ x ∈ [Descriptor.plain "a", .plain "b"], ∀ i ≤ 2, Writable ⟨"out"⟩ x i := by
    intro x hx i hi
    have hi' : i = 0 ∨ i = 1 ∨ i = 2 := by omega
    simp only [List.mem_cons, List.not_mem_nil, or_false] at hx
    rcases hx with rfl | rfl <;> rcases hi' with rfl | rfl | rfl <;> exact ⟨rfl, rfl⟩
  have hsteadfast : Runner.byTurns.host.Steadfast := by
    refine ⟨fun _ => rfl, fun n x budget d => ⟨_, rfl, ?_⟩⟩
    split <;> rfl
  have hobeys : Runner.byTurns.host.Obeys fun x result =>
      x ∈ [Descriptor.plain "a", .plain "b"] → x.Accepts result := by
    intro n x budget d run hrun
    have hrun := Except.ok.inj hrun
    have haccepts : x ∈ [Descriptor.plain "a", .plain "b"] → x.Accepts (some measured) := by
      intro hx
      simp only [List.mem_cons, List.not_mem_nil, or_false] at hx
      rcases hx with rfl | rfl
      · exact accepts_measured "a"
      · exact accepts_measured "b"
    split at hrun
    · rw [← hrun]
      exact ⟨rfl, fun _ => haccepts, nofun⟩
    · rw [← hrun]
      exact ⟨rfl, nofun, fun _ _ => trivial⟩
  obtain ⟨-, w', -, hrun, -, -, hscan⟩ := sweeps_fill_rows ⟨"out"⟩ apart_plain_two
    (List.cons_ne_nil _ _) 5 (by decide) 2 hwritable hsteadfast hobeys (.fresh .emptyOut)
    Disk.vacant_emptyOut
  exact ⟨w', hrun, hscan⟩

/-- A sweep fails where a scan fails. -/
theorem Runner.meets_sweep_unscanned (hscan : ∀ p, d₀.scan outdir budget xs ≠ .ok p) :
    Meets (· = d₀) (r.sweep outdir budget xs) (fun _ _ => False) (fun _ _ => True) := by
  have hopening : Meets (· = d₀) (r.opening outdir budget xs) (fun _ _ => False)
      (fun _ _ => True) := by
    intro w hw
    cases hresult : ((r.opening outdir budget xs).perform w).1 with
    | error e => trivial
    | ok opened =>
      have hok := (Runner.opening_ok hresult).1
      rw [show w.disk = d₀ from hw] at hok
      exact hscan opened.1 hok
  unfold Runner.sweep
  refine meets_bind hopening ?_
  rintro ⟨progress, order⟩ w hd
  exact hd.elim

/-- A run of at least one sweep fails where a scan fails. -/
theorem Runner.run_unscanned (hopens : d₀.Opens outdir) {s : String} (hs : Path.IsFileName s)
    (hr : (outdir.join s).refusal? = none) (hne : xs ≠ [])
    (hscan : ∀ p, d₀.scan outdir budget xs ≠ .ok p) {w : World} (hw : w.disk = d₀) (w' : World) :
    (r.run outdir budget (some (n + 1)) xs).perform w ≠ (.ok (), w') := by
  intro hrun
  have hfails : Meets (· = d₀) (r.run outdir budget (some (n + 1)) xs) (fun _ _ => False)
      (fun _ _ => True) := by
    -- Making the directory changes nothing, so the sweep begins where it is given.
    have hdir := Runner.meets_ensureDir (E := fun _ _ => True) hopens hs hr
    unfold Runner.run
    refine meets_bind (meets_blame hdir) fun _ => ?_
    rw [if_neg hne, Option.getD_some]
    unfold Runner.sweeps
    refine meets_bind (Runner.meets_sweep_unscanned hscan) ?_
    rintro ⟨report, order⟩ w hd
    exact hd.elim
  exact hfails.ok hw (x := ()) (by rw [hrun])

/-- A tool that measures every time does not fill a row where the name of a marker
    would be too long, not even in an empty directory. -/
theorem filling_needs_short_names :
    Apart [.plain longName] ∧ Disk.emptyOut.Vacant ⟨"out"⟩ ∧
    (Runner.telling fun _ => some measured).host.Steadfast ∧
    ((Runner.telling fun _ => some measured).host.Obeys fun x result =>
      x ∈ [.plain longName] → x.Accepts result) ∧
    ∀ w', ((Runner.telling fun _ => some measured).run ⟨"out"⟩ 60 (some 1)
      [.plain longName]).perform (.fresh .emptyOut) ≠ (.ok (), w') := by
  refine ⟨apart_longName, Disk.vacant_emptyOut, Host.steadfast_telling fun _ => some measured, ?_,
    fun w' hrun => ?_⟩
  · have hfollows := Host.follows_telling fun _ => some measured
    refine hfollows.obeys.mono fun x result (hresult : some measured = result) hx => ?_
    rw [← hresult, List.mem_singleton.1 hx]
    exact accepts_measured longName
  · have hslash : '/' ∉ "a".toList := by decide
    have hname : (path ⟨"out"⟩ "a" 0 .log).refusal? = none := rfl
    exact Runner.run_unscanned Disk.vacant_emptyOut.opens (isFileName hslash 0 .log) hname
      (List.cons_ne_nil _ _) (scan_longName 60) rfl w' hrun

end BenchSweep
