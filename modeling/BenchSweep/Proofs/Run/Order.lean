import BenchSweep.Proofs.Run.Series

/-! # The Order of a Sweep

    Where tools do the same every time, what a trial of a sweep comes to is
    decided by the disk before the sweep.  So the order in which a sweep runs the
    experiments does not matter: not for the row it works on, not for the
    outcomes, and not for what it leaves on the disk. -/

namespace BenchSweep

open Artifact Act

variable {outdir : Path} {xs ys zs : List Descriptor} {x : Descriptor} {budget : UInt64}
  {d d₁ d₂ : Disk} {i n : Nat} {f : Descriptor → Option ByteArray} {r : Runner} {w : World}

/-! ## Section 1: Decided outcomes -/

namespace Disk

/-- What a trial of a sweep comes to. -/
def outcomeAt (d : Disk) (outdir : Path) (budget : UInt64) (f : Descriptor → Option ByteArray)
    (i : Nat) (x : Descriptor) : TrialOutcome :=
  if (d.recordAt outdir i x).isPending budget then (recordOf x budget (f x)).outcome
  else .skipped (d.recordAt outdir i x).status

/-- The log and the marker that a trial of a sweep has afterwards. -/
def entriesAfter (d : Disk) (outdir : Path) (budget : UInt64) (f : Descriptor → Option ByteArray)
    (i : Nat) (x : Descriptor) : Entries :=
  if (d.recordAt outdir i x).isPending budget then .left budget (f x) else d.entries outdir x i

theorem Attended.decided {outcome : TrialOutcome}
    (h : Attended outdir budget i (f · = ·) d d₁ x outcome) :
    outcome = d.outcomeAt outdir budget f i x ∧
      d₁.entries outdir x i = d.entriesAfter outdir budget f i x := by
  unfold outcomeAt entriesAfter
  cases h with
  | skipped hknown hsettled hsame =>
    rw [recordAt_eq hknown, hsettled]
    exact ⟨rfl, hsame⟩
  | attempted hpending hmay hleft =>
    obtain ⟨known, hknown, hpending⟩ := hpending
    subst hmay
    rw [recordAt_eq hknown, hpending]
    exact ⟨rfl, hleft⟩

variable {outcomes outcomes₁ outcomes₂ : List (String × TrialOutcome)}

/-- The outcomes come in the order in which the experiments were run. -/
theorem Attends.outcomes_eq (h : Attends outdir budget i (f · = ·) d xs outcomes d₁) :
    outcomes = xs.map fun x => (x.name, d.outcomeAt outdir budget f i x) := by
  have heq : List.Forall₂ (· = ·) (xs.map fun x => (x.name, d.outcomeAt outdir budget f i x))
      outcomes := by
    rw [List.forall₂_map_left_iff]
    refine h.trials.imp fun x o hx => ?_
    rw [← hx.1, ← hx.2.decided.1]
  rw [List.forall₂_eq_eq_eq] at heq
  exact heq.symm

/-- Sweeps over the same experiments leave the same disk. -/
theorem Attends.node?_eq (h₁ : Attends outdir budget i (f · = ·) d ys outcomes₁ d₁)
    (h₂ : Attends outdir budget i (f · = ·) d zs outcomes₂ d₂) (hperm : zs.Perm ys)
    (l : Location) : d₂.node? l = d₁.node? l := by
  by_cases hl : RowRecords outdir d.here ys i l
  · obtain ⟨x, hx, k, hk, rfl⟩ := hl
    obtain ⟨_, -, hx₁⟩ := h₁.of_mem hx
    obtain ⟨_, -, hx₂⟩ := h₂.of_mem (hperm.mem_iff.2 hx)
    -- The place of a record holds what was decided, whoever ran when.
    have hentries : d₂.entries outdir x i = d₁.entries outdir x i :=
      hx₂.decided.2.trans hx₁.decided.2.symm
    have hheld := congrArg (Entries.get · k) hentries
    simp only [get_entries _ _ _ _ hk] at hheld
    rw [held?, held?, h₁.within.here, h₂.within.here] at hheld
    exact hheld
  · have hl' : ¬ RowRecords outdir d.here zs i l := by
      rintro ⟨x, hx, hplace⟩
      exact hl ⟨x, hperm.mem_iff.1 hx, hplace⟩
    rw [h₁.within.outside l hl, h₂.within.outside l hl']

end Disk

/-! ## Section 2: Where a sweep can be through -/

namespace Runner

theorem change_ok {log : Path} {g : Disk → Except IoError Disk} {u : Unit}
    (h : ((Runner.change log g).perform w).1 = .ok u) : ∃ d', g w.disk = .ok d' := by
  rw [Runner.change, perform_blame, perform_change] at h
  cases hg : g w.disk with
  | error e =>
    rw [hg] at h
    cases h
  | ok d' => exact ⟨d', rfl⟩

/-- What was written in a directory shows that the directory is open. -/
theorem opens_of_write (hx : '/' ∉ x.name.toList) {content : ByteArray}
    (h : d.write (log outdir x.name i) content = .ok d₁) : d.Opens outdir := by
  cases hl : d.locate (log outdir x.name i) with
  | error e =>
    rw [Disk.write, hl] at h
    cases h
  | ok l =>
    rw [← path_log] at hl
    exact (Disk.opens_of_locate (isFileName hx i .log) hl).1

/-- A pending trial that is through wrote its log, so its directory is open. -/
theorem opens_of_trial (hx : '/' ∉ x.name.toList)
    (hpending : w.disk.Pending outdir budget x i) {outcome : TrialOutcome}
    (hok : ((r.trial x budget (log outdir x.name i)).perform w).1 = .ok outcome) :
    w.disk.Opens outdir := by
  obtain ⟨known, hknown, hpending⟩ := hpending
  rw [perform_trial_of_pending hknown hpending] at hok
  obtain ⟨_, hattempt, -, -⟩ := perform_bind_ok hok
  obtain ⟨_, hprepare, -, -⟩ := perform_bind_ok hattempt
  unfold prepare at hprepare
  obtain ⟨_, -, hprepare, -⟩ := perform_bind_ok hprepare
  obtain ⟨_, -, hwrite, -⟩ := perform_bind_ok hprepare
  -- Clearing the old files leaves the directory as it is, and then the log is written.
  have hclear : (Runner.clear (log outdir x.name i)).Maintains
      (w.disk.Within (Disk.TrialPlaces outdir w.disk.here x.name i)) := by
    refine maintains_clear fun d d' hd (hstep : TrialStep _ budget d d') => ?_
    have hwithin := hstep.within hx
    rw [hd.here] at hwithin
    exact hd.trans hwithin
  have hwithin := hclear.disk (w := w) (Disk.Within.refl _ w.disk)
  have hannounce : ∀ w' : World, ((r.announce x).perform w').2.disk = w'.disk := fun _ => rfl
  obtain ⟨d', hd'⟩ := change_ok hwrite
  rw [hannounce] at hd'
  exact hwithin.symm.opens (opens_of_write hx hd')

/-- Of trials that are through one was pending, if any was: the first such trial began
    with the disk as it was, and its tool was launched. -/
theorem exists_attempted {w' : World} {outcomes : List (String × TrialOutcome)}
    (hpending : ∃ x ∈ xs, w.disk.Pending outdir budget x i)
    (h : (r.trials outdir budget i xs).perform w = (.ok outcomes, w')) :
    ∃ x ∈ xs, ∃ before outcome, before.disk = w.disk ∧ w.disk.Pending outdir budget x i ∧
      ((r.trial x budget (log outdir x.name i)).perform before).1 = .ok outcome ∧
      (x.name, outcome) ∈ outcomes ∧ outcome.ran = true := by
  induction xs generalizing w outcomes with
  | nil =>
    obtain ⟨x, hx, -⟩ := hpending
    cases hx
  | cons y ys ih =>
    obtain ⟨begun, outcome, mid, others, hbegun, htrial, hothers, rfl⟩ := trials_cons_ok h
    rw [← hbegun] at hpending ⊢
    obtain ⟨known, hknown, ⟨hsettled, -, rfl⟩ | ⟨hy, hran⟩⟩ := trial_ok htrial
    · -- A settled trial is skipped, so the others begin with the same disk.
      have hrest : ∃ x ∈ ys, mid.disk.Pending outdir budget x i := by
        obtain ⟨x, hx, hpending⟩ := hpending
        rcases List.mem_cons.1 hx with rfl | hx
        · exact absurd hpending (Disk.not_pending hknown hsettled)
        · exact ⟨x, hx, hpending⟩
      obtain ⟨x, hx, before, outcome', hbefore, hpending', hok, hmem, hran⟩ := ih hrest hothers
      exact ⟨x, List.mem_cons_of_mem y hx, before, outcome', hbefore, hpending', hok,
        List.mem_cons_of_mem _ hmem, hran⟩
    · exact ⟨y, List.mem_cons_self, begun, outcome, rfl, ⟨known, hknown, hy⟩, by rw [htrial],
        List.mem_cons_self, hran⟩

/-- A sweep that is through ran the trials of the next row, in some order. -/
theorem sweep_ok {w' : World} {report : SweepReport} {order : List Descriptor}
    (h : (r.sweep outdir budget xs).perform w = (.ok (report, order), w')) :
    ∃ begun, begun.disk = w.disk ∧ w.disk.NextRow outdir budget xs report.iteration ∧
      order.Perm xs ∧
      (r.trials outdir budget report.iteration order).perform begun
        = (.ok report.outcomes, w') := by
  have hok := congrArg Prod.fst h
  have hworld := congrArg Prod.snd h
  unfold sweep at hok hworld
  obtain ⟨⟨progress, order'⟩, hopen, hok, hrest⟩ := perform_bind_ok hok
  obtain ⟨outcomes, htrials, hok, hrest'⟩ := perform_bind_ok hok
  obtain ⟨hscan, horder⟩ := opening_ok hopen
  have hdisk := (opening_still r outdir budget xs w).1
  rw [hrest, hrest'] at hworld
  cases hok
  exact ⟨_, hdisk, Disk.scan_nextIteration_iff.1 ⟨progress, hscan, rfl⟩, horder,
    Prod.ext htrials hworld⟩

/-- A sweep over some experiments is through only in a directory that is open. -/
theorem opens_of_sweep (hxs : ∀ x ∈ xs, '/' ∉ x.name.toList)
    {result : SweepReport × List Descriptor}
    (hok : ((r.sweep outdir budget xs).perform w).1 = .ok result) (hne : xs ≠ []) :
    w.disk.Opens outdir := by
  obtain ⟨report, order⟩ := result
  obtain ⟨begun, hbegun, hnext, horder, htrials⟩ := sweep_ok (Prod.ext hok rfl)
  have hpending := hnext.exists_pending hne horder
  rw [← hbegun] at hpending ⊢
  -- The first pending trial of the row was through on the same disk.
  obtain ⟨x, hx, before, outcome, hbefore, hpending, hok, -⟩ := exists_attempted hpending htrials
  rw [← hbefore] at hpending ⊢
  exact opens_of_trial (hxs x (horder.mem_iff.1 hx)) hpending hok

end Runner

/-! ## Section 3: Sweeps in any order -/

/-- **The order of a sweep does not matter.**  Let two sweeps over the same
    experiments begin on the same disk, with tools that do the same every time.
    If one of them is through then the other one is, if nobody stops it and its
    tools can be launched.  If both are through, then they worked on the same
    row, came to the same outcomes, one for each experiment, and left the same
    disk. -/
theorem sweep_order_irrelevant (outdir : Path) (hxs : Apart xs) (budget : UInt64)
    (f : Descriptor → Option ByteArray) (r₁ r₂ : Runner) (h₁ : r₁.host.Follows f)
    (h₂ : r₂.host.Follows f) {ys₁ ys₂ : List Descriptor} (hys₁ : ys₁.Perm xs) (hys₂ : ys₂.Perm xs)
    (w₁ w₂ : World) (hw : w₂.disk = w₁.disk) {w₁' : World} {report₁ : SweepReport}
    {order₁ : List Descriptor}
    (hrun₁ : (r₁.sweep outdir budget ys₁).perform w₁ = (.ok (report₁, order₁), w₁')) :
    (r₂.host.Steadfast →
      ∃ result w₂', (r₂.sweep outdir budget ys₂).perform w₂ = (.ok result, w₂')) ∧
    ∀ report₂ order₂ w₂', (r₂.sweep outdir budget ys₂).perform w₂ = (.ok (report₂, order₂), w₂') →
      report₂.iteration = report₁.iteration ∧
      (report₁.outcomes.map Prod.fst).Perm (xs.map Descriptor.name) ∧
      report₂.outcomes.Perm report₁.outcomes ∧
      w₂'.disk.here = w₁'.disk.here ∧ ∀ l, w₂'.disk.node? l = w₁'.disk.node? l := by
  have hok₁ : ((r₁.sweep outdir budget ys₁).perform w₁).1 = .ok (report₁, order₁) := by rw [hrun₁]
  have hdisk₁ : ((r₁.sweep outdir budget ys₁).perform w₁).2.disk = w₁'.disk := by rw [hrun₁]
  -- The first sweep shows that the directory is open, unless there is nothing to do.
  have hopens : xs ≠ [] → w₁.disk.Opens outdir := by
    intro hne
    refine Runner.opens_of_sweep (hxs.perm hys₁).no_slash hok₁ fun hnil => hne ?_
    rw [hnil] at hys₁
    exact hys₁.nil_eq.symm
  obtain ⟨n, hnext⟩ : ∃ n, w₁.disk.NextRow outdir budget xs n := by
    obtain ⟨⟨progress, order⟩, hopen, -, -⟩ := perform_bind_ok hok₁
    have hnext := Disk.scan_nextIteration_iff.1 ⟨progress, (Runner.opening_ok hopen).1, rfl⟩
    exact ⟨_, hnext.perm hys₁.symm⟩
  obtain ⟨hiteration₁, horder₁, hattends₁⟩ :=
    (Runner.meets_sweep_attends h₁.obeys hxs hys₁ hopens hnext).ok rfl hok₁
  have hmeets₂ := Runner.meets_sweep_attends h₂.obeys hxs hys₂ hopens hnext
  rw [hdisk₁] at hattends₁
  refine ⟨fun hsteadfast => ?_, fun report₂ order₂ w₂' hrun₂ => ?_⟩
  · cases hrun₂ : (r₂.sweep outdir budget ys₂).perform w₂ with
    | mk result w₂' =>
      cases result with
      | ok result => exact ⟨result, w₂', rfl⟩
      | error e => exact absurd hsteadfast (hmeets₂.error hw (e := e) (by rw [hrun₂])).1
  · have hpost := hmeets₂.ok hw (x := (report₂, order₂)) (by rw [hrun₂])
    rw [hrun₂] at hpost
    obtain ⟨hiteration₂, horder₂, hattends₂⟩ := hpost
    have horder : order₂.Perm order₁ := horder₂.trans horder₁.symm
    refine ⟨hiteration₂.trans hiteration₁.symm, ?_, ?_, ?_, hattends₁.node?_eq hattends₂ horder⟩
    · rw [hattends₁.outcomes_eq, List.map_map]
      exact horder₁.map _
    · rw [hattends₁.outcomes_eq, hattends₂.outcomes_eq]
      exact horder.map _
    · rw [hattends₁.within.here, hattends₂.within.here]

/-- One of two trials is done already and the other one overruns. -/
theorem sweep_order_irrelevant_swapped :
    ∃ report₁ order₁ w₁' report₂ order₂ w₂',
      ((Runner.telling fun _ => none).sweep ⟨"out"⟩ 5 [.plain "a", .plain "b"]).perform
        (.fresh .withMeasured) = (.ok (report₁, order₁), w₁') ∧
      ((Runner.telling fun _ => none).sweep ⟨"out"⟩ 5 [.plain "b", .plain "a"]).perform
        (.fresh .withMeasured) = (.ok (report₂, order₂), w₂') ∧
      report₁.outcomes = [("a", .skipped .done), ("b", .timedOut 5)] ∧
      report₂.iteration = report₁.iteration ∧ report₂.outcomes.Perm report₁.outcomes ∧
      ∀ l, w₂'.disk.node? l = w₁'.disk.node? l := by
  have hfollows : (Runner.telling fun _ => none).host.Follows fun _ => none :=
    Host.follows_telling fun _ => none
  have hok : ((((Runner.telling fun _ => none).sweep ⟨"out"⟩ 5 [.plain "a", .plain "b"]).perform
      (.fresh .withMeasured)).1.toOption.map fun result => result.1.outcomes)
        = some [("a", .skipped .done), ("b", .timedOut 5)] := by
    decide +kernel
  cases hrun : ((Runner.telling fun _ => none).sweep ⟨"out"⟩ 5 [.plain "a", .plain "b"]).perform
      (.fresh .withMeasured) with
  | mk result w₁' =>
    rw [hrun] at hok
    cases result with
    | error e => cases hok
    | ok result =>
      obtain ⟨report₁, order₁⟩ := result
      obtain ⟨hthrough, hsame⟩ := sweep_order_irrelevant ⟨"out"⟩ apart_plain_two 5 (fun _ => none)
        (.telling fun _ => none) (.telling fun _ => none) hfollows hfollows (List.Perm.refl _)
        (List.Perm.swap _ _ _) (.fresh .withMeasured) (.fresh .withMeasured) rfl hrun
      obtain ⟨⟨report₂, order₂⟩, w₂', hrun₂⟩ := hthrough (Host.steadfast_telling fun _ => none)
      obtain ⟨hiteration, -, houtcomes, -, hnodes⟩ := hsame report₂ order₂ w₂' hrun₂
      exact ⟨report₁, order₁, w₁', report₂, order₂, w₂', rfl, hrun₂, Option.some.inj hok,
        hiteration, houtcomes, hnodes⟩

end BenchSweep
