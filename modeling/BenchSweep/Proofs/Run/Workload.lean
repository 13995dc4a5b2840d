import BenchSweep.Proofs.Run.Dense
import BenchSweep.Proofs.Run.Order

/-! # The Work of a Sweep

    A sweep launches a tool for exactly those trials of its row that were pending
    before it.  Nothing confines a tool, which may write wherever it likes; but where
    each tool spares the trials of the others, the sweep changes no files but those
    of the trials that it launched a tool for. -/

namespace BenchSweep

open Artifact Act

variable {outdir : Path} {xs ys : List Descriptor} {x y : Descriptor} {budget : UInt64}
  {d d' d'' : Disk} {i n : Nat} {r : Runner} {spared fewer : Descriptor → Nat → Prop}

/-! ## Section 1: Changes that spare trials -/

namespace Disk

/-- The output directory stays where it is, and open, and some trials keep their files. -/
structure Spares (outdir : Path) (spared : Descriptor → Nat → Prop) (d d' : Disk) : Prop where
  here : d'.here = d.here
  opens : d.Opens outdir → d'.Opens outdir
  files : ∀ x i, spared x i → ∀ k,
    d'.node? (place outdir d.here x.name i k) = d.node? (place outdir d.here x.name i k)

namespace Spares

theorem refl (outdir : Path) (spared : Descriptor → Nat → Prop) (d : Disk) :
    Spares outdir spared d d :=
  ⟨rfl, id, fun _ _ _ _ => rfl⟩

theorem trans (h : Spares outdir spared d d') (h' : Spares outdir spared d' d'') :
    Spares outdir spared d d'' where
  here := h'.here.trans h.here
  opens := fun hopens => h'.opens (h.opens hopens)
  files := by
    intro x i hx k
    have hafter := h'.files x i hx k
    rw [h.here] at hafter
    exact hafter.trans (h.files x i hx k)

theorem mono (hsub : ∀ x i, fewer x i → spared x i) (h : Spares outdir spared d d') :
    Spares outdir fewer d d' where
  here := h.here
  opens := h.opens
  files := fun x i hx => h.files x i (hsub x i hx)

/-- A trial that is spared is pending afterwards if it was before. -/
theorem pending_iff (h : Spares outdir spared d d') (hspared : spared x i)
    (hx : '/' ∉ x.name.toList) (hopens : d.Opens outdir) :
    d'.Pending outdir budget x i ↔ d.Pending outdir budget x i := by
  apply Pending.congr hx hopens (h.opens hopens)
  have hheld : ∀ k, d'.held? outdir (fileName x.name i k)
      = d.held? outdir (fileName x.name i k) := by
    intro k
    rw [held?, h.here]
    exact h.files x i hspared k
  rw [entries, hheld, hheld, entries]

end Spares

/-- The trials of some experiments but for this one. -/
def Others (xs : List Descriptor) (x : Descriptor) (i : Nat) (y : Descriptor) (j : Nat) : Prop :=
  y ∈ xs ∧ ¬ (y = x ∧ j = i)

/-- The trials of some experiments but for those of a row that are pending. -/
def Idle (d : Disk) (outdir : Path) (budget : UInt64) (xs ys : List Descriptor) (i : Nat)
    (y : Descriptor) (j : Nat) : Prop :=
  y ∈ xs ∧ ¬ (y ∈ ys ∧ j = i ∧ d.Pending outdir budget y i)

/-- What changes only files of a trial spares the others. -/
theorem Within.spares (hxs : Apart xs) (hx : x ∈ xs)
    (h : Within (TrialPlaces outdir d.here x.name i) d d') :
    Spares outdir (Others xs x i) d d' where
  here := h.here
  opens := h.opens
  files := by
    rintro y j ⟨hy, hne⟩ k
    apply h.outside
    apply hxs.not_trialPlaces hy hx
    rintro ⟨rfl, rfl⟩
    exact hne ⟨rfl, rfl⟩

end Disk

/-- The tools of a row keep to their own trials: each spares the others. -/
def Host.Spares (h : Host) (outdir : Path) (budget : UInt64) (xs : List Descriptor) (i : Nat) :
    Prop :=
  ∀ x ∈ xs, ∀ n d run, h.launch n x budget d = .ok run →
    d.Spares outdir (Disk.Others xs x i) run.disk

theorem Host.Quiet.spares {h : Host} (hquiet : h.Quiet) (outdir : Path) (budget : UInt64)
    (xs : List Descriptor) (i : Nat) : h.Spares outdir budget xs i := by
  intro x _ n d run hrun
  rw [hquiet n x budget d run hrun]
  exact Disk.Spares.refl _ _ _

/-! ## Section 2: The trials of a row -/

/-- The outcomes of the trials of a row tell which of them were pending, and the idle
    trials were spared. -/
structure Disk.Works (outdir : Path) (budget : UInt64) (xs : List Descriptor) (i : Nat) (d : Disk)
    (ys : List Descriptor) (outcomes : List (String × TrialOutcome)) (d' : Disk) : Prop where
  spares : d.Spares outdir (d.Idle outdir budget xs ys i) d'
  ran : ∀ o ∈ outcomes,
    ∃ x ∈ ys, o.1 = x.name ∧ (o.2.ran = true ↔ d.Pending outdir budget x i)

/-- First a trial and then the others, which it left pending as they were. -/
theorem Disk.Works.cons {outcome : TrialOutcome} {outcomes : List (String × TrialOutcome)}
    (hfirst : d.Spares outdir (d.Idle outdir budget xs [y] i) d')
    (hran : outcome.ran = true ↔ d.Pending outdir budget y i)
    (hsame : ∀ x ∈ ys, d'.Pending outdir budget x i ↔ d.Pending outdir budget x i)
    (hrest : d'.Works outdir budget xs i ys outcomes d'') :
    d.Works outdir budget xs i (y :: ys) ((y.name, outcome) :: outcomes) d'' where
  spares := by
    apply (hfirst.mono ?_).trans (hrest.spares.mono ?_)
    · rintro x j ⟨hx, hidle⟩
      refine ⟨hx, ?_⟩
      rintro ⟨hxy, hpending⟩
      rw [List.mem_singleton.1 hxy] at hidle hpending
      exact hidle ⟨List.mem_cons_self, hpending⟩
    · rintro x j ⟨hx, hidle⟩
      refine ⟨hx, ?_⟩
      rintro ⟨hxys, hj, hpending⟩
      exact hidle ⟨List.mem_cons_of_mem y hxys, hj, (hsame x hxys).1 hpending⟩
  ran := by
    intro o ho
    rcases List.mem_cons.1 ho with rfl | ho
    · exact ⟨y, List.mem_cons_self, rfl, hran⟩
    · obtain ⟨x, hx, hname, hiff⟩ := hrest.ran o ho
      exact ⟨x, List.mem_cons_of_mem y hx, hname, hiff.trans (hsame x hx)⟩

namespace Runner

theorem spares_trial (hspares : r.host.Spares outdir budget xs i) (hxs : Apart xs)
    (hx : x ∈ xs) (w : World) :
    w.disk.Spares outdir (Disk.Others xs x i)
      ((r.trial x budget (log outdir x.name i)).perform w).2.disk := by
  have hmaintains : (r.trial x budget (log outdir x.name i)).Maintains
      (w.disk.Spares outdir (Disk.Others xs x i)) := by
    apply maintains_trial
    · intro d d' hd hstep
      exact hd.trans ((hstep.within (hxs.no_slash x hx)).spares hxs hx)
    · intro n d run hd hrun
      exact hd.trans (hspares x hx n d run hrun)
  exact hmaintains.disk (Disk.Spares.refl _ _ _)

/-- A trial that is through launched its tool exactly if it was pending, and if it was
    not then nothing changed. -/
theorem works_trial (hspares : r.host.Spares outdir budget xs i) (hxs : Apart xs) (hx : x ∈ xs)
    {w w' : World} {outcome : TrialOutcome}
    (h : (r.trial x budget (log outdir x.name i)).perform w = (.ok outcome, w')) :
    w.disk.Spares outdir (w.disk.Idle outdir budget xs [x] i) w'.disk ∧
      (outcome.ran = true ↔ w.disk.Pending outdir budget x i) := by
  obtain ⟨known, hknown, ⟨hsettled, rfl, rfl⟩ | ⟨hpending, hran⟩⟩ := trial_ok h
  · have hnot := Disk.not_pending hknown hsettled
    exact ⟨Disk.Spares.refl _ _ _, nofun, fun hpending => absurd hpending hnot⟩
  · have hyes : w.disk.Pending outdir budget x i := ⟨known, hknown, hpending⟩
    have htrial := spares_trial hspares hxs hx w
    rw [h] at htrial
    refine ⟨htrial.mono ?_, fun _ => hyes, fun _ => hran⟩
    rintro y j ⟨hy, hidle⟩
    refine ⟨hy, ?_⟩
    rintro ⟨rfl, rfl⟩
    exact hidle ⟨List.mem_cons_self, rfl, hyes⟩

/-- Trials that are through worked off what was pending before the first of them. -/
theorem works_trials (hspares : r.host.Spares outdir budget xs i) (hxs : Apart xs)
    (hys : ∀ y ∈ ys, y ∈ xs) (hnodup : ys.Nodup) {w w' : World}
    {outcomes : List (String × TrialOutcome)} (hopens : w.disk.Opens outdir)
    (h : (r.trials outdir budget i ys).perform w = (.ok outcomes, w')) :
    w.disk.Works outdir budget xs i ys outcomes w'.disk := by
  induction ys generalizing w outcomes with
  | nil =>
    cases h
    exact ⟨Disk.Spares.refl _ _ _, nofun⟩
  | cons y ys ih =>
    obtain ⟨hy, hnodup⟩ := List.nodup_cons.1 hnodup
    have hyxs := hys y List.mem_cons_self
    have hysxs : ∀ x ∈ ys, x ∈ xs := fun x hx => hys x (List.mem_cons_of_mem y hx)
    obtain ⟨begun, outcome, mid, others, hbegun, htrial, hothers, rfl⟩ := trials_cons_ok h
    rw [← hbegun] at hopens ⊢
    obtain ⟨hfirst, hran⟩ := works_trial hspares hxs hyxs htrial
    have hrest := ih hysxs hnodup (hfirst.opens hopens) hothers
    apply Disk.Works.cons hfirst hran ?_ hrest
    -- The first trial spared the others, so they are pending as before.
    intro x hx
    have hidle : begun.disk.Idle outdir budget xs [y] i x i := by
      refine ⟨hysxs x hx, ?_⟩
      rintro ⟨hxy, -⟩
      rw [List.mem_singleton.1 hxy] at hx
      exact hy hx
    exact hfirst.pending_iff hidle (hxs.no_slash x (hysxs x hx)) hopens

/-- Trials that are through have an outcome each. -/
theorem names_of_trials {w w' : World} {outcomes : List (String × TrialOutcome)}
    (h : (r.trials outdir budget i ys).perform w = (.ok outcomes, w')) :
    outcomes.map Prod.fst = ys.map Descriptor.name := by
  induction ys generalizing w outcomes with
  | nil =>
    cases h
    rfl
  | cons y ys ih =>
    obtain ⟨_, _, mid, others, -, -, hothers, rfl⟩ := trials_cons_ok h
    rw [List.map_cons, List.map_cons, ih hothers]

end Runner

/-! ## Section 3: Sweeps -/

/-- **A sweep does the pending work.**  A sweep over some experiments that is through
    has one outcome for each and launched at least one tool.  If its tools spare the
    trials of one another, then it launched a tool exactly for those experiments whose
    trials at its iteration were pending before it, and all other trials of all rows
    kept their files. -/
theorem sweep_does_pending_work (outdir : Path) (hxs : Apart xs) (hne : xs ≠ []) (budget : UInt64)
    (r : Runner) (w w' : World) {report : SweepReport} {order : List Descriptor}
    (hrun : (r.sweep outdir budget xs).perform w = (.ok (report, order), w')) :
    (report.outcomes.map Prod.fst).Perm (xs.map Descriptor.name) ∧ 0 < report.launched ∧
    (r.host.Spares outdir budget xs report.iteration →
      (∀ x ∈ xs, ∀ outcome, (x.name, outcome) ∈ report.outcomes →
        (outcome.ran = true ↔ w.disk.Pending outdir budget x report.iteration)) ∧
      ∀ x ∈ xs, ∀ j, ¬ (j = report.iteration ∧ w.disk.Pending outdir budget x j) → ∀ k,
        w'.disk.node? (place outdir w.disk.here x.name j k)
          = w.disk.node? (place outdir w.disk.here x.name j k)) := by
  obtain ⟨begun, hbegun, hnext, horder, htrials⟩ := Runner.sweep_ok hrun
  have hopens := Runner.opens_of_sweep hxs.no_slash (congrArg Prod.fst hrun) hne
  have hpending := hnext.exists_pending hne horder
  rw [← hbegun] at hopens hpending ⊢
  refine ⟨?_, ?_, fun hspares => ?_⟩
  · rw [Runner.names_of_trials htrials]
    exact horder.map _
  · obtain ⟨x, -, _, outcome, -, -, -, hmem, hran⟩ := Runner.exists_attempted hpending htrials
    exact List.length_pos_of_mem (List.mem_filter.2 ⟨hmem, hran⟩)
  · have hworks := Runner.works_trials hspares hxs (fun x hx => horder.mem_iff.1 hx)
      (horder.nodup_iff.2 hxs.nodup) hopens htrials
    constructor
    · intro x hx outcome hmem
      -- The outcome under this name is that of this experiment.
      obtain ⟨y, hy, hname, hiff⟩ := hworks.ran _ hmem
      rw [hxs.eq_of_name hx (horder.mem_iff.1 hy) hname]
      exact hiff
    · intro x hx j hidle
      apply hworks.spares.files x j
      refine ⟨hx, ?_⟩
      rintro ⟨-, rfl, hpending⟩
      exact hidle ⟨rfl, hpending⟩

/-- One of two trials is done already, and the other one is worked off. -/
theorem sweep_does_pending_work_half :
    ∃ report order w',
      ((Runner.telling fun _ => none).sweep ⟨"out"⟩ 5 [.plain "a", .plain "b"]).perform
        (.fresh .withMeasured) = (.ok (report, order), w') ∧
      report.iteration = 0 ∧ report.outcomes = [("a", .skipped .done), ("b", .timedOut 5)] ∧
      (report.outcomes.map Prod.fst).Perm ["a", "b"] ∧ 0 < report.launched ∧
      (∀ x ∈ [Descriptor.plain "a", .plain "b"], ∀ outcome, (x.name, outcome) ∈ report.outcomes →
        (outcome.ran = true ↔ Disk.withMeasured.Pending ⟨"out"⟩ 5 x 0)) ∧
      ∀ x ∈ [Descriptor.plain "a", .plain "b"], ∀ j,
        ¬ (j = 0 ∧ Disk.withMeasured.Pending ⟨"out"⟩ 5 x j) → ∀ k,
          w'.disk.node? (place ⟨"out"⟩ [] x.name j k)
            = Disk.withMeasured.node? (place ⟨"out"⟩ [] x.name j k) := by
  have hok : ((((Runner.telling fun _ => none).sweep ⟨"out"⟩ 5 [.plain "a", .plain "b"]).perform
      (.fresh .withMeasured)).1.toOption.map fun result =>
        (result.1.iteration, result.1.outcomes))
      = some (0, [("a", .skipped .done), ("b", .timedOut 5)]) := by
    decide +kernel
  cases hrun : ((Runner.telling fun _ => none).sweep ⟨"out"⟩ 5 [.plain "a", .plain "b"]).perform
      (.fresh .withMeasured) with
  | mk result w' =>
    rw [hrun] at hok
    cases result with
    | error e => cases hok
    | ok result =>
      obtain ⟨report, order⟩ := result
      obtain ⟨hiteration, houtcomes⟩ := Prod.mk.inj (Option.some.inj hok)
      obtain ⟨hnames, hlaunched, hwork⟩ := sweep_does_pending_work ⟨"out"⟩ apart_plain_two
        (List.cons_ne_nil _ _) 5 (.telling fun _ => none) (.fresh .withMeasured) w' hrun
      have hquiet : (Runner.telling fun _ => none).host.Quiet := Host.quiet_telling fun _ => none
      obtain ⟨hran, hfiles⟩ := hwork (hquiet.spares _ _ _ _)
      have hiteration : report.iteration = 0 := hiteration
      rw [hiteration] at hran hfiles
      exact ⟨report, order, w', rfl, hiteration, houtcomes, hnames, hlaunched, hran, hfiles⟩

/-- The runner whose tools write nothing to their outputs, but a log of the row above. -/
def Runner.meddling : Runner :=
  { Runner.telling fun _ => none with
    host := { Host.telling fun _ => none with
      launch := fun _ _ _ d => .ok ⟨.empty, .exited, d.put ["a-1", "out"] (.file .empty)⟩ } }

/-- Nothing confines a tool: a sweep at one row is through, and a trial of the row above
    has a log that it did not have. -/
theorem sweep_writes_row_above :
    Apart [.plain "a"] ∧ ∃ report order w',
      (Runner.meddling.sweep ⟨"out"⟩ 60 [.plain "a"]).perform (.fresh .emptyOut)
        = (.ok (report, order), w') ∧
      report.iteration = 0 ∧
      Disk.emptyOut.node? (place ⟨"out"⟩ [] "a" 1 .log) = none ∧
      w'.disk.node? (place ⟨"out"⟩ [] "a" 1 .log) = some (.file .empty) := by
  have hok : ((Runner.meddling.sweep ⟨"out"⟩ 60 [.plain "a"]).perform
      (.fresh .emptyOut)).1.toOption.map (fun result => result.1.iteration) = some 0 := by
    decide +kernel
  have hwritten : ((Runner.meddling.sweep ⟨"out"⟩ 60 [.plain "a"]).perform
      (.fresh .emptyOut)).2.disk.node? (place ⟨"out"⟩ [] "a" 1 .log) = some (.file .empty) := by
    decide +kernel
  cases hrun : (Runner.meddling.sweep ⟨"out"⟩ 60 [.plain "a"]).perform (.fresh .emptyOut) with
  | mk result w' =>
    rw [hrun] at hok hwritten
    cases result with
    | error e => cases hok
    | ok result =>
      obtain ⟨report, order⟩ := result
      exact ⟨apart_plain, report, order, w', rfl, Option.some.inj hok, by decide +kernel, hwritten⟩

end BenchSweep
