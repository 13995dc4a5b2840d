import BenchSweep.Proofs.Run.Exits
import BenchSweep.Proofs.Run.Settled

/-! # Outcome and Disk Agree

    Whatever a trial comes to, its result says what stands on the disk afterwards:
    the log of a tool that ended, the marker of one that overran, or neither.  The
    log may have any path and the disk may hold anything before. -/

namespace BenchSweep

open Artifact Act

/-! ## Section 1: What a result says -/

namespace Disk

/-- The log holds an output, and there is no marker beside it. -/
structure HasLog (d : Disk) (log : Path) (output : ByteArray) : Prop where
  held : d.read log = .ok output
  unmarked : d.find (marker log) = .error .notFound

/-- There is neither a log nor a marker. -/
structure HasNeither (d : Disk) (log : Path) : Prop where
  bare : d.find log = .error .notFound
  unmarked : d.find (marker log) = .error .notFound

/-- The log set aside is what it was on an earlier disk. -/
def SameAside (log : Path) (d d' : Disk) : Prop :=
  d'.node? ((aside log).locate d'.here) = d.node? ((aside log).locate d.here)

end Disk

namespace Runner

/-- The launch of a trial came to this.  The tool found an empty log, no marker, and
    everything else as it was. -/
def Launched (r : Runner) (x : Descriptor) (budget : UInt64) (log : Path) (w : World)
    (launched : Except IoError ToolRun) : Prop :=
  ∃ d, w.disk.Within (Disk.FilePlaces log w.disk.here) d ∧ d.HasLog log .empty ∧
    r.host.launch w.asked x budget d = launched

/-- The result of a trial that begins in a world says what is on the disk after it. -/
def Agrees (r : Runner) (x : Descriptor) (budget : UInt64) (log : Path) (w : World) (d : Disk) :
    Except TrialError TrialOutcome → Prop
  | .ok (.skipped status) => d = w.disk ∧
    ∃ known, w.disk.status x log = .ok known ∧ known.status = status ∧
      known.isPending budget = false
  | .ok (.completed time) =>
    ∃ run, r.Launched x budget log w (.ok run) ∧ run.ending = .exited ∧ d.HasLog log run.output ∧
      ∃ metrics, d.status x log = .ok (.done time metrics)
  | .ok (.timedOut seconds) =>
    (∃ run, r.Launched x budget log w (.ok run) ∧ run.ending = .overran) ∧ seconds = budget ∧
      d.find log = .error .notFound ∧ d.read (marker log) = .ok (budgetText budget)
  | .ok .incomplete =>
    ∃ run, r.Launched x budget log w (.ok run) ∧ run.ending = .exited ∧ d.HasLog log run.output ∧
      d.status x log = .ok .notDone
  | .error (.store cause) => d = w.disk ∧ w.disk.status x log = .error cause
  | .error (.launch experiment program cause) =>
    experiment = x.name ∧ program = x.invocation.program ∧
      r.Launched x budget log w (.error cause) ∧ d.HasNeither log ∧ w.disk.SameAside log d
  | .error (.interrupted experiment) => experiment = x.name ∧
    ∃ run, r.Launched x budget log w (.ok run) ∧ run.ending = .stopped ∧ d.HasNeither log ∧
      match r.onInterrupt with
      | .rename => d.read (aside log) = .ok run.output
      | .discard => w.disk.SameAside log d
  -- The log could not be made, or not be set aside, or the tool was lost.
  | .error (.artifact path cause) => path = log ∧
    ((¬ ∃ dir s, w.disk.Seats log dir s) ∨
      (∃ run, r.Launched x budget log w (.ok run) ∧ run.ending = .stopped ∧
        r.onInterrupt = .rename ∧ d.HasLog log run.output ∧ w.disk.SameAside log d) ∨
      ∃ run, r.Launched x budget log w (.ok run) ∧ run.ending = .lost cause ∧
        d.HasNeither log ∧ w.disk.SameAside log d)

variable {r : Runner} {x : Descriptor} {budget : UInt64} {log dir : Path} {s : String}
  {d₀ : Disk} {w : World}

/-! ## Section 2: Logs that cannot be made -/

/-- What a failed change of the files of a log leaves. -/
def Blames (log : Path) (d₀ : Disk) (e : TrialError) (d : Disk) : Prop :=
  (∃ cause, e = .artifact log cause) ∧ d₀.Within (Disk.FilePlaces log d₀.here) d

/-- A change that fails blames the log. -/
theorem meets_step {g : Disk → Except IoError Disk}
    (hg : ∀ d d', g d = .ok d' → TrialStep log budget d d') :
    Meets (d₀.Within (Disk.FilePlaces log d₀.here)) (Runner.change log g)
      (fun _ => d₀.Within (Disk.FilePlaces log d₀.here)) (Blames log d₀) := by
  refine meets_blame (meets_change fun d hd => ?_)
  cases hrun : g d with
  | error cause => exact ⟨⟨cause, rfl⟩, hd⟩
  | ok d' =>
    have hwithin := (hg d d' hrun).withinFiles
    rw [hd.here] at hwithin
    exact hd.trans hwithin

/-- Where the log is no name in an open directory the attempt ends before the launch. -/
theorem meets_prepare_of_unseated (hno : ¬ ∃ dir s, d₀.Seats log dir s) :
    Meets (· = d₀) (r.prepare x log) (fun _ _ => False) (Blames log d₀) := by
  -- Either file may be missing, and removing it may fail.
  have hdropLog : Meets (d₀.Within (Disk.FilePlaces log d₀.here))
      (Runner.change log (·.discard log)) (fun _ => d₀.Within (Disk.FilePlaces log d₀.here))
      (Blames log d₀) :=
    meets_step fun _ _ h => (TrialStep.dropLog h : TrialStep log 0 _ _)
  have hdropMarker : Meets (d₀.Within (Disk.FilePlaces log d₀.here))
      (Runner.change log (·.discard (marker log)))
      (fun _ => d₀.Within (Disk.FilePlaces log d₀.here)) (Blames log d₀) :=
    meets_step fun _ _ h => (TrialStep.dropMarker h : TrialStep log 0 _ _)
  have hcreate : Meets (d₀.Within (Disk.FilePlaces log d₀.here))
      (Runner.change log (·.write log .empty)) (fun _ _ => False) (Blames log d₀) := by
    refine meets_blame (meets_change fun d hd => ?_)
    cases hrun : d.write log .empty with
    | error cause => exact ⟨⟨cause, rfl⟩, hd⟩
    | ok d' =>
      -- A log that could be made shows that its directory was open from the first.
      obtain ⟨dir, s, hseats⟩ := Disk.seats_of_write hrun
      exact hno ⟨dir, s, hseats.joined, hseats.named, hd.symm.opens hseats.opens⟩
  unfold prepare clear
  refine meets_bind (meets_bind ?_ fun _ => hdropMarker) fun _ =>
    meets_bind meets_announce fun _ => hcreate
  refine hdropLog.mono ?_ (fun _ _ hd => hd) fun _ _ hd => hd
  rintro d rfl
  exact Disk.Within.refl _ _

/-! ## Section 3: Every exit agrees -/

theorem Launched.of_turned (hseats : w.disk.Seats log dir s)
    (hr : ∀ k, k ≠ .aside → (file log k).refusal? = none) {before : Option FileNode} {d₁ : Disk}
    (h : Disk.Turned log w.disk ⟨some (.file .empty), none, before⟩ d₁) :
    r.Launched x budget log w (r.host.launch w.asked x budget d₁) := by
  have hlog := h.read_file hseats (hr .log (by decide)) (k := .log) rfl
  have hmarker := h.find_none hseats (hr .marker (by decide)) (k := .marker) rfl
  rw [file_log] at hlog
  rw [file_marker] at hmarker
  exact ⟨d₁, h.within, ⟨hlog, hmarker⟩, rfl⟩

/-- The result at an exit says which files are left there. -/
theorem agrees_of_exit (hseats : w.disk.Seats log dir s)
    (hr : ∀ k, k ≠ .aside → (file log k).refusal? = none) {launched : Except IoError ToolRun}
    (hlaunched : r.Launched x budget log w launched) {result : Except TrialError TrialOutcome}
    {f : Files} {d : Disk} (hturned : Disk.Turned log w.disk f d)
    (hexit : Exit r x budget log (w.disk.filesOf log).aside launched result f) :
    r.Agrees x budget log w d result := by
  have hlogr := hr .log (by decide)
  have hmarkerr := hr .marker (by decide)
  have hbare : f.log = none → d.find log = .error .notFound := by
    intro hf
    have hfind := hturned.find_none hseats hlogr hf
    rwa [file_log] at hfind
  have hunmarked : f.marker = none → d.find (marker log) = .error .notFound := by
    intro hf
    have hfind := hturned.find_none hseats hmarkerr hf
    rwa [file_marker] at hfind
  have haside : f.aside = (w.disk.filesOf log).aside → w.disk.SameAside log d := by
    intro hf
    have hnode := hturned.node? .aside
    rw [file_aside] at hnode
    exact hnode.trans (hf.trans (by simp only [Disk.filesOf, file_aside]))
  generalize hbefore : (w.disk.filesOf log).aside = before at hexit haside
  have hlog : ∀ {output}, f.log = some (.file output) → f.marker = none → d.HasLog log output := by
    intro output hf hf'
    have hheld := hturned.read_file hseats hlogr (k := .log) hf
    rw [file_log] at hheld
    exact ⟨hheld, hunmarked hf'⟩
  cases hexit with
  | unlaunched cause => exact ⟨rfl, rfl, hlaunched, ⟨hbare rfl, hunmarked rfl⟩, haside rfl⟩
  | @ended run hending =>
    have hlog : d.HasLog log run.output := hlog rfl rfl
    have hstatus := Disk.status_of_log (x := x) budget hlog.held hlog.unmarked
    -- What is on record now decides what the trial came to.
    rcases recordOf_some x budget run.output with hrecord | ⟨t, m, hrecord⟩
    · rw [hrecord] at hstatus ⊢
      exact ⟨run, hlaunched, hending, hlog, hstatus⟩
    · rw [hrecord] at hstatus ⊢
      exact ⟨run, hlaunched, hending, hlog, m, hstatus⟩
  | @overran run hending =>
    have hmarked := hturned.read_file hseats hmarkerr (k := .marker) rfl
    rw [file_marker] at hmarked
    exact ⟨⟨run, hlaunched, hending⟩, rfl, hbare rfl, hmarked⟩
  | @setAside run hending hpolicy hrefusal =>
    have hkept := hturned.read_file hseats hrefusal (k := .aside) rfl
    rw [file_aside] at hkept
    refine ⟨rfl, run, hlaunched, hending, ⟨hbare rfl, hunmarked rfl⟩, ?_⟩
    rw [hpolicy]
    exact hkept
  | @stuck run cause hending hpolicy =>
    exact ⟨rfl, Or.inr (Or.inl ⟨run, hlaunched, hending, hpolicy, hlog rfl rfl, haside rfl⟩)⟩
  | @dropped run hending hpolicy =>
    refine ⟨rfl, run, hlaunched, hending, ⟨hbare rfl, hunmarked rfl⟩, ?_⟩
    rw [hpolicy]
    exact haside rfl
  | @lost run cause hending =>
    have hneither : d.HasNeither log := ⟨hbare rfl, hunmarked rfl⟩
    exact ⟨rfl, Or.inr (Or.inr ⟨run, hlaunched, hending, hneither, haside rfl⟩)⟩

/-- An attempt at a pending trial, wherever its log is. -/
theorem attempt_agrees (hquiet : r.host.Quiet) {known : RunRecord}
    (hknown : w.disk.status x log = .ok known) (hpending : known.isPending budget = true) :
    w.disk.Within (Disk.FilePlaces log w.disk.here) ((r.attempt x budget log).perform w).2.disk ∧
      r.Agrees x budget log w ((r.attempt x budget log).perform w).2.disk
        ((r.attempt x budget log).perform w).1 := by
  by_cases hseated : ∃ dir s, w.disk.Seats log dir s
  · obtain ⟨dir, s, hseats⟩ := hseated
    have htakes := fun k (hk : k ≠ Kind.aside) => hseats.takes_of_pending hknown hpending hk
    have hr : ∀ k, k ≠ .aside → (file log k).refusal? = none := fun k hk => (htakes k hk).1
    obtain ⟨d₁, hturned, f, hleft, hexit⟩ := attempt_leaves hseats hr hquiet x budget
      rfl fun k hk => (htakes k hk).2
    exact ⟨hleft.within, agrees_of_exit hseats hr (.of_turned hseats hr hturned) hleft hexit⟩
  · have hprepare := meets_prepare_of_unseated (r := r) (x := x) hseated w rfl
    unfold attempt
    rw [perform_bind]
    cases hrun : (r.prepare x log).perform w with
    | mk result w₁ =>
      rw [hrun] at hprepare
      cases result with
      | ok u => exact hprepare.elim
      | error e =>
        obtain ⟨⟨cause, rfl⟩, hwithin⟩ := hprepare
        exact ⟨hwithin, rfl, Or.inl hseated⟩

end Runner

/-- **Outcome and disk agree after every trial.**  Let the tools write to nothing but
    their outputs and the runner not rest.  Whatever the path of the log, the disk
    before and the way in which the trial ends: only the log, its marker and the log
    set aside may differ afterwards, and the result says what they are. -/
theorem trial_agrees (r : Runner) (hquiet : r.host.Quiet) (hrest : r.settle.isZero = true)
    (x : Descriptor) (budget : UInt64) (log : Path) (w : World) :
    w.disk.Within (Disk.FilePlaces log w.disk.here) ((r.trial x budget log).perform w).2.disk ∧
      r.Agrees x budget log w ((r.trial x budget log).perform w).2.disk
        ((r.trial x budget log).perform w).1 := by
  cases hknown : w.disk.status x log with
  | error cause =>
    rw [Runner.perform_trial_of_error hknown]
    exact ⟨Disk.Within.refl _ _, rfl, hknown⟩
  | ok known =>
    cases hpending : known.isPending budget with
    | false =>
      rw [Runner.perform_trial_of_settled hknown hpending]
      exact ⟨Disk.Within.refl _ _, rfl, known, hknown, rfl, hpending⟩
    | true =>
      -- Without a rest the trial is its attempt.
      have htrial : (r.trial x budget log).perform w = (r.attempt x budget log).perform w := by
        rw [Runner.perform_trial_of_pending hknown hpending, Runner.rest, if_pos hrest,
          perform_bind]
        cases (r.attempt x budget log).perform w with
        | mk result w' => cases result <;> rfl
      rw [htrial]
      exact Runner.attempt_agrees hquiet hknown hpending

/-- A runner whose operator stops every tool when it has written so much. -/
def Runner.interrupting (output : ByteArray) : Runner where
  host := { Host.telling fun _ => none with launch := fun _ _ _ d => .ok ⟨output, .stopped, d⟩ }
  voice := ⟨.en, false⟩
  settle := ⟨0⟩
  onInterrupt := .rename

/-- An output directory with all that earlier attempts may have left of a trial. -/
def Disk.withRemains : Disk where
  here := []
  nodes := [(["a-0", "out"], .file .empty), (["a-0.timeout", "out"], .file (budgetText 1)),
    (["a-0.interrupted", "out"], .file .empty), (["out"], .dir)]

theorem trial_agrees_stopped :
    (Runner.interrupting measured).host.Quiet ∧
      (Runner.interrupting measured).settle.isZero = true ∧
      (((Runner.interrupting measured).trial (.plain "a") 9 (Artifact.log ⟨"out"⟩ "a" 0)).perform
        (.fresh .withRemains)).1 = .error (.interrupted "a") ∧
      Disk.withRemains.Within (Disk.FilePlaces (Artifact.log ⟨"out"⟩ "a" 0) [])
        (((Runner.interrupting measured).trial (.plain "a") 9 (Artifact.log ⟨"out"⟩ "a" 0)).perform
          (.fresh .withRemains)).2.disk ∧
      (Runner.interrupting measured).Agrees (.plain "a") 9 (Artifact.log ⟨"out"⟩ "a" 0)
        (.fresh .withRemains)
        (((Runner.interrupting measured).trial (.plain "a") 9 (Artifact.log ⟨"out"⟩ "a" 0)).perform
          (.fresh .withRemains)).2.disk (.error (.interrupted "a")) := by
  have hquiet : (Runner.interrupting measured).host.Quiet := by
    rintro n x budget d run ⟨⟩
    rfl
  have hrest : (Runner.interrupting measured).settle.isZero = true := rfl
  have hresult : (((Runner.interrupting measured).trial (.plain "a") 9
      (Artifact.log ⟨"out"⟩ "a" 0)).perform (.fresh .withRemains)).1
        = .error (.interrupted "a") := rfl
  obtain ⟨hwithin, hagrees⟩ := trial_agrees (.interrupting measured) hquiet hrest (.plain "a") 9
    (Artifact.log ⟨"out"⟩ "a" 0) (.fresh .withRemains)
  rw [hresult] at hagrees
  exact ⟨hquiet, hrest, hresult, hwithin, hagrees⟩

end BenchSweep
