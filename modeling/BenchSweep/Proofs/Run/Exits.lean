import BenchSweep.Proofs.Run.Files
import BenchSweep.Proofs.Run.Meets

/-! # How an Attempt Ends

    An attempt takes the old log and the old marker away, makes an empty log, and
    launches the tool once.  There is one exit for each way in which the launch may
    end, and at each exit it is known what stands at the places of the log, of the
    marker and of the log set aside.  Wherever the log is, nothing else changes. -/

namespace BenchSweep

open Artifact Act

/-! ## Section 1: Records -/

section Records

variable {d : Disk} {x : Descriptor} {log dir p : Path} {s : String} {budget : UInt64}
  {known : RunRecord} {content : ByteArray}

theorem Artifact.content?_of_read (h : d.read p = .ok content) :
    content? d p = .ok (some (Text.decode content)) := by
  unfold content? readText?
  rw [h]
  rfl

theorem Artifact.content?_of_missing (h : d.find p = .error .notFound) :
    content? d p = .ok none := by
  unfold content? readText? Disk.read
  rw [h]
  rfl

/-- Where a trial is pending both its log and its marker were read. -/
theorem Disk.contents_of_pending (hknown : d.status x log = .ok known)
    (hpending : known.isPending budget = true) :
    (∃ c, content? d log = .ok c) ∧ ∃ c, content? d (marker log) = .ok c := by
  unfold status at hknown
  cases hlog : content? d log with
  | error e => rw [hlog] at hknown; cases hknown
  | ok c =>
    simp only [hlog, bind, Except.bind] at hknown
    cases hproof : proof? x c with
    | some r =>
      -- A log that proves a run is not pending.
      obtain ⟨t, m, rfl⟩ := proof?_done hproof
      rw [hproof] at hknown
      cases hknown
      cases hpending
    | none =>
      rw [hproof] at hknown
      simp only at hknown
      cases hmarker : content? d (marker log) with
      | error e => rw [hmarker] at hknown; cases hknown
      | ok c' => exact ⟨⟨c, rfl⟩, c', rfl⟩

/-- Where a trial is pending its files can be written. -/
theorem Disk.Seats.takes_of_pending (h : d.Seats log dir s) (hknown : d.status x log = .ok known)
    (hpending : known.isPending budget = true) {k : Kind} (hk : k ≠ .aside) :
    (file log k).refusal? = none ∧ (d.filesOf log).get k ≠ some .dir := by
  obtain ⟨⟨c, hc⟩, c', hc'⟩ := Disk.contents_of_pending hknown hpending
  cases k with
  | log => exact h.takes_of_content? (by rw [file_log]; exact hc)
  | marker => exact h.takes_of_content? (by rw [file_marker]; exact hc')
  | aside => exact absurd rfl hk

/-- What is recorded of a trial when a tool is through with it. -/
def recordOf (x : Descriptor) (budget : UInt64) : Option ByteArray → RunRecord
  | some output => (proof? x (some (Text.decode output))).getD .notDone
  | none => .timeout budget

/-- What an attempt came to that is recorded so. -/
def RunRecord.outcome : RunRecord → TrialOutcome
  | .notDone => .incomplete
  | .done time _ => .completed time
  | .timeout seconds => .timedOut seconds

/-- Of a tool that ended there is a completed run on record or none. -/
theorem recordOf_some (x : Descriptor) (budget : UInt64) (output : ByteArray) :
    recordOf x budget (some output) = .notDone ∨
      ∃ t m, recordOf x budget (some output) = .done t m := by
  rw [recordOf]
  cases hproof : proof? x (some (Text.decode output)) with
  | none => exact Or.inl rfl
  | some record =>
    obtain ⟨t, m, rfl⟩ := proof?_done hproof
    exact Or.inr ⟨t, m, rfl⟩

/-- A log without a marker beside it is on record as what it proves. -/
theorem Disk.status_of_log (budget : UInt64) (hlog : d.read log = .ok content)
    (hmarker : d.find (marker log) = .error .notFound) :
    d.status x log = .ok (recordOf x budget (some content)) := by
  rw [status_of_contents (content?_of_read hlog) (content?_of_missing hmarker), recordOf]
  cases proof? x (some (Text.decode content)) <;> rfl

end Records

/-! ## Section 2: Exits -/

/-- What a launch leads to: a result, and the files that are left.  Of the log set
    aside it is known what was there before. -/
inductive Exit (r : Runner) (x : Descriptor) (budget : UInt64) (log : Path)
    (before : Option FileNode) :
    Except IoError ToolRun → Except TrialError TrialOutcome → Files → Prop where
  /-- The tool could not be launched. -/
  | unlaunched (cause : IoError) :
      Exit r x budget log before (.error cause)
        (.error (.launch x.name x.invocation.program cause)) ⟨none, none, before⟩
  /-- The tool ended, and its log is on record. -/
  | ended {run : ToolRun} : run.ending = .exited →
      Exit r x budget log before (.ok run) (.ok (recordOf x budget (some run.output)).outcome)
        ⟨some (.file run.output), none, before⟩
  /-- The budget ran out. -/
  | overran {run : ToolRun} : run.ending = .overran →
      Exit r x budget log before (.ok run) (.ok (.timedOut budget))
        ⟨none, some (.file (budgetText budget)), before⟩
  /-- The tool was stopped, and its log was set aside. -/
  | setAside {run : ToolRun} : run.ending = .stopped → r.onInterrupt = .rename →
      (file log .aside).refusal? = none →
      Exit r x budget log before (.ok run) (.error (.interrupted x.name))
        ⟨none, none, some (.file run.output)⟩
  /-- The tool was stopped, and its log could not be set aside. -/
  | stuck {run : ToolRun} (cause : IoError) : run.ending = .stopped → r.onInterrupt = .rename →
      Exit r x budget log before (.ok run) (.error (.artifact log cause))
        ⟨some (.file run.output), none, before⟩
  /-- The tool was stopped, and its log was dropped. -/
  | dropped {run : ToolRun} : run.ending = .stopped → r.onInterrupt = .discard →
      Exit r x budget log before (.ok run) (.error (.interrupted x.name)) ⟨none, none, before⟩
  /-- Nobody could tell how the tool ended. -/
  | lost {run : ToolRun} (cause : IoError) : run.ending = .lost cause →
      Exit r x budget log before (.ok run) (.error (.artifact log cause)) ⟨none, none, before⟩

namespace Runner

/-- What an attempt at a trial leaves, given what its launch came to. -/
def Leaves (r : Runner) (x : Descriptor) (budget : UInt64) (log : Path) (d₀ : Disk)
    (launched : Except IoError ToolRun) (result : Except TrialError TrialOutcome) (d : Disk) :
    Prop :=
  ∃ f, Disk.Turned log d₀ f d ∧ Exit r x budget log (d₀.filesOf log).aside launched result f

/-- What comes before the launch: the old files go, and an empty log is made. -/
def prepare (r : Runner) (x : Descriptor) (log : Path) : Act TrialError Unit := do
  clear log
  r.announce x
  change log (·.write log .empty)

/-- An attempt, without the rest after it. -/
def attempt (r : Runner) (x : Descriptor) (budget : UInt64) (log : Path) :
    Act TrialError TrialOutcome := do
  r.prepare x log
  r.conclude x budget log (← (r.launch x budget log).outcome)

variable {r : Runner} {x : Descriptor} {budget : UInt64} {log dir : Path} {s : String}
  {d₀ : Disk} {f : Files} {k : Kind} {before : Option FileNode} {E : TrialError → Disk → Prop}

/-- A trial that is pending is an attempt and a rest. -/
theorem perform_trial_of_pending {w : World} {known : RunRecord}
    (hknown : w.disk.status x log = .ok known) (hpending : known.isPending budget = true) :
    (r.trial x budget log).perform w = (do
      let outcome ← r.attempt x budget log
      r.rest x
      return outcome : Act TrialError TrialOutcome).perform w := by
  unfold trial attempt prepare
  rw [perform_bind, perform_record_of_ok hknown]
  simp only [hpending, Bool.not_true, Bool.false_eq_true, ↓reduceIte, bind_assoc]

/-- What an attempt concludes is never that there was nothing to do. -/
theorem ran_of_conclude {w : World} {ending : Except IoError Ending} {outcome : TrialOutcome}
    (h : ((r.conclude x budget log ending).perform w).1 = .ok outcome) : outcome.ran = true := by
  unfold conclude at h
  split at h
  · obtain ⟨_, -, h, -⟩ := perform_bind_ok h
    obtain ⟨_, -, h, -⟩ := perform_bind_ok h
    cases h
  · obtain ⟨_, -, h, -⟩ := perform_bind_ok h
    obtain ⟨_, -, h, -⟩ := perform_bind_ok h
    cases h
  · obtain ⟨_, -, h, -⟩ := perform_bind_ok h
    obtain ⟨_, -, h, -⟩ := perform_bind_ok h
    obtain ⟨_, -, h, -⟩ := perform_bind_ok h
    cases h
    rfl
  · obtain ⟨_, -, h, -⟩ := perform_bind_ok h
    obtain ⟨_, -, h, -⟩ := perform_bind_ok h
    cases h
  · obtain ⟨known, -, h, -⟩ := perform_bind_ok h
    split at h
    · cases h
      rfl
    · cases h
      rfl

/-- A trial that is through was settled and skipped, or it was pending and its tool
    was launched. -/
theorem trial_ok {w w' : World} {outcome : TrialOutcome}
    (h : (r.trial x budget log).perform w = (.ok outcome, w')) :
    ∃ known, w.disk.status x log = .ok known ∧
      (known.isPending budget = false ∧ outcome = .skipped known.status ∧ w' = w ∨
        known.isPending budget = true ∧ outcome.ran = true) := by
  cases hknown : w.disk.status x log with
  | error cause =>
    rw [perform_trial_of_error hknown] at h
    cases h
  | ok known =>
    refine ⟨known, rfl, ?_⟩
    cases hpending : known.isPending budget with
    | false =>
      rw [perform_trial_of_settled hknown hpending] at h
      cases h
      exact Or.inl ⟨rfl, rfl, rfl⟩
    | true =>
      rw [perform_trial_of_pending hknown hpending] at h
      have hok := congrArg Prod.fst h
      obtain ⟨_, hattempt, hok, -⟩ := perform_bind_ok hok
      obtain ⟨_, -, hok, -⟩ := perform_bind_ok hok
      cases hok
      obtain ⟨_, -, hattempt, -⟩ := perform_bind_ok hattempt
      obtain ⟨_, -, hattempt, -⟩ := perform_bind_ok hattempt
      exact Or.inr ⟨rfl, ran_of_conclude hattempt⟩

/-- Preparing a launch asks nothing of the surroundings. -/
theorem asked_prepare (r : Runner) (x : Descriptor) (log : Path) (w : World) :
    ((r.prepare x log).perform w).2.asked = w.asked := by
  have hchange : ∀ (g : Disk → Except IoError Disk) (w : World),
      ((Runner.change log g).perform w).2.asked = w.asked := by
    intro g w
    unfold Runner.change
    rw [perform_blame, perform_change]
    cases g w.disk <;> rfl
  have hbind : ∀ {α β : Type} (a : Act TrialError α) (g : α → Act TrialError β),
      (∀ w, (a.perform w).2.asked = w.asked) → (∀ y w, ((g y).perform w).2.asked = w.asked) →
      ∀ w, ((a >>= g).perform w).2.asked = w.asked := by
    intro α β a g ha hg w
    rw [perform_bind]
    cases hrun : a.perform w with
    | mk result w' =>
      have hw' := ha w
      rw [hrun] at hw'
      cases result with
      | ok y => exact (hg y w').trans hw'
      | error e => exact hw'
  unfold prepare clear
  refine hbind _ _ (hbind _ _ (hchange _) fun _ => hchange _) (fun _ => ?_) w
  exact hbind _ _ (fun _ => rfl) fun _ => hchange _

theorem meets_tell {ε : Type} {E : ε → Disk → Prop} {P : Disk → Prop} (style : Text.Style)
    (p : Phrase) : Meets P (r.tell style p : Act ε Unit) (fun _ => P) E :=
  meets_print fun _ h => h

theorem meets_announce {P : Disk → Prop} : Meets P (r.announce x) (fun _ => P) E :=
  meets_print fun _ h => h

section Seated

variable (hseats : d₀.Seats log dir s) (hr : ∀ k, k ≠ .aside → (file log k).refusal? = none)

include hseats hr

/-! ### One change -/

/-- Dropping a file takes it away. -/
theorem meets_drop (hk : k ≠ .aside) (hdir : f.get k ≠ some .dir) :
    Meets (Disk.Turned log d₀ f) (Runner.change log (·.discard (file log k)))
      (fun _ => Disk.Turned log d₀ (f.set k none)) E := by
  refine meets_blame (meets_change fun d hd => ?_)
  have hsd := hd.seats hseats
  have hrk := hr k hk
  rw [hsd.joined k] at hrk
  have hremove := hsd.opens.remove_join (hsd.isFileName k) hrk
  rw [← hsd.joined k, hsd.held? k, hd.files, ← hsd.place k] at hremove
  rw [Disk.discard, hremove]
  cases hget : f.get k with
  | none =>
    show Disk.Turned log d₀ (f.set k none) d
    rw [← hget, f.set_get k]
    exact hd
  | some n =>
    cases n with
    | dir => exact absurd hget hdir
    | file content => exact hd.erase hseats hdir

/-- Writing a file puts it there. -/
theorem meets_write (hk : k ≠ .aside) (hdir : f.get k ≠ some .dir) (content : ByteArray) :
    Meets (Disk.Turned log d₀ f) (Runner.change log (·.write (file log k) content))
      (fun _ => Disk.Turned log d₀ (f.set k (some (.file content)))) E := by
  refine meets_blame (meets_change fun d hd => ?_)
  have hsd := hd.seats hseats
  have hwrite : d.write (file log k) content
      = .ok (d.put ((file log k).locate d.here) (.file content)) := by
    have hrk := hr k hk
    have hheld : d.held? dir (s ++ k.ending) ≠ some .dir := by
      rw [hsd.held? k, hd.files]
      exact hdir
    rw [hsd.place k]
    rw [hsd.joined k] at hrk ⊢
    exact hsd.opens.write_join (hsd.isFileName k) hrk content hheld
  rw [hwrite]
  exact hd.put hseats hdir content

/-- Setting the log aside moves it, if the system takes the path. -/
theorem meets_setAside {output : ByteArray} :
    Meets (Disk.Turned log d₀ ⟨some (.file output), none, before⟩)
      (Runner.change log (·.rename log (aside log)))
      (fun _ d => (file log .aside).refusal? = none ∧
        Disk.Turned log d₀ ⟨none, none, some (.file output)⟩ d)
      (fun e d => (∃ cause, e = .artifact log cause) ∧
        Disk.Turned log d₀ ⟨some (.file output), none, before⟩ d) := by
  refine meets_blame (meets_change fun d hd => ?_)
  have hsd := hd.seats hseats
  cases hrename : d.rename log (aside log) with
  | error cause => exact ⟨⟨cause, rfl⟩, hd⟩
  | ok d' =>
    obtain ⟨hp, hq, ⟨m, hm⟩, content, hread, rfl⟩ := Disk.rename_ok hrename
    -- What was read of the log is what the tool wrote.
    have hcontent : content = output := by
      have hlog := hd.read_file hseats (hr .log (by decide)) (k := .log) rfl
      rw [file_log, hread] at hlog
      exact Except.ok.inj hlog
    rw [← file_aside, hsd.joined .aside] at hm
    have hrefusal := (Disk.opens_of_locate (hsd.isFileName .aside) hm).2
    rw [← hsd.joined .aside] at hrefusal
    refine ⟨hrefusal, ?_⟩
    rw [← file_aside, hd.node? .aside] at hq
    have herased := hd.erase hseats (k := .log) nofun
    have hput := herased.put hseats (k := .aside) hq content
    rw [hcontent, file_log, file_aside] at hput
    rw [hcontent]
    exact hput

/-! ### The parts of an attempt -/

/-- With the old files out of the way there is an empty log. -/
theorem meets_prepare (hdirs : ∀ k, k ≠ .aside → (d₀.filesOf log).get k ≠ some .dir) :
    Meets (· = d₀) (r.prepare x log)
      (fun _ => Disk.Turned log d₀ ⟨some (.file .empty), none, (d₀.filesOf log).aside⟩) E := by
  have hstart : ∀ d, d = d₀ → Disk.Turned log d₀ (d₀.filesOf log) d := by
    rintro d rfl
    exact Disk.Turned.refl log d
  have hlog := meets_drop (E := E) hseats hr (k := .log) (by decide) (hdirs .log (by decide))
  have hmarker := meets_drop (E := E) hseats hr (k := .marker)
    (f := (d₀.filesOf log).set .log none) (by decide) (hdirs .marker (by decide))
  have hcreate := meets_write (E := E) hseats hr (k := .log)
    (f := ((d₀.filesOf log).set .log none).set .marker none) (by decide) nofun .empty
  rw [file_log] at hlog hcreate
  rw [file_marker] at hmarker
  unfold prepare clear
  refine meets_bind (meets_bind ?_ fun _ => hmarker) fun _ => meets_bind meets_announce fun _ => ?_
  · exact hlog.mono hstart (fun _ _ hd => hd) fun _ _ hd => hd
  · exact hcreate

theorem meets_dropLog {output : ByteArray} :
    Meets (Disk.Turned log d₀ ⟨some (.file output), none, before⟩)
      (Runner.change log (·.discard log)) (fun _ => Disk.Turned log d₀ ⟨none, none, before⟩) E := by
  have hdrop := meets_drop (E := E) hseats hr (f := ⟨some (.file output), none, before⟩) (k := .log)
    (by decide) nofun
  rw [file_log] at hdrop
  exact hdrop

theorem meets_mark :
    Meets (Disk.Turned log d₀ ⟨none, none, before⟩) (Runner.change log (·.mark log budget))
      (fun _ => Disk.Turned log d₀ ⟨none, some (.file (budgetText budget)), before⟩) E := by
  have hwrite := meets_write (E := E) hseats hr (f := ⟨none, none, before⟩) (k := .marker)
    (by decide) nofun (budgetText budget)
  rw [file_marker] at hwrite
  exact hwrite

/-- A tool that was launched fills the log. -/
theorem turned_refill {d : Disk} {old : ByteArray}
    (hd : Disk.Turned log d₀ ⟨some (.file old), none, before⟩ d) (output : ByteArray) :
    Disk.Turned log d₀ ⟨some (.file output), none, before⟩ (d.refill log output) := by
  have hsd := hd.seats hseats
  have hrefill : d.refill log output = d.put ((file log .log).locate d.here) (.file output) := by
    have hrk := hr .log (by decide)
    have hheld : d.held? dir (s ++ Kind.log.ending) = some (.file old) := by
      rw [hsd.held? .log, hd.files]
      rfl
    rw [hsd.place .log, ← file_log log]
    rw [hsd.joined .log] at hrk ⊢
    exact hsd.opens.refill_join (hsd.isFileName .log) hrk output old hheld
  rw [hrefill]
  exact hd.put hseats (k := .log) nofun output

/-- Where the tool could not be launched the log that was made goes again. -/
theorem meets_conclude_error {output : ByteArray} (cause : IoError) :
    Meets (Disk.Turned log d₀ ⟨some (.file output), none, (d₀.filesOf log).aside⟩)
      (r.conclude x budget log (.error cause))
      (fun outcome => r.Leaves x budget log d₀ (.error cause) (.ok outcome))
      (fun e => r.Leaves x budget log d₀ (.error cause) (.error e)) := by
  unfold conclude
  refine meets_bind (meets_dropLog hseats hr) fun _ => meets_bind (meets_tell _ _) fun _ => ?_
  exact meets_fail fun d hd => ⟨_, hd, .unlaunched cause⟩

/-- Without a marker the log alone says what is on record. -/
theorem meets_record (budget : UInt64) {output : ByteArray} :
    Meets (Disk.Turned log d₀ ⟨some (.file output), none, before⟩) (Runner.record x log)
      (fun known d => Disk.Turned log d₀ ⟨some (.file output), none, before⟩ d ∧
        known = recordOf x budget (some output)) E := by
  refine meets_look fun d hd => ?_
  have hlog := hd.read_file hseats (hr .log (by decide)) (k := .log) rfl
  have hmarker := hd.find_none hseats (hr .marker (by decide)) (k := .marker) rfl
  rw [file_log] at hlog
  rw [file_marker] at hmarker
  rw [Disk.status_of_log budget hlog hmarker]
  exact ⟨hd, rfl⟩

/-- What follows from the way in which the tool ended. -/
theorem meets_conclude_ok (run : ToolRun) :
    Meets (Disk.Turned log d₀ ⟨some (.file run.output), none, (d₀.filesOf log).aside⟩)
      (r.conclude x budget log (.ok run.ending))
      (fun outcome => r.Leaves x budget log d₀ (.ok run) (.ok outcome))
      (fun e => r.Leaves x budget log d₀ (.ok run) (.error e)) := by
  cases hending : run.ending with
  | stopped =>
    unfold conclude dropInterrupted
    cases hpolicy : r.onInterrupt with
    | rename =>
      have haside : Meets
          (Disk.Turned log d₀ ⟨some (.file run.output), none, (d₀.filesOf log).aside⟩)
          (Runner.change log (·.rename log (aside log)))
          (fun _ d => (file log .aside).refusal? = none ∧
            Disk.Turned log d₀ ⟨none, none, some (.file run.output)⟩ d)
          (fun e => r.Leaves x budget log d₀ (.ok run) (.error e)) := by
        refine (meets_setAside hseats hr).mono (fun _ hd => hd) (fun _ _ hd => hd) ?_
        rintro e d ⟨⟨cause, rfl⟩, hd⟩
        exact ⟨_, hd, .stuck cause hending hpolicy⟩
      refine meets_bind haside fun _ => meets_bind (meets_tell _ _) fun _ => ?_
      exact meets_fail fun d hd => ⟨_, hd.2, .setAside hending hpolicy hd.1⟩
    | discard =>
      refine meets_bind (meets_dropLog hseats hr) fun _ => meets_bind (meets_tell _ _) fun _ => ?_
      exact meets_fail fun d hd => ⟨_, hd, .dropped hending hpolicy⟩
  | overran =>
    unfold conclude
    refine meets_bind (meets_dropLog hseats hr) fun _ => ?_
    refine meets_bind (meets_mark hseats hr) fun _ => ?_
    exact meets_bind (meets_tell _ _) fun _ => meets_pure fun d hd => ⟨_, hd, .overran hending⟩
  | lost cause =>
    -- The log was made by the trial itself, so it can be removed.
    have hdropped : Meets
        (Disk.Turned log d₀ ⟨some (.file run.output), none, (d₀.filesOf log).aside⟩)
        (Runner.change log (·.discard log)).outcome
        (fun _ => Disk.Turned log d₀ ⟨none, none, (d₀.filesOf log).aside⟩)
        (fun e => r.Leaves x budget log d₀ (.ok run) (.error e)) :=
      meets_outcome ((meets_dropLog (E := fun _ _ => False) hseats hr).mono (fun _ hd => hd)
        (fun _ _ hd => hd) fun _ _ hd => hd.elim)
    unfold conclude
    refine meets_bind hdropped fun _ => meets_bind (meets_tell _ _) fun _ => ?_
    exact meets_fail fun d hd => ⟨_, hd, .lost cause hending⟩
  | exited =>
    have hleaves : ∀ d, Disk.Turned log d₀ ⟨some (.file run.output), none,
        (d₀.filesOf log).aside⟩ d →
        r.Leaves x budget log d₀ (.ok run)
          (.ok (recordOf x budget (some run.output)).outcome) d :=
      fun d hd => ⟨_, hd, .ended hending⟩
    unfold conclude
    refine meets_bind (meets_record hseats hr budget) fun known => Meets.given fun hknown => ?_
    rcases recordOf_some x budget run.output with hdone | ⟨t, m, hdone⟩
    · rw [hdone] at hknown hleaves
      subst hknown
      exact meets_bind (meets_tell _ _) fun _ => meets_pure hleaves
    · rw [hdone] at hknown hleaves
      subst hknown
      exact meets_bind (meets_tell _ _) fun _ => meets_pure hleaves

/-- **An attempt launches its tool once and ends at the exit of what came of it.**
    When the tool is launched there is an empty log and no marker. -/
theorem attempt_leaves (hquiet : r.host.Quiet) (x : Descriptor) (budget : UInt64) {w : World}
    (hw : w.disk = d₀)
    (hdirs : ∀ k, k ≠ .aside → (d₀.filesOf log).get k ≠ some .dir) :
    ∃ d₁, Disk.Turned log d₀ ⟨some (.file .empty), none, (d₀.filesOf log).aside⟩ d₁ ∧
      r.Leaves x budget log d₀ (r.host.launch w.asked x budget d₁)
        ((r.attempt x budget log).perform w).1 ((r.attempt x budget log).perform w).2.disk := by
  have hprepare := meets_prepare (r := r) (x := x) (E := fun _ _ => False) hseats hr hdirs w hw
  have hasked := asked_prepare r x log w
  unfold attempt
  rw [perform_bind]
  cases hrun : (r.prepare x log).perform w with
  | mk result w₁ =>
    rw [hrun] at hprepare hasked
    cases result with
    | error e => exact hprepare.elim
    | ok u =>
      have hturned : Disk.Turned log d₀ ⟨some (.file .empty), none, (d₀.filesOf log).aside⟩
        w₁.disk := hprepare
      have hasked' : w₁.asked = w.asked := hasked
      refine ⟨w₁.disk, hturned, ?_⟩
      rw [← hasked']
      simp only
      rw [perform_bind, perform_outcome, perform_launch]
      -- What is concluded hangs on the launch, and the rest of the world does not matter.
      have hpost : ∀ {a : Act TrialError TrialOutcome} {P : Disk → Prop} {launched} {w₂ : World},
          Meets P a (fun outcome => r.Leaves x budget log d₀ launched (.ok outcome))
            (fun e => r.Leaves x budget log d₀ launched (.error e)) → P w₂.disk →
          r.Leaves x budget log d₀ launched (a.perform w₂).1 (a.perform w₂).2.disk := by
        intro a P launched w₂ ha hP
        have hpost := ha w₂ hP
        cases hresult : (a.perform w₂).1 with
        | ok outcome => rwa [hresult] at hpost
        | error e => rwa [hresult] at hpost
      cases hlaunch : r.host.launch w₁.asked x budget w₁.disk with
      | error cause => exact hpost (meets_conclude_error hseats hr cause) hturned
      | ok run =>
        refine hpost (meets_conclude_ok hseats hr run) ?_
        show Disk.Turned log d₀ _ (run.disk.refill log run.output)
        rw [hquiet _ _ _ _ _ hlaunch]
        exact turned_refill hseats hr hturned run.output

end Seated

end Runner

end BenchSweep
