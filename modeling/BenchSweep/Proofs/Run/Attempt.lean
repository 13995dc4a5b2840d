import BenchSweep.Proofs.Run.Exits

/-! # What an Attempt Leaves

    An attempt at a pending trial that is through leaves the log of a tool that
    ended or the marker of one that overran, and nothing else, and its outcome
    says so.  One that is cut by the operator or by a failed launch leaves this or
    nothing at all.  What a tool may come to is a relation, so that tools that
    do the same every time and tools that are free to differ are both cases. -/

namespace BenchSweep

open Artifact Act

/-! ## Section 1: Entries of a trial -/

namespace Entries

/-- Neither a log nor a marker. -/
def bare : Entries where
  log := none
  marker := none

/-- What is left of a tool that is through: its output, or the budget that it
    overran. -/
def left (budget : UInt64) : Option ByteArray → Entries
  | some output => ⟨some (.file output), none⟩
  | none => ⟨none, some (.file (budgetText budget))⟩

/-- The entry of a kind.  Logs that were set aside do not count. -/
def get (e : Entries) : Kind → Option FileNode
  | .log => e.log
  | .marker => e.marker
  | .aside => none

end Entries

theorem Disk.get_entries (d : Disk) (outdir : Path) (x : Descriptor) (i : Nat) {k : Kind}
    (hk : k ≠ .aside) : (d.entries outdir x i).get k = d.held? outdir (fileName x.name i k) := by
  cases k with
  | log => rfl
  | marker => rfl
  | aside => exact absurd rfl hk

/-- The system refuses neither of the paths of a trial. -/
structure Writable (outdir : Path) (x : Descriptor) (i : Nat) : Prop where
  log : (path outdir x.name i .log).refusal? = none
  marker : (path outdir x.name i .marker).refusal? = none

theorem Writable.refusal?_eq_none {outdir : Path} {x : Descriptor} {i : Nat}
    (h : Writable outdir x i) {k : Kind} (hk : k ≠ .aside) :
    (path outdir x.name i k).refusal? = none := by
  cases k with
  | log => exact h.log
  | marker => exact h.marker
  | aside => exact absurd rfl hk

/-- The log of an experiment is a name in the output directory. -/
theorem Disk.Opens.seats {d : Disk} {outdir : Path} (h : d.Opens outdir) {x : Descriptor}
    (hx : '/' ∉ x.name.toList) (i : Nat) :
    d.Seats (Artifact.log outdir x.name i) outdir (fileName x.name i .log) where
  joined k := by
    rw [file_eq_path, path]
    simp [fileName, tail, Kind.ending, String.append_assoc]
  named := isFileName hx i .log
  opens := h

/-- Where a trial is pending its files can be written. -/
theorem Disk.Opens.writable_of_pending {d : Disk} {outdir : Path} {x : Descriptor} {i : Nat}
    (hx : '/' ∉ x.name.toList) (h : d.Opens outdir) {known : RunRecord} {budget : UInt64}
    (hknown : d.status x (Artifact.log outdir x.name i) = .ok known)
    (hpending : known.isPending budget = true) : Writable outdir x i := by
  have htakes : ∀ k, k ≠ .aside → (path outdir x.name i k).refusal? = none := by
    intro k hk
    rw [← file_eq_path]
    exact ((h.seats hx i).takes_of_pending hknown hpending hk).1
  exact ⟨htakes .log (by decide), htakes .marker (by decide)⟩

theorem Disk.Opens.status_of_left {d : Disk} {outdir : Path} {x : Descriptor} {i : Nat}
    (hx : '/' ∉ x.name.toList) (h : d.Opens outdir) (hw : Writable outdir x i) {budget : UInt64}
    {result : Option ByteArray} (hleft : d.entries outdir x i = .left budget result) :
    d.status x (Artifact.log outdir x.name i) = .ok (recordOf x budget result) := by
  have hlog : d.held? outdir (fileName x.name i .log) = (Entries.left budget result).log :=
    congrArg Entries.log hleft
  have hmarker : d.held? outdir (fileName x.name i .marker)
      = (Entries.left budget result).marker := congrArg Entries.marker hleft
  cases result with
  | some output =>
    have hc := h.content?_file (isFileName hx i .log) hw.log hlog
    have hc' := h.content?_none (isFileName hx i .marker) hw.marker hmarker
    rw [← path, path_log] at hc
    rw [← path, path_marker] at hc'
    rw [status_of_contents hc hc', recordOf]
    cases proof? x (some (Text.decode output)) <;> rfl
  | none =>
    have hc := h.content?_none (isFileName hx i .log) hw.log hlog
    have hc' := h.content?_file (isFileName hx i .marker) hw.marker hmarker
    rw [← path, path_log] at hc
    rw [← path, path_marker] at hc'
    rw [status_of_contents hc hc']
    show marked _ _ = _
    rw [marked, budgetOf?_budgetText]
    rfl

/-- A bare trial is not done. -/
theorem Disk.Opens.status_of_bare {d : Disk} {outdir : Path} {x : Descriptor} {i : Nat}
    (hx : '/' ∉ x.name.toList) (h : d.Opens outdir) (hw : Writable outdir x i)
    (hbare : d.entries outdir x i = .bare) :
    d.status x (Artifact.log outdir x.name i) = .ok .notDone := by
  have hlog : d.held? outdir (fileName x.name i .log) = none := congrArg Entries.log hbare
  have hmarker : d.held? outdir (fileName x.name i .marker) = none := congrArg Entries.marker hbare
  rcases h.status_cases hx (by rw [hlog]; exact nofun) (Or.inl hmarker) with
    ⟨k, io, hk, hr, -⟩ | ⟨hheld, -⟩ | ⟨-, hblank⟩ | ⟨s, hs, -⟩
  · rw [hw.refusal?_eq_none hk] at hr
    cases hr
  · exact absurd hlog hheld
  · exact hblank
  · rw [hmarker] at hs
    cases hs

/-! ## Section 2: Places of a trial -/

/-- The places of the log and of the marker of a trial. -/
def Disk.RecordPlaces (outdir : Path) (here : Location) (e : String) (i : Nat) (l : Location) :
    Prop :=
  ∃ k, k ≠ .aside ∧ l = place outdir here e i k

theorem Disk.RecordPlaces.trialPlaces {outdir : Path} {here : Location} {e : String} {i : Nat}
    {l : Location} (h : Disk.RecordPlaces outdir here e i l) :
    Disk.TrialPlaces outdir here e i l := by
  obtain ⟨k, -, hl⟩ := h
  exact ⟨k, hl⟩

namespace Disk.Turned

variable {outdir : Path} {x : Descriptor} {i : Nat} {d₀ d : Disk} {f : Files}
  (hx : '/' ∉ x.name.toList) (h : Turned (Artifact.log outdir x.name i) d₀ f d)

include hx h

theorem withinTrial : Within (TrialPlaces outdir d₀.here x.name i) d₀ d :=
  h.within.mono fun _ => FilePlaces.trialPlaces hx

theorem entries : d.entries outdir x i = ⟨f.log, f.marker⟩ := by
  have hheld : ∀ k, d.held? outdir (fileName x.name i k) = f.get k := by
    intro k
    rw [← h.node? k, file_eq_path, locate_path outdir hx]
    rfl
  rw [Disk.entries, hheld, hheld]
  rfl

/-- Where the log set aside is as before, only the log and the marker changed. -/
theorem withinRecord (haside : f.aside = (d₀.filesOf (Artifact.log outdir x.name i)).aside) :
    Within (RecordPlaces outdir d₀.here x.name i) d₀ d where
  here := h.within.here
  outside l hl := by
    by_cases hplace : l = place outdir d₀.here x.name i .aside
    · have hsame : f.get .aside = (d₀.filesOf (Artifact.log outdir x.name i)).get .aside := haside
      rw [← h.node? .aside, get_filesOf, h.within.here, file_eq_path, locate_path outdir hx] at hsame
      rw [hplace]
      exact hsame
    · refine (h.withinTrial hx).outside l ?_
      rintro ⟨k, rfl⟩
      by_cases hk : k = .aside
      · rw [hk] at hplace
        exact hplace rfl
      · exact hl ⟨k, hk, rfl⟩
  dirs := h.within.dirs

end Disk.Turned

/-! ## Section 3: What attempts come to -/

/-- The tool was through: it ended by itself, or the budget ran out. -/
def Ending.isThrough : Ending → Bool
  | .exited | .overran => true
  | _ => false

/-- The tools do what a function says of the experiment, whatever the budget:
    they write an output and end, or overrun.  An attempt may be stopped or lost,
    and a tool may fail to launch. -/
def Host.Follows (h : Host) (f : Descriptor → Option ByteArray) : Prop :=
  ∀ n x budget d run, h.launch n x budget d = .ok run → run.disk = d ∧
    (run.ending.isThrough = false ∨ (run.ending = .exited ∧ f x = some run.output) ∨
      (run.ending = .overran ∧ f x = none))

/-- The tools write to nothing but their two outputs, and one that is through comes
    to what it may come to: its output if it ended, nothing if it overran.  They
    need not do the same every time. -/
def Host.Obeys (h : Host) (may : Descriptor → Option ByteArray → Prop) : Prop :=
  ∀ n x budget d run, h.launch n x budget d = .ok run → run.disk = d ∧
    (run.ending = .exited → may x (some run.output)) ∧ (run.ending = .overran → may x none)

theorem Host.Follows.obeys {h : Host} {f : Descriptor → Option ByteArray} (hf : h.Follows f) :
    h.Obeys fun x result => f x = result := by
  intro n x budget d run hrun
  obtain ⟨hdisk, hending⟩ := hf n x budget d run hrun
  refine ⟨hdisk, fun hexited => ?_, fun hoverran => ?_⟩
  · rw [hexited] at hending
    rcases hending with h | ⟨-, h⟩ | ⟨h, -⟩
    · cases h
    · exact h
    · cases h
  · rw [hoverran] at hending
    rcases hending with h | ⟨h, -⟩ | ⟨-, h⟩
    · cases h
    · cases h
    · exact h

theorem Host.Obeys.mono {h : Host} {may more : Descriptor → Option ByteArray → Prop}
    (hmay : h.Obeys may) (hmore : ∀ x result, may x result → more x result) : h.Obeys more := by
  intro n x budget d run hrun
  obtain ⟨hdisk, hexited, hoverran⟩ := hmay n x budget d run hrun
  exact ⟨hdisk, fun h => hmore _ _ (hexited h), fun h => hmore _ _ (hoverran h)⟩

theorem Host.Obeys.quiet {h : Host} {may : Descriptor → Option ByteArray → Prop}
    (hmay : h.Obeys may) : h.Quiet :=
  fun n x budget d run hrun => (hmay n x budget d run hrun).1

/-- Nobody asks to stop, every tool can be launched, and none is stopped or lost
    before it is through. -/
structure Host.Steadfast (h : Host) : Prop where
  goes : ∀ n, h.stop n = false
  launches : ∀ n x budget d, ∃ run, h.launch n x budget d = .ok run ∧ run.ending.isThrough = true

theorem Host.follows_telling (f : Descriptor → Option ByteArray) : (Host.telling f).Follows f := by
  intro n x budget d run h
  have hrun := Except.ok.inj h
  cases hx : f x with
  | some output =>
    rw [hx] at hrun
    rw [← hrun]
    exact ⟨rfl, Or.inr (Or.inl ⟨rfl, rfl⟩)⟩
  | none =>
    rw [hx] at hrun
    rw [← hrun]
    exact ⟨rfl, Or.inr (Or.inr ⟨rfl, rfl⟩)⟩

theorem Host.steadfast_telling (f : Descriptor → Option ByteArray) :
    (Host.telling f).Steadfast where
  goes _ := rfl
  launches n x budget d := by
    refine ⟨_, rfl, ?_⟩
    cases f x <;> rfl

/-- The sweep was cut, by the operator or by a tool that could not be launched. -/
def TrialError.isCut : TrialError → Bool
  | interrupted _ | launch .. => true
  | _ => false

namespace Runner

variable {r : Runner} {outdir : Path} {x : Descriptor} {i : Nat} {budget : UInt64} {d₀ : Disk}
  {may : Descriptor → Option ByteArray → Prop} {E : TrialError → Disk → Prop}

/-- What may be said when an attempt fails: if it was cut, then its trial is bare,
    or has the files of one that is through; and no attempt fails on a host that
    is steadfast. -/
def Fails (r : Runner) (outdir : Path) (x : Descriptor) (i : Nat) (budget : UInt64)
    (may : Option ByteArray → Prop) (d₀ : Disk) (error : TrialError) (d : Disk) : Prop :=
  ¬ r.host.Steadfast ∧ (error.isCut = true →
    Disk.Within (Disk.TrialPlaces outdir d₀.here x.name i) d₀ d ∧
      (d.entries outdir x i = .bare ∨
        ∃ result, may result ∧ d.entries outdir x i = .left budget result))

/-- What an attempt that is through comes to. -/
def Succeeds (outdir : Path) (x : Descriptor) (i : Nat) (budget : UInt64)
    (may : Option ByteArray → Prop) (d₀ : Disk) (outcome : TrialOutcome) (d : Disk) : Prop :=
  ∃ result, may result ∧ Disk.Within (Disk.RecordPlaces outdir d₀.here x.name i) d₀ d ∧
    d.entries outdir x i = .left budget result ∧ outcome = (recordOf x budget result).outcome

/-- Only on a host that is not steadfast the operator asks to stop. -/
theorem meets_stop {P : Disk → Prop} : Meets P (Act.ask r.host.stop)
    (fun stop d => P d ∧ (stop = true → ¬ r.host.Steadfast)) E := by
  refine meets_ask fun n d hd => ⟨hd, fun hstop hsteadfast => ?_⟩
  rw [hsteadfast.goes n] at hstop
  cases hstop

/-- Resting changes nothing. -/
theorem meets_rest {P : Disk → Prop}
    (hE : ∀ d, P d → ¬ r.host.Steadfast → E (.interrupted x.name) d) :
    Meets P (r.rest x) (fun _ => P) E := by
  unfold rest
  split
  · exact meets_pure fun _ hd => hd
  · refine meets_bind meets_stop fun stop => Meets.given fun hstop => ?_
    split
    · rename_i htrue
      exact meets_fail fun d hd => hE d hd (hstop htrue)
    · exact meets_pure fun _ hd => hd

/-- Each exit says what came of the attempt. -/
theorem post_of_exit (hx : '/' ∉ x.name.toList) (hobeys : r.host.Obeys may) {n : Nat} {d₁ d : Disk}
    {result : Except TrialError TrialOutcome}
    (h : r.Leaves x budget (log outdir x.name i) d₀ (r.host.launch n x budget d₁) result d) :
    Post (Succeeds outdir x i budget (may x) d₀) (Fails r outdir x i budget (may x) d₀) result d := by
  obtain ⟨f, hturned, hexit⟩ := h
  have htrial := hturned.withinTrial hx
  have hentries := hturned.entries hx
  -- A steadfast host launches every tool and lets it come through.
  have hlaunches : r.host.Steadfast →
      ∃ run, r.host.launch n x budget d₁ = .ok run ∧ run.ending.isThrough = true :=
    fun hsteadfast => hsteadfast.launches n x budget d₁
  generalize hlaunch : r.host.launch n x budget d₁ = launched at hexit hlaunches
  generalize hbefore : (d₀.filesOf (log outdir x.name i)).aside = before at hexit
  have hbroken : ∀ run ending, launched = .ok run → run.ending = ending →
      ending.isThrough = false → ¬ r.host.Steadfast := by
    intro run ending hrun hending hthrough hsteadfast
    obtain ⟨run', hok, hthrough'⟩ := hlaunches hsteadfast
    rw [hrun] at hok
    cases hok
    rw [hending, hthrough] at hthrough'
    cases hthrough'
  cases hexit with
  | unlaunched cause =>
    refine ⟨fun hsteadfast => ?_, fun _ => ⟨htrial, Or.inl hentries⟩⟩
    obtain ⟨run, hok, -⟩ := hlaunches hsteadfast
    cases hok
  | @ended run hending =>
    have hmay := (hobeys _ _ _ _ _ hlaunch).2.1 hending
    exact ⟨some run.output, hmay, hturned.withinRecord hx hbefore.symm, hentries, rfl⟩
  | overran hending =>
    have hmay := (hobeys _ _ _ _ _ hlaunch).2.2 hending
    exact ⟨none, hmay, hturned.withinRecord hx hbefore.symm, hentries, rfl⟩
  | setAside hending _ _ =>
    exact ⟨hbroken _ _ rfl hending rfl, fun _ => ⟨htrial, Or.inl hentries⟩⟩
  | stuck cause hending _ => exact ⟨hbroken _ _ rfl hending rfl, nofun⟩
  | dropped hending _ => exact ⟨hbroken _ _ rfl hending rfl, fun _ => ⟨htrial, Or.inl hentries⟩⟩
  | lost cause hending => exact ⟨hbroken _ _ rfl hending rfl, nofun⟩

/-- An attempt at a pending trial. -/
theorem meets_attempt (hx : '/' ∉ x.name.toList) (hopens : d₀.Opens outdir)
    (hobeys : r.host.Obeys may) {known : RunRecord}
    (hknown : d₀.status x (log outdir x.name i) = .ok known)
    (hpending : known.isPending budget = true) :
    Meets (· = d₀) (r.trial x budget (log outdir x.name i))
      (Succeeds outdir x i budget (may x) d₀) (Fails r outdir x i budget (may x) d₀) := by
  have hseats := hopens.seats hx i
  have htakes := fun k (hk : k ≠ Kind.aside) => hseats.takes_of_pending hknown hpending hk
  have hattempt : Meets (· = d₀) (r.attempt x budget (log outdir x.name i))
      (Succeeds outdir x i budget (may x) d₀) (Fails r outdir x i budget (may x) d₀) := by
    intro w hw
    obtain ⟨d₁, -, hleaves⟩ := attempt_leaves hseats (fun k hk => (htakes k hk).1)
      hobeys.quiet x budget hw fun k hk => (htakes k hk).2
    exact post_of_exit hx hobeys hleaves
  intro w hw
  have hw' : w.disk = d₀ := hw
  rw [perform_trial_of_pending (by rw [hw']; exact hknown) hpending]
  refine meets_bind hattempt (fun outcome => ?_) w hw
  refine meets_bind (meets_rest fun d hd hsteadfast => ?_) fun _ => meets_pure fun _ hd => hd
  -- A stop while it rests comes when the trial is through.
  obtain ⟨result, hmay, hwithin, hleft, -⟩ := hd
  refine ⟨hsteadfast, fun _ => ⟨?_, Or.inr ⟨result, hmay, hleft⟩⟩⟩
  exact hwithin.mono fun _ => Disk.RecordPlaces.trialPlaces

end Runner

end BenchSweep
