import BenchSweep.Proofs.Run.Steps
import BenchSweep.Run.Sweep

/-! # Courses

    A course is a list of calls: single trials, trials at one iteration, sweeps,
    and runs of sweeps in a directory that is made first.  Between the calls
    anything may change, the budget and the hosts included.  A course goes
    through what its trials go through; opening a sweep changes no disk, nor does
    making an output directory that is there.  Wherever it comes to between two
    trials, what is left of it is a course of its own. -/

namespace BenchSweep

/-! ## Section 1: Calls -/

/-- What a runner may be asked for. -/
inductive Call where
  /-- One trial. -/
  | trial (r : Runner) (budget : UInt64) (iteration : Nat) (x : Descriptor)
  /-- Trials at one iteration: the rest of a sweep from one of its trials on. -/
  | trials (r : Runner) (budget : UInt64) (iteration : Nat) (xs : List Descriptor)
  | sweep (r : Runner) (budget : UInt64) (xs : List Descriptor)
  /-- Sweeps, so many: the rest of a run from one of its sweeps on. -/
  | sweeps (r : Runner) (budget : UInt64) (n : Nat) (xs : List Descriptor)
  /-- Sweeps, so many or without end, in an output directory that is made first. -/
  | run (r : Runner) (budget : UInt64) (limit : Option Nat) (xs : List Descriptor)

namespace Call

def runner : Call → Runner
  | trial r .. | trials r .. | sweep r .. | sweeps r .. | run r .. => r

def budget : Call → UInt64
  | trial _ b .. | trials _ b .. | sweep _ b .. | sweeps _ b .. | run _ b .. => b

def experiments : Call → List Descriptor
  | trial _ _ _ x => [x]
  | trials _ _ _ xs | sweep _ _ xs | sweeps _ _ _ xs | run _ _ _ xs => xs

/-- The world after a call, however it ended. -/
def perform (outdir : Path) : Call → World → World
  | trial r budget i x, w => ((r.trial x budget (Artifact.log outdir x.name i)).perform w).2
  | trials r budget i xs, w => ((r.trials outdir budget i xs).perform w).2
  | sweep r budget xs, w => ((r.sweep outdir budget xs).perform w).2
  | sweeps r budget n xs, w => ((r.sweeps outdir budget n xs).perform w).2
  | run r budget limit xs, w => ((r.run outdir budget limit xs).perform w).2

/-- The call is about some of the given experiments, and its tools write to
    nothing but their outputs. -/
structure IsOf (xs : List Descriptor) (c : Call) : Prop where
  quiet : c.runner.host.Quiet
  subset : ∀ x ∈ c.experiments, x ∈ xs

/-- The call belongs to a session: it sweeps over all the given experiments at
    the session's budget. -/
inductive OfSession (budget : UInt64) (xs : List Descriptor) : Call → Prop where
  | sweep {r : Runner} {ys : List Descriptor} :
      r.host.Quiet → ys.Perm xs → OfSession budget xs (.sweep r budget ys)
  | run {r : Runner} {limit : Option Nat} {ys : List Descriptor} :
      r.host.Quiet → ys.Perm xs → OfSession budget xs (.run r budget limit ys)

theorem OfSession.isOf {budget : UInt64} {xs : List Descriptor} {c : Call}
    (h : c.OfSession budget xs) : c.IsOf xs ∧ c.budget = budget := by
  cases h with
  | sweep hquiet hperm => exact ⟨⟨hquiet, fun _ => hperm.mem_iff.1⟩, rfl⟩
  | run hquiet hperm => exact ⟨⟨hquiet, fun _ => hperm.mem_iff.1⟩, rfl⟩

end Call

/-- The world after calls, one after the other. -/
def World.follow (outdir : Path) (calls : List Call) (w : World) : World :=
  calls.foldl (fun w c => c.perform outdir w) w

theorem World.follow_append (outdir : Path) (before after : List Call) (w : World) :
    w.follow outdir (before ++ after) = (w.follow outdir before).follow outdir after :=
  List.foldl_append ..

/-! ## Section 2: What calls go through -/

open Act

variable {I : Disk → Prop} {T : World → World → Prop} {r : Runner} {outdir : Path}
  {budget : UInt64} {i : Nat} {xs : List Descriptor}

namespace Runner

theorem respects_trials (hT : Lasting T)
    (h : ∀ x ∈ xs, (r.trial x budget (Artifact.log outdir x.name i)).Respects T) :
    (r.trials outdir budget i xs).Respects T := by
  induction xs with
  | nil => exact respects_pure hT _
  | cons x xs ih =>
    unfold trials
    refine respects_bind hT (respects_ask hT _) fun stop => ?_
    have hgo : (do
        let outcome ← r.trial x budget (Artifact.log outdir x.name i)
        return (x.name, outcome) :: (← r.trials outdir budget i xs) :
          Act TrialError (List (String × TrialOutcome))).Respects T := by
      refine respects_bind hT (h x List.mem_cons_self) fun outcome => ?_
      refine respects_bind hT (ih fun y hy => h y (List.mem_cons_of_mem x hy)) fun rest => ?_
      exact respects_pure hT _
    split
    · exact respects_bind hT (respects_fail hT _) fun _ => hgo
    · exact hgo

theorem maintains_trials
    (h : ∀ x ∈ xs, (r.trial x budget (Artifact.log outdir x.name i)).Maintains I) :
    (r.trials outdir budget i xs).Maintains I :=
  respects_trials (lasting_continues I) h

/-- Trials go on until one of them fails or the operator stops them. -/
theorem perform_trials_cons (r : Runner) (outdir : Path) (budget : UInt64) (i : Nat)
    (x : Descriptor) (xs : List Descriptor) (w : World) :
    (r.trials outdir budget i (x :: xs)).perform w =
      if r.host.stop w.asked then (.error (.interrupted x.name), { w with asked := w.asked + 1 })
      else match (r.trial x budget (Artifact.log outdir x.name i)).perform
          { w with asked := w.asked + 1 } with
        | (.error e, w') => (.error e, w')
        | (.ok outcome, w') =>
          (((r.trials outdir budget i xs).perform w').1.map ((x.name, outcome) :: ·),
            ((r.trials outdir budget i xs).perform w').2) := by
  rw [trials, perform_bind, perform_ask]
  simp only
  split
  · rw [perform_bind, perform_fail]
  · rw [perform_bind]
    cases (r.trial x budget (Artifact.log outdir x.name i)).perform
        { w with asked := w.asked + 1 } with
    | mk result w' =>
      cases result with
      | error e => rfl
      | ok outcome =>
        simp only
        rw [perform_bind]
        cases (r.trials outdir budget i xs).perform w' with
        | mk rest w'' => cases rest <;> rfl

/-- Trials are through: so is the first, which began with the disk as it was, and so
    are the others. -/
theorem trials_cons_ok {x : Descriptor} {w w' : World} {outcomes : List (String × TrialOutcome)}
    (h : (r.trials outdir budget i (x :: xs)).perform w = (.ok outcomes, w')) :
    ∃ begun outcome mid others, begun.disk = w.disk ∧
      (r.trial x budget (Artifact.log outdir x.name i)).perform begun = (.ok outcome, mid) ∧
      (r.trials outdir budget i xs).perform mid = (.ok others, w') ∧
      outcomes = (x.name, outcome) :: others := by
  rw [perform_trials_cons] at h
  split at h
  · cases h
  · cases hfirst : (r.trial x budget (Artifact.log outdir x.name i)).perform
        { w with asked := w.asked + 1 } with
    | mk result mid =>
      rw [hfirst] at h
      cases result with
      | error e => cases h
      | ok outcome =>
        cases hothers : (r.trials outdir budget i xs).perform mid with
        | mk rest w'' =>
          simp only [hothers] at h
          cases rest with
          | error e => cases h
          | ok others =>
            cases h
            exact ⟨{ w with asked := w.asked + 1 }, outcome, mid, others, rfl, hfirst, hothers, rfl⟩

/-- Trials can be cut in two anywhere. -/
theorem perform_trials_append (r : Runner) (outdir : Path) (budget : UInt64) (i : Nat)
    (xs ys : List Descriptor) (w : World) :
    ((r.trials outdir budget i (xs ++ ys)).perform w).2 =
      match (r.trials outdir budget i xs).perform w with
      | (.error _, w') => w'
      | (.ok _, w') => ((r.trials outdir budget i ys).perform w').2 := by
  induction xs generalizing w with
  | nil => rfl
  | cons x xs ih =>
    rw [List.cons_append, perform_trials_cons, perform_trials_cons]
    split
    · rfl
    · cases (r.trial x budget (Artifact.log outdir x.name i)).perform
          { w with asked := w.asked + 1 } with
      -- After a failure neither side goes on; otherwise both go on from the same world.
      | mk result w' =>
        cases result with
        | error e => rfl
        | ok outcome =>
          simp only
          rw [ih w']
          cases (r.trials outdir budget i xs).perform w' with
          | mk rest w'' => cases rest <;> rfl

/-- The opening of a sweep shows what a scan finds and draws an order. -/
theorem perform_opening (r : Runner) (outdir : Path) (budget : UInt64) (xs : List Descriptor)
    (w : World) :
    ∃ shown, (r.opening outdir budget xs).perform w =
      match w.disk.scan outdir budget xs with
      | .error e => (.error (.store e), w)
      | .ok progress =>
        (.ok (progress, r.host.order w.asked xs), { w with shown, asked := w.asked + 1 }) := by
  unfold opening
  rw [perform_bind, perform_look]
  cases w.disk.scan outdir budget xs with
  | error e => exact ⟨w.shown, rfl⟩
  | ok progress => exact ⟨_, rfl⟩

theorem opening_still (r : Runner) (outdir : Path) (budget : UInt64) (xs : List Descriptor)
    (w : World) :
    ((r.opening outdir budget xs).perform w).2.disk = w.disk ∧
      ((r.opening outdir budget xs).perform w).2.past = w.past := by
  obtain ⟨shown, h⟩ := perform_opening r outdir budget xs w
  rw [h]
  split <;> exact ⟨rfl, rfl⟩

theorem respects_opening (hT : Lasting T) (r : Runner) (outdir : Path) (budget : UInt64)
    (xs : List Descriptor) : (r.opening outdir budget xs).Respects T := by
  intro w
  obtain ⟨hdisk, hpast⟩ := opening_still r outdir budget xs w
  apply hT.still
  rw [World.disks, hdisk, hpast, World.disks]

theorem passes_opening (r : Runner) (outdir : Path) (budget : UInt64) (xs : List Descriptor)
    (w : World) : (r.opening outdir budget xs).Passes I w :=
  respects_opening (lasting_passes I) r outdir budget xs w

/-- A sweep that opens works on the iteration that the scan chose, in an order of
    the experiments that it was given. -/
theorem opening_ok {w : World} {progress : Progress} {order : List Descriptor}
    (h : ((r.opening outdir budget xs).perform w).1 = .ok (progress, order)) :
    w.disk.scan outdir budget xs = .ok progress ∧ order.Perm xs := by
  obtain ⟨shown, hperform⟩ := perform_opening r outdir budget xs w
  rw [hperform] at h
  cases hscan : w.disk.scan outdir budget xs with
  | error e => rw [hscan] at h; cases h
  | ok p =>
    rw [hscan] at h
    cases h
    exact ⟨rfl, r.host.order_perm _ _⟩

theorem respects_sweep (hT : Lasting T)
    (h : ∀ i, ∀ x ∈ xs, (r.trial x budget (Artifact.log outdir x.name i)).Respects T) :
    (r.sweep outdir budget xs).Respects T := by
  intro w
  unfold sweep
  refine hT.bind (respects_opening hT r outdir budget xs w) ?_
  rintro ⟨progress, order⟩ hopen
  -- The order is drawn anew, but from the same experiments.
  have horder : order.Perm xs := (opening_ok hopen).2
  have htrials := respects_trials hT fun x hx => h progress.nextIteration x (horder.mem_iff.1 hx)
  exact respects_bind hT htrials (fun _ => respects_pure hT _) _

theorem maintains_sweep
    (h : ∀ i, ∀ x ∈ xs, (r.trial x budget (Artifact.log outdir x.name i)).Maintains I) :
    (r.sweep outdir budget xs).Maintains I :=
  respects_sweep (lasting_continues I) h

theorem sweep_order {w : World} {report : SweepReport} {order : List Descriptor}
    (h : ((r.sweep outdir budget xs).perform w).1 = .ok (report, order)) : order.Perm xs := by
  unfold sweep at h
  obtain ⟨⟨progress, order'⟩, hopen, hrest, -⟩ := perform_bind_ok h
  obtain ⟨outcomes, -, hpure, -⟩ := perform_bind_ok hrest
  cases hpure
  exact (opening_ok hopen).2

/-- Sweeps respect what a sweep respects in whatever order the experiments are
    given to it. -/
theorem respects_sweeps (hT : Lasting T) (n : Nat)
    (h : ∀ ys, ys.Perm xs → (r.sweep outdir budget ys).Respects T) :
    (r.sweeps outdir budget n xs).Respects T := by
  induction n generalizing xs with
  | zero => exact respects_pure hT _
  | succ n ih =>
    intro w
    unfold sweeps
    refine hT.bind (h xs (List.Perm.refl xs) w) ?_
    rintro ⟨report, order⟩ hsweep
    -- The next sweep gets the experiments in the order of this one.
    have horder : order.Perm xs := sweep_order hsweep
    exact ih (fun ys hys => h ys (hys.trans horder)) _

theorem respects_run (hT : Lasting T) {limit : Option Nat}
    (hdir : (Act.ensureDir outdir).Respects T)
    (h : ∀ ys, ys.Perm xs → (r.sweep outdir budget ys).Respects T) :
    (r.run outdir budget limit xs).Respects T := by
  have hdir' : ((Act.ensureDir outdir).blame (TrialError.artifact outdir)).Respects T := hdir
  unfold run
  refine respects_bind hT hdir' fun _ => ?_
  split
  · exact respects_print hT _
  · exact respects_sweeps hT _ h

theorem maintains_run {limit : Option Nat} (hdir : (Act.ensureDir outdir).Maintains I)
    (h : ∀ ys, ys.Perm xs → (r.sweep outdir budget ys).Maintains I) :
    (r.run outdir budget limit xs).Maintains I :=
  respects_run (lasting_continues I) hdir h

end Runner

/-- The call leads from every world to one that is related to it. -/
def Call.Respects (outdir : Path) (T : World → World → Prop) (c : Call) : Prop :=
  ∀ w : World, T w (c.perform outdir w)

/-- A call respects what its trials and the making of its directory respect. -/
theorem Call.respects (hT : Lasting T) {c : Call} (hdir : (Act.ensureDir outdir).Respects T)
    (h : ∀ i, ∀ x ∈ c.experiments,
      (c.runner.trial x c.budget (Artifact.log outdir x.name i)).Respects T) :
    c.Respects outdir T := by
  intro w
  cases c with
  | trial r budget i x => exact h i x List.mem_cons_self w
  | trials r budget i xs => exact Runner.respects_trials hT (h i) w
  | sweep r budget xs => exact Runner.respects_sweep hT h w
  | sweeps r budget n xs =>
    refine Runner.respects_sweeps hT n (fun ys hys => ?_) w
    exact Runner.respects_sweep hT fun i x hx => h i x (hys.mem_iff.1 hx)
  | run r budget limit xs =>
    refine Runner.respects_run hT hdir (fun ys hys => ?_) w
    exact Runner.respects_sweep hT fun i x hx => h i x (hys.mem_iff.1 hx)

/-- A course leads to a world that is related to where it began if its calls do. -/
theorem World.follow_respects (hT : Lasting T) {calls : List Call}
    (h : ∀ c ∈ calls, c.Respects outdir T) (w : World) : T w (w.follow outdir calls) := by
  induction calls generalizing w with
  | nil => exact hT.still rfl
  | cons c calls ih =>
    have hfirst := h c List.mem_cons_self w
    exact hT.trans hfirst (ih (fun c' hc' => h c' (List.mem_cons_of_mem c hc')) _)

/-- From a disk with the property the call passes through disks with it. -/
def Call.Maintains (outdir : Path) (I : Disk → Prop) (c : Call) : Prop :=
  ∀ w : World, I w.disk →
    ∃ later, (c.perform outdir w).disks = later ++ w.disks ∧ ∀ d ∈ later, I d

/-- A call maintains what its trials and the making of its directory maintain. -/
theorem Call.maintains {c : Call} (hdir : (Act.ensureDir outdir).Maintains I)
    (h : ∀ i, ∀ x ∈ c.experiments,
      (c.runner.trial x c.budget (Artifact.log outdir x.name i)).Maintains I) :
    c.Maintains outdir I :=
  Call.respects (lasting_continues I) hdir h

/-- A course passes through disks with a property that its calls maintain. -/
theorem World.follow_passes {calls : List Call} (h : ∀ c ∈ calls, c.Maintains outdir I) {w : World}
    (hw : I w.disk) :
    ∃ later, (w.follow outdir calls).disks = later ++ w.disks ∧ ∀ d ∈ later, I d :=
  World.follow_respects (lasting_continues I) h w hw

/-! ## Section 3: Making directories -/

/-- Where the output directory is open, making it changes nothing. -/
theorem Disk.Opens.haveDir_eq {d d' : Disk} (h : d.Opens outdir) {q : Path}
    (hq : q ∈ outdir.lineage) (hok : d.haveDir q = .ok d') : d' = d := by
  have hmake : ∀ d', d.makeDir q ≠ .ok d' := by
    intro d' hd'
    unfold makeDir at hd'
    cases hl : d.locate q with
    | error e => rw [hl] at hd'; cases hd'
    | ok l =>
      simp only [hl, h.dir_of_lineage hq hl, bind, Except.bind] at hd'
      cases hd'
  unfold haveDir at hok
  split at hok
  · split at hok
    · exact (Except.ok.inj hok).symm
    · cases hok
  · exact absurd hok (hmake d')

/-- The output directory itself is there already, if a name in it is not refused. -/
theorem Disk.Opens.haveDir_self {d : Disk} (h : d.Opens outdir) {s : String}
    (hs : Path.IsFileName s) (hr : (outdir.join s).refusal? = none) (hdir : outdir.text ≠ "") :
    d.haveDir outdir = .ok d := by
  have hlocate := h.locate_self hs hr hdir
  have hmake : d.makeDir outdir = .error .alreadyExists := by
    unfold makeDir
    simp only [hlocate, h.node, bind, Except.bind]
  have hisDir : d.isDir outdir = true := by
    unfold isDir find
    simp only [hlocate, h.node, bind, Except.bind]
  unfold haveDir
  rw [hmake]
  simp only [hisDir, ↓reduceIte]

/-- Making a directory respects what the making of each directory on the way does. -/
theorem Act.respects_ensureDir (hT : Lasting T)
    (h : ∀ q ∈ outdir.lineage, (Act.change (·.haveDir q) : Act IoError Unit).Respects T) :
    (Act.ensureDir outdir).Respects T := by
  unfold ensureDir
  generalize outdir.lineage = paths at h
  induction paths with
  | nil => exact respects_pure hT _
  | cons q above ih =>
    have hq := h q List.mem_cons_self
    have hq' : ((Act.change (·.haveDir q) : Act IoError Unit).outcome :
        Act IoError (Except IoError Unit)).Respects T := hq
    unfold makeDirs
    refine respects_bind hT hq' fun result => ?_
    split
    · exact respects_pure hT _
    · exact respects_bind hT (ih fun p hp => h p (List.mem_cons_of_mem q hp)) fun _ => hq
    · exact respects_fail hT _

/-- Making a directory maintains what each of its steps preserves. -/
theorem Act.maintains_ensureDir
    (h : ∀ q ∈ outdir.lineage, ∀ d d', I d → d.haveDir q = .ok d' → I d') :
    (Act.ensureDir outdir).Maintains I :=
  respects_ensureDir (lasting_continues I) fun q hq => maintains_change (h q hq)

/-- Making the output directory maintains whatever implies that it is open. -/
theorem Act.maintains_ensureDir_of_opens (h : ∀ d, I d → d.Opens outdir) :
    (Act.ensureDir outdir).Maintains I := by
  refine maintains_ensureDir fun q hq d d' hd hok => ?_
  rw [(h d hd).haveDir_eq hq hok]
  exact hd

/-! ## Section 4: Between two trials -/

/-- The call is a part of another one: it is about some of the same experiments, at
    the same budget and on the same host. -/
structure Call.PartOf (c c' : Call) : Prop where
  runner : c.runner = c'.runner
  budget : c.budget = c'.budget
  subset : ∀ x ∈ c.experiments, x ∈ c'.experiments

theorem Call.PartOf.refl (c : Call) : c.PartOf c :=
  ⟨rfl, rfl, fun _ hx => hx⟩

theorem Call.PartOf.trans {c c' c'' : Call} (h : c.PartOf c') (h' : c'.PartOf c'') :
    c.PartOf c'' where
  runner := h.runner.trans h'.runner
  budget := h.budget.trans h'.budget
  subset x hx := h'.subset x (h.subset x hx)

theorem Call.PartOf.isOf {c c' : Call} (h : c.PartOf c') (hc : c'.IsOf xs) : c.IsOf xs where
  quiet := by
    rw [h.runner]
    exact hc.quiet
  subset x hx := hc.subset x (h.subset x hx)

/-- One step of a course, from a world with calls ahead to another one.  No step
    ends within a trial. -/
inductive Onward (outdir : Path) : World → List Call → World → List Call → Prop where
  /-- A whole call. -/
  | call {w : World} {c : Call} {calls : List Call} :
      Onward outdir w (c :: calls) (c.perform outdir w) calls
  /-- The first ones of some trials. -/
  | trials {w w' : World} {r : Runner} {b : UInt64} {i : Nat} {xs ys : List Descriptor}
      {outcomes : List (String × TrialOutcome)} {calls : List Call} :
      (r.trials outdir b i xs).perform w = (.ok outcomes, w') →
      Onward outdir w (.trials r b i (xs ++ ys) :: calls) w' (.trials r b i ys :: calls)
  /-- The opening of a sweep. -/
  | opening {w w' : World} {r : Runner} {b : UInt64} {xs order : List Descriptor}
      {progress : Progress} {calls : List Call} :
      (r.opening outdir b xs).perform w = (.ok (progress, order), w') →
      Onward outdir w (.sweep r b xs :: calls) w' (.trials r b progress.nextIteration order :: calls)
  /-- The first one of some sweeps, before the others if it is through. -/
  | firstSweep {w : World} {r : Runner} {b : UInt64} {n : Nat} {xs order : List Descriptor}
      {report : SweepReport} {calls : List Call} :
      ((r.sweep outdir b xs).perform w).1 = .ok (report, order) →
      Onward outdir w (.sweeps r b (n + 1) xs :: calls) w
        (.sweep r b xs :: .sweeps r b n order :: calls)
  /-- The only one of some sweeps, if it fails. -/
  | onlySweep {w : World} {r : Runner} {b : UInt64} {n : Nat} {xs : List Descriptor}
      {e : TrialError} {calls : List Call} :
      ((r.sweep outdir b xs).perform w).1 = .error e →
      Onward outdir w (.sweeps r b (n + 1) xs :: calls) w (.sweep r b xs :: calls)
  /-- The making of the output directory. -/
  | directory {w w' : World} {r : Runner} {b : UInt64} {limit : Option Nat} {xs : List Descriptor}
      {calls : List Call} :
      (Act.ensureDir outdir).perform w = (.ok (), w') → xs ≠ [] →
      Onward outdir w (.run r b limit xs :: calls) w'
        (.sweeps r b (limit.getD Runner.endless) xs :: calls)

/-- A course comes, between two trials, to another world with calls ahead. -/
inductive Comes (outdir : Path) : World → List Call → World → List Call → Prop where
  | here {w : World} {calls : List Call} : Comes outdir w calls w calls
  | onward {w w' mid : World} {calls calls' rest : List Call} :
      Onward outdir w calls w' calls' → Comes outdir w' calls' mid rest →
      Comes outdir w calls mid rest

namespace Runner

theorem trials_rest {w w' : World} {ys : List Descriptor} {outcomes : List (String × TrialOutcome)}
    (h : (r.trials outdir budget i xs).perform w = (.ok outcomes, w')) :
    ((r.trials outdir budget i (xs ++ ys)).perform w).2
      = ((r.trials outdir budget i ys).perform w').2 := by
  rw [perform_trials_append, h]

theorem sweep_rest {w w' : World} {progress : Progress} {order : List Descriptor}
    (h : (r.opening outdir budget xs).perform w = (.ok (progress, order), w')) :
    ((r.sweep outdir budget xs).perform w).2
      = ((r.trials outdir budget progress.nextIteration order).perform w').2 := by
  unfold sweep
  rw [perform_bind, h]
  simp only
  rw [perform_bind]
  cases (r.trials outdir budget progress.nextIteration order).perform w' with
  | mk outcomes w'' => cases outcomes <;> rfl

theorem sweeps_rest {w : World} {n : Nat} {report : SweepReport} {order : List Descriptor}
    (h : ((r.sweep outdir budget xs).perform w).1 = .ok (report, order)) :
    ((r.sweeps outdir budget (n + 1) xs).perform w).2
      = ((r.sweeps outdir budget n order).perform ((r.sweep outdir budget xs).perform w).2).2 := by
  rw [sweeps, perform_bind]
  cases hrun : (r.sweep outdir budget xs).perform w with
  | mk result w' =>
    rw [hrun] at h
    have hresult : result = .ok (report, order) := h
    rw [hresult]

theorem sweeps_of_error {w : World} {n : Nat} {e : TrialError}
    (h : ((r.sweep outdir budget xs).perform w).1 = .error e) :
    ((r.sweeps outdir budget (n + 1) xs).perform w).2
      = ((r.sweep outdir budget xs).perform w).2 := by
  rw [sweeps, perform_bind]
  cases hrun : (r.sweep outdir budget xs).perform w with
  | mk result w' =>
    rw [hrun] at h
    have hresult : result = .error e := h
    rw [hresult]

theorem run_rest {w w' : World} {limit : Option Nat}
    (h : (Act.ensureDir outdir).perform w = (.ok (), w')) (hne : xs ≠ []) :
    ((r.run outdir budget limit xs).perform w).2
      = ((r.sweeps outdir budget (limit.getD endless) xs).perform w').2 := by
  unfold run
  rw [perform_bind, perform_blame, h, if_neg hne]
  rfl

end Runner

section Rest

variable {w w' mid : World} {calls calls' rest : List Call}

/-- What is left of the first call comes before the other calls, which stay. -/
theorem Call.PartOf.cons {c c' : Call} (h : c.PartOf c') :
    ∀ d ∈ c :: calls, ∃ d' ∈ c' :: calls, d.PartOf d' := by
  intro d hd
  rcases List.mem_cons.1 hd with rfl | hd
  · exact ⟨c', List.mem_cons_self, h⟩
  · exact ⟨d, List.mem_cons_of_mem c' hd, .refl d⟩

/-- A step leaves parts of the calls that were ahead. -/
theorem Onward.partOf (h : Onward outdir w calls w' calls') :
    ∀ c ∈ calls', ∃ c' ∈ calls, c.PartOf c' := by
  cases h with
  | call => exact fun c hc => ⟨c, List.mem_cons_of_mem _ hc, .refl c⟩
  | trials => exact Call.PartOf.cons ⟨rfl, rfl, fun _ hx => List.mem_append_right _ hx⟩
  | opening h =>
    have horder := (Runner.opening_ok (congrArg Prod.fst h)).2
    exact Call.PartOf.cons ⟨rfl, rfl, fun _ hx => horder.mem_iff.1 hx⟩
  | @firstSweep r b n xs order report calls h =>
    intro c hc
    have hothers : (Call.sweeps r b n order).PartOf (.sweeps r b (n + 1) xs) :=
      ⟨rfl, rfl, fun _ hx => (Runner.sweep_order h).mem_iff.1 hx⟩
    rcases List.mem_cons.1 hc with rfl | hc
    · exact ⟨_, List.mem_cons_self, rfl, rfl, fun _ hx => hx⟩
    · exact hothers.cons c hc
  | onlySweep => exact Call.PartOf.cons ⟨rfl, rfl, fun _ hx => hx⟩
  | directory => exact Call.PartOf.cons ⟨rfl, rfl, fun _ hx => hx⟩

/-- A step does not change where the course leads. -/
theorem Onward.follow_eq (h : Onward outdir w calls w' calls') :
    w.follow outdir calls = w'.follow outdir calls' := by
  cases h with
  | call => rfl
  | trials h => exact congrArg (World.follow outdir _) (Runner.trials_rest h)
  | opening h => exact congrArg (World.follow outdir _) (Runner.sweep_rest h)
  | firstSweep h => exact congrArg (World.follow outdir _) (Runner.sweeps_rest h)
  | onlySweep h => exact congrArg (World.follow outdir _) (Runner.sweeps_of_error h)
  | directory h hne => exact congrArg (World.follow outdir _) (Runner.run_rest h hne)

theorem Comes.partOf (h : Comes outdir w calls mid rest) :
    ∀ c ∈ rest, ∃ c' ∈ calls, c.PartOf c' := by
  induction h with
  | here => exact fun c hc => ⟨c, hc, .refl c⟩
  | onward hstep _ ih =>
    intro c hc
    obtain ⟨c', hc', hpart⟩ := ih c hc
    obtain ⟨c'', hc'', hpart'⟩ := hstep.partOf c' hc'
    exact ⟨c'', hc'', hpart.trans hpart'⟩

/-- From where a course has come to, the calls ahead lead where the course leads. -/
theorem Comes.follow_eq (h : Comes outdir w calls mid rest) :
    w.follow outdir calls = mid.follow outdir rest := by
  induction h with
  | here => rfl
  | onward hstep _ ih => exact hstep.follow_eq.trans ih

theorem Comes.isOf (h : Comes outdir w calls mid rest) (hcalls : ∀ c ∈ calls, c.IsOf xs) :
    ∀ c ∈ rest, c.IsOf xs := by
  intro c hc
  obtain ⟨c', hc', hpart⟩ := h.partOf c hc
  exact hpart.isOf (hcalls c' hc')

end Rest

/-- A course never forgets a disk. -/
theorem World.follow_disks (calls : List Call) (w : World) :
    ∃ later, (w.follow outdir calls).disks = later ++ w.disks := by
  have hall : ∀ c ∈ calls, c.Maintains outdir fun _ => True := by
    intro c hc
    refine Call.maintains (maintains_ensureDir fun _ _ _ _ _ _ => trivial) fun _ _ _ => ?_
    exact Runner.maintains_trial (fun _ _ _ _ => trivial) fun _ _ _ _ _ => trivial
  obtain ⟨later, hlater, -⟩ := World.follow_passes hall (w := w) trivial
  exact ⟨later, hlater⟩

end BenchSweep
