import BenchSweep.Proofs.Run.Attempt
import BenchSweep.Proofs.Run.Settled
import BenchSweep.Proofs.Run.Rows

/-! # What Becomes of a Row

    A sweep goes through the trials of one row.  A trial that is settled is
    skipped, and one that is pending is attempted.  Either way only its own files
    change, so what becomes of a trial hangs on what it was before the sweep, and
    not on the trials that ran in between. -/

namespace BenchSweep

open Artifact Act

variable {outdir : Path} {xs ys : List Descriptor} {x y : Descriptor} {budget : UInt64}
  {d d₀ d₁ d₂ d' : Disk} {i n : Nat} {may : Descriptor → Option ByteArray → Prop}
  {outcome : TrialOutcome} {outcomes : List (String × TrialOutcome)} {r : Runner}

/-! ## Section 1: The files of a row -/

namespace Disk

/-- The trial has a status and is pending at the budget. -/
def Pending (d : Disk) (outdir : Path) (budget : UInt64) (x : Descriptor) (i : Nat) : Prop :=
  ∃ known, d.status x (log outdir x.name i) = .ok known ∧ known.isPending budget = true

/-- The places of the files of a row. -/
def RowPlaces (outdir : Path) (here : Location) (xs : List Descriptor) (i : Nat) (l : Location) :
    Prop :=
  ∃ x ∈ xs, TrialPlaces outdir here x.name i l

/-- The places of the logs and the markers of a row. -/
def RowRecords (outdir : Path) (here : Location) (xs : List Descriptor) (i : Nat) (l : Location) :
    Prop :=
  ∃ x ∈ xs, RecordPlaces outdir here x.name i l

theorem RowRecords.rowPlaces {here : Location} {l : Location} (h : RowRecords outdir here xs i l) :
    RowPlaces outdir here xs i l := by
  obtain ⟨x, hx, hl⟩ := h
  exact ⟨x, hx, hl.trialPlaces⟩

theorem Pending.congr (hx : '/' ∉ x.name.toList) (h : d.Opens outdir) (h' : d'.Opens outdir)
    (heq : d'.entries outdir x i = d.entries outdir x i) :
    d'.Pending outdir budget x i ↔ d.Pending outdir budget x i := by
  rw [Pending, Pending, h.status_congr hx h' heq]

/-- A settled trial is not pending. -/
theorem not_pending {known : RunRecord} (hknown : d.status x (log outdir x.name i) = .ok known)
    (hsettled : known.isPending budget = false) : ¬ d.Pending outdir budget x i := by
  intro hpending
  obtain ⟨known', hknown', hpending'⟩ := hpending
  rw [hknown] at hknown'
  rw [← Except.ok.inj hknown', hsettled] at hpending'
  cases hpending'

/-- The next row has a pending trial, in whatever order its experiments are. -/
theorem NextRow.exists_pending (h : d.NextRow outdir budget xs n) (hne : xs ≠ [])
    (hperm : ys.Perm xs) : ∃ x ∈ ys, d.Pending outdir budget x n := by
  obtain ⟨x, hx, hpending⟩ := h.openRow hne
  exact ⟨x, hperm.mem_iff.2 hx, hpending⟩

/-- A trial that is not in the row, or of another row, is left alone. -/
theorem entries_of_rowPlaces (hxs : Apart xs) (hx : x ∈ xs) (hys : ∀ y ∈ ys, y ∈ xs)
    (hne : x ∈ ys → n ≠ i) (h : Within (RowPlaces outdir d.here ys n) d d') :
    d'.entries outdir x i = d.entries outdir x i := by
  have hheld : ∀ k, d'.held? outdir (fileName x.name i k)
      = d.held? outdir (fileName x.name i k) := by
    intro k
    -- No file of another trial has the place of a file of this one.
    refine h.held? ?_
    rintro ⟨y, hy, hplace⟩
    refine hxs.not_trialPlaces hx (hys y hy) ?_ d.here k hplace
    rintro ⟨rfl, heq⟩
    exact hne hy heq
  rw [entries, hheld, hheld, entries]

/-- First the files of one trial and then those of others. -/
theorem within_cons {places : Descriptor → Location → Prop} (h : Within (places y) d d₁)
    (h' : Within (fun l => ∃ x ∈ ys, places x l) d₁ d₂) :
    Within (fun l => ∃ x ∈ y :: ys, places x l) d d₂ := by
  refine (h.mono fun l hl => ⟨y, List.mem_cons_self, hl⟩).trans (h'.mono ?_)
  rintro l ⟨x, hx, hl⟩
  exact ⟨x, List.mem_cons_of_mem y hx, hl⟩

/-! ## Section 2: What becomes of a trial -/

/-- What a trial of a sweep comes to: one that was settled is skipped and is as
    before, and one that was pending is left by a tool that is through. -/
inductive Attended (outdir : Path) (budget : UInt64) (i : Nat)
    (may : Descriptor → Option ByteArray → Prop) (d d' : Disk) (x : Descriptor) :
    TrialOutcome → Prop where
  | skipped {known : RunRecord} : d.status x (log outdir x.name i) = .ok known →
      known.isPending budget = false → d'.entries outdir x i = d.entries outdir x i →
      Attended outdir budget i may d d' x (.skipped known.status)
  | attempted {result : Option ByteArray} : d.Pending outdir budget x i → may x result →
      d'.entries outdir x i = .left budget result →
      Attended outdir budget i may d d' x (recordOf x budget result).outcome

/-- The trial is as before, or it was pending and is bare or through. -/
def Halfway (outdir : Path) (budget : UInt64) (i : Nat)
    (may : Descriptor → Option ByteArray → Prop) (d d' : Disk) (x : Descriptor) : Prop :=
  d'.entries outdir x i = d.entries outdir x i ∨ (d.Pending outdir budget x i ∧
    (d'.entries outdir x i = .bare ∨
      ∃ result, may x result ∧ d'.entries outdir x i = .left budget result))

theorem Attended.halfway (h : Attended outdir budget i may d d' x outcome) :
    Halfway outdir budget i may d d' x := by
  cases h with
  | skipped hknown hsettled hsame => exact Or.inl hsame
  | attempted hpending hmay hleft => exact Or.inr ⟨hpending, Or.inr ⟨_, hmay, hleft⟩⟩

theorem ran_outcome (known : RunRecord) : known.outcome.ran = true := by
  cases known <;> rfl

/-- A tool was launched exactly for a trial that was pending. -/
theorem Attended.ran_iff (h : Attended outdir budget i may d d' x outcome) :
    outcome.ran = true ↔ d.Pending outdir budget x i := by
  cases h with
  | skipped hknown hsettled _ => exact ⟨nofun, fun h => absurd h (not_pending hknown hsettled)⟩
  | attempted hpending _ _ => exact ⟨fun _ => hpending, fun _ => ran_outcome _⟩

/-- What becomes of a trial hangs on its own files alone. -/
structure Local (outdir : Path) (i : Nat) (becomes : Disk → Disk → Descriptor → Prop) : Prop where
  before : ∀ d d₁ d₂ x, '/' ∉ x.name.toList → d.Opens outdir → d₁.Opens outdir →
    d₁.entries outdir x i = d.entries outdir x i → becomes d₁ d₂ x → becomes d d₂ x
  after : ∀ d d₁ d₂ x, d₂.entries outdir x i = d₁.entries outdir x i → becomes d d₁ x →
    becomes d d₂ x

theorem local_attended (outcome : TrialOutcome) :
    Local outdir i fun d d' x => Attended outdir budget i may d d' x outcome where
  before d d₁ d₂ x hx hopens hopens₁ heq h := by
    cases h with
    | skipped hknown hsettled hsame =>
      rw [hopens.status_congr hx hopens₁ heq] at hknown
      exact .skipped hknown hsettled (hsame.trans heq)
    | attempted hpending hmay hleft =>
      exact .attempted ((Pending.congr hx hopens hopens₁ heq).1 hpending) hmay hleft
  after d d₁ d₂ x heq h := by
    cases h with
    | skipped hknown hsettled hsame => exact .skipped hknown hsettled (heq.trans hsame)
    | attempted hpending hmay hleft => exact .attempted hpending hmay (heq.trans hleft)

theorem local_halfway : Local outdir i (Halfway outdir budget i may) where
  before d d₁ d₂ x hx hopens hopens₁ heq h := by
    have hpending : d₁.Pending outdir budget x i ↔ d.Pending outdir budget x i :=
      Pending.congr hx hopens hopens₁ heq
    exact h.imp (·.trans heq) fun hp => ⟨hpending.1 hp.1, hp.2⟩
  after d d₁ d₂ x heq h := by
    rw [Halfway, heq]
    exact h

section Cons

variable {becomes : Disk → Disk → Descriptor → Prop} (hlocal : Local outdir i becomes)
  (hxs : Apart xs) (hys : ∀ x ∈ y :: ys, x ∈ xs) (hy : y ∉ ys)

include hlocal hxs hys hy

/-- The others leave the first trial alone. -/
theorem Local.first (hfirst : becomes d d₁ y)
    (hrest : Within (RowPlaces outdir d₁.here ys i) d₁ d₂) : becomes d d₂ y := by
  refine hlocal.after d d₁ d₂ y ?_ hfirst
  exact entries_of_rowPlaces hxs (hys y List.mem_cons_self)
    (fun z hz => hys z (List.mem_cons_of_mem y hz)) (fun hmem => absurd hmem hy) hrest

/-- The first trial left the others alone. -/
theorem Local.rest (hopens : d.Opens outdir)
    (hwithin : Within (TrialPlaces outdir d.here y.name i) d d₁) (hx : x ∈ ys)
    (hrest : becomes d₁ d₂ x) : becomes d d₂ x := by
  have hxxs := hys x (List.mem_cons_of_mem y hx)
  have hne : ¬ (y = x ∧ i = i) := by
    rintro ⟨rfl, -⟩
    exact hy hx
  exact hlocal.before d d₁ d₂ x (hxs.no_slash x hxxs) hopens (hwithin.opens hopens)
    (hxs.entries_within hxxs (hys y List.mem_cons_self) hne hwithin) hrest

end Cons

/-! ## Section 3: What becomes of a row -/

/-- Only files of a row changed, and every trial of it became so. -/
structure RowBecomes (outdir : Path) (xs : List Descriptor) (i : Nat)
    (becomes : Disk → Disk → Descriptor → Prop) (d d' : Disk) : Prop where
  within : Within (RowPlaces outdir d.here xs i) d d'
  trials : ∀ x ∈ xs, becomes d d' x

/-- Only logs and markers of a row changed, and every trial came to its outcome. -/
structure Attends (outdir : Path) (budget : UInt64) (i : Nat)
    (may : Descriptor → Option ByteArray → Prop) (d : Disk) (xs : List Descriptor)
    (outcomes : List (String × TrialOutcome)) (d' : Disk) : Prop where
  within : Within (RowRecords outdir d.here xs i) d d'
  trials : List.Forall₂
    (fun x o => o.1 = x.name ∧ Attended outdir budget i may d d' x o.2) xs outcomes

section Row

variable {becomes : Disk → Disk → Descriptor → Prop}

theorem rowBecomes_refl (h : ∀ x ∈ xs, becomes d d x) : RowBecomes outdir xs i becomes d d where
  within := Within.refl _ _
  trials := h

theorem RowBecomes.perm (hperm : ys.Perm xs) (h : RowBecomes outdir ys i becomes d d') :
    RowBecomes outdir xs i becomes d d' where
  within := h.within.mono fun _ ⟨x, hx, hl⟩ => ⟨x, hperm.mem_iff.1 hx, hl⟩
  trials x hx := h.trials x (hperm.mem_iff.2 hx)

/-- Another row keeps its files. -/
theorem RowBecomes.entries_ne (hxs : Apart xs) (h : RowBecomes outdir xs n becomes d d')
    (hx : x ∈ xs) (hi : i ≠ n) : d'.entries outdir x i = d.entries outdir x i :=
  entries_of_rowPlaces hxs hx (fun _ hy => hy) (fun _ => hi.symm) h.within

theorem Attends.withinRow (h : Attends outdir budget i may d xs outcomes d') :
    Within (RowPlaces outdir d.here xs i) d d' :=
  h.within.mono fun _ => RowRecords.rowPlaces

/-- Every experiment has an outcome. -/
theorem Attends.of_mem (h : Attends outdir budget i may d xs outcomes d') (hx : x ∈ xs) :
    ∃ outcome, (x.name, outcome) ∈ outcomes ∧ Attended outdir budget i may d d' x outcome := by
  obtain ⟨-, htrials⟩ := h
  induction htrials with
  | nil => cases hx
  | @cons y o ys outcomes hfirst hrest ih =>
    rcases List.mem_cons.1 hx with rfl | hx
    · refine ⟨o.2, ?_, hfirst.2⟩
      rw [← hfirst.1]
      exact List.mem_cons_self
    · obtain ⟨outcome, hmem, hattended⟩ := ih hx
      exact ⟨outcome, List.mem_cons_of_mem o hmem, hattended⟩

/-- Every outcome is that of an experiment. -/
theorem Attends.mem_outcomes (h : Attends outdir budget i may d xs outcomes d')
    {o : String × TrialOutcome} (ho : o ∈ outcomes) :
    ∃ x ∈ xs, o.1 = x.name ∧ Attended outdir budget i may d d' x o.2 := by
  obtain ⟨-, htrials⟩ := h
  induction htrials with
  | nil => cases ho
  | @cons y o' ys outcomes hfirst hrest ih =>
    rcases List.mem_cons.1 ho with rfl | ho
    · exact ⟨y, List.mem_cons_self, hfirst⟩
    · obtain ⟨x, hx, hattended⟩ := ih ho
      exact ⟨x, List.mem_cons_of_mem y hx, hattended⟩

/-- Where all trials are pending a tool is launched for each. -/
theorem Attends.length_ran (h : Attends outdir budget i may d xs outcomes d')
    (hpending : ∀ x ∈ xs, d.Pending outdir budget x i) :
    (outcomes.filter fun o => o.2.ran).length = xs.length := by
  have hran : outcomes.filter (fun o => o.2.ran) = outcomes := by
    rw [List.filter_eq_self]
    intro o ho
    obtain ⟨x, hx, -, hattended⟩ := h.mem_outcomes ho
    exact hattended.ran_iff.2 (hpending x hx)
  rw [hran, h.trials.length_eq]

theorem Attends.rowBecomes (h : Attends outdir budget i may d xs outcomes d')
    (hbecomes : ∀ x outcome, Attended outdir budget i may d d' x outcome → becomes d d' x) :
    RowBecomes outdir xs i becomes d d' where
  within := h.withinRow
  trials x hx := by
    obtain ⟨outcome, -, hattended⟩ := h.of_mem hx
    exact hbecomes x outcome hattended

section Cons

variable (hxs : Apart xs) (hys : ∀ x ∈ y :: ys, x ∈ xs) (hy : y ∉ ys) (hopens : d.Opens outdir)

include hxs hys hy hopens

/-- First a trial and then the others. -/
theorem RowBecomes.cons (hlocal : Local outdir i becomes)
    (hwithin : Within (TrialPlaces outdir d.here y.name i) d d₁) (hfirst : becomes d d₁ y)
    (hrest : RowBecomes outdir ys i becomes d₁ d₂) :
    RowBecomes outdir (y :: ys) i becomes d d₂ := by
  refine ⟨?_, fun x hx => ?_⟩
  · have hrestwithin := hrest.within
    rw [hwithin.here] at hrestwithin
    exact within_cons hwithin hrestwithin
  · rcases List.mem_cons.1 hx with rfl | hx
    · exact hlocal.first hxs hys hy hfirst hrest.within
    · exact hlocal.rest hxs hys hy hopens hwithin hx (hrest.trials x hx)

theorem Attends.cons (hwithin : Within (RecordPlaces outdir d.here y.name i) d d₁)
    (hfirst : Attended outdir budget i may d d₁ y outcome)
    (hrest : Attends outdir budget i may d₁ ys outcomes d₂) :
    Attends outdir budget i may d (y :: ys) ((y.name, outcome) :: outcomes) d₂ := by
  have htrial := hwithin.mono fun _ => RecordPlaces.trialPlaces
  refine ⟨?_, .cons ⟨rfl, ?_⟩ ?_⟩
  · have hrestwithin := hrest.within
    rw [hwithin.here] at hrestwithin
    exact within_cons hwithin hrestwithin
  · exact (local_attended outcome).first hxs hys hy hfirst hrest.withinRow
  · -- Each of the others came to its outcome from the disk after the first.
    refine ((List.forall₂_and_left ys outcomes).2 ⟨fun _ hx => hx, hrest.trials⟩).imp ?_
    rintro x o ⟨hx, hname, hattended⟩
    exact ⟨hname, (local_attended o.2).rest hxs hys hy hopens htrial hx hattended⟩

end Cons

end Row

/-- A trial leaves the other ones of its row legible. -/
theorem Legible.within (hxs : Apart xs) (hys : ∀ x ∈ y :: ys, x ∈ xs) (hy : y ∉ ys)
    (hopens : d.Opens outdir) (hlegible : d.Legible outdir ys i)
    (h : Within (TrialPlaces outdir d.here y.name i) d d') : d'.Legible outdir ys i := by
  intro x hx
  have hxxs := hys x (List.mem_cons_of_mem y hx)
  have hne : ¬ (y = x ∧ i = i) := by
    rintro ⟨rfl, -⟩
    exact hy hx
  rw [hopens.status_congr (hxs.no_slash x hxxs) (h.opens hopens)
    (hxs.entries_within hxxs (hys y List.mem_cons_self) hne h)]
  exact hlegible x hx

end Disk

/-! ## Section 4: Sweeps -/

namespace Runner

/-- What may be said when the trials of a row fail: if they were cut, then each of
    them was left halfway at most; and none fail on a host that is steadfast. -/
def FailsRow (r : Runner) (outdir : Path) (budget : UInt64) (i : Nat)
    (may : Descriptor → Option ByteArray → Prop) (xs : List Descriptor) (d₀ : Disk)
    (e : TrialError) (d : Disk) : Prop :=
  ¬ r.host.Steadfast ∧ (e.isCut = true →
    Disk.RowBecomes outdir xs i (Disk.Halfway outdir budget i may) d₀ d)

/-- A trial with a status, on any host whose tools come to what they may. -/
theorem meets_trial (hobeys : r.host.Obeys may) (hx : '/' ∉ x.name.toList)
    (hopens : d₀.Opens outdir) {known : RunRecord}
    (hknown : d₀.status x (log outdir x.name i) = .ok known) :
    Meets (· = d₀) (r.trial x budget (log outdir x.name i))
      (fun outcome d => Disk.Within (Disk.RecordPlaces outdir d₀.here x.name i) d₀ d ∧
        Disk.Attended outdir budget i may d₀ d x outcome)
      (fun e d => ¬ r.host.Steadfast ∧ (e.isCut = true →
        Disk.Within (Disk.TrialPlaces outdir d₀.here x.name i) d₀ d ∧
          Disk.Halfway outdir budget i may d₀ d x)) := by
  cases hpending : known.isPending budget with
  | false =>
    intro w hw
    have hw' : w.disk = d₀ := hw
    -- A settled trial is skipped.
    have hskip := perform_trial_of_settled (r := r) (w := w) (by rw [hw']; exact hknown) hpending
    rw [hskip]
    show _ ∧ _
    rw [hw']
    exact ⟨Disk.Within.refl _ _, .skipped hknown hpending rfl⟩
  | true =>
    have hyes : d₀.Pending outdir budget x i := ⟨known, hknown, hpending⟩
    refine (meets_attempt hx hopens hobeys hknown hpending).mono (fun _ hd => hd) ?_ ?_
    · rintro outcome d ⟨result, hmay, hwithin, hleft, rfl⟩
      exact ⟨hwithin, .attempted hyes hmay hleft⟩
    · rintro e d ⟨hsteadfast, hcut⟩
      refine ⟨hsteadfast, fun he => ?_⟩
      obtain ⟨hwithin, hentries⟩ := hcut he
      exact ⟨hwithin, Or.inr ⟨hyes, hentries⟩⟩

/-- Trials that are all through came to their outcomes; trials that are cut leave
    each of them halfway at most. -/
theorem meets_trials (budget : UInt64) (hobeys : r.host.Obeys may) (hxs : Apart xs)
    (hys : ∀ y ∈ ys, y ∈ xs) (hnodup : ys.Nodup) (hopens : ys ≠ [] → d₀.Opens outdir)
    (hlegible : d₀.Legible outdir ys i) :
    Meets (· = d₀) (r.trials outdir budget i ys)
      (Disk.Attends outdir budget i may d₀ ys) (r.FailsRow outdir budget i may ys d₀) := by
  induction ys generalizing d₀ with
  | nil =>
    refine meets_pure fun d hd => ?_
    rw [hd]
    exact ⟨Disk.Within.refl _ _, .nil⟩
  | cons y ys ih =>
    obtain ⟨hy, hnodup'⟩ := List.nodup_cons.1 hnodup
    obtain ⟨known, hknown⟩ := hlegible y List.mem_cons_self
    have hslash := hxs.no_slash y (hys y List.mem_cons_self)
    have hopens := hopens (List.cons_ne_nil y ys)
    have hys' : ∀ x ∈ ys, x ∈ xs := fun x hx => hys x (List.mem_cons_of_mem y hx)
    -- Without a stop the first trial runs, and if it is through then the others do.
    have hgo : Meets (· = d₀) (do
        let outcome ← r.trial y budget (log outdir y.name i)
        return (y.name, outcome) :: (← r.trials outdir budget i ys) :
          Act TrialError (List (String × TrialOutcome)))
        (Disk.Attends outdir budget i may d₀ (y :: ys))
        (r.FailsRow outdir budget i may (y :: ys) d₀) := by
      -- Cut in the first trial the others are as before; cut later it is through.
      refine meets_bind ((meets_trial hobeys hslash hopens hknown).mono (fun _ hd => hd)
        (fun _ _ hd => hd) ?_) fun outcome => Meets.pointwise ?_
      · rintro e d ⟨hsteadfast, hcut⟩
        refine ⟨hsteadfast, fun he => ?_⟩
        obtain ⟨hwithin, hhalfway⟩ := hcut he
        exact Disk.RowBecomes.cons hxs hys hy hopens Disk.local_halfway hwithin hhalfway
          (Disk.rowBecomes_refl fun _ _ => Or.inl rfl)
      · rintro d₁ ⟨hwithin, hattended⟩
        have htrial := hwithin.mono fun _ => Disk.RecordPlaces.trialPlaces
        have hlegible' : d₁.Legible outdir ys i := by
          refine Disk.Legible.within hxs hys hy hopens (fun x hx => ?_) htrial
          exact hlegible x (List.mem_cons_of_mem y hx)
        have hrest := ih hys' hnodup' (fun _ => hwithin.opens hopens) hlegible'
        refine meets_bind (hrest.mono (fun _ hd => hd) (fun _ _ hd => hd) ?_) fun rest =>
          meets_pure fun d hd => ?_
        · rintro e d ⟨hsteadfast, hcut⟩
          refine ⟨hsteadfast, fun he => ?_⟩
          exact Disk.RowBecomes.cons hxs hys hy hopens Disk.local_halfway htrial
            hattended.halfway (hcut he)
        · exact hd.cons hxs hys hy hopens hwithin hattended
    unfold trials
    refine meets_bind meets_stop fun stop => Meets.given fun hstop => ?_
    split
    · rename_i htrue
      refine meets_bind (meets_fail fun d hd => ⟨hstop htrue, fun _ => ?_⟩) fun _ => hgo
      rw [hd]
      exact Disk.rowBecomes_refl fun _ _ => Or.inl rfl
    · exact hgo

/-- A sweep opens on the next row. -/
theorem meets_opening (hperm : ys.Perm xs) (hnext : d₀.NextRow outdir budget xs n)
    {E : TrialError → Disk → Prop} :
    Meets (· = d₀) (r.opening outdir budget ys)
      (fun opened d => d = d₀ ∧ opened.1.nextIteration = n ∧ opened.2.Perm xs) E := by
  obtain ⟨p, hscan, hp⟩ := Disk.scan_nextIteration_iff.2 (hnext.perm hperm)
  intro w hw
  have hw' : w.disk = d₀ := hw
  obtain ⟨shown, hopening⟩ := perform_opening r outdir budget ys w
  rw [hopening, hw', hscan]
  exact ⟨rfl, hp, (r.host.order_perm _ _).trans hperm⟩

/-- A sweep that is through attended to every trial of the next row; one that is
    cut left each of them halfway at most. -/
theorem meets_sweep_attends (hobeys : r.host.Obeys may) (hxs : Apart xs) (hperm : ys.Perm xs)
    (hopens : xs ≠ [] → d₀.Opens outdir) (hnext : d₀.NextRow outdir budget xs n) :
    Meets (· = d₀) (r.sweep outdir budget ys)
      (fun result d => result.1.iteration = n ∧ result.2.Perm xs ∧
        Disk.Attends outdir budget n may d₀ result.2 result.1.outcomes d)
      (r.FailsRow outdir budget n may xs d₀) := by
  have hlegible := hnext.legible
  unfold sweep
  refine meets_bind (meets_opening hperm hnext) ?_
  rintro ⟨progress, order⟩
  refine Meets.given fun ⟨hiteration, horder⟩ => ?_
  have hmem : ∀ x ∈ order, x ∈ xs := fun x hx => horder.mem_iff.1 hx
  simp only at hiteration ⊢
  rw [hiteration]
  -- Whatever order was drawn, its trials are those of the row.
  have hopens' : order ≠ [] → d₀.Opens outdir := by
    intro hne
    refine hopens fun hnil => hne ?_
    rw [hnil] at horder
    exact horder.eq_nil
  have htrials := meets_trials budget hobeys hxs hmem (horder.nodup_iff.2 hxs.nodup) hopens'
    fun x hx => hlegible x (hmem x hx)
  refine meets_bind (htrials.mono (fun _ hd => hd) (fun _ _ hd => hd) ?_) fun outcomes =>
    meets_pure fun d hd => ⟨rfl, horder, hd⟩
  exact fun e d ⟨hsteadfast, hcut⟩ => ⟨hsteadfast, fun he => (hcut he).perm horder⟩

end Runner

end BenchSweep
