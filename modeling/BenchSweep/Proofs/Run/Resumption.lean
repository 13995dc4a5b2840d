import BenchSweep.Proofs.Run.Dense
import BenchSweep.Proofs.Run.Series

/-! # Resumption

    A sweep that is cut leaves each trial of its row as it was, as an attempt
    that is through leaves it, or bare.  In each case the trial is either what
    the uncut sweep would have made of it or pending, so the next sweep comes
    back to the row and makes up for what is missing. -/

namespace BenchSweep

open Artifact Act

variable {outdir : Path} {xs ys : List Descriptor} {x y : Descriptor} {budget : UInt64}
  {d d₀ d' : Disk} {i n : Nat} {f : Descriptor → Option ByteArray}
  {may : Descriptor → Option ByteArray → Prop} {r : Runner}

/-! ## Section 1: Tools that do the same every time -/

namespace Disk

/-- The trial is as before, or as a tool that is through leaves it if it was
    pending. -/
structure Through (outdir : Path) (budget : UInt64) (i : Nat) (f : Descriptor → Option ByteArray)
    (d d' : Disk) (x : Descriptor) : Prop where
  pending : d.Pending outdir budget x i → d'.entries outdir x i = .left budget (f x)
  settled : ¬ d.Pending outdir budget x i → d'.entries outdir x i = d.entries outdir x i

/-- A trial that was attended to by a tool that does what a function says. -/
theorem Attended.through {outcome : TrialOutcome}
    (h : Attended outdir budget i (f · = ·) d d' x outcome) : Through outdir budget i f d d' x := by
  cases h with
  | skipped hknown hsettled hsame =>
    exact ⟨fun hpending => absurd hpending (not_pending hknown hsettled), fun _ => hsame⟩
  | attempted hpending hmay hleft =>
    subst hmay
    exact ⟨fun _ => hleft, fun hsettled => absurd hpending hsettled⟩

end Disk

namespace Runner

/-- What a sweep makes of its row. -/
theorem meets_sweep (hfollows : r.host.Follows f) (hxs : Apart xs) (hperm : ys.Perm xs)
    (hopens : d₀.Opens outdir) (hnext : d₀.NextRow outdir budget xs n) :
    Meets (· = d₀) (r.sweep outdir budget ys)
      (fun _ => Disk.RowBecomes outdir xs n (Disk.Through outdir budget n f) d₀)
      (fun e d => ¬ r.host.Steadfast ∧ (e.isCut = true →
        Disk.RowBecomes outdir xs n (Disk.Halfway outdir budget n (f · = ·)) d₀ d)) := by
  refine (meets_sweep_attends hfollows.obeys hxs hperm (fun _ => hopens) hnext).mono
    (fun _ hd => hd) ?_ fun _ _ hd => hd
  rintro result d ⟨-, horder, hattends⟩
  exact (hattends.rowBecomes fun x outcome hattended => hattended.through).perm horder

end Runner

/-! ## Section 2: Coming back to a row -/

namespace Disk

/-- No artifact is unreadable or corrupt, as far as a scan can come: each row
    with a record takes a file, and one row more may come into being. -/
def Intact (d : Disk) (outdir : Path) (xs : List Descriptor) : Prop :=
  ∀ i ≤ d.size + 1, d.Legible outdir xs i

/-- A directory that is intact has a next row. -/
theorem Intact.nextRow (h : d.Intact outdir xs) (budget : UInt64) :
    ∃ n, d.NextRow outdir budget xs n := by
  obtain ⟨k, hbelow, hk⟩ := exists_unrecorded d outdir xs
  have hblank : d.Blank outdir xs k := (h k (Nat.le_succ_of_le (rows_le_size hbelow))).blank hk
  have hscan : d.scan outdir budget xs = .ok (d.progress outdir budget xs k) :=
    scan_of_blank hbelow hblank
  exact ⟨_, scan_nextIteration_iff.1 ⟨_, hscan, rfl⟩⟩

variable (hxs : Apart xs) (hopens : d.Opens outdir)

include hxs hopens

/-- After a cut sweep a trial of the row is what the uncut sweep would have made
    of it, or pending. -/
theorem Halfway.through_or_pending (hx : x ∈ xs) (hopens' : d'.Opens outdir)
    (h : Halfway outdir budget n (f · = ·) d d' x) {uncut : Disk}
    (huncut : Through outdir budget n f d uncut x) :
    d'.entries outdir x n = uncut.entries outdir x n ∨ d'.Pending outdir budget x n := by
  have hslash := hxs.no_slash x hx
  rcases h with hsame | ⟨hpending, hbare | ⟨_, rfl, hleft⟩⟩
  · by_cases hpending : d.Pending outdir budget x n
    · exact Or.inr ((Pending.congr hslash hopens hopens' hsame).2 hpending)
    · exact Or.inl (hsame.trans (huncut.settled hpending).symm)
  · obtain ⟨known, hknown, hknown'⟩ := hpending
    have hw := hopens.writable_of_pending hslash hknown hknown'
    exact Or.inr ⟨.notDone, hopens'.status_of_bare hslash hw hbare, rfl⟩
  · exact Or.inl (hleft.trans (huncut.pending hpending).symm)

/-- A trial that is pending after a cut sweep was pending before. -/
theorem Halfway.pending_before (hx : x ∈ xs) (hopens' : d'.Opens outdir)
    (h : Halfway outdir budget n may d d' x) (hpending : d'.Pending outdir budget x n) :
    d.Pending outdir budget x n := by
  rcases h with hsame | ⟨hbefore, -⟩
  · exact (Pending.congr (hxs.no_slash x hx) hopens hopens' hsame).1 hpending
  · exact hbefore

/-- A cut sweep leaves its row legible. -/
theorem Halfway.status_ok (hx : x ∈ xs) (hopens' : d'.Opens outdir)
    (h : Halfway outdir budget n may d d' x)
    (hknown : ∃ known, d.status x (log outdir x.name n) = .ok known) :
    ∃ known, d'.status x (log outdir x.name n) = .ok known := by
  have hslash := hxs.no_slash x hx
  rcases h with hsame | ⟨⟨known, hknown, hpending⟩, hbare | ⟨_, -, hleft⟩⟩
  · rw [hopens.status_congr hslash hopens' hsame]
    exact hknown
  · have hw := hopens.writable_of_pending hslash hknown hpending
    exact ⟨_, hopens'.status_of_bare hslash hw hbare⟩
  · have hw := hopens.writable_of_pending hslash hknown hpending
    exact ⟨_, hopens'.status_of_left hslash hw hleft⟩

/-- If some trial of the row is pending after a cut sweep, then the row is next
    again. -/
theorem RowBecomes.nextRow (hintact : d.Intact outdir xs) (hnext : d.NextRow outdir budget xs n)
    (h : RowBecomes outdir xs n (Halfway outdir budget n may) d d')
    (hpending : ∃ x ∈ xs, d'.Pending outdir budget x n) : d'.NextRow outdir budget xs n := by
  have hopens' := h.within.opens hopens
  -- The other rows say what they said before the cut.
  have hstatus : ∀ j ≠ n, ∀ x ∈ xs,
      d'.status x (log outdir x.name j) = d.status x (log outdir x.name j) := fun j hj x hx =>
    hopens.status_congr (hxs.no_slash x hx) hopens' (h.entries_ne hxs hx hj)
  have hlegible' : ∀ j, d.Legible outdir xs j → d'.Legible outdir xs j := by
    intro j hlegible x hx
    by_cases hj : j = n
    · subst hj
      exact (h.trials x hx).status_ok hxs hopens hx hopens' (hlegible x hx)
    · rw [hstatus j hj x hx]
      exact hlegible x hx
  have hblank : ∀ j ≠ n, d'.Blank outdir xs j ↔ d.Blank outdir xs j := fun j hj =>
    forall_congr' fun x => forall_congr' fun hx => by rw [hstatus j hj x hx]
  have hrecorded : ∀ j ≠ n, d.Recorded outdir xs j → d'.Recorded outdir xs j := fun j hj hrow =>
    ⟨hlegible' j hrow.1, fun hrow' => hrow.2 ((hblank j hj).1 hrow')⟩
  obtain ⟨k, hbelow, hk⟩ := exists_unrecorded d' outdir xs
  -- All rows before the end but this one had a record before the cut, and so a file.
  have hle : k ≤ d.size + 1 := by
    by_contra hlt
    have hrows : ∀ j ∈ (List.range (d.size + 2)).erase n, d.Recorded outdir xs j := by
      intro j hj
      obtain ⟨hjn, hj⟩ := (List.Nodup.mem_erase_iff List.nodup_range).1 hj
      have hj' : j < d.size + 2 := List.mem_range.1 hj
      have hrow : d'.Recorded outdir xs j := hbelow j (by omega)
      exact ⟨hintact j (by omega), fun hbefore => hrow.2 ((hblank j hjn).2 hbefore)⟩
    have hcount := length_le_size (List.Nodup.erase n List.nodup_range) hrows
    rw [List.length_erase] at hcount
    split at hcount <;> rw [List.length_range] at hcount <;> omega
  have hend : d'.Blank outdir xs k := (hlegible' k (hintact k hle)).blank hk
  obtain ⟨k₀, hbelow₀, -, hle₀, hsettled₀, -⟩ := hnext
  refine ⟨k, hbelow, hend, ?_, ?_, fun _ => ?_⟩
  · refine Nat.le_of_not_lt fun hlt => ?_
    exact (hrecorded k (Nat.ne_of_lt hlt) (hbelow₀ k (Nat.lt_of_lt_of_le hlt hle₀))).2 hend
  · intro j hj x hx
    rw [hstatus j (Nat.ne_of_lt hj) x hx]
    exact hsettled₀ j hj x hx
  · obtain ⟨x, hx, known, hknown, hknown'⟩ := hpending
    exact ⟨x, hx, known, hknown, hknown'⟩

/-- The next sweep, when it is through, leaves the row as the uncut one. -/
theorem RowBecomes.entries_eq (h : RowBecomes outdir xs n (Halfway outdir budget n (f · = ·)) d d')
    {uncut d₂ : Disk} (huncut : RowBecomes outdir xs n (Through outdir budget n f) d uncut)
    (h₂ : RowBecomes outdir xs n (Through outdir budget n f) d' d₂) (hx : x ∈ xs) (i : Nat) :
    d₂.entries outdir x i = uncut.entries outdir x i := by
  have hopens' := h.within.opens hopens
  by_cases hi : i = n
  · subst hi
    have htrial := huncut.trials x hx
    by_cases hpending : d'.Pending outdir budget x i
    · have hbefore := (h.trials x hx).pending_before hxs hopens hx hopens' hpending
      exact ((h₂.trials x hx).pending hpending).trans (htrial.pending hbefore).symm
    · have hsame := ((h.trials x hx).through_or_pending hxs hopens hx hopens' htrial).resolve_right
        hpending
      exact ((h₂.trials x hx).settled hpending).trans hsame
  · exact (h₂.entries_ne hxs hx hi).trans ((h.entries_ne hxs hx hi).trans
      (huncut.entries_ne hxs hx hi).symm)

end Disk

/-! ## Section 3: Resuming a cut sweep -/

/-- Two disks have the same log and the same marker of a trial. -/
structure Disk.SameRecord (outdir : Path) (x : Descriptor) (i : Nat) (d d' : Disk) : Prop where
  log : d'.read (Artifact.log outdir x.name i) = d.read (Artifact.log outdir x.name i)
  marker : d'.read (Artifact.marker (Artifact.log outdir x.name i))
    = d.read (Artifact.marker (Artifact.log outdir x.name i))

theorem Disk.sameRecord_of_entries (hx : '/' ∉ x.name.toList) (h : d.Opens outdir)
    (h' : d'.Opens outdir) (heq : d'.entries outdir x i = d.entries outdir x i) :
    Disk.SameRecord outdir x i d d' := by
  have hlog := h.read_congr h' (isFileName hx i .log) (congrArg Entries.log heq)
  have hmarker := h.read_congr h' (isFileName hx i .marker) (congrArg Entries.marker heq)
  rw [← path, path_log] at hlog
  rw [← path, path_marker] at hmarker
  exact ⟨hlog, hmarker⟩

/-- **Resuming after a cut sweep loses nothing.**  A sweep that is cut touches no
    other row.  Either its row has the logs and markers that the sweep would
    have left uncut, or the next sweep works on the same row, and if it is
    through then all logs and markers are those of the uncut sweep. -/
theorem cut_sweep_resumes (outdir : Path) (hxs : Apart xs) (budget : UInt64)
    (f : Descriptor → Option ByteArray) (hopens : d.Opens outdir) (hintact : d.Intact outdir xs)
    (r₀ r₁ r₂ : Runner) (h₀ : r₀.host.Follows f) (hsteadfast : r₀.host.Steadfast)
    (h₁ : r₁.host.Follows f) (h₂ : r₂.host.Follows f) {ys₀ ys₁ ys₂ : List Descriptor}
    (hys₀ : ys₀.Perm xs) (hys₁ : ys₁.Perm xs) (hys₂ : ys₂.Perm xs) (w₀ w₁ w₂ : World)
    (hw₀ : w₀.disk = d) (hw₁ : w₁.disk = d) {e : TrialError}
    (hcut : ((r₁.sweep outdir budget ys₁).perform w₁).1 = .error e) (he : e.isCut = true)
    (hw₂ : w₂.disk = ((r₁.sweep outdir budget ys₁).perform w₁).2.disk) :
    ∃ uncut report, (r₀.sweep outdir budget ys₀).perform w₀ = (.ok report, uncut) ∧
    ∃ p, d.scan outdir budget xs = .ok p ∧
      (∀ x ∈ xs, ∀ i ≠ p.nextIteration, Disk.SameRecord outdir x i d w₂.disk) ∧
      (∀ l, ¬ Disk.RowPlaces outdir d.here xs p.nextIteration l → w₂.disk.node? l = d.node? l) ∧
      ((∀ x ∈ xs, Disk.SameRecord outdir x p.nextIteration uncut.disk w₂.disk) ∨
        (∃ q, w₂.disk.scan outdir budget ys₂ = .ok q ∧ q.nextIteration = p.nextIteration) ∧
        ∀ report₂, ((r₂.sweep outdir budget ys₂).perform w₂).1 = .ok report₂ →
          ∀ x ∈ xs, ∀ i, Disk.SameRecord outdir x i uncut.disk
            ((r₂.sweep outdir budget ys₂).perform w₂).2.disk) := by
  obtain ⟨n, hnext⟩ := hintact.nextRow budget
  obtain ⟨p, hp, rfl⟩ := Disk.scan_nextIteration_iff.2 hnext
  have hmeets₀ := Runner.meets_sweep h₀ hxs hys₀ hopens hnext
  have hmeets₁ := Runner.meets_sweep h₁ hxs hys₁ hopens hnext
  -- The uncut sweep is through, as its host is steadfast.
  cases hrun₀ : (r₀.sweep outdir budget ys₀).perform w₀ with
  | mk result uncut =>
    cases result with
    | error e₀ =>
      have hfails := hmeets₀.error hw₀ (e := e₀) (by rw [hrun₀])
      exact absurd hsteadfast hfails.1
    | ok report =>
      have hrow₀ := hmeets₀.ok hw₀ (x := report) (by rw [hrun₀])
      rw [hrun₀] at hrow₀
      have hrow₁ := (hmeets₁.error hw₁ hcut).2 he
      rw [← hw₂] at hrow₁
      have hopens₀ := hrow₀.within.opens hopens
      have hopens₁ := hrow₁.within.opens hopens
      refine ⟨uncut, report, rfl, p, hp, fun x hx i hi => ?_, hrow₁.within.outside, ?_⟩
      · exact Disk.sameRecord_of_entries (hxs.no_slash x hx) hopens hopens₁
          (hrow₁.entries_ne hxs hx hi)
      -- If nothing is pending in the row, then the cut came after its last trial.
      · by_cases hpending : ∃ x ∈ xs, w₂.disk.Pending outdir budget x p.nextIteration
        · refine Or.inr ?_
          have hnext₂ := hrow₁.nextRow hxs hopens hintact hnext hpending
          refine ⟨Disk.scan_nextIteration_iff.2 (hnext₂.perm hys₂), fun report₂ hok x hx i => ?_⟩
          have hrow₂ := (Runner.meets_sweep h₂ hxs hys₂ hopens₁ hnext₂).ok rfl hok
          exact Disk.sameRecord_of_entries (hxs.no_slash x hx) hopens₀
            (hrow₂.within.opens hopens₁) (hrow₁.entries_eq hxs hopens hrow₀ hrow₂ hx i)
        · refine Or.inl fun x hx => ?_
          have hsame := ((hrow₁.trials x hx).through_or_pending hxs hopens hx hopens₁
            (hrow₀.trials x hx)).resolve_right fun h => hpending ⟨x, hx, h⟩
          exact Disk.sameRecord_of_entries (hxs.no_slash x hx) hopens₀ hopens₁ hsame

/-- A tool that overruns and one that measures. -/
def oneMeasures (x : Descriptor) : Option ByteArray :=
  if x.name = "b" then some measured else none

/-- The operator asks to stop after the first trial. -/
def Runner.stopping : Runner :=
  { Runner.telling oneMeasures with
    host := { Host.telling oneMeasures with stop := fun n => decide (3 ≤ n) } }

/-- The world after the sweep that was stopped. -/
def afterStop : World :=
  ((Runner.stopping.sweep ⟨"out"⟩ 5 [.plain "a", .plain "b"]).perform (.fresh .emptyOut)).2

theorem cut_sweep_resumes_afterStop :
    ∃ uncut report, ((Runner.telling oneMeasures).sweep ⟨"out"⟩ 5 [.plain "b", .plain "a"]).perform
      (.fresh .emptyOut) = (.ok report, uncut) ∧
    ∃ p, Disk.emptyOut.scan ⟨"out"⟩ 5 [.plain "a", .plain "b"] = .ok p ∧
      ((∀ x ∈ [Descriptor.plain "a", .plain "b"],
        Disk.SameRecord ⟨"out"⟩ x p.nextIteration uncut.disk afterStop.disk) ∨
        (∃ q, afterStop.disk.scan ⟨"out"⟩ 5 [.plain "b", .plain "a"] = .ok q ∧
          q.nextIteration = p.nextIteration) ∧
        ∀ report₂, (((Runner.telling oneMeasures).sweep ⟨"out"⟩ 5 [.plain "b", .plain "a"]).perform
          afterStop).1 = .ok report₂ →
          ∀ x ∈ [Descriptor.plain "a", .plain "b"], ∀ i, Disk.SameRecord ⟨"out"⟩ x i uncut.disk
            (((Runner.telling oneMeasures).sweep ⟨"out"⟩ 5 [.plain "b", .plain "a"]).perform
              afterStop).2.disk) := by
  have hintact : Disk.emptyOut.Intact ⟨"out"⟩ [.plain "a", .plain "b"] := by
    intro i hi x hx
    have hi' : i = 0 ∨ i = 1 ∨ i = 2 := by
      have hsize : Disk.emptyOut.size = 1 := rfl
      omega
    simp only [List.mem_cons, List.not_mem_nil, or_false] at hx
    rcases hx with rfl | rfl <;> rcases hi' with rfl | rfl | rfl <;> exact ⟨.notDone, rfl⟩
  have hfollows : Runner.stopping.host.Follows oneMeasures := Host.follows_telling oneMeasures
  have hstop : (match ((Runner.stopping.sweep ⟨"out"⟩ 5 [.plain "a", .plain "b"]).perform
      (.fresh .emptyOut)).1 with
    | .error e => e.isCut
    | .ok _ => false) = true := by
    decide +kernel
  cases hcut : ((Runner.stopping.sweep ⟨"out"⟩ 5 [.plain "a", .plain "b"]).perform
      (.fresh .emptyOut)).1 with
  | ok report =>
    rw [hcut] at hstop
    cases hstop
  | error e =>
    rw [hcut] at hstop
    have htelling : (Runner.telling oneMeasures).host.Follows oneMeasures :=
      Host.follows_telling oneMeasures
    have hafter : afterStop.disk = ((Runner.stopping.sweep ⟨"out"⟩ 5
        [.plain "a", .plain "b"]).perform (.fresh .emptyOut)).2.disk := by
      rw [afterStop]
    have hswap : List.Perm [Descriptor.plain "b", .plain "a"] [.plain "a", .plain "b"] :=
      List.Perm.swap _ _ _
    obtain ⟨uncut, report, huncut, p, hp, -, -, hresumed⟩ :=
      cut_sweep_resumes ⟨"out"⟩ apart_plain_two 5 oneMeasures Disk.vacant_emptyOut.opens hintact
        (.telling oneMeasures) .stopping (.telling oneMeasures) htelling
        (Host.steadfast_telling oneMeasures) hfollows htelling hswap (List.Perm.refl _) hswap
        (.fresh .emptyOut) (.fresh .emptyOut) afterStop rfl rfl hcut hstop hafter
    exact ⟨uncut, report, huncut, p, hp, hresumed⟩

end BenchSweep
