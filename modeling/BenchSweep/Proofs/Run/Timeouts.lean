import BenchSweep.Proofs.Decimal.Held
import BenchSweep.Proofs.Run.Account
import BenchSweep.Proofs.Run.Dense

/-! # What a Marker Tells

    A trial that overran a budget leaves a marker with the seconds, and from then on
    the status, the scans and later trials all go by it.  The seconds pass through a
    double on the way back, so what is told are the seconds that a double holds. -/

namespace BenchSweep

open Artifact

variable {d d' : Disk} {outdir log : Path} {x : Descriptor} {s t : UInt64}

/-! ## Section 1: What can be told of a timeout -/

namespace Disk

/-- Nothing proves the trial with the given log: the log is missing, or the parser
    of the experiment does not accept it. -/
def Unproved (d : Disk) (x : Descriptor) (log : Path) : Prop :=
  ∃ c, content? d log = .ok c ∧ proof? x c = none

/-- Whoever asks is told that the trial with the given log overran a budget of so
    many seconds. -/
structure TellsTimeout (d : Disk) (x : Descriptor) (log : Path) (t : UInt64) : Prop where
  /-- The record says so, and it is pending at larger budgets only. -/
  recorded : ∃ r, d.status x log = .ok r ∧ r.status = .timeout ∧ r.timeoutSecs = some t ∧
    ∀ b, r.isPending b = true ↔ t < b
  /-- Every scan that comes to the trial reports it. -/
  reported : ∀ outdir xs i budget p, x ∈ xs → log = Artifact.log outdir x.name i →
    d.scan outdir budget xs = .ok p → i ≤ p.iterations → (x.name, t) ∈ p.timeouts
  /-- No tool is launched again at a budget of at most so many seconds. -/
  skipped : ∀ (r : Runner) b w, w.disk = d → b ≤ t →
    (r.trial x b log).perform w = (.ok (.skipped .timeout), w)

/-! ## Section 2: What a marker changes -/

/-- A marker is in the way of nothing: the log reads as before, and the marker itself
    holds the budget. -/
theorem contents_of_mark (h : d.mark log s = .ok d') :
    content? d' log = content? d log ∧
      content? d' (marker log) = .ok (some (Text.decode (budgetText s))) := by
  obtain ⟨dir, name, hname, hlog, hfile⟩ := exists_folder log
  have hmarker : marker log = dir.join (name ++ Kind.marker.ending) := by
    rw [← file_marker, hfile]
  have hs : Path.IsFileName (name ++ Kind.marker.ending) := isFileName_ending hname (by decide)
  -- The marker was written, so its directory is open and its path is not refused.
  have hplace : (marker log).locate d.here = (name ++ Kind.marker.ending) :: dir.locate d.here := by
    rw [hmarker]
    exact Path.locate_join hs dir d.here
  obtain ⟨hnode, hput⟩ := write_ok h
  obtain ⟨⟨l, hl⟩, -, -⟩ := locate_of_write h
  rw [hmarker] at hl
  obtain ⟨hopens, hrefusal⟩ := opens_of_locate hs hl
  rw [hplace] at hnode hput
  have hwithin : Within (fun _ => True) d d' := by
    rw [hput]
    exact Within.put (List.cons_ne_nil _ _) hnode trivial (budgetText s)
  have hopens' := hwithin.opens hopens
  constructor
  · -- The place of the log is another one.
    have hread : d'.read log = d.read log := by
      apply read_congr
      · rw [hlog]
        exact hopens.locate_congr hopens' hwithin.here hname
      · intro m hm
        have hne : m ≠ (name ++ Kind.marker.ending) :: dir.locate d.here := by
          rw [locate_ok hm, hlog]
          exact Path.locate_join_ne hname (by decide) dir d.here
        rw [hput, node?_put_ne _ _ hne]
    unfold content? readText?
    rw [hread]
  · rw [hmarker]
    apply hopens'.content?_file hs hrefusal
    rw [held?, hput]
    exact node?_put_self _ _ (List.cons_ne_nil _ _)

/-- Beside a log that proves nothing a new marker tells of its budget. -/
theorem status_of_mark (h : d.mark log s = .ok d') (hlog : d.Unproved x log) :
    d'.status x log = .ok (.timeout s) := by
  obtain ⟨c, hc, hproof⟩ := hlog
  obtain ⟨hsame, hmarker⟩ := contents_of_mark h
  rw [status_of_contents (hsame.trans hc) hmarker, hproof]
  simp only [marked, budgetOf?_budgetText]

/-- A marker tells of a timeout only beside a log that proves nothing. -/
theorem unproved_of_mark (h : d.mark log s = .ok d') {r : RunRecord}
    (hstatus : d'.status x log = .ok r) (hr : r.status = .timeout) : d.Unproved x log := by
  obtain ⟨hsame, hmarker⟩ := contents_of_mark h
  cases hc : content? d log with
  | error e =>
    rw [status, hsame, hc] at hstatus
    cases hstatus
  | ok c =>
    refine ⟨c, hc, ?_⟩
    rw [status_of_contents (hsame.trans hc) hmarker] at hstatus
    cases hproof : proof? x c with
    | none => rfl
    | some r' =>
      obtain ⟨time, metrics, rfl⟩ := proof?_done hproof
      rw [hproof] at hstatus
      cases hstatus
      cases hr

/-! ## Section 3: What is told -/

/-- A record of a timeout tells of the seconds that it holds. -/
theorem tellsTimeout_of_status (h : d.status x log = .ok (.timeout s)) :
    d.TellsTimeout x log (RunRecord.heldSeconds s) where
  recorded := by
    refine ⟨.timeout s, h, rfl, rfl, fun b => ?_⟩
    exact decide_eq_true_iff
  reported := by
    rintro outdir xs i budget p hx rfl hscan hi
    obtain ⟨k, -, hblank, rfl⟩ := scan_ok hscan
    rw [iterations_progress] at hi
    -- The row where the scan ends has no record, so it is not this one.
    have hne : i ≠ k := by
      rintro rfl
      rw [hblank x hx] at h
      cases h
    rw [timeouts_progress]
    apply List.mem_flatMap.2
    refine ⟨i, List.mem_range.2 (by omega), List.mem_filterMap.2 ⟨x, hx, ?_⟩⟩
    unfold overrun?
    rw [h]
  skipped := by
    rintro r b w rfl hb
    apply Runner.perform_trial_of_settled h
    show decide (RunRecord.heldSeconds s < b) = false
    exact decide_eq_false (UInt64.not_lt.2 hb)

end Disk

/-- **A marker tells the seconds that a double holds.**  Once a budget is noted beside
    a log, whoever asks is told of a timeout exactly if the log proves nothing, and
    told of the held seconds and no others.  These are the noted ones exactly if the
    budget has at most 53 significant bits, or is the largest one. -/
theorem timeout_told_iff (x : Descriptor) (h : d.mark log s = .ok d') :
    (∀ t, d'.TellsTimeout x log t ↔ d.Unproved x log ∧ t = RunRecord.heldSeconds s) ∧
    (d'.TellsTimeout x log s ↔ d.Unproved x log ∧
      (Decimal.FitsMantissa s.toNat ∨ s.toNat = UInt64.size - 1)) := by
  have htold : ∀ t, d'.TellsTimeout x log t ↔
      d.Unproved x log ∧ t = RunRecord.heldSeconds s := by
    intro t
    constructor
    · intro ht
      obtain ⟨r, hstatus, hr, hsecs, -⟩ := ht.recorded
      have hlog := Disk.unproved_of_mark h hstatus hr
      rw [Disk.status_of_mark h hlog] at hstatus
      cases hstatus
      exact ⟨hlog, (Option.some.inj hsecs).symm⟩
    · rintro ⟨hlog, rfl⟩
      exact Disk.tellsTimeout_of_status (Disk.status_of_mark h hlog)
  refine ⟨htold, ?_⟩
  rw [htold, eq_comm, RunRecord.heldSeconds_eq_self_iff]

/-- An output directory in which a budget is noted for an experiment without a log. -/
def Disk.withNote (s : UInt64) : Disk where
  here := []
  nodes := [(["b-0.timeout", "out"], .file (budgetText s)), (["out"], .dir)]

theorem Disk.mark_emptyOut (s : UInt64) :
    Disk.emptyOut.mark (Artifact.log ⟨"out"⟩ "b" 0) s = .ok (.withNote s) := rfl

theorem Disk.unproved_emptyOut :
    Disk.emptyOut.Unproved (.plain "b") (Artifact.log ⟨"out"⟩ "b" 0) :=
  ⟨none, rfl, rfl⟩

theorem timeout_told_oneMinute :
    Disk.emptyOut.mark (Artifact.log ⟨"out"⟩ "b" 0) 60 = .ok (.withNote 60) ∧
      (Disk.withNote 60).TellsTimeout (.plain "b") (Artifact.log ⟨"out"⟩ "b" 0) 60 := by
  have hmark := Disk.mark_emptyOut 60
  refine ⟨hmark, (timeout_told_iff (.plain "b") hmark).2.2 ⟨Disk.unproved_emptyOut, ?_⟩⟩
  exact Or.inl ⟨60, 0, by decide, rfl⟩

/-- Just above `2 ^ 53` a budget is told as one second less, and so a tool that overran
    it is launched at it again. -/
theorem timeout_retried_at_its_budget :
    Disk.emptyOut.mark (Artifact.log ⟨"out"⟩ "b" 0) 9007199254740993
        = .ok (.withNote 9007199254740993) ∧
      Disk.emptyOut.Unproved (.plain "b") (Artifact.log ⟨"out"⟩ "b" 0) ∧
      ¬ (Disk.withNote 9007199254740993).TellsTimeout (.plain "b") (Artifact.log ⟨"out"⟩ "b" 0)
        9007199254740993 ∧
      (Disk.withNote 9007199254740993).TellsTimeout (.plain "b") (Artifact.log ⟨"out"⟩ "b" 0)
        9007199254740992 ∧
      (((Runner.telling fun _ => none).trial (.plain "b") 9007199254740993
        (Artifact.log ⟨"out"⟩ "b" 0)).perform (.fresh (.withNote 9007199254740993))).1
          = .ok (.timedOut 9007199254740993) := by
  have hmark := Disk.mark_emptyOut 9007199254740993
  have hstatus := Disk.status_of_mark hmark Disk.unproved_emptyOut
  have hheld : RunRecord.heldSeconds 9007199254740993 = 9007199254740992 := by decide
  refine ⟨hmark, Disk.unproved_emptyOut, ?_, ?_, rfl⟩
  · intro htold
    obtain ⟨r, hr, -, hsecs, -⟩ := htold.recorded
    rw [hstatus] at hr
    rw [← Except.ok.inj hr, RunRecord.timeoutSecs, hheld] at hsecs
    exact absurd (Option.some.inj hsecs) (by decide)
  · rw [← hheld]
    exact Disk.tellsTimeout_of_status hstatus

end BenchSweep
