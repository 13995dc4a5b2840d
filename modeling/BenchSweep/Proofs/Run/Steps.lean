import BenchSweep.Proofs.Disk.Directory
import BenchSweep.Proofs.Run.Maintains
import BenchSweep.Proofs.Run.Names
import BenchSweep.Run.Trial

/-! # Steps of a Trial

    Whatever a trial comes to, it changes the disk by a few kinds of steps, each
    on its own log, marker or interrupted log.  What all of them preserve a
    trial maintains. -/

namespace BenchSweep

/-! ## Section 1: Hosts -/

/-- The tools write to nothing but their two outputs. -/
def Host.Quiet (h : Host) : Prop :=
  ∀ n x budget d run, h.launch n x budget d = .ok run → run.disk = d

/-- The host whose tools can be told beforehand: each writes its output and
    ends, or overruns every budget.  Nobody stops them. -/
def Host.telling (f : Descriptor → Option ByteArray) : Host where
  launch _ x _ d := .ok <| match f x with
    | some output => ⟨output, .exited, d⟩
    | none => ⟨.empty, .overran, d⟩
  stop _ := false
  order _ xs := xs
  order_perm _ xs := List.Perm.refl xs

/-- What holds before the tool of a quiet host runs holds after it. -/
theorem Host.Quiet.preserves {h : Host} (hquiet : h.Quiet) {x : Descriptor} {budget : UInt64}
    (I : Disk → Prop) (n : Nat) (d : Disk) (run : ToolRun) (hd : I d)
    (hrun : h.launch n x budget d = .ok run) : I run.disk := by
  rw [hquiet n x budget d run hrun]
  exact hd

theorem Host.quiet_telling (f : Descriptor → Option ByteArray) : (Host.telling f).Quiet := by
  intro n x budget d run h
  have hrun := Except.ok.inj h
  cases hx : f x with
  | some output =>
    rw [hx] at hrun
    rw [← hrun]
  | none =>
    rw [hx] at hrun
    rw [← hrun]

/-- The runner on such a host that speaks plainly and never rests. -/
def Runner.telling (f : Descriptor → Option ByteArray) : Runner where
  host := .telling f
  voice := ⟨.en, false⟩
  settle := ⟨0⟩
  onInterrupt := .rename

/-! ## Section 2: Steps -/

/-- One change of the disk by a trial with the given log and budget. -/
inductive TrialStep (log : Path) (budget : UInt64) : Disk → Disk → Prop where
  | dropLog {d d' : Disk} : d.discard log = .ok d' → TrialStep log budget d d'
  | dropMarker {d d' : Disk} :
      d.discard (Artifact.marker log) = .ok d' → TrialStep log budget d d'
  | create {d d' : Disk} : d.write log .empty = .ok d' → TrialStep log budget d d'
  | fill {d : Disk} (output : ByteArray) : TrialStep log budget d (d.refill log output)
  | mark {d d' : Disk} : d.mark log budget = .ok d' → TrialStep log budget d d'
  | setAside {d d' : Disk} :
      d.rename log (Artifact.aside log) = .ok d' → TrialStep log budget d d'

namespace Runner

open Act

variable {r : Runner} {x : Descriptor} {budget : UInt64} {log : Path} {I : Disk → Prop}

theorem maintains_change {f : Disk → Except IoError Disk}
    (hf : ∀ d d', I d → f d = .ok d' → I d') : (Runner.change log f).Maintains I :=
  maintains_blame _ (Act.maintains_change hf)

theorem maintains_tell {ε : Type} (style : Text.Style) (p : Phrase) :
    (r.tell style p : Act ε Unit).Maintains I :=
  maintains_print _

theorem maintains_record : (Runner.record x log).Maintains I :=
  maintains_look _

theorem perform_record (x : Descriptor) (log : Path) (w : World) :
    (Runner.record x log).perform w = ((w.disk.status x log).mapError .store, w) := rfl

theorem perform_record_of_ok {w : World} {known : RunRecord}
    (hknown : w.disk.status x log = .ok known) :
    (Runner.record x log).perform w = (.ok known, w) := by
  rw [perform_record, hknown]
  rfl

theorem perform_launch (w : World) :
    (r.launch x budget log).perform w =
      match r.host.launch w.asked x budget w.disk with
      | .error e => (.error e, { w with asked := w.asked + 1 })
      | .ok run =>
        (.ok run.ending,
          { w.advance (run.disk.refill log run.output) with asked := w.asked + 1 }) := rfl

section Steps

variable (hstep : ∀ d d', I d → TrialStep log budget d d' → I d')
  (hlaunch : ∀ n d run, I d → r.host.launch n x budget d = .ok run → I run.disk)

include hstep

include hlaunch in
theorem maintains_launch : (r.launch x budget log).Maintains I := by
  intro w hw
  unfold Act.Passes
  rw [perform_launch]
  cases hrun : r.host.launch w.asked x budget w.disk with
  | error e => exact ⟨[], rfl, nofun⟩
  | ok run =>
    -- What the tool left of the disk has the property, and then its log is filled.
    have hdisk : I run.disk := hlaunch _ _ _ hw hrun
    refine ⟨[run.disk.refill log run.output], rfl, ?_⟩
    intro d hd
    rw [List.mem_singleton.1 hd]
    exact hstep _ _ hdisk (.fill run.output)

theorem maintains_clear : (Runner.clear log).Maintains I := by
  apply maintains_bind
  · exact maintains_change fun d d' hI h => hstep d d' hI (.dropLog h)
  · intro _
    exact maintains_change fun d d' hI h => hstep d d' hI (.dropMarker h)

theorem maintains_dropInterrupted : (r.dropInterrupted log).Maintains I := by
  unfold dropInterrupted
  split
  · exact maintains_change fun d d' hI h => hstep d d' hI (.setAside h)
  · exact maintains_change fun d d' hI h => hstep d d' hI (.dropLog h)

theorem maintains_conclude (ending : Except IoError Ending) :
    (r.conclude x budget log ending).Maintains I := by
  have hdrop : (Runner.change log (·.discard log)).Maintains I :=
    maintains_change fun d d' hI h => hstep d d' hI (.dropLog h)
  unfold conclude
  split
  · refine maintains_bind hdrop fun _ => ?_
    exact maintains_bind (maintains_tell _ _) fun _ => maintains_fail _
  · refine maintains_bind (maintains_dropInterrupted hstep) fun _ => ?_
    exact maintains_bind (maintains_tell _ _) fun _ => maintains_fail _
  · refine maintains_bind hdrop fun _ => maintains_bind ?_ fun _ => ?_
    · exact maintains_change fun d d' hI h => hstep d d' hI (.mark h)
    · exact maintains_bind (maintains_tell _ _) fun _ => maintains_pure _
  · refine maintains_bind (maintains_outcome hdrop) fun _ => ?_
    exact maintains_bind (maintains_tell _ _) fun _ => maintains_fail _
  · refine maintains_bind maintains_record fun known => ?_
    split <;> exact maintains_bind (maintains_tell _ _) fun _ => maintains_pure _

omit hstep in
theorem maintains_rest : (r.rest x).Maintains I := by
  unfold rest
  split
  · exact maintains_pure _
  · refine maintains_bind (maintains_ask _) fun stop => ?_
    split
    · exact maintains_fail _
    · exact maintains_pure _

include hlaunch in
/-- A trial maintains what its steps and its tool preserve. -/
theorem maintains_trial : (r.trial x budget log).Maintains I := by
  unfold trial
  refine maintains_bind maintains_record fun known => ?_
  split
  · exact maintains_pure _
  · refine maintains_bind (maintains_clear hstep) fun _ => ?_
    refine maintains_bind (maintains_print _) fun _ => ?_
    refine maintains_bind (maintains_change fun d d' hI h => hstep d d' hI (.create h)) fun _ => ?_
    refine maintains_bind (maintains_outcome (maintains_launch hstep hlaunch)) fun ending => ?_
    refine maintains_bind (maintains_conclude hstep ending) fun outcome => ?_
    exact maintains_bind maintains_rest fun _ => maintains_pure _

end Steps

/-- A trial without a status fails and leaves the world as it is. -/
theorem perform_trial_of_error {w : World} {cause : StoreError}
    (hcause : w.disk.status x log = .error cause) :
    (r.trial x budget log).perform w = (.error (.store cause), w) := by
  unfold trial
  rw [perform_bind, perform_record, hcause]
  rfl

/-- A trial whose record settles the matter leaves the world as it is. -/
theorem perform_trial_of_settled {w : World} {known : RunRecord}
    (hknown : w.disk.status x log = .ok known) (hpending : known.isPending budget = false) :
    (r.trial x budget log).perform w = (.ok (.skipped known.status), w) := by
  unfold trial
  rw [perform_bind, perform_record_of_ok hknown]
  simp only [hpending, Bool.not_false, ↓reduceIte, perform_pure]

end Runner

/-! ## Section 3: What a step changes -/

namespace Artifact

/-- The place of a trial's file. -/
def place (outdir : Path) (here : Location) (e : String) (i : Nat) (k : Kind) : Location :=
  fileName e i k :: outdir.locate here

theorem place_inj {outdir : Path} {here : Location} {e f : String} {i j : Nat} {k l : Kind}
    (h : place outdir here e i k = place outdir here f j l) : e = f ∧ i = j ∧ k = l :=
  fileName_inj (List.cons.inj h).1

theorem place_ne_nil {outdir : Path} {here : Location} {e : String} {i : Nat} {k : Kind} :
    place outdir here e i k ≠ [] :=
  List.cons_ne_nil _ _

end Artifact

/-- The places of a trial's files. -/
def Disk.TrialPlaces (outdir : Path) (here : Location) (e : String) (i : Nat) (l : Location) :
    Prop :=
  ∃ k, l = Artifact.place outdir here e i k

/-- The places of the files of a log. -/
def Disk.FilePlaces (log : Path) (here : Location) (l : Location) : Prop :=
  ∃ k, l = (Artifact.file log k).locate here

/-- The files of an experiment's log are those of its trial. -/
theorem Disk.FilePlaces.trialPlaces {outdir : Path} {here : Location} {e : String} {i : Nat}
    (he : '/' ∉ e.toList) {l : Location} (h : Disk.FilePlaces (Artifact.log outdir e i) here l) :
    Disk.TrialPlaces outdir here e i l := by
  obtain ⟨k, rfl⟩ := h
  refine ⟨k, ?_⟩
  rw [Artifact.file_eq_path]
  exact Artifact.locate_path outdir he i k here

theorem Disk.discard_cases {d d' : Disk} {p : Path} (h : d.discard p = .ok d') :
    d' = d ∨ d.node? (p.locate d.here) ≠ some .dir ∧ d' = d.erase (p.locate d.here) := by
  unfold discard at h
  split at h
  · cases h
    exact Or.inl rfl
  · exact Or.inr (remove_ok h)

namespace TrialStep

open Artifact Disk

variable {outdir : Path} {e : String} {i : Nat} {budget : UInt64} {d d' : Disk}

/-- A step takes a file of the log away, puts one there, moves the log aside, or
    does nothing.  A marker that it puts there holds the budget. -/
theorem file_cases {log : Path} (h : TrialStep log budget d d') :
    d' = d ∨
    (∃ k, d.node? ((file log k).locate d.here) ≠ some .dir ∧
      d' = d.erase ((file log k).locate d.here)) ∨
    (∃ k content, d.node? ((file log k).locate d.here) ≠ some .dir ∧
      d' = d.put ((file log k).locate d.here) (.file content) ∧
      (k = .marker → content = budgetText budget)) ∨
    (∃ content, d.node? ((file log .log).locate d.here) ≠ some .dir ∧
      d.node? ((file log .aside).locate d.here) ≠ some .dir ∧
      d' = (d.erase ((file log .log).locate d.here)).put
        ((file log .aside).locate d.here) (.file content)) := by
  cases h with
  | dropLog h =>
    rcases discard_cases h with heq | ⟨hn, heq⟩
    · exact Or.inl heq
    · exact Or.inr (Or.inl ⟨.log, by rw [file_log]; exact ⟨hn, heq⟩⟩)
  | dropMarker h =>
    rcases discard_cases h with heq | ⟨hn, heq⟩
    · exact Or.inl heq
    · exact Or.inr (Or.inl ⟨.marker, by rw [file_marker]; exact ⟨hn, heq⟩⟩)
  | create h =>
    obtain ⟨hn, heq⟩ := write_ok h
    exact Or.inr (Or.inr (Or.inl ⟨.log, .empty, by rw [file_log]; exact ⟨hn, heq, nofun⟩⟩))
  | fill output =>
    rcases refill_cases d log output with heq | ⟨⟨old, hold⟩, heq⟩
    · exact Or.inl heq
    · have hn : d.node? (log.locate d.here) ≠ some .dir := by
        rw [hold]
        exact nofun
      exact Or.inr (Or.inr (Or.inl ⟨.log, output, by rw [file_log]; exact ⟨hn, heq, nofun⟩⟩))
  | mark h =>
    obtain ⟨hn, heq⟩ := write_ok h
    refine Or.inr (Or.inr (Or.inl ⟨.marker, budgetText budget, ?_⟩))
    rw [file_marker]
    exact ⟨hn, heq, fun _ => rfl⟩
  | setAside h =>
    obtain ⟨hp, hq, -, content, -, heq⟩ := rename_ok h
    refine Or.inr (Or.inr (Or.inr ⟨content, ?_⟩))
    rw [file_log, file_aside]
    exact ⟨hp, hq, heq⟩

/-- Nothing but files of the log changes. -/
theorem withinFiles {log : Path} (h : TrialStep log budget d d') :
    Within (FilePlaces log d.here) d d' := by
  rcases h.file_cases with rfl | ⟨k, hn, rfl⟩ | ⟨k, content, hn, rfl, -⟩ | ⟨content, hp, hq, rfl⟩
  · exact Within.refl _ _
  · exact Within.erase (ne_nil_of_node? hn) hn ⟨k, rfl⟩
  · exact Within.put (ne_nil_of_node? hn) hn ⟨k, rfl⟩ content
  · refine (Within.erase (ne_nil_of_node? hp) hp ⟨.log, rfl⟩).trans ?_
    refine Within.put (ne_nil_of_node? hq) ?_ ⟨.aside, rfl⟩ content
    -- The log may even be set aside at its own place.
    by_cases heq : (file log .aside).locate d.here = (file log .log).locate d.here
    · rw [heq, node?_erase_self _ (ne_nil_of_node? hp)]
      exact nofun
    · rw [node?_erase_ne _ heq]
      exact hq

section Named

variable (he : '/' ∉ e.toList) (h : TrialStep (log outdir e i) budget d d')

include he h

/-- What a step does to the files of an experiment. -/
theorem cases :
    d' = d ∨
    (∃ k, d.node? (place outdir d.here e i k) ≠ some .dir ∧
      d' = d.erase (place outdir d.here e i k)) ∨
    (∃ k content, d.node? (place outdir d.here e i k) ≠ some .dir ∧
      d' = d.put (place outdir d.here e i k) (.file content) ∧
      (k = .marker → content = budgetText budget)) ∨
    (∃ content, d.node? (place outdir d.here e i .log) ≠ some .dir ∧
      d.node? (place outdir d.here e i .aside) ≠ some .dir ∧
      d' = (d.erase (place outdir d.here e i .log)).put
        (place outdir d.here e i .aside) (.file content)) := by
  have hplace : ∀ k, (file (log outdir e i) k).locate d.here = place outdir d.here e i k := by
    intro k
    rw [file_eq_path]
    exact locate_path outdir he i k d.here
  have hcases := h.file_cases
  simp only [hplace] at hcases
  exact hcases

/-- Nothing but files of the trial changes. -/
theorem within : Within (TrialPlaces outdir d.here e i) d d' :=
  h.withinFiles.mono fun _ => FilePlaces.trialPlaces he

/-- The marker is left alone, goes, or holds the budget afterwards. -/
theorem marker_cases :
    d'.node? (place outdir d.here e i .marker) = d.node? (place outdir d.here e i .marker) ∨
    d'.node? (place outdir d.here e i .marker) = none ∨
    d'.node? (place outdir d.here e i .marker) = some (.file (budgetText budget)) := by
  have hne : ∀ k, k ≠ .marker →
      place outdir d.here e i .marker ≠ place outdir d.here e i k := by
    intro k hk heq
    exact hk (place_inj heq).2.2.symm
  rcases h.cases he with rfl | ⟨k, hn, rfl⟩ | ⟨k, content, hn, rfl, hcontent⟩ | ⟨content, -, -, rfl⟩
  · exact Or.inl rfl
  · by_cases hk : k = .marker
    · subst hk
      exact Or.inr (Or.inl (node?_erase_self _ place_ne_nil))
    · exact Or.inl (node?_erase_ne _ (hne k hk))
  · by_cases hk : k = .marker
    · subst hk
      rw [node?_put_self _ _ place_ne_nil, hcontent rfl]
      exact Or.inr (Or.inr rfl)
    · exact Or.inl (node?_put_ne _ _ (hne k hk))
  · rw [node?_put_ne _ _ (hne .aside nofun), node?_erase_ne _ (hne .log nofun)]
    exact Or.inl rfl

end Named

end TrialStep

/-- A trial leaves everything but its own files alone. -/
theorem Runner.maintains_within {r : Runner} (hquiet : r.host.Quiet) {x : Descriptor}
    (hx : '/' ∉ x.name.toList) (outdir : Path) (budget : UInt64) (i : Nat) (d : Disk) :
    (r.trial x budget (Artifact.log outdir x.name i)).Maintains
      (d.Within (Disk.TrialPlaces outdir d.here x.name i)) := by
  refine maintains_trial ?_ (hquiet.preserves _)
  intro d₁ d₂ hd hstep
  have hwithin := hstep.within hx
  rw [hd.here] at hwithin
  exact hd.trans hwithin

end BenchSweep
