import BenchSweep.Proofs.Run.Conduct
import BenchSweep.Proofs.Run.Settled

/-! # Log and Marker Exclude Each Other

    A trial that is taken up loses its log and then its marker before a log is
    created, and a tool that overran loses its log before the marker comes.  So
    wherever a course is cut, no trial has both; and a marker that was not there
    before tells the budget of the launch that has just overrun. -/

namespace BenchSweep

open Artifact Act

/-! ## Section 1: The files of a trial -/

namespace Disk

/-- The content of a file of a trial, if it is there. -/
def artifact? (d : Disk) (outdir : Path) (e : String) (i : Nat) (k : Kind) : Option ByteArray :=
  match d.node? (place outdir d.here e i k) with
  | some (.file content) => some content
  | _ => none

/-- No trial has both its log and its marker. -/
def Exclusive (outdir : Path) (xs : List Descriptor) (d : Disk) : Prop :=
  ∀ x ∈ xs, ∀ i, d.artifact? outdir x.name i .log = none ∨
    d.artifact? outdir x.name i .marker = none

variable {d d' : Disk} {outdir : Path} {e f : String} {i j : Nat} {k l : Kind}

theorem artifact?_of_node? {content : ByteArray}
    (h : d.node? (place outdir d.here e i k) = some (.file content)) :
    d.artifact? outdir e i k = some content := by
  unfold artifact?
  rw [h]

theorem artifact?_congr (hhere : d'.here = d.here)
    (h : d'.node? (place outdir d.here e i k) = d.node? (place outdir d.here e i k)) :
    d'.artifact? outdir e i k = d.artifact? outdir e i k := by
  unfold artifact?
  rw [hhere, h]

@[simp] theorem artifact?_put_self (d : Disk) (content : ByteArray) :
    (d.put (place outdir d.here e i k) (.file content)).artifact? outdir e i k = some content :=
  artifact?_of_node? (node?_put_self _ _ place_ne_nil)

theorem artifact?_put_ne (d : Disk) (content : ByteArray) (h : ¬ (f = e ∧ j = i ∧ l = k)) :
    (d.put (place outdir d.here e i k) (.file content)).artifact? outdir f j l
      = d.artifact? outdir f j l := by
  refine artifact?_congr rfl (node?_put_ne _ _ fun heq => h ?_)
  exact place_inj heq

theorem artifact?_erase_self (d : Disk) :
    (d.erase (place outdir d.here e i k)).artifact? outdir e i k = none := by
  unfold artifact?
  rw [erase_here, node?_erase_self _ place_ne_nil]

theorem artifact?_erase_ne (d : Disk) (h : ¬ (f = e ∧ j = i ∧ l = k)) :
    (d.erase (place outdir d.here e i k)).artifact? outdir f j l = d.artifact? outdir f j l := by
  refine artifact?_congr rfl (node?_erase_ne _ fun heq => h ?_)
  exact place_inj heq

/-- A directory that is made is no file of a trial, and nothing was in its place. -/
theorem artifact?_makeDir {p : Path} (h : d.makeDir p = .ok d') :
    d'.artifact? outdir e i k = d.artifact? outdir e i k := by
  unfold makeDir at h
  cases hl : d.locate p with
  | error io =>
    rw [hl] at h
    cases h
  | ok m =>
    simp only [hl, bind, Except.bind] at h
    split at h
    · cases h
    · rename_i hnone
      split at h
      · cases h
        by_cases hm : place outdir d.here e i k = m
        · -- Should the trial's file be looked for there, then it was not there before either.
          unfold artifact?
          rw [put_here, hm, hnone, node?_put_self _ _ (hm ▸ place_ne_nil)]
        · exact artifact?_congr rfl (node?_put_ne _ _ hm)
      · cases h

theorem artifact?_haveDir {p : Path} (h : d.haveDir p = .ok d') :
    d'.artifact? outdir e i k = d.artifact? outdir e i k := by
  unfold haveDir at h
  split at h
  · split at h
    · rw [← Except.ok.inj h]
    · cases h
  · exact artifact?_makeDir h

section Steps

variable (he : '/' ∉ e.toList)

include he

/-- Dropping a file leaves all others alone. -/
theorem artifact?_discard (h : d.discard (path outdir e i k) = .ok d') {f : String} {j : Nat}
    {l : Kind} {content : ByteArray} (hf : d'.artifact? outdir f j l = some content) :
    d.artifact? outdir f j l = some content := by
  rcases discard_cases h with rfl | ⟨-, rfl⟩
  · exact hf
  · rw [locate_path outdir he] at hf
    by_cases hsame : f = e ∧ j = i ∧ l = k
    · obtain ⟨rfl, rfl, rfl⟩ := hsame
      rw [← place, artifact?_erase_self] at hf
      cases hf
    · rwa [← place, artifact?_erase_ne d hsame] at hf

/-- What was dropped is gone, if its directory is open at all. -/
theorem artifact?_discard_self (h : d.discard (path outdir e i k) = .ok d')
    (hopens : d'.Opens outdir) : d'.artifact? outdir e i k = none := by
  have hfile := isFileName he i k
  unfold discard at h
  split at h
  · rename_i hremove
    cases h
    -- Nothing was found, and that is no refusal of the path.
    cases hr : (path outdir e i k).refusal? with
    | some io =>
      have hne := Path.refusal?_ne_notFound hr
      rw [path, remove, hopens.locate_error hfile hr] at hremove
      exact absurd (Except.error.inj hremove) hne
    | none =>
      rw [path, hopens.remove_join hfile hr] at hremove
      have hnone : d.held? outdir (fileName e i k) = none := by
        cases hheld : d.held? outdir (fileName e i k) with
        | none => rfl
        | some n =>
          rw [hheld] at hremove
          cases n <;> cases hremove
      rw [held?] at hnone
      unfold artifact?
      rw [place, hnone]
  · obtain ⟨-, rfl⟩ := remove_ok h
    rw [locate_path outdir he]
    exact artifact?_erase_self d

/-- A file that was written is there, and its directory is open. -/
theorem artifact?_write {content : ByteArray}
    (h : d.write (path outdir e i k) content = .ok d') :
    d.Opens outdir ∧ d'.artifact? outdir e i k = some content ∧
      ∀ f j l, ¬ (f = e ∧ j = i ∧ l = k) →
        d'.artifact? outdir f j l = d.artifact? outdir f j l := by
  have hopens : d.Opens outdir := by
    unfold write at h
    rw [path] at h
    cases hl : d.locate (outdir.join (fileName e i k)) with
    | error io => rw [hl] at h; cases h
    | ok m => exact (opens_of_locate (isFileName he i k) hl).1
  obtain ⟨-, rfl⟩ := write_ok h
  rw [locate_path outdir he, ← place]
  exact ⟨hopens, artifact?_put_self d content, fun f j l => artifact?_put_ne d content⟩

/-- Filling a log changes no other file, and creates none. -/
theorem artifact?_refill (content : ByteArray) {f : String} {j : Nat} {l : Kind} :
    (l = .marker → (d.refill (path outdir e i .log) content).artifact? outdir f j l
      = d.artifact? outdir f j l) ∧
    (d.artifact? outdir f j l = none →
      (d.refill (path outdir e i .log) content).artifact? outdir f j l = none) := by
  rcases refill_cases d (path outdir e i .log) content with heq | ⟨⟨old, hold⟩, heq⟩
  · rw [heq]
    exact ⟨fun _ => rfl, id⟩
  · rw [heq]
    rw [locate_path outdir he, ← place] at hold ⊢
    by_cases hsame : f = e ∧ j = i ∧ l = .log
    · obtain ⟨rfl, rfl, rfl⟩ := hsame
      refine ⟨nofun, fun hnone => ?_⟩
      rw [artifact?_of_node? hold] at hnone
      cases hnone
    · rw [artifact?_put_ne d content hsame]
      exact ⟨fun _ => rfl, id⟩

/-- Setting a log aside brings neither a log nor a marker. -/
theorem artifact?_rename (h : d.rename (path outdir e i .log) (path outdir e i .aside) = .ok d')
    {f : String} {j : Nat} {l : Kind} (hl : l ≠ .aside) {content : ByteArray}
    (hf : d'.artifact? outdir f j l = some content) : d.artifact? outdir f j l = some content := by
  obtain ⟨-, -, -, moved, -, rfl⟩ := rename_ok h
  rw [locate_path outdir he, locate_path outdir he, ← place, ← place] at hf
  have haside : ¬ (f = e ∧ j = i ∧ l = .aside) := fun hsame => hl hsame.2.2
  have hput : ((d.erase (place outdir d.here e i .log)).put (place outdir d.here e i .aside)
      (.file moved)).artifact? outdir f j l
        = (d.erase (place outdir d.here e i .log)).artifact? outdir f j l :=
    artifact?_put_ne _ moved haside
  rw [hput] at hf
  by_cases hsame : f = e ∧ j = i ∧ l = .log
  · obtain ⟨rfl, rfl, rfl⟩ := hsame
    rw [artifact?_erase_self] at hf
    cases hf
  · rwa [artifact?_erase_ne d hsame] at hf

end Steps

end Disk

/-! ## Section 2: Histories -/

/-- The latest disk of a history. -/
def Latest (φ : Disk → Prop) : List Disk → Prop
  | d :: _ => φ d
  | [] => False

section History

variable {φ : Disk → Disk → List Disk → Prop} {d d' : Disk} {older : List Disk}

/-- A history of one disk has no step. -/
theorem forall_step_singleton :
    ∀ e' e before, (e' :: e :: before) <:+ [d] → φ e' e before := by
  intro e' e before hsuffix
  have hlen := hsuffix.length_le
  simp only [List.length_cons, List.length_nil] at hlen
  omega

/-- What the latest step does, and every step before it, is done by all of them. -/
theorem forall_step_cons (hlast : φ d' d older)
    (h : ∀ e' e before, (e' :: e :: before) <:+ (d :: older) → φ e' e before) :
    ∀ e' e before, (e' :: e :: before) <:+ (d' :: d :: older) → φ e' e before := by
  intro e' e before hsuffix
  rcases List.suffix_cons_iff.1 hsuffix with heq | hsuffix
  · cases heq
    exact hlast
  · exact h e' e before hsuffix

end History

/-- The latest disk is that of a tool that was launched when its log had just been
    created, and was then stopped as it overran. -/
def Call.Overran (c : Call) (outdir : Path) (x : Descriptor) (i : Nat)
    (history : List Disk) : Prop :=
  ∃ filled launched older n run, history = filled :: launched :: older ∧
    launched.artifact? outdir x.name i .log = some .empty ∧
    c.runner.host.launch n x c.budget launched = .ok run ∧ run.ending = .overran ∧
    filled = launched.refill (log outdir x.name i) run.output

/-- The tool overran, and then its log went. -/
def Call.JustOverran (c : Call) (outdir : Path) (x : Descriptor) (i : Nat)
    (history : List Disk) : Prop :=
  ∃ dropped d older, history = dropped :: d :: older ∧ c.Overran outdir x i (d :: older) ∧
    d.discard (log outdir x.name i) = .ok dropped

/-- No disk of the history, the latest first, has both files of a trial, and every
    marker that comes holds the budget of the trial that has just overran. -/
structure Orderly (outdir : Path) (xs : List Descriptor) (calls : List Call)
    (history : List Disk) : Prop where
  exclusive : ∀ d ∈ history, d.Exclusive outdir xs
  marked : ∀ d' d older, (d' :: d :: older) <:+ history → ∀ x ∈ xs, ∀ i content,
    d'.artifact? outdir x.name i .marker = some content →
      d.artifact? outdir x.name i .marker = some content ∨
      ∃ c ∈ calls, x ∈ c.experiments ∧ content = budgetText c.budget ∧
        c.JustOverran outdir x i (d :: older)

namespace Orderly

variable {outdir : Path} {xs : List Descriptor} {calls : List Call} {d d' : Disk}
  {older : List Disk}

theorem start (h : d.Exclusive outdir xs) : Orderly outdir xs calls [d] where
  exclusive := by
    intro d' hd'
    rw [List.mem_singleton.1 hd']
    exact h
  marked := forall_step_singleton

/-- One more step. -/
theorem cons (h : Orderly outdir xs calls (d :: older)) (hexclusive : d'.Exclusive outdir xs)
    (hmarked : ∀ x ∈ xs, ∀ i content, d'.artifact? outdir x.name i .marker = some content →
      d.artifact? outdir x.name i .marker = some content ∨
      ∃ c ∈ calls, x ∈ c.experiments ∧ content = budgetText c.budget ∧
        c.JustOverran outdir x i (d :: older)) :
    Orderly outdir xs calls (d' :: d :: older) where
  exclusive := by
    intro e he
    rcases List.mem_cons.1 he with rfl | he
    · exact hexclusive
    · exact h.exclusive e he
  marked := forall_step_cons hmarked h.marked

/-- A step that brings no marker, and a log only where no marker is. -/
theorem calm (h : Orderly outdir xs calls (d :: older))
    (hmarker : ∀ x ∈ xs, ∀ i content, d'.artifact? outdir x.name i .marker = some content →
      d.artifact? outdir x.name i .marker = some content)
    (hlog : ∀ x ∈ xs, ∀ i, d.artifact? outdir x.name i .log = none →
      d'.artifact? outdir x.name i .log = none ∨ d.artifact? outdir x.name i .marker = none) :
    Orderly outdir xs calls (d' :: d :: older) := by
  have hnone : ∀ x ∈ xs, ∀ i, d.artifact? outdir x.name i .marker = none →
      d'.artifact? outdir x.name i .marker = none := by
    intro x hx i hd
    cases hd' : d'.artifact? outdir x.name i .marker with
    | none => rfl
    | some content =>
      rw [hmarker x hx i content hd'] at hd
      cases hd
  refine h.cons (fun x hx i => ?_) fun x hx i content hd' => .inl (hmarker x hx i content hd')
  rcases h.exclusive d List.mem_cons_self x hx i with hd | hd
  · exact (hlog x hx i hd).imp id (hnone x hx i)
  · exact .inr (hnone x hx i hd)

/-- A step that brings no file at all. -/
theorem fewer (h : Orderly outdir xs calls (d :: older))
    (hfewer : ∀ x ∈ xs, ∀ i k content, k ≠ .aside →
      d'.artifact? outdir x.name i k = some content → d.artifact? outdir x.name i k = some content) :
    Orderly outdir xs calls (d' :: d :: older) := by
  refine h.calm (fun x hx i content => hfewer x hx i .marker content nofun) fun x hx i hd => .inl ?_
  cases hd' : d'.artifact? outdir x.name i .log with
  | none => rfl
  | some content =>
    rw [hfewer x hx i .log content nofun hd'] at hd
    cases hd

end Orderly

/-! ## Section 3: What a trial conducts -/

namespace Runner

variable {outdir : Path} {xs : List Descriptor} {calls : List Call} {c : Call} {x : Descriptor}
  {i : Nat} {P : List Disk → Prop}

theorem conducts_change {S Q : List Disk → Prop} {log : Path} {f : Disk → Except IoError Disk}
    (h : ∀ d older d', S (d :: older) → P (d :: older) → f d = .ok d' →
      S (d' :: d :: older) ∧ Q (d' :: d :: older)) :
    Conducts S P (Runner.change log f) fun _ => Q :=
  conducts_blame _ (Act.conducts_change h)

/-- A trial ends with a phrase. -/
theorem conducts_done {S : List Disk → Prop} {r : Runner} {style : Text.Style} {p : Phrase}
    {outcome : TrialOutcome} :
    Conducts S P (do r.tell style p; return outcome : Act TrialError TrialOutcome)
      fun _ _ => True :=
  conducts_bind (conducts_print _) fun _ => conducts_pure fun _ _ => trivial

theorem conducts_rest {r : Runner} {S : List Disk → Prop} :
    Conducts S P (r.rest x) fun _ _ => True := by
  unfold rest
  split
  · exact conducts_pure fun _ _ => trivial
  · refine conducts_bind (conducts_ask _) fun stop => ?_
    split
    · exact conducts_fail _
    · exact conducts_pure fun _ _ => trivial

section Trial

variable (hx : '/' ∉ x.name.toList)

include hx

/-- Dropping a file brings none, and the file is gone then. -/
theorem conducts_drop (i : Nat) (k : Kind) (p : Path) :
    Conducts (Orderly outdir xs calls) P (Runner.change p (·.discard (path outdir x.name i k)))
      fun _ s => Latest (fun d => d.Opens outdir → d.artifact? outdir x.name i k = none) s ∧
        ∃ d older d', s = d' :: d :: older ∧ P (d :: older) ∧
          d.discard (path outdir x.name i k) = .ok d' := by
  refine conducts_change fun d older d' hS hP hdrop => ⟨?_, ?_, ?_⟩
  · exact hS.fewer fun y hy j l content _ => Disk.artifact?_discard hx hdrop
  · exact Disk.artifact?_discard_self hx hdrop
  · exact ⟨d, older, d', rfl, hP, hdrop⟩

theorem conducts_clear :
    Conducts (Orderly outdir xs calls) P (Runner.clear (log outdir x.name i))
      fun _ => Latest fun d => d.Opens outdir → d.artifact? outdir x.name i .marker = none := by
  unfold clear
  rw [← path_marker, ← path_log]
  refine conducts_bind (conducts_drop hx i .log _) fun _ => ?_
  exact (conducts_drop hx i .marker _).mono (fun _ h => h) fun _ _ h => h.1

/-- A log is created only where no marker is. -/
theorem conducts_create (p : Path) :
    Conducts (Orderly outdir xs calls)
      (Latest fun d => d.Opens outdir → d.artifact? outdir x.name i .marker = none)
      (Runner.change p (·.write (log outdir x.name i) .empty))
      fun _ => Latest fun d => d.artifact? outdir x.name i .log = some .empty := by
  rw [← path_log]
  refine conducts_change fun d older d' hS hvacated hwrite => ?_
  obtain ⟨hopens, hself, hne⟩ := Disk.artifact?_write hx hwrite
  refine ⟨hS.calm (fun y hy j content hd' => ?_) fun y hy j hd => ?_, hself⟩
  · rwa [hne y.name j .marker fun hsame => nomatch hsame.2.2] at hd'
  · by_cases hsame : y.name = x.name ∧ j = i
    · obtain ⟨hname, rfl⟩ := hsame
      rw [hname]
      exact .inr (hvacated hopens)
    · rw [hne y.name j .log fun h => hsame ⟨h.1, h.2.1⟩]
      exact .inl hd

/-- A launch brings no file. -/
theorem conducts_launch (hquiet : c.runner.host.Quiet) :
    Conducts (Orderly outdir xs calls)
      (Latest fun d => d.artifact? outdir x.name i .log = some .empty)
      (c.runner.launch x c.budget (log outdir x.name i))
      fun ending s => ending = .overran → c.Overran outdir x i s := by
  intro w hS hlog
  rw [perform_launch]
  cases hrun : c.runner.host.launch w.asked x c.budget w.disk with
  | error cause => exact ⟨hS, nofun⟩
  | ok run =>
    have hdisk : run.disk = w.disk := hquiet _ _ _ _ _ hrun
    refine ⟨?_, fun ending hending hoverran => ?_⟩
    · show Orderly outdir xs calls (run.disk.refill (log outdir x.name i) run.output :: w.disks)
      rw [hdisk, ← path_log]
      refine Orderly.calm hS (fun y hy j content hd' => ?_) fun y hy j hd => .inl ?_
      · rwa [(Disk.artifact?_refill hx run.output).1 rfl] at hd'
      · exact (Disk.artifact?_refill hx run.output).2 hd
    · refine ⟨_, w.disk, w.past, w.asked, run, rfl, hlog, hrun, ?_, ?_⟩
      · rw [← hoverran, ← Except.ok.inj hending]
      · show run.disk.refill (log outdir x.name i) run.output = _
        rw [hdisk]

theorem conducts_dropInterrupted {r : Runner} :
    Conducts (Orderly outdir xs calls) P (r.dropInterrupted (log outdir x.name i))
      fun _ _ => True := by
  unfold dropInterrupted
  split
  · rw [← path_aside, ← path_log]
    refine conducts_change fun d older d' hS _ hrename => ⟨?_, trivial⟩
    exact hS.fewer fun y hy j l content hl => Disk.artifact?_rename hx hrename hl
  · rw [← path_log]
    exact (conducts_drop hx i .log _).mono (fun _ h => h) fun _ _ _ => trivial

/-- The log of a tool that overran goes. -/
theorem conducts_dropOverrun :
    Conducts (Orderly outdir xs calls) (c.Overran outdir x i)
      (Runner.change (log outdir x.name i) (·.discard (log outdir x.name i)))
      fun _ s => Latest (fun d => d.Opens outdir → d.artifact? outdir x.name i .log = none) s ∧
        c.JustOverran outdir x i s := by
  rw [← path_log]
  refine (conducts_drop hx i .log _).mono (fun _ h => h) ?_
  rintro _ s ⟨hvacated, d, older, d', rfl, hoverran, hdropped⟩
  rw [path_log] at hdropped
  exact ⟨hvacated, d', d, older, rfl, hoverran, hdropped⟩

/-- The marker comes when the log has gone. -/
theorem conducts_mark (hxs : Apart xs) (hmem : x ∈ xs) (hc : c ∈ calls) (hxc : x ∈ c.experiments)
    (p : Path) :
    Conducts (Orderly outdir xs calls)
      (fun s => Latest (fun d => d.Opens outdir → d.artifact? outdir x.name i .log = none) s ∧
        c.JustOverran outdir x i s)
      (Runner.change p (·.mark (log outdir x.name i) c.budget)) fun _ _ => True := by
  refine conducts_change fun d older d' hS hP hmark => ⟨?_, trivial⟩
  obtain ⟨hvacated, hoverran⟩ := hP
  rw [Disk.mark, ← path_marker] at hmark
  obtain ⟨hopens, hself, hne⟩ := Disk.artifact?_write hx hmark
  refine hS.cons (fun y hy j => ?_) fun y hy j content hd' => ?_
  · -- The trial's own log has just gone, and the other trials are as they were.
    have hlog := hne y.name j .log fun hsame => nomatch hsame.2.2
    by_cases hsame : y.name = x.name ∧ j = i
    · obtain ⟨hname, rfl⟩ := hsame
      rw [hlog, hname]
      exact .inl (hvacated hopens)
    · rw [hlog, hne y.name j .marker fun h => hsame ⟨h.1, h.2.1⟩]
      exact hS.exclusive d List.mem_cons_self y hy j
  · by_cases hsame : y.name = x.name ∧ j = i
    · obtain ⟨hname, rfl⟩ := hsame
      cases hxs.eq_of_name hy hmem hname
      rw [hself] at hd'
      exact .inr ⟨c, hc, hxc, (Option.some.inj hd').symm, hoverran⟩
    · rw [hne y.name j .marker fun h => hsame ⟨h.1, h.2.1⟩] at hd'
      exact .inl hd'

/-- What follows from the way in which the tool ended. -/
theorem conducts_conclude (hxs : Apart xs) (hmem : x ∈ xs) (hc : c ∈ calls)
    (hxc : x ∈ c.experiments) (ending : Except IoError Ending) :
    Conducts (Orderly outdir xs calls)
      (fun s => ∀ e, ending = .ok e → e = .overran → c.Overran outdir x i s)
      (c.runner.conclude x c.budget (log outdir x.name i) ending) fun _ _ => True := by
  unfold conclude
  split
  · -- The tool did not start.
    rw [← path_log]
    refine conducts_bind (conducts_drop hx i .log _) fun _ => ?_
    exact conducts_bind (conducts_print _) fun _ => conducts_fail _
  · -- It was cancelled.
    refine conducts_bind (conducts_dropInterrupted hx) fun _ => ?_
    exact conducts_bind (conducts_print _) fun _ => conducts_fail _
  · -- It overran: the marker comes behind the log.
    refine conducts_bind ((conducts_dropOverrun hx).mono (fun _ h => h _ rfl rfl) fun _ _ h => h)
      fun _ => ?_
    exact conducts_bind (conducts_mark hx hxs hmem hc hxc _) fun _ => conducts_done
  · -- Nobody knows how it ended.
    rw [← path_log]
    refine conducts_bind (conducts_outcome (conducts_drop hx i .log _)) fun _ => ?_
    exact conducts_bind (conducts_print _) fun _ => conducts_fail _
  · -- It ended by itself, and its log stays as it is.
    refine conducts_bind (conducts_look _) fun known => ?_
    split <;> exact conducts_done

/-- A trial keeps the history orderly. -/
theorem conducts_trial (hxs : Apart xs) (hmem : x ∈ xs) (hc : c ∈ calls) (hxc : x ∈ c.experiments)
    (hquiet : c.runner.host.Quiet) :
    Conducts (Orderly outdir xs calls) P
      (c.runner.trial x c.budget (log outdir x.name i)) fun _ _ => True := by
  unfold trial
  refine conducts_bind (conducts_look _) fun known => ?_
  split
  · exact conducts_pure fun _ _ => trivial
  · refine conducts_bind (conducts_clear hx) fun _ => ?_
    refine conducts_bind (conducts_print _) fun _ => ?_
    refine conducts_bind (conducts_create hx _) fun _ => ?_
    refine conducts_bind (conducts_outcome (conducts_launch hx hquiet)) fun ending => ?_
    refine conducts_bind (conducts_conclude hx hxs hmem hc hxc ending) fun outcome => ?_
    exact conducts_bind conducts_rest fun _ => conducts_pure fun _ _ => trivial

end Trial

end Runner

/-! ## Section 4: Exclusion -/

/-- **Log and marker exclude each other.**  Through every step of a course from a disk
    on which no trial has both, no trial ever has both; and each marker that comes
    holds the budget of the trial that has just overran. -/
theorem log_excludes_marker (outdir : Path) {xs : List Descriptor} (hxs : Apart xs) {start : Disk}
    (hstart : start.Exclusive outdir xs) {calls : List Call} (hcalls : ∀ c ∈ calls, c.IsOf xs) :
    Orderly outdir xs calls ((World.fresh start).follow outdir calls).disks := by
  have hlasting := lasting_extends (Orderly outdir xs calls)
  refine World.follow_respects hlasting (fun c hc => ?_) (.fresh start) (.start hstart)
  refine Call.respects hlasting (respects_ensureDir hlasting fun q _ => ?_) fun i x hx => ?_
  · -- Directories that are made are no files.
    refine Conducts.respects (Q := fun _ _ => True) (conducts_change fun d older d' hS _ hdir => ?_)
    refine ⟨hS.fewer fun y hy j k content _ hd' => ?_, trivial⟩
    rwa [Disk.artifact?_haveDir hdir] at hd'
  · have hmem := (hcalls c hc).subset x hx
    exact (Runner.conducts_trial (hxs.no_slash x hmem) hxs hmem hc hx (hcalls c hc).quiet).respects

/-- A log alone, and no marker. -/
theorem exclusive_withMeasured (xs : List Descriptor) :
    Disk.withMeasured.Exclusive ⟨"out"⟩ xs := by
  intro x _ i
  right
  have hplace : place ⟨"out"⟩ Disk.withMeasured.here x.name i .marker
      = [fileName x.name i .marker, "out"] := rfl
  have hname : fileName "a" 0 .log = "a-0" := rfl
  have hne : fileName x.name i .marker ≠ "a-0" := by
    intro heq
    cases (fileName_inj (heq.trans hname.symm)).2.2
  unfold Disk.artifact?
  rw [hplace, Disk.node?_eq _ (List.cons_ne_nil _ _)]
  simp [Disk.withMeasured, List.lookup_cons, beq_eq_false_iff_ne.2 hne]

theorem log_excludes_marker_overrunning :
    afterTrial.disk.artifact? ⟨"out"⟩ "b" 0 .marker = some (budgetText 1) ∧
      Orderly ⟨"out"⟩ [.plain "a", .plain "b"] (overrunning.take 1) afterTrial.disks := by
  have hcalls : ∀ c ∈ overrunning.take 1, c.IsOf [.plain "a", .plain "b"] :=
    fun c hc => isOf_overrunning c (List.mem_of_mem_take hc)
  have hstart := exclusive_withMeasured [.plain "a", .plain "b"]
  exact ⟨rfl, log_excludes_marker ⟨"out"⟩ apart_plain_two hstart hcalls⟩

end BenchSweep
