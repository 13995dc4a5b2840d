import Mathlib.Data.List.Nodup
import BenchSweep.Proofs.Run.Course
import BenchSweep.Proofs.Run.Status

/-! # Records That Are Settled

    Once a trial is settled at all budgets ahead, no course touches its files any
    more.  The trial itself is skipped from then on, the files of all other
    trials are elsewhere, and the output directory is there already. -/

namespace BenchSweep

open Artifact Act

/-! ## Section 1: Experiments apart -/

/-- Experiments whose artifacts have names of their own: no two are called the
    same, and none has a slash in its name. -/
structure Apart (xs : List Descriptor) : Prop where
  distinct : (xs.map Descriptor.name).Nodup
  no_slash : ∀ x ∈ xs, '/' ∉ x.name.toList

theorem Apart.nodup {xs : List Descriptor} (h : Apart xs) : xs.Nodup :=
  List.Nodup.of_map _ h.distinct

theorem Apart.eq_of_name {xs : List Descriptor} (h : Apart xs) {x y : Descriptor} (hx : x ∈ xs)
    (hy : y ∈ xs) (hname : x.name = y.name) : x = y :=
  List.inj_on_of_nodup_map h.distinct hx hy hname

theorem Apart.perm {xs ys : List Descriptor} (h : Apart xs) (hperm : ys.Perm xs) : Apart ys where
  distinct := (hperm.map _).nodup_iff.2 h.distinct
  no_slash x hx := h.no_slash x (hperm.mem_iff.1 hx)

/-! ## Section 2: Trials leave the files of others alone -/

variable {outdir : Path} {xs : List Descriptor} {x y : Descriptor} {i j : Nat}

/-- No place of a trial is a place of another one. -/
theorem Apart.not_trialPlaces (h : Apart xs) (hx : x ∈ xs) (hy : y ∈ xs)
    (hne : ¬ (y = x ∧ j = i)) (here : Location) (k : Kind) :
    ¬ Disk.TrialPlaces outdir here y.name j (place outdir here x.name i k) := by
  rintro ⟨l, hl⟩
  obtain ⟨hname, hij, -⟩ := place_inj hl
  exact hne ⟨(h.eq_of_name hx hy hname).symm, hij.symm⟩

/-- What a directory holds of a trial stays while another trial runs. -/
theorem Apart.held?_within (h : Apart xs) (hx : x ∈ xs) (hy : y ∈ xs) (hne : ¬ (y = x ∧ j = i))
    {d d' : Disk} (hd : d.Within (Disk.TrialPlaces outdir d.here y.name j) d') (k : Kind) :
    d'.held? outdir (fileName x.name i k) = d.held? outdir (fileName x.name i k) :=
  hd.held? (h.not_trialPlaces hx hy hne d.here k)

theorem Apart.entries_within (h : Apart xs) (hx : x ∈ xs) (hy : y ∈ xs) (hne : ¬ (y = x ∧ j = i))
    {d d' : Disk} (hd : d.Within (Disk.TrialPlaces outdir d.here y.name j) d') :
    d'.entries outdir x i = d.entries outdir x i := by
  rw [Disk.entries, h.held?_within hx hy hne hd, h.held?_within hx hy hne hd, Disk.entries]

/-! ## Section 3: Records that stay -/

/-- The output directory is open and holds of the trial what it held before. -/
structure Disk.Keeps (outdir : Path) (x : Descriptor) (i : Nat) (d d' : Disk) : Prop where
  opens : d'.Opens outdir
  entries : d'.entries outdir x i = d.entries outdir x i

namespace Disk.Keeps

variable {d d' : Disk}

theorem refl (h : d.Opens outdir) : Keeps outdir x i d d :=
  ⟨h, rfl⟩

theorem status (h : Keeps outdir x i d d') (hd : d.Opens outdir) (hx : '/' ∉ x.name.toList) :
    d'.status x (log outdir x.name i) = d.status x (log outdir x.name i) :=
  hd.status_congr hx h.opens h.entries

theorem read (h : Keeps outdir x i d d') (hd : d.Opens outdir) (hx : '/' ∉ x.name.toList) :
    d'.read (log outdir x.name i) = d.read (log outdir x.name i) := by
  rw [← path_log]
  exact hd.read_congr h.opens (isFileName hx i .log) (congrArg Entries.log h.entries)

end Disk.Keeps

/-- No trial at a budget touches the files of a trial that is settled there. -/
theorem Runner.maintains_keeps {r : Runner} (hquiet : r.host.Quiet) (hxs : Apart xs) (hx : x ∈ xs)
    (hy : y ∈ xs) {d : Disk} (hopens : d.Opens outdir) {known : RunRecord}
    (hknown : d.status x (log outdir x.name i) = .ok known) {budget : UInt64}
    (hsettled : known.isPending budget = false) :
    (r.trial y budget (log outdir y.name j)).Maintains (Disk.Keeps outdir x i d) := by
  intro w hw
  by_cases heq : y = x ∧ j = i
  · -- The trial itself is skipped, as its record is still what it was.
    obtain ⟨rfl, rfl⟩ := heq
    have hstatus := hw.status hopens (hxs.no_slash y hy)
    have hskip := perform_trial_of_settled (r := r) (hstatus.trans hknown) hsettled
    apply passes_of_still <;> rw [hskip]
  · have hwithin := maintains_within hquiet (hxs.no_slash y hy) outdir budget j w.disk w
      (Disk.Within.refl _ _)
    refine hwithin.mono fun d hd => ⟨hd.opens hw.opens, ?_⟩
    rw [hxs.entries_within hx hy heq hd, hw.entries]

/-- A course keeps what it holds of a trial that is settled at all its budgets. -/
theorem World.follow_keeps (hxs : Apart xs) (hx : x ∈ xs) {known : RunRecord} (w : World)
    (hopens : w.disk.Opens outdir) (hknown : w.disk.status x (log outdir x.name i) = .ok known)
    (calls : List Call) (hcalls : ∀ c ∈ calls, c.IsOf xs)
    (hsettled : ∀ c ∈ calls, known.isPending c.budget = false) :
    ∃ later, (w.follow outdir calls).disks = later ++ w.disks ∧
      ∀ d ∈ later, Disk.Keeps outdir x i w.disk d := by
  refine World.follow_passes (fun c hc => ?_) (Disk.Keeps.refl hopens)
  refine Call.maintains (maintains_ensureDir_of_opens fun _ hd => hd.opens) fun j y hy => ?_
  exact Runner.maintains_keeps (hcalls c hc).quiet hxs hx ((hcalls c hc).subset y hy) hopens hknown
    (hsettled c hc)

/-! ## Section 4: A small course -/

/-- An experiment of no family, with the one-line format. -/
def Descriptor.plain (name : String) : Descriptor where
  name
  invocation := ⟨"tool", [], by decide⟩
  format := .gmp
  origin := none

theorem apart_plain : Apart [.plain "a"] :=
  ⟨by decide, by decide⟩

theorem apart_plain_two : Apart [.plain "a", .plain "b"] :=
  ⟨by decide, by decide⟩

/-- What a tool of this format writes when it is through. -/
def measured : ByteArray :=
  "Time for refinement: 1".toUTF8

theorem proof?_measured (name : String) :
    ∃ t m, proof? (Descriptor.plain name) (some (Text.decode measured)) = some (.done t m) := by
  rw [measured, Text.decode_toUTF8]
  exact ⟨_, _, rfl⟩

/-- An output directory with one log that proves a run. -/
def Disk.withMeasured : Disk where
  here := []
  nodes := [(["a-0", "out"], .file measured), (["out"], .dir)]

/-- A trial that overruns, a sweep in which every tool overruns, and a run of
    sweeps with a larger budget. -/
def overrunning : List Call :=
  [.trial (.telling fun _ => none) 1 0 (.plain "b"),
    .sweep (.telling fun _ => none) 1 [.plain "a", .plain "b"],
    .run (.telling fun _ => none) 9 (some 3) [.plain "b", .plain "a"]]

theorem isOf_overrunning : ∀ c ∈ overrunning, c.IsOf [.plain "a", .plain "b"] := by
  intro c hc
  simp only [overrunning, List.mem_cons, List.not_mem_nil, or_false] at hc
  rcases hc with rfl | rfl | rfl
  · exact ⟨Host.quiet_telling fun _ => none, fun _ hx => List.mem_cons_of_mem _ hx⟩
  · exact ⟨Host.quiet_telling fun _ => none, fun _ hx => hx⟩
  · exact ⟨Host.quiet_telling fun _ => none, fun _ hx => (List.Perm.swap _ _ _).mem_iff.1 hx⟩

/-- The world after the trial. -/
def afterTrial : World :=
  (World.fresh .withMeasured).follow ⟨"out"⟩ (overrunning.take 1)

end BenchSweep
