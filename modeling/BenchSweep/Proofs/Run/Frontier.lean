import BenchSweep.Proofs.Run.Dense

/-! # The Frontier of a Run

    At a fixed budget every state of a run has a frontier: the rows below it are
    settled, its own row is not, and nothing is recorded above it.  The scan
    finds it, and it never falls back behind where it stood between two
    trials. -/

namespace BenchSweep

open Artifact Act

variable {outdir : Path} {xs ys : List Descriptor} {budget : UInt64} {d : Disk} {n m : Nat}

/-! ## Section 1: Frontiers -/

namespace Disk

/-- The iteration is the first one with work left, and nothing is recorded
    behind it. -/
structure Frontier (outdir : Path) (budget : UInt64) (xs : List Descriptor) (n : Nat)
    (d : Disk) : Prop where
  below : ∀ i < n, d.SettledRow outdir budget xs i
  here : d.OpenRow outdir budget xs n ∨ ∃ x ∈ xs, ∃ e, d.Refused outdir x n e
  above : ∀ x ∈ xs, ∀ i, n < i → d.isPresent (log outdir x.name i) = false ∧
    d.isPresent (marker (log outdir x.name i)) = false

theorem Frontier.not_settledRow (h : d.Frontier outdir budget xs n) :
    ¬ d.SettledRow outdir budget xs n := by
  intro hrow
  rcases h.here with ⟨x, hx, r, hr, hpending⟩ | ⟨x, hx, e, he, -⟩
  · obtain ⟨r', hr', hsettled⟩ := hrow x hx
    rw [hr] at hr'
    rw [← Except.ok.inj hr', hpending] at hsettled
    cases hsettled
  · obtain ⟨r', hr', -⟩ := hrow x hx
    rw [he] at hr'
    cases hr'

/-- A directory that is open holds nothing under a name: nothing is there. -/
theorem Opens.isPresent_join (h : d.Opens outdir) {s : String} (hs : Path.IsFileName s)
    (hheld : d.held? outdir s = none) : d.isPresent (outdir.join s) = false := by
  rw [isPresent, find]
  cases hr : (outdir.join s).refusal? with
  | some e => rw [h.locate_error hs hr]; rfl
  | none =>
    rw [held?] at hheld
    rw [h.locate_ok hs hr]
    simp only [bind, Except.bind, hheld]
    rfl

/-- The first row of dense rows that is not settled is the frontier. -/
theorem Dense.frontier {seen ahead : UInt64 → Prop} (h : d.Dense outdir xs seen ahead n)
    (hxs : Apart xs) (hb : ahead budget) (hrow : ¬ d.SettledRow outdir budget xs n) :
    d.Frontier outdir budget xs n where
  below := h.settled budget hb
  here := by
    by_cases hlegible : d.Legible outdir xs n
    · exact Or.inl (hlegible.openRow hrow)
    · obtain ⟨e, -, x, hx, he⟩ := trialsAt_of_not_legible hlegible
      exact Or.inr ⟨x, hx, e, h.refused_of_not_legible hxs hx he⟩
  above x hx i hi := by
    have hslash := hxs.no_slash x hx
    have hlog := h.opens.isPresent_join (isFileName hslash i .log) (h.above x hx i hi .log nofun)
    have hmarker := h.opens.isPresent_join (isFileName hslash i .marker)
      (h.above x hx i hi .marker nofun)
    rw [← path, path_log] at hlog
    rw [← path, path_marker] at hmarker
    exact ⟨hlog, hmarker⟩

/-- What a scan finds at a frontier: it stops there or right behind it and
    chooses it, unless the system refuses a path of one of these two rows. -/
def ScanAt (outdir : Path) (budget : UInt64) (xs : List Descriptor) (n : Nat) (d : Disk) : Prop :=
  (∃ p, d.scan outdir budget xs = .ok p ∧ p.nextIteration = n ∧
    (p.iterations = n ∨ p.iterations = n + 1)) ∨
  ∃ e, d.scan outdir budget xs = .error e ∧
    ∃ x ∈ xs, ∃ i, (i = n ∨ i = n + 1) ∧ d.Refused outdir x i e

theorem Dense.scanAt {seen ahead : UInt64 → Prop} (h : d.Dense outdir xs seen ahead n)
    (hxs : Apart xs) (hne : xs ≠ []) (hb : ahead budget)
    (hrow : ¬ d.SettledRow outdir budget xs n) : d.ScanAt outdir budget xs n := by
  have hnext := fun p => h.nextIteration_eq hxs hne hb hrow (p := p)
  rcases h.scan_cases hxs hne hb budget with ⟨-, hscan⟩ | ⟨-, hscan⟩ | herror
  · exact Or.inl ⟨_, hscan, hnext _ hscan, Or.inl iterations_progress⟩
  · exact Or.inl ⟨_, hscan, hnext _ hscan, Or.inr iterations_progress⟩
  · exact Or.inr herror

end Disk

/-! ## Section 2: Runs at a fixed budget -/

/-- At a fixed budget the rows are dense in every state. -/
theorem World.follow_denseRows (hxs : Apart xs) {w : World}
    (hw : w.disk.DenseRows outdir xs (· = budget) (· = budget)) {calls : List Call}
    (hcalls : ∀ c ∈ calls, c.OfSession budget xs) :
    ∃ later, (w.follow outdir calls).disks = later ++ w.disks ∧
      ∀ d ∈ later, d.DenseRows outdir xs (· = budget) (· = budget) := by
  refine World.follow_passes (fun c hc => ?_) hw
  refine (hcalls c hc).maintains_denseRows hxs ?_ ?_ (Disk.steadies_self budget)
  · rfl
  · rfl

/-- A run that begins in an empty directory has a frontier in every state. -/
theorem World.follow_frontier (hxs : Apart xs) (hne : xs ≠ []) {start : Disk}
    (hstart : start.Vacant outdir) {calls : List Call}
    (hcalls : ∀ c ∈ calls, c.OfSession budget xs) :
    ∀ d ∈ ((World.fresh start).follow outdir calls).disks, d.Opens outdir ∧
      ∃ n, d.Frontier outdir budget xs n ∧ d.ScanAt outdir budget xs n := by
  have hempty : start.DenseRows outdir xs (· = budget) (· = budget) := ⟨0, hstart.dense⟩
  obtain ⟨all, hall, hdense⟩ := World.follow_denseRows hxs (w := World.fresh start) hempty hcalls
  have hfrontier : ∀ d : Disk, d.DenseRows outdir xs (· = budget) (· = budget) →
      d.Opens outdir ∧ ∃ n, d.Frontier outdir budget xs n ∧ d.ScanAt outdir budget xs n := by
    rintro d ⟨m, hm⟩
    obtain ⟨n, hn, hrow⟩ := hm.next hxs hne (Disk.steadies_self budget)
    exact ⟨hn.opens, n, hn.frontier hxs rfl hrow, hn.scanAt hxs hne rfl hrow⟩
  intro d hd
  rw [hall, List.mem_append] at hd
  rcases hd with hd | hd
  · exact hfrontier d (hdense d hd)
  · rw [List.mem_singleton.1 hd]
    exact hfrontier start hempty

/-- What is settled at the budget of calls that follow stays settled. -/
theorem World.follow_settledRow (hxs : Apart xs) {w : World} (hopens : w.disk.Opens outdir)
    {calls : List Call} (hcalls : ∀ c ∈ calls, c.IsOf xs ∧ c.budget = budget) {later : List Disk}
    (hlater : (w.follow outdir calls).disks = later ++ w.disks) {i : Nat}
    (hrow : w.disk.SettledRow outdir budget xs i) (hd : d ∈ later) :
    d.SettledRow outdir budget xs i := by
  intro x hx
  obtain ⟨known, hknown, hsettled⟩ := hrow x hx
  obtain ⟨later', hlater', hkeeps⟩ := World.follow_keeps hxs hx w hopens hknown calls
    (fun c hc => (hcalls c hc).1) fun c hc => by rw [(hcalls c hc).2]; exact hsettled
  rw [hlater] at hlater'
  rw [List.append_cancel_right hlater'] at hd
  exact ⟨known, ((hkeeps d hd).status hopens (hxs.no_slash x hx)).trans hknown, hsettled⟩

/-- **Rows fill densely.**  A run at a fixed budget that begins in an empty
    directory has a frontier in every state, and a scan finds it there.  The
    frontier of a state between two trials is not above that of any later
    state. -/
theorem rows_fill_densely (outdir : Path) (hxs : Apart xs) (hne : xs ≠ []) (budget : UInt64)
    {start : Disk} (hstart : start.Vacant outdir) {calls : List Call}
    (hcalls : ∀ c ∈ calls, c.OfSession budget xs) :
    (∀ d ∈ ((World.fresh start).follow outdir calls).disks,
      ∃ n, d.Frontier outdir budget xs n ∧ d.ScanAt outdir budget xs n) ∧
    ∀ mid rest, Comes outdir (.fresh start) calls mid rest →
      ∃ later, ((World.fresh start).follow outdir calls).disks = later ++ mid.disks ∧
        ∀ d ∈ later, ∀ n m, mid.disk.Frontier outdir budget xs n →
          d.Frontier outdir budget xs m → n ≤ m := by
  have hfrontier := World.follow_frontier hxs hne hstart hcalls
  refine ⟨fun d hd => (hfrontier d hd).2, fun mid rest hmid => ?_⟩
  -- What is left of the run is about the same experiments, at the same budget.
  have hrest : ∀ c ∈ rest, c.IsOf xs ∧ c.budget = budget := by
    intro c hc
    obtain ⟨c', hc', hpart⟩ := hmid.partOf c hc
    have hof := (hcalls c' hc').isOf
    exact ⟨hpart.isOf hof.1, hpart.budget.trans hof.2⟩
  rw [hmid.follow_eq] at hfrontier ⊢
  obtain ⟨later, hlater⟩ := World.follow_disks rest mid
  refine ⟨later, hlater, fun d hd n m hn hm => ?_⟩
  have hopens : mid.disk.Opens outdir := by
    refine (hfrontier mid.disk ?_).1
    rw [hlater]
    exact List.mem_append_right later List.mem_cons_self
  -- A later frontier below this one would be a row that was settled here.
  by_contra hlt
  exact hm.not_settledRow
    (World.follow_settledRow hxs hopens hrest hlater (hn.below m (Nat.lt_of_not_le hlt)) hd)

/-- Two experiments that overrun in one sweep and measure in the next. -/
def twoSweeps : List Call :=
  [.sweep (.telling fun _ => none) 1 [.plain "a", .plain "b"],
    .sweep (.telling fun _ => some measured) 1 [.plain "b", .plain "a"]]

/-- The world after the first sweep. -/
def betweenSweeps : World :=
  (World.fresh .emptyOut).follow ⟨"out"⟩ (twoSweeps.take 1)

theorem rows_fill_densely_twoSweeps :
    (∀ d ∈ ((World.fresh .emptyOut).follow ⟨"out"⟩ twoSweeps).disks,
      ∃ n, d.Frontier ⟨"out"⟩ 1 [.plain "a", .plain "b"] n ∧
        d.ScanAt ⟨"out"⟩ 1 [.plain "a", .plain "b"] n) ∧
    ∃ later, ((World.fresh .emptyOut).follow ⟨"out"⟩ twoSweeps).disks = later ++ betweenSweeps.disks ∧
      ∀ d ∈ later, ∀ n m, betweenSweeps.disk.Frontier ⟨"out"⟩ 1 [.plain "a", .plain "b"] n →
        d.Frontier ⟨"out"⟩ 1 [.plain "a", .plain "b"] m → n ≤ m := by
  have hcalls : ∀ c ∈ twoSweeps, c.OfSession 1 [.plain "a", .plain "b"] := by
    intro c hc
    simp only [twoSweeps, List.mem_cons, List.not_mem_nil, or_false] at hc
    rcases hc with rfl | rfl
    · exact .sweep (Host.quiet_telling fun _ => none) (List.Perm.refl _)
    · exact .sweep (Host.quiet_telling fun _ => some measured) (List.Perm.swap _ _ _)
  have hdense := rows_fill_densely ⟨"out"⟩ apart_plain_two (List.cons_ne_nil _ _) 1
    Disk.vacant_emptyOut hcalls
  exact ⟨hdense.1, hdense.2 betweenSweeps (twoSweeps.drop 1) (.onward .call .here)⟩

/-- A name that leaves no room for the ending of a marker. -/
def longName : String :=
  String.ofList (List.replicate 246 'a')

theorem slash_notMem_longName : '/' ∉ longName.toList := by
  unfold longName
  rw [String.toList_ofList]
  intro h
  exact absurd (List.eq_of_mem_replicate h) (by decide)

theorem utf8ByteSize_replicate (n : Nat) :
    (String.ofList (List.replicate n 'a')).utf8ByteSize = n := by
  induction n with
  | zero => rfl
  | succ n ih =>
    have hone : 'a'.utf8Size = 1 := by decide
    rw [List.replicate_succ, String.ofList_cons, String.utf8ByteSize_append,
      String.utf8ByteSize_singleton, ih, hone, Nat.add_comm]

theorem maxName_lt_longName : Disk.maxName < (fileName longName 0 .marker).utf8ByteSize := by
  have hname : longName.utf8ByteSize = 246 := utf8ByteSize_replicate 246
  have htail : (tail 0 .marker).utf8ByteSize = 10 := by decide
  have hmax : Disk.maxName = 255 := rfl
  have hfile : (fileName longName 0 .marker).utf8ByteSize
      = longName.utf8ByteSize + (tail 0 .marker).utf8ByteSize := String.utf8ByteSize_append
  omega

theorem apart_longName : Apart [.plain longName] := by
  refine ⟨List.nodup_singleton _, fun x hx => ?_⟩
  rw [List.mem_singleton.1 hx]
  exact slash_notMem_longName

/-- No scan succeeds where a marker's name would be too long. -/
theorem scan_longName (budget : UInt64) (p : Progress) :
    Disk.emptyOut.scan ⟨"out"⟩ budget [.plain longName] ≠ .ok p := by
  intro hscan
  obtain ⟨e, hr⟩ := Path.refusal?_of_long (isFileName slash_notMem_longName 0 .marker) ⟨"out"⟩
    maxName_lt_longName
  have hstatus := Disk.vacant_emptyOut.opens.status_of_refused (x := .plain longName)
    slash_notMem_longName (Disk.vacant_emptyOut.empty _) hr
  obtain ⟨k, hbelow, hblank, -⟩ := Disk.scan_ok hscan
  cases k with
  | zero => exact hstatus _ (hblank _ List.mem_cons_self)
  | succ k =>
    obtain ⟨r, hr⟩ := (hbelow 0 (Nat.succ_pos k)).1 _ List.mem_cons_self
    exact hstatus r hr

/-- A host whose tools have written all their output when they are stopped. -/
def Runner.stopped : Runner :=
  { Runner.telling fun _ => none with
    host := { Host.telling fun _ => none with
      launch := fun _ _ _ d => .ok ⟨measured, .stopped, d⟩ } }

/-- The output directory with a log that is still empty. -/
def Disk.withLog : Disk where
  here := []
  nodes := [(["a-0", "out"], .file .empty), (["out"], .dir)]

/-- The output directory with a log that was set aside. -/
def Disk.withAside : Disk where
  here := []
  nodes := [(["a-0.interrupted", "out"], .file measured), (["out"], .dir)]

theorem settledRow_withMeasured : Disk.withMeasured.SettledRow ⟨"out"⟩ 1 [.plain "a"] 0 := by
  intro x hx
  rw [List.mem_singleton.1 hx]
  obtain ⟨t, metrics, hproof⟩ := proof?_measured "a"
  exact ⟨_, Disk.status_eq_done_iff.2 ⟨measured, rfl, hproof⟩, rfl⟩

theorem not_settledRow_withAside : ¬ Disk.withAside.SettledRow ⟨"out"⟩ 1 [.plain "a"] 0 := by
  intro hrow
  obtain ⟨r, hr, hsettled⟩ := hrow _ List.mem_cons_self
  have hblank : Disk.withAside.status (.plain "a") (log ⟨"out"⟩ "a" 0) = .ok .notDone := rfl
  rw [show (Descriptor.plain "a").name = "a" from rfl, hblank] at hr
  cases hr
  cases hsettled

/-- No scan succeeds where a marker's name would be too long, not even in an
    empty directory; and while a tool runs its log may already prove a run that
    is taken back when the tool is stopped. -/
theorem frontier_needs_short_names_and_ended_tools :
    (Apart [.plain longName] ∧ Disk.emptyOut.Vacant ⟨"out"⟩ ∧
      ∀ budget p, Disk.emptyOut.scan ⟨"out"⟩ budget [.plain longName] ≠ .ok p) ∧
    Call.OfSession 1 [.plain "a"] (.sweep .stopped 1 [.plain "a"]) ∧
    ∃ d d' earlier, ((World.fresh .emptyOut).follow ⟨"out"⟩ [.sweep .stopped 1 [.plain "a"]]).disks
        = d' :: earlier ∧ d ∈ earlier ∧
      ∃ n m, d.Frontier ⟨"out"⟩ 1 [.plain "a"] n ∧ d'.Frontier ⟨"out"⟩ 1 [.plain "a"] m ∧ m < n := by
  have hcall : Call.OfSession 1 [.plain "a"] (.sweep .stopped 1 [.plain "a"]) :=
    .sweep (fun _ _ _ _ _ h => (Except.ok.inj h) ▸ rfl) (List.Perm.refl _)
  refine ⟨⟨apart_longName, Disk.vacant_emptyOut, scan_longName⟩, hcall, ?_⟩
  have hdisks : ((World.fresh .emptyOut).follow ⟨"out"⟩ [.sweep .stopped 1 [.plain "a"]]).disks
      = [.withAside, .withMeasured, .withLog, .emptyOut, .emptyOut, .emptyOut] := rfl
  have hcalls : ∀ c ∈ [Call.sweep .stopped 1 [.plain "a"]], c.OfSession 1 [.plain "a"] := by
    intro c hc
    rw [List.mem_singleton.1 hc]
    exact hcall
  have hfrontier := World.follow_frontier apart_plain (List.cons_ne_nil _ _) Disk.vacant_emptyOut
    hcalls
  rw [hdisks] at hfrontier ⊢
  obtain ⟨-, n, hn, -⟩ := hfrontier .withMeasured (by simp)
  obtain ⟨-, m, hm, -⟩ := hfrontier .withAside List.mem_cons_self
  refine ⟨.withMeasured, .withAside, _, rfl, List.mem_cons_self, n, m, hn, hm, ?_⟩
  -- Row 0 is settled while the log stands, and open once it was set aside.
  have hm0 : m = 0 :=
    Nat.eq_zero_of_not_pos fun hpos => not_settledRow_withAside (hm.below 0 hpos)
  have hn0 : n ≠ 0 := fun hzero => hn.not_settledRow (hzero ▸ settledRow_withMeasured)
  omega

end BenchSweep
