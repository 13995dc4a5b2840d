import BenchSweep.Proofs.Run.Resumption

/-! # Retention

    A run of several sessions, each with its own budget, begins in an empty
    directory.  A scan shows all that was ever recorded as long as no session
    reopens a row that an earlier one took for settled.  One that does clears
    the markers of the row first; where the row stays bare the scan stops there,
    and all the rows behind it are out of its sight. -/

namespace BenchSweep

open Artifact Act

variable {outdir : Path} {xs : List Descriptor} {x : Descriptor} {budget s b c : UInt64}
  {bs bs' before after : List UInt64} {calls calls' : List Call} {d : Disk} {i n : Nat}

/-! ## Section 1: Sessions -/

/-- Calls of sessions with the given budgets, one session after the other. -/
inductive Sessions (xs : List Descriptor) : List UInt64 → List Call → Prop where
  | nil : Sessions xs [] []
  | cons {b : UInt64} {bs : List UInt64} {calls rest : List Call} :
      (∀ c ∈ calls, c.OfSession b xs) → Sessions xs bs rest → Sessions xs (b :: bs) (calls ++ rest)

namespace Sessions

/-- Nothing happens in any session. -/
theorem idle (xs : List Descriptor) (bs : List UInt64) : Sessions xs bs [] := by
  induction bs with
  | nil => exact .nil
  | cons b bs ih =>
    have hnone : ∀ c ∈ ([] : List Call), c.OfSession b xs := nofun
    exact .cons hnone ih

theorem append (h : Sessions xs bs calls) (h' : Sessions xs bs' calls') :
    Sessions xs (bs ++ bs') (calls ++ calls') := by
  induction h with
  | nil => exact h'
  | cons hcalls _ ih =>
    rw [List.append_assoc]
    exact .cons hcalls ih

/-- One call in one of the sessions. -/
theorem single {call : Call} (hcall : call.OfSession b xs) (hb : b ∈ bs) :
    Sessions xs bs [call] := by
  obtain ⟨before, after, rfl⟩ := List.append_of_mem hb
  have hone : ∀ c ∈ [call], c.OfSession b xs := by
    intro c hc
    rw [List.mem_singleton.1 hc]
    exact hcall
  exact append (idle xs before) (.cons hone (idle xs after))

/-- One call in a session or before it, and then one in it. -/
theorem pair {call call' : Call} (hs : s ∈ before ++ [b]) (hcall : call.OfSession s xs)
    (hcall' : call'.OfSession b xs) : Sessions xs (before ++ [b]) [call, call'] := by
  rcases List.mem_append.1 hs with hs | hs
  · exact append (single hcall hs) (single hcall' List.mem_cons_self)
  · rw [List.mem_singleton.1 hs] at hcall
    have hboth : ∀ c ∈ [call, call'], c.OfSession b xs := by
      intro c hc
      simp only [List.mem_cons, List.not_mem_nil, or_false] at hc
      rcases hc with rfl | rfl
      · exact hcall
      · exact hcall'
    exact append (idle xs before) (.cons hboth .nil)

end Sessions

/-- No session reopens a row that an earlier one took for settled: if a marker
    that was left in a session or before is final there, then it is final in all
    the later sessions. -/
def Steady (bs : List UInt64) : Prop :=
  ∀ before b after, bs = before ++ b :: after →
    ∀ s ∈ before ++ [b], b ≤ RunRecord.heldSeconds s → ∀ c ∈ after, c ≤ RunRecord.heldSeconds s

/-- Budgets that never grow are steady. -/
theorem steady_of_pairwise (h : bs.Pairwise fun s c => c ≤ s) : Steady bs := by
  rintro before b after rfl s - hs c hc
  have hlater : (b :: after).Pairwise fun s c => c ≤ s := (List.pairwise_append.1 h).2.1
  exact UInt64.le_trans ((List.pairwise_cons.1 hlater).1 c hc) hs

/-- Budgets that a marker holds exactly are steady only if they never grow. -/
theorem steady_iff_pairwise (hbs : ∀ b ∈ bs, b.toNat ≤ Decimal.twoPow 53) :
    Steady bs ↔ bs.Pairwise fun s c => c ≤ s := by
  refine ⟨fun h => ?_, steady_of_pairwise⟩
  induction bs with
  | nil => exact List.Pairwise.nil
  | cons b bs ih =>
    have hb : RunRecord.heldSeconds b = b :=
      RunRecord.heldSeconds_of_le (hbs b List.mem_cons_self)
    refine List.pairwise_cons.2 ⟨fun c hc => ?_, ih ?_ ?_⟩
    · have hle := h [] b bs rfl b List.mem_cons_self (UInt64.le_of_eq hb.symm) c hc
      rwa [hb] at hle
    · exact fun c hc => hbs c (List.mem_cons_of_mem b hc)
    · intro before c after heq s hs hle
      have heq' : b :: bs = (b :: before) ++ c :: after := congrArg (b :: ·) heq
      exact h (b :: before) c after heq' s (List.mem_cons_of_mem b hs) hle

theorem Steady.steadies (h : Steady (before ++ b :: after)) :
    Disk.Steadies (· ∈ before ++ [b]) (· ∈ b :: after) b := by
  intro s hs hle c hc
  rcases List.mem_cons.1 hc with rfl | hc
  · exact hle
  · exact h before b after rfl s hs hle c hc

/-! ## Section 2: What a scan reports -/

namespace Disk

/-- Every scan reports all that is recorded: no record stands at or behind the
    row where it stops, and every completed run is among its results.  If it
    fails, then the system refuses the path of a log or a marker. -/
structure ReportsAll (outdir : Path) (xs : List Descriptor) (d : Disk) : Prop where
  before_stop : ∀ budget p, d.scan outdir budget xs = .ok p →
    ∀ x ∈ xs, ∀ i r, d.status x (log outdir x.name i) = .ok r → r ≠ .notDone → i < p.iterations
  results : ∀ budget p, d.scan outdir budget xs = .ok p →
    ∀ x ∈ xs, ∀ i t m, d.status x (log outdir x.name i) = .ok (.done t m) → (x.name, m) ∈ p.results
  refused : ∀ budget e, d.scan outdir budget xs = .error e → ∃ x ∈ xs, ∃ i, d.Refused outdir x i e

/-- A scan that finds nothing in the first row stops there. -/
theorem scan_of_first_blank (h : d.Blank outdir xs 0) :
    d.scan outdir budget xs = .ok (d.progress outdir budget xs 0) :=
  scan_of_blank (fun _ hj => absurd hj (Nat.not_lt_zero _)) h

/-- A scan that stops behind all records reports them. -/
theorem reportsAll_of_scan (hrefused : ∀ budget e, d.scan outdir budget xs = .error e →
      ∃ x ∈ xs, ∃ i, d.Refused outdir x i e)
    (hscan : ∀ budget p, d.scan outdir budget xs = .ok p → ∃ k, p = d.progress outdir budget xs k ∧
      ∀ x ∈ xs, ∀ i r, d.status x (log outdir x.name i) = .ok r → r ≠ .notDone → i < k) :
    d.ReportsAll outdir xs where
  before_stop budget p hp x hx i r hr hne := by
    obtain ⟨k, rfl, hk⟩ := hscan budget p hp
    rw [iterations_progress]
    exact hk x hx i r hr hne
  results budget p hp x hx i t m hdone := by
    obtain ⟨k, rfl, hk⟩ := hscan budget p hp
    exact mem_results_progress hx (hk x hx i _ hdone nofun) hdone
  refused := hrefused

namespace Dense

variable {seen ahead : UInt64 → Prop}

/-- What is recorded is not above the rows. -/
theorem le_of_status (h : d.Dense outdir xs seen ahead n) (hxs : Apart xs) (hx : x ∈ xs)
    {r : RunRecord} (hr : d.status x (log outdir x.name i) = .ok r) (hne : r ≠ .notDone) :
    i ≤ n := by
  refine Nat.le_of_not_lt fun hlt => ?_
  rcases h.status_above hxs hx hlt with ⟨e, he, -⟩ | hblank
  · rw [hr] at he
    cases he
  · rw [hr] at hblank
    exact hne (Except.ok.inj hblank)

theorem reportsAll (h : d.Dense outdir xs seen ahead n) (hxs : Apart xs) (hb : ahead b) :
    d.ReportsAll outdir xs := by
  by_cases hne : xs = []
  · subst hne
    have hscan : ∀ budget, d.scan outdir budget [] = .ok (d.progress outdir budget [] 0) :=
      fun budget => scan_of_first_blank nofun
    refine reportsAll_of_scan (fun budget e he => ?_) fun budget p hp => ⟨0, ?_, nofun⟩
    · rw [hscan] at he
      cases he
    · rw [hscan] at hp
      exact (Except.ok.inj hp).symm
  · refine reportsAll_of_scan (fun budget e he => ?_) fun budget p hp => ?_
    · rcases h.scan_cases hxs hne hb budget with ⟨-, hok⟩ | ⟨-, hok⟩ | ⟨e', he', x, hx, i, -, hi⟩
      · rw [hok] at he
        cases he
      · rw [hok] at he
        cases he
      · rw [he'] at he
        rw [← Except.error.inj he]
        exact ⟨x, hx, i, hi⟩
    · rcases h.scan_cases hxs hne hb budget with ⟨hblank, hok⟩ | ⟨-, hok⟩ | ⟨e, he, -⟩
      · rw [hok] at hp
        refine ⟨n, (Except.ok.inj hp).symm, fun x hx i r hr hr' => ?_⟩
        refine Nat.lt_of_le_of_ne (h.le_of_status hxs hx hr hr') ?_
        rintro rfl
        rw [hblank x hx] at hr
        exact hr' (Except.ok.inj hr).symm
      · rw [hok] at hp
        exact ⟨n + 1, (Except.ok.inj hp).symm, fun x hx i r hr hr' =>
          Nat.lt_succ_of_le (h.le_of_status hxs hx hr hr')⟩
      · rw [he] at hp
        cases hp

end Dense

end Disk

/-- Steady sessions go through disks of which everything is reported. -/
theorem Sessions.reportsAll (hxs : Apart xs) (h : Sessions xs bs calls) {w : World}
    (hsteady : Steady (before ++ bs))
    (hw : w.disk.DenseRows outdir xs (· ∈ before) (· ∈ bs)) :
    ∃ later, (w.follow outdir calls).disks = later ++ w.disks ∧
      ∀ d ∈ later, d.ReportsAll outdir xs := by
  induction h generalizing before w with
  | nil => exact ⟨[], rfl, nofun⟩
  | @cons b bs calls rest hcalls _ ih =>
    -- The budget of the session joins those seen while it is still ahead.
    have hdense : w.disk.DenseRows outdir xs (· ∈ before ++ [b]) (· ∈ b :: bs) := by
      obtain ⟨n, hn⟩ := hw
      exact ⟨n, hn.mono (fun s hs => List.mem_append_left [b] hs) fun _ hc => hc⟩
    have hmaintains : ∀ c ∈ calls, c.Maintains outdir
        (Disk.DenseRows outdir xs (· ∈ before ++ [b]) (· ∈ b :: bs)) := fun c hc =>
      (hcalls c hc).maintains_denseRows hxs (List.mem_append_right before List.mem_cons_self)
        List.mem_cons_self hsteady.steadies
    obtain ⟨first, hfirst, hall⟩ := World.follow_passes hmaintains hdense
    -- The session leaves rows that are dense for the sessions after it.
    have hafter : (w.follow outdir calls).disk.DenseRows outdir xs (· ∈ before ++ [b]) (· ∈ bs) := by
      obtain ⟨n, hn⟩ := disk_of_passed hfirst hdense hall
      exact ⟨n, hn.mono (fun _ hs => hs) fun c hc => List.mem_cons_of_mem b hc⟩
    have hsteady' : Steady ((before ++ [b]) ++ bs) := by
      rw [List.append_assoc]
      exact hsteady
    obtain ⟨later, hlater, hall'⟩ := ih hsteady' hafter
    refine ⟨later ++ first, ?_, fun d hd => ?_⟩
    · rw [World.follow_append, hlater, hfirst, List.append_assoc]
    · rcases List.mem_append.1 hd with hd | hd
      · exact hall' d hd
      · obtain ⟨n, hn⟩ := hall d hd
        exact hn.reportsAll hxs List.mem_cons_self

/-! ## Section 3: Sweeps over one experiment -/

namespace Disk

theorem blank_singleton (h : d.status x (log outdir x.name i) = .ok .notDone) :
    d.Blank outdir [x] i :=
  fun _ hy => by rw [List.mem_singleton.1 hy]; exact h

theorem recorded_singleton {r : RunRecord} (h : d.status x (log outdir x.name i) = .ok r)
    (hne : r ≠ .notDone) : d.Recorded outdir [x] i := by
  refine ⟨fun y hy => ⟨r, ?_⟩, fun hblank => hne ?_⟩
  · rw [List.mem_singleton.1 hy]
    exact h
  · have hx := hblank x List.mem_cons_self
    rw [h] at hx
    exact Except.ok.inj hx

/-- What an open directory holds of an experiment, trial after trial. -/
structure Holds (outdir : Path) (x : Descriptor) (e : Nat → Entries) (d : Disk) : Prop where
  opens : d.Opens outdir
  entries : ∀ i, d.entries outdir x i = e i

theorem Vacant.holds (h : d.Vacant outdir) : d.Holds outdir x fun _ => .bare where
  opens := h.opens
  entries i := by
    rw [Disk.entries, h.empty, h.empty]
    rfl

/-- A sweep with a pending trial of the experiment in its row, on a host whose
    tools can be told beforehand. -/
theorem Holds.sweep {e : Nat → Entries} {w : World} (budget : UInt64) (hx : Apart [x])
    (h : w.disk.Holds outdir x e) (hnext : w.disk.NextRow outdir budget [x] n)
    (hpending : w.disk.Pending outdir budget x n) (f : Descriptor → Option ByteArray) :
    (((Runner.telling f).sweep outdir budget [x]).perform w).2.disk.Holds outdir x
      (Function.update e n (.left budget (f x))) := by
  have hmeets := Runner.meets_sweep (r := .telling f) (Host.follows_telling f) hx
    (List.Perm.refl [x]) h.opens hnext
  have hrow : RowBecomes outdir [x] n (Through outdir budget n f) w.disk
      (((Runner.telling f).sweep outdir budget [x]).perform w).2.disk := by
    cases hrun : (((Runner.telling f).sweep outdir budget [x]).perform w).1 with
    | ok report => exact hmeets.ok rfl hrun
    | error e => exact absurd (Host.steadfast_telling f) (hmeets.error rfl hrun).1
  refine ⟨hrow.within.opens h.opens, fun i => ?_⟩
  by_cases hi : i = n
  · rw [hi, Function.update_self]
    exact (hrow.trials x List.mem_cons_self).pending hpending
  · rw [Function.update_of_ne hi, hrow.entries_ne hx List.mem_cons_self hi]
    exact h.entries i

theorem Holds.status_bare {e : Nat → Entries} (hx : '/' ∉ x.name.toList) (h : d.Holds outdir x e)
    (hw : Writable outdir x i) (he : e i = .bare) :
    d.status x (log outdir x.name i) = .ok .notDone :=
  h.opens.status_of_bare hx hw ((h.entries i).trans he)

theorem Holds.status_left {e : Nat → Entries} (hx : '/' ∉ x.name.toList) (h : d.Holds outdir x e)
    (hw : Writable outdir x i) (budget : UInt64) (result : Option ByteArray)
    (he : e i = .left budget result) :
    d.status x (log outdir x.name i) = .ok (recordOf x budget result) :=
  h.opens.status_of_left hx hw ((h.entries i).trans he)

end Disk

/-! ## Section 4: Reopening a row -/

/-- A tool overruns, and then it measures. -/
def overrunThenMeasure (s b : UInt64) : List Call :=
  [.sweep (.telling fun _ => none) s [.plain "a"],
    .sweep (.telling fun _ => some measured) b [.plain "a"]]

/-- Then it writes nothing. -/
def reopening (s b c : UInt64) : List Call :=
  overrunThenMeasure s b ++ [.sweep (.telling fun _ => some .empty) c [.plain "a"]]

theorem slash_notMem_plain : '/' ∉ (Descriptor.plain "a").name.toList :=
  apart_plain.no_slash _ List.mem_cons_self

theorem writable_plain (hi : i ≤ 2) : Writable ⟨"out"⟩ (.plain "a") i := by
  have hi' : i = 0 ∨ i = 1 ∨ i = 2 := by omega
  rcases hi' with rfl | rfl | rfl <;> exact ⟨rfl, rfl⟩

/-- If the first row is settled at the second budget, then there is a marker in it
    and a log in the next one. -/
theorem holds_overrunThenMeasure (hb : b ≤ RunRecord.heldSeconds s) :
    ((World.fresh .emptyOut).follow ⟨"out"⟩ (overrunThenMeasure s b)).disk.Holds ⟨"out"⟩
      (.plain "a") (Function.update (Function.update (fun _ => .bare) 0 (.left s none)) 1
        (.left b (some measured))) := by
  have h₀ : (World.fresh .emptyOut).disk.Holds ⟨"out"⟩ (.plain "a") fun _ => .bare :=
    Disk.vacant_emptyOut.holds
  have hblank₀ := h₀.status_bare slash_notMem_plain (writable_plain (Nat.zero_le 2)) rfl
  have hnext₀ : (World.fresh .emptyOut).disk.NextRow ⟨"out"⟩ s [.plain "a"] 0 :=
    Disk.nextRow_of_blank (List.cons_ne_nil _ _) (fun _ hj => absurd hj (Nat.not_lt_zero _))
      (Disk.blank_singleton hblank₀)
  have h₁ := h₀.sweep s apart_plain hnext₀ ⟨_, hblank₀, rfl⟩ fun _ => none
  generalize hw₁ : (((Runner.telling fun _ => none).sweep ⟨"out"⟩ s [.plain "a"]).perform
    (World.fresh .emptyOut)).2 = w₁ at h₁
  -- The marker settles row 0 at the second budget, so the sweep goes on to row 1.
  have hover : w₁.disk.status (.plain "a") (log ⟨"out"⟩ "a" 0) = .ok (.timeout s) :=
    h₁.status_left slash_notMem_plain (writable_plain (Nat.zero_le 2)) s none rfl
  have hblank₁ := h₁.status_bare slash_notMem_plain (writable_plain (Nat.le_succ 1)) rfl
  have hsettled : ∀ j < 1, w₁.disk.SettledRow ⟨"out"⟩ b [.plain "a"] j := by
    intro j hj y hy
    rw [Nat.lt_one_iff.1 hj, List.mem_singleton.1 hy]
    exact ⟨_, hover, decide_eq_false (UInt64.not_lt.2 hb)⟩
  have hnext₁ : w₁.disk.NextRow ⟨"out"⟩ b [.plain "a"] 1 :=
    Disk.nextRow_of_blank (List.cons_ne_nil _ _) hsettled (Disk.blank_singleton hblank₁)
  have h₂ := h₁.sweep b apart_plain hnext₁ ⟨_, hblank₁, rfl⟩ fun _ => some measured
  have hfollow : (World.fresh .emptyOut).follow ⟨"out"⟩ (overrunThenMeasure s b)
      = (((Runner.telling fun _ => some measured).sweep ⟨"out"⟩ b [.plain "a"]).perform w₁).2 := by
    rw [← hw₁]
    rfl
  rw [hfollow]
  exact h₂

/-- If the third budget reopens row 0, then the row ends blank, below a trial that
    is done. -/
theorem follow_reopening (hb : b ≤ RunRecord.heldSeconds s) (hc : RunRecord.heldSeconds s < c) :
    ((World.fresh .emptyOut).follow ⟨"out"⟩ (reopening s b c)).disk.Blank ⟨"out"⟩ [.plain "a"] 0 ∧
      ∃ t m, ((World.fresh .emptyOut).follow ⟨"out"⟩ (reopening s b c)).disk.status (.plain "a")
        (log ⟨"out"⟩ "a" 1) = .ok (.done t m) := by
  have hfollow : (World.fresh .emptyOut).follow ⟨"out"⟩ (reopening s b c)
      = (((Runner.telling fun _ => some .empty).sweep ⟨"out"⟩ c [.plain "a"]).perform
        ((World.fresh .emptyOut).follow ⟨"out"⟩ (overrunThenMeasure s b))).2 :=
    World.follow_append _ _ _ _
  have h₂ := holds_overrunThenMeasure hb
  rw [hfollow]
  generalize (World.fresh .emptyOut).follow ⟨"out"⟩ (overrunThenMeasure s b) = w₂ at h₂
  have hw : ∀ i ≤ 2, Writable ⟨"out"⟩ (.plain "a") i := fun _ => writable_plain
  obtain ⟨t, m, hproof⟩ := proof?_measured "a"
  have hdone : recordOf (.plain "a") b (some measured) = .done t m := by
    rw [recordOf, hproof]
    rfl
  have hnothing : recordOf (.plain "a") c (some .empty) = .notDone := rfl
  have hover : w₂.disk.status (.plain "a") (log ⟨"out"⟩ "a" 0) = .ok (.timeout s) :=
    h₂.status_left slash_notMem_plain (hw 0 (by omega)) s none rfl
  have hdone₂ := h₂.status_left slash_notMem_plain (hw 1 (by omega)) b (some measured) rfl
  have hblank := h₂.status_bare slash_notMem_plain (hw 2 (by omega)) rfl
  rw [hdone] at hdone₂
  have hpending : w₂.disk.Pending ⟨"out"⟩ c (.plain "a") 0 := ⟨_, hover, decide_eq_true hc⟩
  -- At the third budget row 0 is open again, below the record in row 1.
  have hnext : w₂.disk.NextRow ⟨"out"⟩ c [.plain "a"] 0 := by
    refine ⟨2, fun j hj => ?_, Disk.blank_singleton hblank, Nat.zero_le 2,
      fun j hj => absurd hj (Nat.not_lt_zero j), fun _ => ?_⟩
    · have hj' : j = 0 ∨ j = 1 := by omega
      rcases hj' with rfl | rfl
      · exact Disk.recorded_singleton hover fun heq => by cases heq
      · exact Disk.recorded_singleton hdone₂ fun heq => by cases heq
    · exact ⟨_, List.mem_cons_self, hpending⟩
  -- The marker goes before the tool is launched, and the tool leaves nothing.
  have h₃ := h₂.sweep c apart_plain hnext hpending fun _ => some .empty
  refine ⟨Disk.blank_singleton ?_, t, m, ?_⟩
  · rw [← hnothing]
    exact h₃.status_left slash_notMem_plain (hw 0 (by omega)) c (some .empty) rfl
  · rw [← hdone]
    exact h₃.status_left slash_notMem_plain (hw 1 (by omega)) b (some measured) rfl

theorem sessions_reopening (hs : s ∈ before ++ [b]) (hc : c ∈ after) :
    Sessions [.plain "a"] (before ++ b :: after) (reopening s b c) := by
  have hof : ∀ f budget, Call.OfSession budget [.plain "a"]
      (.sweep (.telling f) budget [.plain "a"]) :=
    fun f budget => .sweep (Host.quiet_telling f) (List.Perm.refl _)
  have hsessions := (Sessions.pair hs (hof (fun _ => none) s) (hof (fun _ => some measured) b)).append
    (Sessions.single (hof (fun _ => some .empty) c) hc)
  rw [List.append_assoc] at hsessions
  exact hsessions

/-- **Steady sessions lose nothing, and no others.**  Whatever tools and operators
    do in sessions that begin in an empty directory, a scan reports all that is
    recorded in every state, exactly if the budgets are steady. -/
theorem reports_all_iff_steady (bs : List UInt64) :
    Steady bs ↔ ∀ (outdir : Path) (xs : List Descriptor) (start : Disk) (calls : List Call),
      Apart xs → start.Vacant outdir → Sessions xs bs calls →
        ∀ d ∈ ((World.fresh start).follow outdir calls).disks, d.ReportsAll outdir xs := by
  constructor
  · intro hsteady outdir xs start calls hxs hstart hsessions d hd
    have hempty : start.Dense outdir xs (· ∈ ([] : List UInt64)) (fun _ => True) 0 := hstart.dense
    have hsteady' : Steady ([] ++ bs) := hsteady
    obtain ⟨later, hlater, hall⟩ := hsessions.reportsAll (w := World.fresh start) hxs hsteady'
      ⟨0, hstart.dense⟩
    rw [hlater, List.mem_append] at hd
    rcases hd with hd | hd
    · exact hall d hd
    · rw [List.mem_singleton.1 hd]
      exact hempty.reportsAll (b := 0) hxs trivial
  · rintro hreports before b after rfl s hs hb c hc
    -- A larger budget later on would reopen the row.
    refine UInt64.not_lt.1 fun hlt => ?_
    obtain ⟨hblank, t, m, hdone⟩ := follow_reopening hb hlt
    have hreport := hreports ⟨"out"⟩ [.plain "a"] .emptyOut (reopening s b c) apart_plain
      Disk.vacant_emptyOut (sessions_reopening hs hc) _ List.mem_cons_self
    have hstop := hreport.before_stop 0 _ (Disk.scan_of_first_blank hblank) _ List.mem_cons_self 1 _
      hdone nofun
    rw [Disk.iterations_progress] at hstop
    exact Nat.not_lt_zero 1 hstop

/-- A larger budget hides a completed run from the scan. -/
theorem larger_budget_hides_results :
    Apart [.plain "a"] ∧ Disk.emptyOut.Vacant ⟨"out"⟩ ∧
    Sessions [.plain "a"] [1, 2] (reopening 1 1 2) ∧
    ∃ d, d ∈ ((World.fresh .emptyOut).follow ⟨"out"⟩ (reopening 1 1 2)).disks ∧
      ∃ t m, d.status (.plain "a") (log ⟨"out"⟩ "a" 1) = .ok (.done t m) ∧
      ∃ p, d.scan ⟨"out"⟩ 2 [.plain "a"] = .ok p ∧ p.iterations = 0 ∧ ("a", m) ∉ p.results := by
  have hheld : RunRecord.heldSeconds 1 = 1 := RunRecord.heldSeconds_of_le (by decide)
  obtain ⟨hblank, t, m, hdone⟩ := follow_reopening (s := 1) (b := 1) (c := 2)
    (by rw [hheld]; decide) (by rw [hheld]; decide)
  refine ⟨apart_plain, Disk.vacant_emptyOut, ?_, _, List.mem_cons_self, t, m, hdone, _,
    Disk.scan_of_first_blank hblank, Disk.iterations_progress, List.not_mem_nil⟩
  have hs : (1 : UInt64) ∈ [] ++ [1] := List.mem_cons_self
  exact sessions_reopening hs List.mem_cons_self

end BenchSweep
