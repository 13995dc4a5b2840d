import BenchSweep.Log.Format
import BenchSweep.Proofs.Log.Places

/-! # What a Log Tells

    A measurement is usable if its pattern stands at exactly one position of the log
    and what it captures there is, without commas, a plain numeral.  A log is
    accepted if its time is usable, and it tells the metrics that are. -/

namespace BenchSweep

/-! ## Section 1: Usable measurements -/

namespace Log

/-- A number without the commas between its groups. -/
def ungrouped (run : List Char) : List Char :=
  run.filter (· ≠ ',')

/-- The double that a run of digits, commas and points denotes. -/
def valueOf (run : List Char) : Float :=
  (Decimal.Numeral.ofPlain (ungrouped run)).value

/-- The run is the only report of the measurement, well-formed or not. -/
def Measure.OnlyReport (m : Measure) (log run : List Char) : Prop :=
  ∃ i captured, StandsOnlyAt m.pattern log i captured ∧ captured[m.group]? = some run

/-- The measurement is reported exactly once, with this value. -/
def Measure.Tells (m : Measure) (log : List Char) (v : Float) : Prop :=
  ∃ run, m.OnlyReport log run ∧ Decimal.IsPlain (ungrouped run) ∧ v = valueOf run

/-- The measurement is reported exactly once, as a number. -/
def Measure.IsUsable (m : Measure) (log : List Char) : Prop :=
  ∃ run, m.OnlyReport log run ∧ Decimal.IsPlain (ungrouped run)

variable {m : Measure} {log run : List Char} {v : Float}

theorem Measure.isUsable_iff : m.IsUsable log ↔ ∃ v, m.Tells log v := by
  constructor
  · rintro ⟨run, honly, hplain⟩
    exact ⟨_, run, honly, hplain, rfl⟩
  · rintro ⟨v, run, honly, hplain, -⟩
    exact ⟨run, honly, hplain⟩

/-- The digits of other scripts lie beyond the ASCII letters. -/
theorem isDecimalDigit_range {c : Char} (h : Text.isDecimalDigit c = true) :
    48 ≤ c.toNat ∧ (c.toNat ≤ 57 ∨ 123 ≤ c.toNat) := by
  have hranges : ∀ r ∈ Text.digitRanges, 48 ≤ r.1 ∧ (r.2 ≤ 57 ∨ 123 ≤ r.1) := by decide
  obtain ⟨r, hr, hc⟩ := List.any_eq_true.1 h
  have hrange := hranges r hr
  simp only [Bool.and_eq_true, decide_eq_true_eq] at hc
  omega

theorem isAlpha_range {c : Char} (h : c.isAlpha = true) :
    65 ≤ c.toNat ∧ c.toNat ≤ 90 ∨ 97 ≤ c.toNat ∧ c.toNat ≤ 122 := by
  rcases Bool.or_eq_true_iff.1 h with hupper | hlower
  · have hrange : 65 ≤ c.val ∧ c.val ≤ 90 := of_decide_eq_true hupper
    exact .inl ⟨UInt32.le_iff_toNat_le.1 hrange.1, UInt32.le_iff_toNat_le.1 hrange.2⟩
  · obtain ⟨hlow, hhigh⟩ := Bool.and_eq_true_iff.1 hlower
    exact .inr ⟨UInt32.le_iff_toNat_le.1 (of_decide_eq_true hlow),
      UInt32.le_iff_toNat_le.1 (of_decide_eq_true hhigh)⟩

/-- What a number is made of, commas aside, is neither a letter nor a sign. -/
theorem isBare_of_isNumberChar {c : Char} (h : isNumberChar true c = true) (hcomma : c ≠ ',') :
    Decimal.IsBare c := by
  have hc : Text.isDecimalDigit c = true ∨ c = '.' := by
    simpa [isNumberChar, hcomma] using h
  rcases hc with hc | rfl
  · have hrange := isDecimalDigit_range hc
    refine ⟨?_, ?_, ?_⟩
    · rw [Bool.eq_false_iff]
      intro halpha
      have hletter := isAlpha_range halpha
      omega
    · rintro rfl
      exact absurd hrange (by decide)
    · rintro rfl
      exact absurd hrange (by decide)
  · exact ⟨by decide, by decide, by decide⟩

/-- Reading a measurement finds its value if the log tells one. -/
theorem Measure.value?_eq_some_iff {c : Char} (hmark : Pattern.isMarkedBy c m.pattern = true) :
    m.value? log = some v ↔ m.Tells log v := by
  have hbare : ∀ i captured, StandsAt m.pattern log i captured → ∀ run ∈ captured,
      ∀ c ∈ ungrouped run, Decimal.IsBare c := by
    rintro i captured ⟨rest, h⟩ run hrun c hc
    obtain ⟨hc, hcomma⟩ := List.mem_filter.1 hc
    exact isBare_of_isNumberChar (h.isNumberChar hrun c hc) (of_decide_eq_true hcomma)
  constructor
  · intro h
    unfold Measure.value? at h
    split at h
    · rename_i captured hone
      obtain ⟨i, hi⟩ := (occurrences_eq_singleton_iff hmark).1 hone
      obtain ⟨run, hrun, hread⟩ := Option.bind_eq_some_iff.1 h
      obtain ⟨hplain, rfl⟩ := (Decimal.readNumber_eq_some_iff
        (hbare i captured hi.here run (List.mem_of_getElem? hrun))).1 hread
      exact ⟨run, ⟨i, captured, hi, hrun⟩, hplain, rfl⟩
    · cases h
  · rintro ⟨run, ⟨i, captured, hi, hrun⟩, hplain, rfl⟩
    have hone := (occurrences_eq_singleton_iff hmark).2 ⟨i, hi⟩
    have hread := (Decimal.readNumber_eq_some_iff (v := valueOf run)
      (hbare i captured hi.here run (List.mem_of_getElem? hrun))).2 ⟨hplain, rfl⟩
    simp only [Measure.value?, hone, hrun, Option.bind_some]
    exact hread

end Log

/-! ## Section 2: What a format tells -/

namespace LogFormat

open Log

/-- The report of the quotient phase. -/
def quotientTime : Measure :=
  .after "Time for computing the quotient of the transition relation: " true

/-- The metrics with two wordings: the one of newer tools, and the older one. -/
def reworded : List (String × Measure × Measure) :=
  [("tsig", .after "Time for signature computation: " true,
      .after "Time needed for signature computation: " true),
    ("tref", .after "Time for partition refinement: " true,
      .after "Time needed for partition refinement: " true)]

/-- The metrics with one wording. -/
def worded : List (String × Measure) :=
  [("tquot", quotientTime),
    ("newmarkov", .nodes "New Markov transition relation: "),
    ("newtrans", .nodes "New interactive transition relation: ")]

/-- What a log of a format tells. -/
inductive Tells (log : List Char) : LogFormat → String → Float → Prop where
  /-- Every format tells the total time. -/
  | time {f v} : f.time.Tells log v → Tells log f timeKey v
  /-- The multi-core tool tells more. -/
  | worded {f key m v} : f = mc ∨ f = mcQuotient → (key, m) ∈ worded →
      m.Tells log v → Tells log f key v
  | newer {f key new old v} : f = mc ∨ f = mcQuotient → (key, new, old) ∈ reworded →
      new.Tells log v → Tells log f key v
  /-- The older wording counts where the newer one is not usable. -/
  | older {f key new old v} : f = mc ∨ f = mcQuotient → (key, new, old) ∈ reworded →
      ¬ new.IsUsable log → old.Tells log v → Tells log f key v

/-- The log proves a completed run. -/
def Completed (f : LogFormat) (log : List Char) : Prop :=
  f.time.IsUsable log ∧ (f = mcQuotient → quotientTime.IsUsable log)

variable {f : LogFormat} {log : List Char} {m : Metrics} {key : String} {v : Float}

theorem isMarked_time (f : LogFormat) : Pattern.isMarkedBy 'T' f.time.pattern = true := by
  cases f <;> decide +kernel

theorem find?_addDetail (d : String × Measure) :
    (addDetail log m d).find? key =
      ((if d.1 = key then d.2.value? log else none).or (m.find? key)) := by
  unfold addDetail
  by_cases hkey : d.1 = key
  · cases d.2.value? log with
    | none => simp [hkey]
    | some v => simp [hkey]
  · cases d.2.value? log with
    | none => simp [hkey]
    | some v => simp [hkey, Ne.symm hkey]

/-- The value that a format reads for a metric: that of its last report that can be
    read. -/
def metric? (f : LogFormat) (log : List Char) (key : String) : Option Float :=
  (f.details.reverse.findSome? fun d => if d.1 = key then d.2.value? log else none).or
    (if timeKey = key then f.time.value? log else none)

theorem find?_foldl_addDetail (details : List (String × Measure)) :
    (details.foldl (addDetail log) m).find? key =
      (details.reverse.findSome? fun d => if d.1 = key then d.2.value? log else none).or
        (m.find? key) := by
  -- Later details override earlier ones, and all of them the metrics at the start.
  induction details generalizing m with
  | nil => rfl
  | cons d details ih =>
    rw [List.foldl_cons, ih, find?_addDetail, List.reverse_cons, List.findSome?_append,
      Option.or_assoc]
    congr 2
    simp

/-- What is read of a log whose time is read. -/
theorem find?_details {t : Float} (ht : f.time.value? log = some t) :
    (f.details.foldl (addDetail log) (Keyed.insert [] timeKey t)).find? key =
      f.metric? log key := by
  rw [find?_foldl_addDetail, metric?, ht]
  congr 1
  by_cases hkey : timeKey = key
  · simp [hkey]
  · simp [hkey, Ne.symm hkey]

theorem read_eq_some_iff :
    f.read log = some m ↔ ∃ t, f.time.value? log = some t ∧
      f.details.foldl (addDetail log) (Keyed.insert [] timeKey t) = m ∧ f.isComplete m = true := by
  unfold read
  cases f.time.value? log with
  | none => simp
  | some t =>
    dsimp only
    constructor
    · intro h
      split at h
      · cases h
        exact ⟨t, rfl, rfl, ‹_›⟩
      · cases h
    · rintro ⟨t', ht, rfl, hcomplete⟩
      cases ht
      rw [if_pos hcomplete]

theorem findSome?_cons_or {α β : Type} (g : α → Option β) (a : α) (l : List α) :
    (a :: l).findSome? g = (g a).or (l.findSome? g) := by
  rw [List.findSome?_cons]
  cases g a <;> rfl

theorem metric?_time (f : LogFormat) : f.metric? log timeKey = f.time.value? log := by
  cases f <;> rfl

section MultiCore

variable (hf : f = mc ∨ f = mcQuotient)

include hf

theorem metric?_worded {measure : Measure} (h : (key, measure) ∈ worded) :
    f.metric? log key = measure.value? log := by
  simp only [worded, List.mem_cons, List.not_mem_nil, or_false, Prod.mk.injEq] at h
  rcases hf with rfl | rfl <;> rcases h with ⟨rfl, rfl⟩ | ⟨rfl, rfl⟩ | ⟨rfl, rfl⟩ <;>
    simp [metric?, details, findSome?_cons_or, timeKey, quotientTime]

theorem metric?_reworded {new old : Measure} (h : (key, new, old) ∈ reworded) :
    f.metric? log key = (new.value? log).or (old.value? log) := by
  simp only [reworded, List.mem_cons, List.not_mem_nil, or_false, Prod.mk.injEq] at h
  rcases hf with rfl | rfl <;> rcases h with ⟨rfl, rfl, rfl⟩ | ⟨rfl, rfl, rfl⟩ <;>
    simp [metric?, details, findSome?_cons_or, timeKey]

end MultiCore

/-- Only the multi-core tool has details, each with one wording or two. -/
theorem keys_details : ∀ d ∈ f.details, (f = mc ∨ f = mcQuotient) ∧
    (d.1 ∈ worded.map Prod.fst ∨ d.1 ∈ reworded.map Prod.fst) := by
  cases f <;> decide

theorem value?_worded {measure : Measure} (h : (key, measure) ∈ worded) :
    measure.value? log = some v ↔ measure.Tells log v := by
  have hmark : ∀ d ∈ worded, Pattern.isMarkedBy 'T' d.2.pattern = true ∨
      Pattern.isMarkedBy 'N' d.2.pattern = true := by decide +kernel
  rcases hmark _ h with hmark | hmark
  · exact Measure.value?_eq_some_iff hmark
  · exact Measure.value?_eq_some_iff hmark

theorem value?_reworded {new old : Measure} (h : (key, new, old) ∈ reworded) :
    (new.value? log).or (old.value? log) = some v ↔
      new.Tells log v ∨ ¬ new.IsUsable log ∧ old.Tells log v := by
  have hmark : ∀ d ∈ reworded, Pattern.isMarkedBy 'T' d.2.1.pattern = true ∧
      Pattern.isMarkedBy 'T' d.2.2.pattern = true := by decide +kernel
  obtain ⟨hnew, hold⟩ := hmark _ h
  rw [Option.or_eq_some_iff, Measure.value?_eq_some_iff hnew, Measure.value?_eq_some_iff hold,
    Option.eq_none_iff_forall_ne_some, Measure.isUsable_iff, not_exists]
  simp only [ne_eq, Measure.value?_eq_some_iff hnew]

theorem value?_time : f.time.value? log = some v ↔ f.time.Tells log v :=
  Measure.value?_eq_some_iff (isMarked_time f)

/-- Exactly what the log tells is read. -/
theorem metric?_eq_some_iff : f.metric? log key = some v ↔ f.Tells log key v := by
  constructor
  · intro h
    by_cases hkey : timeKey = key
    · subst hkey
      rw [metric?_time] at h
      exact .time (value?_time.1 h)
    · have hdetail : ∃ d ∈ f.details, d.1 = key := by
        rw [metric?, if_neg hkey, Option.or_none] at h
        obtain ⟨d, hd, hvalue⟩ := List.exists_of_findSome?_eq_some h
        refine ⟨d, List.mem_reverse.1 hd, ?_⟩
        by_contra hne
        rw [if_neg hne] at hvalue
        cases hvalue
      obtain ⟨d, hd, rfl⟩ := hdetail
      obtain ⟨hf, hwording⟩ := keys_details d hd
      -- The key decides which wordings are read for it.
      rcases hwording with hwording | hwording
      · obtain ⟨⟨key, measure⟩, hmem, heq⟩ := List.mem_map.1 hwording
        rw [← heq] at h ⊢
        rw [metric?_worded hf hmem] at h
        exact .worded hf hmem ((value?_worded hmem).1 h)
      · obtain ⟨⟨key, new, old⟩, hmem, heq⟩ := List.mem_map.1 hwording
        rw [← heq] at h ⊢
        rw [metric?_reworded hf hmem] at h
        rcases (value?_reworded hmem).1 h with hnew | ⟨hnone, hold⟩
        · exact .newer hf hmem hnew
        · exact .older hf hmem hnone hold
  · intro h
    cases h with
    | time h =>
      rw [metric?_time]
      exact value?_time.2 h
    | worded hf hmem h =>
      rw [metric?_worded hf hmem]
      exact (value?_worded hmem).2 h
    | newer hf hmem h =>
      rw [metric?_reworded hf hmem]
      exact (value?_reworded hmem).2 (.inl h)
    | older hf hmem hnone h =>
      rw [metric?_reworded hf hmem]
      exact (value?_reworded hmem).2 (.inr ⟨hnone, h⟩)

/-- A log whose time is read is complete unless it lacks a quotient time that its
    format asks for. -/
theorem isComplete_details {t : Float} (ht : f.time.value? log = some t) :
    f.isComplete (f.details.foldl (addDetail log) (Keyed.insert [] timeKey t)) = true ↔
      (f = mcQuotient → quotientTime.IsUsable log) := by
  cases f with
  | mcQuotient =>
    have hmem : ("tquot", quotientTime) ∈ worded := List.mem_cons_self
    rw [isComplete, Keyed.contains, find?_details ht, metric?_worded (.inr rfl) hmem,
      Option.isSome_iff_exists, Measure.isUsable_iff]
    simp only [value?_worded hmem, forall_const]
  | mc => simp [isComplete]
  | rw => simp [isComplete]
  | gmp => simp [isComplete]

/-- A log is accepted if it proves a completed run. -/
theorem exists_read_iff : (∃ m, f.read log = some m) ↔ f.Completed log := by
  constructor
  · rintro ⟨m, hm⟩
    obtain ⟨t, ht, rfl, hcomplete⟩ := read_eq_some_iff.1 hm
    exact ⟨Measure.isUsable_iff.2 ⟨t, value?_time.1 ht⟩, (isComplete_details ht).1 hcomplete⟩
  · rintro ⟨htime, hquotient⟩
    obtain ⟨t, ht⟩ := Measure.isUsable_iff.1 htime
    have ht' := value?_time.2 ht
    exact ⟨_, read_eq_some_iff.2 ⟨t, ht', rfl, (isComplete_details ht').2 hquotient⟩⟩

/-- Of an accepted log the metrics that it tells are read. -/
theorem find?_read (h : f.read log = some m) : m.find? key = some v ↔ f.Tells log key v := by
  obtain ⟨t, ht, rfl, -⟩ := read_eq_some_iff.1 h
  rw [find?_details ht, metric?_eq_some_iff]

/-- **A log tells its metrics.**  It is accepted exactly if its time is usable, and for
    the format that asks for it the quotient time as well; and exactly the metrics that
    an accepted log tells are read, with their values. -/
theorem log_grammar (f : LogFormat) (log : String) :
    ((f.readText log).isSome = true ↔ f.Completed log.toList) ∧
      ∀ key v, (∃ m, f.readText log = some m ∧ m.find? key = some v) ↔
        f.Completed log.toList ∧ f.Tells log.toList key v := by
  refine ⟨Option.isSome_iff_exists.trans exists_read_iff, fun key v => ?_⟩
  constructor
  · rintro ⟨m, hm, hv⟩
    exact ⟨exists_read_iff.1 ⟨m, hm⟩, (find?_read hm).1 hv⟩
  · rintro ⟨hcompleted, hv⟩
    obtain ⟨m, hm⟩ := exists_read_iff.2 hcompleted
    exact ⟨m, hm, (find?_read hm).2 hv⟩

/-- A number in the digits of another script is a report, but no usable one. -/
example : gmp.readText "Time for refinement: \u0663" = none := by
  decide +kernel

/-! ## Section 3: Two runs in one log -/

/-- A log in which the time is reported at two positions is not accepted. -/
theorem read_of_standsAt_ne {i j : Nat} {captured other : List (List Char)}
    (hi : StandsAt f.time.pattern log i captured) (hj : StandsAt f.time.pattern log j other)
    (hne : i ≠ j) : f.read log = none := by
  rw [Option.eq_none_iff_forall_ne_some]
  intro m hm
  obtain ⟨⟨run, ⟨k, captured', honly, -⟩, -⟩, -⟩ := exists_read_iff.1 ⟨m, hm⟩
  exact hne ((honly.only i captured hi).trans (honly.only j other hj).symm)

/-- **Two runs in one log are never taken for one.**  Whatever stands between two
    accepted logs, and whatever comes about where they join, the whole is not accepted. -/
theorem two_runs_rejected {a b : String} (between : String) (ha : (f.readText a).isSome = true)
    (hb : (f.readText b).isSome = true) : f.readText (a ++ between ++ b) = none := by
  obtain ⟨⟨_, ⟨i, _, hi, -⟩, -⟩, -⟩ := exists_read_iff.1 (Option.isSome_iff_exists.1 ha)
  obtain ⟨⟨_, ⟨j, _, hj, -⟩, -⟩, -⟩ := exists_read_iff.1 (Option.isSome_iff_exists.1 hb)
  have hlt : i < a.toList.length := hi.here.lt_length (isMarked_time f)
  -- The first report may get longer at the joint, but it stays where it is.
  obtain ⟨_, hi'⟩ := hi.here.append (Nat.le_of_lt hlt) (between.toList ++ b.toList)
  have hj' := hj.here.prepend (a.toList ++ between.toList)
  rw [List.append_assoc] at hj'
  rw [readText, String.toList_append, String.toList_append, List.append_assoc]
  refine read_of_standsAt_ne hi' hj' ?_
  rw [List.length_append]
  omega

/-- The first number goes on into the second log, and the second stands behind a line
    break. -/
theorem two_runs_rejected_joined :
    (rw.readText "Time for computing the bisimulation relation = 1").isSome = true ∧
      (rw.readText "5\nTime for computing the bisimulation relation =\n2").isSome = true ∧
      rw.readText ("Time for computing the bisimulation relation = 1" ++ "" ++
        "5\nTime for computing the bisimulation relation =\n2") = none := by
  have hfirst : (rw.readText "Time for computing the bisimulation relation = 1").isSome = true := by
    decide +kernel
  have hsecond :
      (rw.readText "5\nTime for computing the bisimulation relation =\n2").isSome = true := by
    decide +kernel
  exact ⟨hfirst, hsecond, two_runs_rejected "" hfirst hsecond⟩

end LogFormat

end BenchSweep
