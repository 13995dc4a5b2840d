import BenchSweep.Proofs.Decimal.Written
import BenchSweep.Proofs.Log.Grammar

/-! # Thousands Separators

    A tool may group the digits of a number by commas.  The formats of the
    multi-core tool read such numbers whole; the other two stop at the first comma
    and take the leading group for the time. -/

namespace BenchSweep

/-! ## Section 1: Grouped numbers -/

/-- Digits, at least one. -/
structure Digits where
  chars : List Char
  ne_nil : chars ≠ []
  all : ∀ c ∈ chars, c.isDigit = true

def Digits.ofChars (chars : List Char) (h : chars ≠ [] ∧ chars.all Char.isDigit = true) : Digits :=
  ⟨chars, h.1, List.all_eq_true.1 h.2⟩

/-- A number with commas between groups of digits, and with or without a fraction. -/
structure GroupedNumber where
  lead : Digits
  groups : List Digits
  fraction : Option Digits

/-- The value of digits. -/
def Digits.value (ds : Digits) : Float :=
  Decimal.Numeral.value ⟨ds.chars, 0, 0⟩

namespace GroupedNumber

/-- The number as it is written. -/
def text (x : GroupedNumber) : List Char :=
  x.lead.chars ++ x.groups.flatMap (fun g => ',' :: g.chars) ++
    x.fraction.elim [] fun ds => '.' :: ds.chars

/-- The digits behind the point. -/
def places (x : GroupedNumber) : List Char :=
  x.fraction.elim [] Digits.chars

/-- The digits before the point. -/
def whole (x : GroupedNumber) : List Char :=
  x.lead.chars ++ x.groups.flatMap Digits.chars

/-- The value of the number, which the commas do not change. -/
def value (x : GroupedNumber) : Float :=
  Decimal.Numeral.value ⟨x.whole ++ x.places, x.places.length, 0⟩

variable {x : GroupedNumber} {c : Char}

theorem isDigit_whole (hc : c ∈ x.whole) : c.isDigit = true := by
  rcases List.mem_append.1 hc with hc | hc
  · exact x.lead.all c hc
  · obtain ⟨g, -, hc⟩ := List.mem_flatMap.1 hc
    exact g.all c hc

theorem whole_ne_nil (x : GroupedNumber) : x.whole ≠ [] := fun h =>
  x.lead.ne_nil (List.append_eq_nil_iff.1 h).1

/-- What a grouped number is written with. -/
theorem mem_text (hc : c ∈ x.text) : c.isDigit = true ∨ c = '.' ∨ c = ',' ∧ x.groups ≠ [] := by
  rw [text, List.mem_append, List.mem_append] at hc
  rcases hc with (hc | hc) | hc
  · exact .inl (x.lead.all c hc)
  · obtain ⟨g, hg, hc⟩ := List.mem_flatMap.1 hc
    rcases List.mem_cons.1 hc with rfl | hc
    · exact .inr (.inr ⟨rfl, List.ne_nil_of_mem hg⟩)
    · exact .inl (g.all c hc)
  · cases hfraction : x.fraction with
    | none =>
      rw [hfraction] at hc
      cases hc
    | some ds =>
      rw [hfraction] at hc
      rcases List.mem_cons.1 hc with rfl | hc
      · exact .inr (.inl rfl)
      · exact .inl (ds.all c hc)

/-- Without the commas the number has its digits, and the fraction behind a point. -/
theorem ungrouped_text (x : GroupedNumber) :
    Log.ungrouped x.text = x.whole ++ x.fraction.elim [] fun ds => '.' :: ds.chars := by
  have hdigits : ∀ ds : Digits, Log.ungrouped ds.chars = ds.chars := by
    intro ds
    refine List.filter_eq_self.2 fun c hc => decide_eq_true ?_
    rintro rfl
    exact absurd (ds.all ',' hc) (by decide)
  have hgroups : ∀ groups : List Digits,
      Log.ungrouped (groups.flatMap fun g => ',' :: g.chars) = groups.flatMap Digits.chars := by
    intro groups
    induction groups with
    | nil => rfl
    | cons g groups ih =>
      rw [List.flatMap_cons, List.flatMap_cons, ← ih, ← hdigits g]
      simp [Log.ungrouped]
  have hfraction : Log.ungrouped (x.fraction.elim [] fun ds => '.' :: ds.chars) =
      x.fraction.elim [] fun ds => '.' :: ds.chars := by
    cases x.fraction with
    | none => rfl
    | some ds => exact congrArg (List.cons '.') (hdigits ds)
  rw [text, Log.ungrouped, List.filter_append, List.filter_append]
  exact congrArg₂ _ (congrArg₂ _ (hdigits x.lead) (hgroups x.groups)) hfraction

/-- Without the commas the number is a plain numeral. -/
theorem isPlain_text (x : GroupedNumber) : Decimal.IsPlain (Log.ungrouped x.text) := by
  rw [ungrouped_text]
  cases x.fraction with
  | none =>
    rw [Option.elim_none, List.append_nil, Decimal.isPlain_digits fun _ => isDigit_whole]
    exact x.whole_ne_nil
  | some ds =>
    rw [Option.elim_some, Decimal.isPlain_point fun _ => isDigit_whole]
    exact ⟨ds.all, fun h => x.whole_ne_nil (List.append_eq_nil_iff.1 h).1⟩

theorem valueOf_text (x : GroupedNumber) : Log.valueOf x.text = x.value := by
  rw [Log.valueOf, value, places, ungrouped_text]
  cases x.fraction with
  | none =>
    rw [Option.elim_none, Option.elim_none, List.append_nil,
      Decimal.ofPlain_digits fun _ => isDigit_whole]
    rfl
  | some ds =>
    rw [Option.elim_some, Option.elim_some,
      Decimal.ofPlain_point (fun _ => isDigit_whole) ds.all]

/-- The number where commas are read, and what stands before its first comma where they
    are not. -/
def seen (commas : Bool) (x : GroupedNumber) : GroupedNumber :=
  if commas = true ∨ x.groups = [] then x else ⟨x.lead, [], none⟩

theorem value_lead (ds : Digits) : value ⟨ds, [], none⟩ = ds.value := by
  simp [value, whole, places, Digits.value]

theorem isNumberChar_text {commas : Bool} (h : commas = true ∨ x.groups = []) (hc : c ∈ x.text) :
    Log.isNumberChar commas c = true := by
  rcases mem_text hc with hdigit | rfl | ⟨rfl, hgroups⟩
  · simp [Log.isNumberChar, Text.isDecimalDigit_of_isDigit hdigit]
  · simp [Log.isNumberChar]
  · simp [Log.isNumberChar, h.resolve_right hgroups]

/-- Where the number stands, what is seen of it is the longest run. -/
theorem exists_isSpan_seen (commas : Bool) {after : List Char}
    (hafter : ∀ c ∈ after.head?, Log.isNumberChar true c = false) :
    ∃ rest, x.text ++ after = (x.seen commas).text ++ rest ∧
      Text.IsSpan (Log.isNumberChar commas) (x.seen commas).text rest := by
  unfold seen
  by_cases h : commas = true ∨ x.groups = []
  · rw [if_pos h]
    refine ⟨after, rfl, fun c hc => isNumberChar_text h hc, fun c hc => ?_⟩
    have hnot := hafter c hc
    simp only [Log.isNumberChar, Bool.or_eq_false_iff, Bool.true_and] at hnot ⊢
    exact ⟨hnot.1, by rw [hnot.2, Bool.and_false]⟩
  · -- The run ends in front of the first comma.
    obtain ⟨hcommas, hgroups⟩ := not_or.1 h
    have hcommas : commas = false := Bool.eq_false_iff.2 hcommas
    obtain ⟨g, groups, hcons⟩ := List.exists_cons_of_ne_nil hgroups
    rw [if_neg h]
    refine ⟨',' :: (g.chars ++ (groups.flatMap (fun g => ',' :: g.chars) ++
      (x.fraction.elim [] (fun ds => '.' :: ds.chars) ++ after))), ?_, ?_, ?_⟩
    · simp [text, hcons]
    · intro c hc
      exact isNumberChar_text (.inr rfl) hc
    · rintro c ⟨⟩
      rw [hcommas]
      decide

theorem text_ne_nil (x : GroupedNumber) : x.text ≠ [] := fun h =>
  x.lead.ne_nil (List.append_eq_nil_iff.1 (List.append_eq_nil_iff.1 h).1).1

end GroupedNumber

/-! ## Section 2: Reports -/

namespace Log

variable {m : Measure} {log : List Char} {x : GroupedNumber} {commas : Bool} {i : Nat}

/-- The pattern stands at exactly one place of the log, and there the number stands for its
    run: neither a digit nor a point nor a comma follows it. -/
def Measure.ReportsOnce (m : Measure) (log : List Char) (x : GroupedNumber) : Prop :=
  ∃ i after, Stands m.pattern.dropLast (log.drop i) [] (x.text ++ after) ∧
    (∀ c ∈ after.head?, isNumberChar true c = false) ∧
    ∀ j captured, StandsAt m.pattern log j captured → j = i

/-- The measurement is the run at the end of its pattern. -/
structure Measure.EndsInRun (m : Measure) (commas : Bool) : Prop where
  pattern : m.pattern = m.pattern.dropLast ++ [.run commas]
  group : m.group = 0

/-- Behind the pattern without its run, what is seen of the number is captured. -/
theorem Measure.EndsInRun.standsAt (hend : m.EndsInRun commas) {after : List Char}
    (hlead : Stands m.pattern.dropLast (log.drop i) [] (x.text ++ after))
    (hafter : ∀ c ∈ after.head?, isNumberChar true c = false) :
    StandsAt m.pattern log i [(x.seen commas).text] := by
  obtain ⟨rest, heq, hspan⟩ := GroupedNumber.exists_isSpan_seen (x := x) commas hafter
  rw [heq] at hlead
  refine ⟨rest, ?_⟩
  rw [hend.pattern]
  exact hlead.followedBy (.run (GroupedNumber.text_ne_nil _) hspan .done)

/-- A number that is reported once is told, as far as it is seen. -/
theorem Measure.ReportsOnce.tells (h : m.ReportsOnce log x) (hend : m.EndsInRun commas) :
    m.Tells log (x.seen commas).value := by
  obtain ⟨i, after, hlead, hafter, honly⟩ := h
  have hstands := hend.standsAt hlead hafter
  refine ⟨(x.seen commas).text, ⟨i, _, ⟨hstands, honly⟩, ?_⟩, GroupedNumber.isPlain_text _,
    (GroupedNumber.valueOf_text _).symm⟩
  rw [hend.group]
  rfl

/-- A report is the only one if the search finds no other. -/
theorem Measure.EndsInRun.reportsOnce {m : Measure} {commas : Bool} (hend : m.EndsInRun commas)
    {c : Char} (hmark : Pattern.isMarkedBy c m.pattern = true) {i : Nat} {after : List Char}
    (hlead : matchHere m.pattern.dropLast (log.drop i) = some ⟨[], x.text ++ after⟩)
    (hafter : ∀ c ∈ after.head?, isNumberChar true c = false)
    (hone : (occurrences m.pattern log).length = 1) : m.ReportsOnce log x := by
  have hlead' := matchHere_eq_some_iff.1 hlead
  obtain ⟨captured, hcaptured⟩ := List.length_eq_one_iff.1 hone
  obtain ⟨k, hk⟩ := (occurrences_eq_singleton_iff hmark).1 hcaptured
  refine ⟨i, after, hlead', hafter, fun j other hj => ?_⟩
  exact (hk.only j other hj).trans (hk.only i _ (hend.standsAt hlead' hafter)).symm

end Log

namespace LogFormat

open Log

variable {f : LogFormat} {x : GroupedNumber} {log : List Char}

/-- The log has exactly one line with the time, which is the number, and for the format
    that asks for it one with a quotient time. -/
structure Reports (f : LogFormat) (log : List Char) (x : GroupedNumber) : Prop where
  time : f.time.ReportsOnce log x
  quotient : f = mcQuotient → ∃ y, quotientTime.ReportsOnce log y

/-- Whether the commas belong to the time that a format reads. -/
def readsCommas : LogFormat → Bool
  | mc | mcQuotient => true
  | rw | gmp => false

theorem endsInRun_time (f : LogFormat) : f.time.EndsInRun f.readsCommas := by
  cases f <;> exact ⟨rfl, rfl⟩

theorem endsInRun_quotientTime : quotientTime.EndsInRun true :=
  ⟨rfl, rfl⟩

/-- Such a log is accepted with the number as its time, as far as it is seen. -/
theorem Reports.read (h : f.Reports log x) :
    ∃ m, f.read log = some m ∧ m.find? timeKey = some (x.seen f.readsCommas).value := by
  have htime := h.time.tells (endsInRun_time f)
  have hcompleted : f.Completed log := by
    refine ⟨Measure.isUsable_iff.2 ⟨_, htime⟩, fun hf => ?_⟩
    obtain ⟨y, hy⟩ := h.quotient hf
    exact Measure.isUsable_iff.2 ⟨_, hy.tells endsInRun_quotientTime⟩
  obtain ⟨m, hm⟩ := exists_read_iff.2 hcompleted
  exact ⟨m, hm, (find?_read hm).2 (.time htime)⟩

/-- Every number is the time of some log, also where commas are not read. -/
theorem exists_reports (hf : f = rw ∨ f = gmp) (x : GroupedNumber) :
    ∃ log : String, f.Reports log.toList x := by
  have hT : 'T' ∉ x.text := fun h => by
    rcases GroupedNumber.mem_text h with h | h | ⟨h, -⟩
    · exact absurd h (by decide)
    · exact absurd h (by decide)
    · exact absurd h (by decide)
  -- A phrase that ends before the number, and its mark only at the start.
  have hphrase : ∃ phrase : List Char, 'T' ∉ phrase ∧
      Stands f.time.pattern.dropLast ('T' :: (phrase ++ x.text)) [] x.text := by
    rcases hf with rfl | rfl
    · have hgap : Text.IsSpan Text.isBlank [] x.text := by
        refine ⟨nofun, fun c hc => ?_⟩
        obtain ⟨d, digits, hlead⟩ := List.exists_cons_of_ne_nil x.lead.ne_nil
        rw [GroupedNumber.text, hlead] at hc
        cases hc
        exact Decimal.isBlank_of_isDigit (x.lead.all c (hlead ▸ List.mem_cons_self))
      have hblanks : Stands [.blanks] ([] ++ x.text) [] x.text := .blanks hgap .done
      exact ⟨"ime for computing the bisimulation relation =".toList, by decide, .text hblanks⟩
    · exact ⟨"ime for refinement: ".toList, by decide, .text .done⟩
  obtain ⟨phrase, hmark, hstands⟩ := hphrase
  refine ⟨String.ofList ('T' :: (phrase ++ x.text)),
    ⟨0, [], ?_, nofun, fun j captured hj => ?_⟩, ?_⟩
  · rw [String.toList_ofList, List.append_nil]
    exact hstands
  · rw [String.toList_ofList] at hj
    exact hj.eq_zero (isMarked_time f) (List.not_mem_append hmark hT)
  · rintro rfl
    rcases hf with hf | hf <;> cases hf

/-- **Only the multi-core formats read separators.**  A log that reports the number once is
    accepted by every format.  Its time is the value of the number for the formats of the
    multi-core tool, and for the other two if there is no comma, or if what stands
    before the first comma has the same value. -/
theorem separators_read_iff (f : LogFormat) (x : GroupedNumber) :
    (∀ log : String, f.Reports log.toList x →
      ∃ m, f.readText log = some m ∧ m.find? timeKey = some (x.seen f.readsCommas).value) ∧
    ((∀ log : String, f.Reports log.toList x →
        ∃ m, f.readText log = some m ∧ m.find? timeKey = some x.value) ↔
      f = mc ∨ f = mcQuotient ∨ x.groups = [] ∨ x.lead.value = x.value) := by
  have hseen : (x.seen f.readsCommas).value = x.value ↔
      f = mc ∨ f = mcQuotient ∨ x.groups = [] ∨ x.lead.value = x.value := by
    unfold GroupedNumber.seen
    by_cases hgroups : x.groups = []
    · simp [hgroups]
    · cases f <;> simp [readsCommas, hgroups, GroupedNumber.value_lead]
  refine ⟨fun log h => h.read, fun hall => ?_, fun hcond log h => ?_⟩
  · by_cases hf : f = rw ∨ f = gmp
    · -- One log with the number is enough: what is read of it is what is seen.
      obtain ⟨log, hlog⟩ := exists_reports hf x
      obtain ⟨m, hm, htime⟩ := hall log hlog
      obtain ⟨m', hm', htime'⟩ := hlog.read
      obtain rfl := Option.some.inj (hm.symm.trans hm')
      exact hseen.1 (Option.some.inj (htime'.symm.trans htime))
    · cases f <;> simp at hf ⊢
  · rw [← hseen.2 hcond]
    exact h.read

/-- A thousand and a half, with a comma. -/
def thousand : GroupedNumber where
  lead := .ofChars ['1'] (by decide)
  groups := [.ofChars ['0', '0', '0'] (by decide)]
  fraction := some (.ofChars ['5'] (by decide))

/-- The quotient time of the log below. -/
def twoFifths : GroupedNumber where
  lead := .ofChars ['0'] (by decide)
  groups := []
  fraction := some (.ofChars ['4'] (by decide))

def quotientLog : String :=
  "Time for computing the bisimulation relation: 1,000.5\n" ++
    "Time for computing the quotient of the transition relation: 0.4"

theorem separators_read_quotientLog :
    mcQuotient.Reports quotientLog.toList thousand ∧
      ∃ m, mcQuotient.readText quotientLog = some m ∧ m.find? timeKey = some thousand.value := by
  -- The two lines stand at these positions, and the search finds no others.
  have hlines :
      (matchHere mcQuotient.time.pattern.dropLast (quotientLog.toList.drop 0) =
          some ⟨[], thousand.text ++ quotientLog.toList.drop 53⟩ ∧
        (quotientLog.toList.drop 53).head? = some '\n' ∧
        (occurrences mcQuotient.time.pattern quotientLog.toList).length = 1) ∧
      matchHere quotientTime.pattern.dropLast (quotientLog.toList.drop 54) =
          some ⟨[], twoFifths.text ++ []⟩ ∧
        (occurrences quotientTime.pattern quotientLog.toList).length = 1 := by
    decide +kernel
  obtain ⟨⟨htime, hhead, hone⟩, hquotient, hone'⟩ := hlines
  have hafter : ∀ c ∈ (quotientLog.toList.drop 53).head?, isNumberChar true c = false := by
    rw [hhead]
    rintro c ⟨⟩
    decide
  have hmark : Pattern.isMarkedBy 'T' quotientTime.pattern = true := by decide +kernel
  have hreports : mcQuotient.Reports quotientLog.toList thousand :=
    ⟨(endsInRun_time _).reportsOnce (isMarked_time _) htime hafter hone, fun _ =>
      ⟨twoFifths, endsInRun_quotientTime.reportsOnce hmark hquotient nofun hone'⟩⟩
  exact ⟨hreports, (separators_read_iff mcQuotient thousand).2.2 (.inr (.inl rfl)) _ hreports⟩

/-- One format takes a thousand and a half for one. -/
theorem separator_ends_time :
    gmp.Reports "Time for refinement: 1,000.5".toList thousand ∧
      ¬ ∃ m, gmp.readText "Time for refinement: 1,000.5" = some m ∧
        m.find? timeKey = some thousand.value := by
  have hlead : matchHere gmp.time.pattern.dropLast
      ("Time for refinement: 1,000.5".toList.drop 0) = some ⟨[], thousand.text ++ []⟩ := by
    decide +kernel
  have htime : gmp.time.ReportsOnce "Time for refinement: 1,000.5".toList thousand :=
    (endsInRun_time gmp).reportsOnce (isMarked_time gmp) hlead nofun (by decide +kernel)
  have hother : (gmp.readText "Time for refinement: 1,000.5").bind (fun m => m.find? timeKey) ≠
      some thousand.value := by
    decide +kernel
  refine ⟨⟨htime, nofun⟩, ?_⟩
  rintro ⟨m, hm, hvalue⟩
  rw [hm] at hother
  exact hother hvalue

end LogFormat

end BenchSweep
