import Mathlib.Data.List.TakeWhile
import BenchSweep.Decimal.Numeral

/-! # Plain Numerals

    Most tools print a number without sign and exponent: digits with at most one
    point among them.  Of the texts without letters and signs, exactly these are
    read, and the value is that of their digits. -/

namespace BenchSweep

/-! ## Section 1: Longest runs -/

/-- A run of characters of a class, and behind it a text that does not go on with
    another one. -/
structure Text.IsSpan (p : Char → Bool) (run after : List Char) : Prop where
  all : ∀ c ∈ run, p c = true
  stops : ∀ c ∈ after.head?, p c = false

namespace Text.IsSpan

variable {p : Char → Bool} {run after : List Char}

/-- Every text begins with a longest run. -/
theorem split (p : Char → Bool) (s : List Char) : IsSpan p (s.takeWhile p) (s.dropWhile p) where
  all _ hc := List.mem_takeWhile_imp hc
  stops c hc := by
    have hhead := List.head?_dropWhile_not p s
    rw [Option.mem_def.1 hc] at hhead
    exact hhead

theorem takeWhile_stops (h : ∀ c ∈ after.head?, p c = false) : after.takeWhile p = [] := by
  cases after with
  | nil => rfl
  | cons c after =>
    apply List.takeWhile_cons_of_neg
    rw [h c rfl]
    exact Bool.false_ne_true

theorem takeWhile (h : IsSpan p run after) : (run ++ after).takeWhile p = run := by
  rw [List.takeWhile_append_of_pos h.all, takeWhile_stops h.stops, List.append_nil]

theorem dropWhile (h : IsSpan p run after) : (run ++ after).dropWhile p = after := by
  have hsplit := List.takeWhile_append_dropWhile (p := p) (l := run ++ after)
  rw [h.takeWhile] at hsplit
  exact List.append_cancel_left hsplit

end Text.IsSpan

namespace Decimal

/-! ## Section 2: Digits with a point -/

/-- Digits with at most one point among them, and at least one digit. -/
structure IsPlain (text : List Char) : Prop where
  digitOrPoint : ∀ c ∈ text, c.isDigit = true ∨ c = '.'
  onePoint : text.count '.' ≤ 1
  someDigit : ∃ c ∈ text, c.isDigit = true

theorem isPlain_iff {text : List Char} :
    IsPlain text ↔ text.all (fun c => c.isDigit || c == '.') = true ∧ text.count '.' ≤ 1 ∧
      text.any Char.isDigit = true := by
  rw [List.all_eq_true, List.any_eq_true]
  simp only [Bool.or_eq_true, beq_iff_eq]
  exact ⟨fun h => ⟨h.1, h.2, h.3⟩, fun h => ⟨h.1, h.2.1, h.2.2⟩⟩

instance (text : List Char) : Decidable (IsPlain text) :=
  decidable_of_iff' _ isPlain_iff

/-- The numeral that a plain text writes: its digits, and how many of them stand
    behind the point. -/
def Numeral.ofPlain (text : List Char) : Numeral where
  digits := text.filter Char.isDigit
  places := (text.dropWhile (· ≠ '.')).tail.length
  power := 0

section Parts

variable {whole fraction tail : List Char}

theorem point_notMem (h : ∀ c ∈ whole, c.isDigit = true) : '.' ∉ whole := fun hc =>
  absurd (h _ hc) (by decide)

theorem filter_digits (h : ∀ c ∈ whole, c.isDigit = true) : whole.filter Char.isDigit = whole :=
  List.filter_eq_self.2 h

/-- Digits alone are plain. -/
theorem isPlain_digits (h : ∀ c ∈ whole, c.isDigit = true) : IsPlain whole ↔ whole ≠ [] := by
  constructor
  · rintro hplain rfl
    obtain ⟨c, hc, -⟩ := hplain.someDigit
    cases hc
  · intro hne
    obtain ⟨c, hc⟩ := List.exists_mem_of_ne_nil whole hne
    refine ⟨fun c hc => .inl (h c hc), ?_, c, hc, h c hc⟩
    rw [List.count_eq_zero.2 (point_notMem h)]
    exact Nat.zero_le 1

theorem ofPlain_digits (h : ∀ c ∈ whole, c.isDigit = true) :
    Numeral.ofPlain whole = ⟨whole, 0, 0⟩ := by
  have hdrop : whole.dropWhile (· ≠ '.') = [] := by
    apply List.dropWhile_eq_nil_iff.2
    intro c hc
    exact decide_eq_true fun heq => point_notMem h (heq ▸ hc)
  rw [Numeral.ofPlain, filter_digits h, hdrop]
  rfl

/-- Digits with a point are plain if there is a digit, and none but digits behind
    the point. -/
theorem isPlain_point (hwhole : ∀ c ∈ whole, c.isDigit = true) :
    IsPlain (whole ++ '.' :: tail) ↔ (∀ c ∈ tail, c.isDigit = true) ∧ whole ++ tail ≠ [] := by
  have hcount : (whole ++ '.' :: tail).count '.' = tail.count '.' + 1 := by
    rw [List.count_append, List.count_eq_zero.2 (point_notMem hwhole), List.count_cons_self,
      Nat.zero_add]
  constructor
  · intro hplain
    have hnone : '.' ∉ tail := by
      have hone := hplain.onePoint
      rw [hcount] at hone
      exact List.count_eq_zero.1 (by omega)
    refine ⟨fun c hc => ?_, fun hnil => ?_⟩
    · rcases hplain.digitOrPoint c (by simp [hc]) with hdigit | rfl
      · exact hdigit
      · exact absurd hc hnone
    · obtain ⟨rfl, rfl⟩ := List.append_eq_nil_iff.1 hnil
      obtain ⟨c, hc, hdigit⟩ := hplain.someDigit
      rw [List.nil_append, List.mem_singleton] at hc
      rw [hc] at hdigit
      exact absurd hdigit (by decide)
  · rintro ⟨htail, hne⟩
    have hall : ∀ c ∈ whole ++ tail, c.isDigit = true := by
      intro c hc
      rcases List.mem_append.1 hc with hc | hc
      · exact hwhole c hc
      · exact htail c hc
    obtain ⟨c, hc⟩ := List.exists_mem_of_ne_nil _ hne
    refine ⟨fun c hc => ?_, ?_, c, ?_, hall c hc⟩
    · rcases List.mem_append.1 hc with hc | hc
      · exact .inl (hwhole c hc)
      · rcases List.mem_cons.1 hc with hc | hc
        · exact .inr hc
        · exact .inl (htail c hc)
    · rw [hcount, List.count_eq_zero.2 (point_notMem htail)]
    · rcases List.mem_append.1 hc with hc | hc
      · exact List.mem_append_left _ hc
      · exact List.mem_append_right _ (List.mem_cons_of_mem _ hc)

theorem ofPlain_point (hwhole : ∀ c ∈ whole, c.isDigit = true)
    (hfraction : ∀ c ∈ fraction, c.isDigit = true) :
    Numeral.ofPlain (whole ++ '.' :: fraction) = ⟨whole ++ fraction, fraction.length, 0⟩ := by
  have hfilter : (whole ++ '.' :: fraction).filter Char.isDigit = whole ++ fraction := by
    rw [List.filter_append, filter_digits hwhole, List.filter_cons_of_neg (by decide),
      filter_digits hfraction]
  have hspan : Text.IsSpan (· ≠ '.') whole ('.' :: fraction) :=
    { all := fun c hc => decide_eq_true fun heq => point_notMem hwhole (heq ▸ hc)
      stops := fun c hc => by cases hc; rfl }
  rw [Numeral.ofPlain, hfilter, hspan.dropWhile]
  rfl

end Parts

/-! ## Section 3: Reading -/

/-- Without letters there is no exponent. -/
theorem readPower_of_not_isAlpha {c : Char} {s : List Char} (h : c.isAlpha = false) :
    readPower (c :: s) = none := by
  have hmark : ¬ (c = 'e' ∨ c = 'E') := by
    rintro (rfl | rfl)
    · exact absurd h (by decide)
    · exact absurd h (by decide)
  exact if_neg hmark

theorem Numeral.read_point {whole fraction tail : List Char}
    (hwhole : ∀ c ∈ whole, c.isDigit = true) (hspan : Text.IsSpan Char.isDigit fraction tail) :
    Numeral.read (whole ++ '.' :: (fraction ++ tail)) =
      if whole = [] ∧ fraction = [] then none
      else (readPower tail).map fun power => ⟨whole ++ fraction, fraction.length, power⟩ := by
  have hwhole' : Text.IsSpan Char.isDigit whole ('.' :: (fraction ++ tail)) :=
    ⟨hwhole, fun c hc => by cases hc; rfl⟩
  simp only [Numeral.read, hwhole'.takeWhile, hwhole'.dropWhile, hspan.takeWhile, hspan.dropWhile]

theorem Numeral.read_pointless {whole tail : List Char}
    (hspan : Text.IsSpan Char.isDigit whole tail) (h : tail.head? ≠ some '.') :
    Numeral.read (whole ++ tail) =
      if whole = [] then none else (readPower tail).map fun power => ⟨whole, 0, power⟩ := by
  simp only [Numeral.read, hspan.takeWhile, hspan.dropWhile]
  split
  · exact absurd rfl h
  · rfl

/-- Of the texts without letters, exactly the plain ones are read as numerals. -/
theorem Numeral.read_eq_some_iff {text : List Char} {n : Numeral}
    (hletter : ∀ c ∈ text, c.isAlpha = false) :
    Numeral.read text = some n ↔ IsPlain text ∧ n = Numeral.ofPlain text := by
  obtain ⟨whole, tail, rfl, hspan⟩ :
      ∃ whole tail, text = whole ++ tail ∧ Text.IsSpan Char.isDigit whole tail :=
    ⟨_, _, List.takeWhile_append_dropWhile.symm, .split Char.isDigit text⟩
  -- Behind the leading digits the text ends, or a point stands there, or something else.
  cases tail with
  | nil =>
    rw [Numeral.read_pointless hspan nofun, List.append_nil, isPlain_digits hspan.all,
      ofPlain_digits hspan.all]
    by_cases hwhole : whole = []
    · simp [hwhole]
    · simp [hwhole, readPower, eq_comm]
  | cons c tail =>
    by_cases hpoint : c = '.'
    · subst hpoint
      obtain ⟨fraction, rest, rfl, hspan'⟩ :
          ∃ fraction rest, tail = fraction ++ rest ∧ Text.IsSpan Char.isDigit fraction rest :=
        ⟨_, _, List.takeWhile_append_dropWhile.symm, .split Char.isDigit tail⟩
      rw [Numeral.read_point hspan.all hspan', isPlain_point hspan.all]
      cases rest with
      | nil =>
        rw [List.append_nil, ofPlain_point hspan.all hspan'.all]
        by_cases hnone : whole = [] ∧ fraction = []
        · simp [hnone]
        · have hne : whole ++ fraction ≠ [] := fun h => hnone (List.append_eq_nil_iff.1 h)
          rw [if_neg hnone]
          exact ⟨fun h => ⟨⟨hspan'.all, hne⟩, (Option.some.inj h).symm⟩, fun h => h.2 ▸ rfl⟩
      | cons mark rest =>
        -- Behind the fraction stands neither a digit nor an exponent.
        rw [readPower_of_not_isAlpha (hletter mark (by simp)), Option.map_none, ite_self]
        have hmark := hspan'.stops mark rfl
        constructor
        · intro h
          cases h
        · rintro ⟨⟨hdigits, -⟩, -⟩
          rw [hdigits mark (by simp)] at hmark
          cases hmark
    · rw [Numeral.read_pointless hspan fun h => hpoint (Option.some.inj h),
        readPower_of_not_isAlpha (hletter c (by simp)), Option.map_none, ite_self]
      constructor
      · intro h
        cases h
      · rintro ⟨hplain, -⟩
        rcases hplain.digitOrPoint c (by simp) with hdigit | heq
        · rw [hspan.stops c rfl] at hdigit
          cases hdigit
        · exact absurd heq hpoint

/-- A character that is neither a letter nor a sign. -/
structure IsBare (c : Char) : Prop where
  notAlpha : c.isAlpha = false
  notPlus : c ≠ '+'
  notMinus : c ≠ '-'

theorem IsBare.toLower {c : Char} (h : IsBare c) : c.toLower = c := by
  have hupper : c.isUpper = false := (Bool.or_eq_false_iff.1 h.notAlpha).1
  exact dif_neg (of_decide_eq_false hupper)

section Bare

variable {text : List Char} (hbare : ∀ c ∈ text, IsBare c)

include hbare

/-- Without letters there is no word for a number. -/
theorem readUnsigned_of_isBare : readUnsigned text = (Numeral.read text).map Numeral.value := by
  have hlower : text.map Char.toLower = text := by
    calc text.map Char.toLower = text.map id :=
          List.map_congr_left fun c hc => (hbare c hc).toLower
      _ = text := List.map_id text
  have hword : ∀ (c : Char) (word : List Char), c.isAlpha = true → text ≠ c :: word := by
    rintro c word hc rfl
    rw [(hbare c List.mem_cons_self).notAlpha] at hc
    cases hc
  unfold readUnsigned
  rw [hlower, if_neg, if_neg]
  · exact hword 'n' _ rfl
  · rintro (h | h)
    · exact hword 'i' _ rfl h
    · exact hword 'i' _ rfl h

/-- Of the texts without letters and signs, exactly the plain ones are read as
    numbers. -/
theorem readNumber_eq_some_iff {v : Float} :
    readNumber text = some v ↔ IsPlain text ∧ v = (Numeral.ofPlain text).value := by
  have hsign : readNumber text = readUnsigned text := by
    unfold readNumber
    split
    · exact absurd rfl (hbare '-' List.mem_cons_self).notMinus
    · exact absurd rfl (hbare '+' List.mem_cons_self).notPlus
    · rfl
  rw [hsign, readUnsigned_of_isBare hbare, Option.map_eq_some_iff]
  have hread := fun n => Numeral.read_eq_some_iff (n := n) fun c hc => (hbare c hc).notAlpha
  constructor
  · rintro ⟨n, hn, rfl⟩
    obtain ⟨hplain, rfl⟩ := (hread n).1 hn
    exact ⟨hplain, rfl⟩
  · rintro ⟨hplain, rfl⟩
    exact ⟨_, (hread _).2 ⟨hplain, rfl⟩, rfl⟩

end Bare

/-- One point is enough. -/
example : IsPlain "1.5".toList ∧ ¬ IsPlain "1.5.".toList := by
  decide +kernel

end Decimal

end BenchSweep
