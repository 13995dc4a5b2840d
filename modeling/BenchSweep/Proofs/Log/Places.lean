import Mathlib.Data.List.Nodup
import BenchSweep.Log.Pattern
import BenchSweep.Proofs.Decimal.Plain

/-! # Where a Pattern Stands

    A pattern stands at a position of a text if the text reads there as the pattern
    says, whatever was found before.  The search goes on behind each match and so
    passes over positions; no pattern whose first character stands nowhere else in
    it is lost there, and the search finds exactly the positions. -/

namespace BenchSweep.Log

/-! ## Section 1: Standing -/

/-- The pattern stands at the start of a text, captures these runs, and ends before
    this rest.  Phrases stand there literally, and gaps and runs cannot be longer. -/
inductive Stands : Pattern → List Char → List (List Char) → List Char → Prop where
  | done {s} : Stands [] s [] s
  | text {phrase p s captured rest} : Stands p s captured rest →
      Stands (.text phrase :: p) (phrase ++ s) captured rest
  | blanks {gap p s captured rest} : Text.IsSpan Text.isBlank gap s →
      Stands p s captured rest → Stands (.blanks :: p) (gap ++ s) captured rest
  | run {commas number p s captured rest} : number ≠ [] →
      Text.IsSpan (isNumberChar commas) number s → Stands p s captured rest →
      Stands (.run commas :: p) (number ++ s) (number :: captured) rest

variable {p : Pattern} {s more rest log : List Char} {captured other : List (List Char)}
  {i j : Nat}

/-- Matching tells whether and how a pattern stands. -/
theorem matchHere_eq_some_iff :
    matchHere p s = some ⟨captured, rest⟩ ↔ Stands p s captured rest := by
  constructor
  · intro h
    induction p generalizing s captured with
    | nil =>
      cases h
      exact .done
    | cons piece p ih =>
      cases piece with
      | text phrase =>
        obtain ⟨after, hafter, h⟩ := Option.bind_eq_some_iff.1 h
        rw [afterPhrase_eq_some_iff.1 hafter]
        exact .text (ih h)
      | blanks =>
        rw [← List.takeWhile_append_dropWhile (p := Text.isBlank) (l := s)]
        exact .blanks (.split _ s) (ih h)
      | run commas =>
        rw [matchHere] at h
        split at h
        · cases h
        · rename_i hne
          obtain ⟨⟨captured', rest'⟩, hmatch, heq⟩ := Option.map_eq_some_iff.1 h
          cases heq
          nth_rewrite 1 [← List.takeWhile_append_dropWhile (p := isNumberChar commas) (l := s)]
          exact .run hne (.split _ s) (ih hmatch)
  · intro h
    induction h with
    | done => rfl
    | text _ ih => rw [matchHere, afterPhrase_eq_some_iff.2 rfl, Option.bind_some, ih]
    | blanks hgap _ ih => rw [matchHere, hgap.dropWhile, ih]
    | run hne hnumber _ ih =>
      simp only [matchHere, hnumber.takeWhile, hnumber.dropWhile, if_neg hne, ih, Option.map_some]

/-- What is captured are runs of number characters. -/
theorem Stands.isNumberChar (h : Stands p s captured rest) {number : List Char}
    (hnumber : number ∈ captured) : ∀ c ∈ number, Log.isNumberChar true c = true := by
  induction h with
  | done => cases hnumber
  | text _ ih => exact ih hnumber
  | blanks _ _ ih => exact ih hnumber
  | @run commas run p s captured rest _ hspan _ ih =>
    rcases List.mem_cons.1 hnumber with rfl | hnumber
    · intro c hc
      have hchar := hspan.all c hc
      simp only [Log.isNumberChar, Bool.or_eq_true, Bool.and_eq_true] at hchar ⊢
      exact hchar.imp_right fun h => ⟨trivial, h.2⟩
    · exact ih hnumber

/-- Two patterns stand one behind the other. -/
theorem Stands.followedBy {q : Pattern} {rest' : List Char} (h : Stands p s captured rest)
    (h' : Stands q rest other rest') : Stands (p ++ q) s (captured ++ other) rest' := by
  induction h with
  | done => exact h'
  | text _ ih => exact .text (ih h')
  | blanks hgap _ ih => exact .blanks hgap (ih h')
  | run hne hnumber _ ih => exact .run hne hnumber (ih h')

/-! ## Section 2: Longer texts -/

/-- A run that ends with its text may go on in what is put behind it. -/
theorem exists_longer {inClass : Char → Bool} {run : List Char}
    (h : ∀ c ∈ run, inClass c = true) (more : List Char) :
    ∃ longer after, run ++ more = longer ++ after ∧ Text.IsSpan inClass longer after ∧
      (run ≠ [] → longer ≠ []) := by
  refine ⟨_, _, List.takeWhile_append_dropWhile.symm, .split inClass (run ++ more), ?_⟩
  intro hne hnil
  rw [List.takeWhile_append_of_pos h] at hnil
  exact hne (List.append_eq_nil_iff.1 hnil).1

/-- A pattern that stands in front of nothing stands in front of everything. -/
theorem Stands.of_nil (h : Stands p [] captured rest) (s : List Char) :
    ∃ rest', Stands p s captured rest' := by
  -- The empty text has to be a variable for the induction; a run cannot stand in front of it.
  generalize hnil : ([] : List Char) = start at h
  induction h generalizing s with
  | done => exact ⟨s, .done⟩
  | text _ ih =>
    obtain ⟨rfl, rfl⟩ := List.append_eq_nil_iff.1 hnil.symm
    obtain ⟨rest', h⟩ := ih s rfl
    exact ⟨rest', .text h⟩
  | blanks _ _ ih =>
    obtain ⟨rfl, rfl⟩ := List.append_eq_nil_iff.1 hnil.symm
    obtain ⟨rest', h⟩ := ih (s.dropWhile Text.isBlank) rfl
    rw [← List.takeWhile_append_dropWhile (p := Text.isBlank) (l := s)]
    exact ⟨rest', .blanks (.split _ s) h⟩
  | run hne =>
    exact absurd (List.append_eq_nil_iff.1 hnil.symm).1 hne

/-- Where a pattern stands it still stands when the text goes on, though its last run
    may get longer. -/
theorem Stands.extend (h : Stands p s captured rest) (more : List Char) :
    ∃ captured' rest', Stands p (s ++ more) captured' rest' := by
  -- Only a piece that reaches the end of the text gets longer, and what follows it in the
  -- pattern stands in front of nothing.
  induction h with
  | done => exact ⟨_, _, .done⟩
  | text _ ih =>
    obtain ⟨captured', rest', h⟩ := ih
    rw [List.append_assoc]
    exact ⟨captured', rest', .text h⟩
  | @blanks gap p s captured rest hgap h ih =>
    rw [List.append_assoc]
    cases s with
    | nil =>
      obtain ⟨longer, after, heq, hspan, -⟩ := exists_longer hgap.all ([] ++ more)
      obtain ⟨rest', h⟩ := h.of_nil after
      rw [heq]
      exact ⟨_, rest', .blanks hspan h⟩
    | cons c s =>
      obtain ⟨captured', rest', h⟩ := ih
      exact ⟨captured', rest', .blanks ⟨hgap.all, hgap.stops⟩ h⟩
  | @run commas number p s captured rest hne hnumber h ih =>
    rw [List.append_assoc]
    cases s with
    | nil =>
      obtain ⟨longer, after, heq, hspan, hlonger⟩ := exists_longer hnumber.all ([] ++ more)
      obtain ⟨rest', h⟩ := h.of_nil after
      rw [heq]
      exact ⟨_, rest', .run (hlonger hne) hspan h⟩
    | cons c s =>
      obtain ⟨captured', rest', h⟩ := ih
      exact ⟨_, rest', .run hne ⟨hnumber.all, hnumber.stops⟩ h⟩

/-! ## Section 3: Marked patterns -/

/-- Whether a piece may stand in front of a text with this character in it. -/
def Piece.admits (c : Char) : Piece → Bool
  | .text phrase => phrase.elem c
  | .blanks => Text.isBlank c
  | .run commas => Log.isNumberChar commas c

/-- The pattern begins with this character, and nowhere else can the character stand
    in it. -/
def Pattern.isMarkedBy (c : Char) : Pattern → Bool
  | .text (d :: phrase) :: p => d == c && !phrase.elem c && p.all fun piece => !piece.admits c
  | _ => false

/-- The part of the text in front of which a pattern stands holds no character that
    none of its pieces admits. -/
theorem Stands.notMem {c : Char} (h : Stands p s captured rest)
    (hp : ∀ piece ∈ p, piece.admits c = false) : ∃ body, s = body ++ rest ∧ c ∉ body := by
  induction h with
  | done => exact ⟨[], rfl, List.not_mem_nil⟩
  | @text phrase p s captured rest _ ih =>
    obtain ⟨hpiece, hp⟩ := List.forall_mem_cons.1 hp
    obtain ⟨body, rfl, hbody⟩ := ih hp
    refine ⟨phrase ++ body, (List.append_assoc ..).symm, List.not_mem_append ?_ hbody⟩
    simpa [Piece.admits] using hpiece
  | @blanks gap p s captured rest hgap _ ih =>
    obtain ⟨hpiece, hp⟩ := List.forall_mem_cons.1 hp
    obtain ⟨body, rfl, hbody⟩ := ih hp
    refine ⟨gap ++ body, (List.append_assoc ..).symm, List.not_mem_append (fun hc => ?_) hbody⟩
    exact absurd (hgap.all c hc) (by simpa [Piece.admits] using hpiece)
  | @run commas number p s captured rest _ hnumber _ ih =>
    obtain ⟨hpiece, hp⟩ := List.forall_mem_cons.1 hp
    obtain ⟨body, rfl, hbody⟩ := ih hp
    refine ⟨number ++ body, (List.append_assoc ..).symm, List.not_mem_append (fun hc => ?_) hbody⟩
    exact absurd (hnumber.all c hc) (by simpa [Piece.admits] using hpiece)

section Marked

variable {c : Char} (hmark : Pattern.isMarkedBy c p = true)

include hmark

/-- Where a marked pattern stands, its mark stands first and not again before the
    rest. -/
theorem Stands.marked (h : Stands p s captured rest) :
    ∃ body, s = c :: (body ++ rest) ∧ c ∉ body := by
  cases h with
  | done => cases hmark
  | blanks => cases hmark
  | run => cases hmark
  | @text phrase p s captured rest h =>
    cases phrase with
    | nil => cases hmark
    | cons d phrase =>
      simp only [Pattern.isMarkedBy, Bool.and_eq_true, beq_iff_eq, Bool.not_eq_true',
        List.all_eq_true] at hmark
      obtain ⟨⟨rfl, hphrase⟩, hp⟩ := hmark
      obtain ⟨body, rfl, hbody⟩ := h.notMem hp
      refine ⟨phrase ++ body, ?_, List.not_mem_append ?_ hbody⟩
      · rw [List.cons_append, List.append_assoc]
      · simpa using hphrase

theorem matchHere_of_ne {d : Char} (h : d ≠ c) : matchHere p (d :: s) = none := by
  rw [Option.eq_none_iff_forall_ne_some]
  rintro ⟨captured, rest⟩ hmatch
  obtain ⟨body, heq, -⟩ := (matchHere_eq_some_iff.1 hmatch).marked hmark
  exact h (List.cons.inj heq).1

/-- The search passes over no position where a marked pattern stands: it finds what is
    captured at each of them. -/
theorem search_eq {covered : Nat} (h : c ∉ s.take covered) :
    search p covered s =
      (List.range s.length).filterMap fun i => (matchHere p (s.drop i)).map Match.captured := by
  induction s generalizing covered with
  | nil => cases covered <;> rfl
  | cons d s ih =>
    have hshift : ((List.range s.length).map Nat.succ).filterMap
          (fun i => (matchHere p ((d :: s).drop i)).map Match.captured) =
        (List.range s.length).filterMap fun i => (matchHere p (s.drop i)).map Match.captured :=
      List.filterMap_map ..
    rw [List.length_cons, List.range_succ_eq_map, List.filterMap_cons, hshift, List.drop_zero]
    cases covered with
    | succ covered =>
      -- Within a match the mark does not stand again, so nothing is passed over.
      obtain ⟨hd, hs⟩ := not_or.1 (fun hc => h (List.mem_cons.2 hc))
      rw [search, matchHere_of_ne hmark (Ne.symm hd), ih hs]
      rfl
    | zero =>
      rw [search]
      cases hmatch : matchHere p (d :: s) with
      | none =>
        rw [Option.map_none]
        exact ih (by simp)
      | some m =>
        obtain ⟨body, heq, hbody⟩ := (matchHere_eq_some_iff.1 hmatch).marked hmark
        obtain ⟨rfl, rfl⟩ := List.cons.inj heq
        have hcovered : (body ++ m.rest).length - m.rest.length = body.length := by
          rw [List.length_append, Nat.add_sub_cancel]
        simp only [Option.map_some, hcovered]
        rw [ih (by simpa using hbody)]

end Marked

/-! ## Section 4: Positions -/

/-- The pattern stands at this position of a text and captures these runs. -/
def StandsAt (p : Pattern) (log : List Char) (i : Nat) (captured : List (List Char)) : Prop :=
  ∃ rest, Stands p (log.drop i) captured rest

theorem standsAt_iff :
    StandsAt p log i captured ↔ (matchHere p (log.drop i)).map Match.captured = some captured := by
  rw [Option.map_eq_some_iff]
  constructor
  · rintro ⟨rest, h⟩
    exact ⟨_, matchHere_eq_some_iff.2 h, rfl⟩
  · rintro ⟨⟨captured, rest⟩, h, rfl⟩
    exact ⟨rest, matchHere_eq_some_iff.1 h⟩

/-- A marked pattern stands before the end of the text. -/
theorem StandsAt.lt_length {c : Char} (hmark : Pattern.isMarkedBy c p = true)
    (h : StandsAt p log i captured) : i < log.length := by
  obtain ⟨rest, h⟩ := h
  obtain ⟨body, heq, -⟩ := h.marked hmark
  by_contra hle
  rw [List.drop_eq_nil_of_le (Nat.le_of_not_lt hle)] at heq
  cases heq

/-- In a text that begins with the mark and does not repeat it, a marked pattern stands
    nowhere but at the start. -/
theorem StandsAt.eq_zero {c : Char} (hmark : Pattern.isMarkedBy c p = true)
    (h : StandsAt p (c :: s) i captured) (hs : c ∉ s) : i = 0 := by
  obtain ⟨rest, h⟩ := h
  cases i with
  | zero => rfl
  | succ i =>
    obtain ⟨body, heq, -⟩ := h.marked hmark
    rw [List.drop_succ_cons] at heq
    refine absurd (List.mem_of_mem_drop (i := i) ?_) hs
    rw [heq]
    exact List.mem_cons_self

/-- What stands before a text moves the positions. -/
theorem StandsAt.prepend (h : StandsAt p log i captured) (before : List Char) :
    StandsAt p (before ++ log) (before.length + i) captured := by
  rw [StandsAt, List.drop_length_add_append]
  exact h

/-- What stands behind a text takes no position away. -/
theorem StandsAt.append (h : StandsAt p log i captured) (hi : i ≤ log.length)
    (more : List Char) : ∃ captured', StandsAt p (log ++ more) i captured' := by
  obtain ⟨rest, h⟩ := h
  obtain ⟨captured', rest', h⟩ := h.extend more
  rw [← List.drop_append_of_le_length hi] at h
  exact ⟨captured', rest', h⟩

/-- The pattern stands at this position of the text and at no other. -/
structure StandsOnlyAt (p : Pattern) (log : List Char) (i : Nat)
    (captured : List (List Char)) : Prop where
  here : StandsAt p log i captured
  only : ∀ j other, StandsAt p log j other → j = i

/-- One value is left of a list without repetitions if one element has a value. -/
theorem filterMap_eq_singleton_iff {α β : Type} {f : α → Option β} {l : List α} (hl : l.Nodup)
    {y : β} :
    l.filterMap f = [y] ↔ ∃ x ∈ l, f x = some y ∧ ∀ x' ∈ l, ∀ y', f x' = some y' → x' = x := by
  rw [List.filterMap_eq_cons_iff]
  constructor
  · rintro ⟨before, x, after, rfl, hbefore, hx, hafter⟩
    refine ⟨x, List.mem_append_right _ List.mem_cons_self, hx, fun x' hx' y' hy' => ?_⟩
    have hnone : x' ∈ before ∨ x' ∈ after → f x' = none := by
      rintro (hmem | hmem)
      · exact hbefore x' hmem
      · exact List.filterMap_eq_nil_iff.1 hafter x' hmem
    by_contra hne
    -- Another element stands before or behind, where nothing has a value.
    have hothers : x' ∈ before ∨ x' ∈ after := by simpa [hne] using hx'
    rw [hnone hothers] at hy'
    cases hy'
  · rintro ⟨x, hmem, hx, honly⟩
    obtain ⟨before, after, rfl⟩ := List.append_of_mem hmem
    have hnone : ∀ x' ∈ before ++ after, f x' = none := by
      intro x' hx'
      have hne : x' ≠ x := by
        rintro rfl
        exact (List.nodup_middle.1 hl).notMem hx'
      rw [Option.eq_none_iff_forall_ne_some]
      intro y' hy'
      refine hne (honly x' ?_ y' hy')
      simpa [hne] using List.mem_append.1 hx'
    refine ⟨before, x, after, rfl, fun x' h => hnone x' (List.mem_append_left _ h), hx, ?_⟩
    exact List.filterMap_eq_nil_iff.2 fun x' h => hnone x' (List.mem_append_right _ h)

/-- A marked pattern is found exactly once if it stands at exactly one position. -/
theorem occurrences_eq_singleton_iff {c : Char} (hmark : Pattern.isMarkedBy c p = true) :
    occurrences p log = [captured] ↔ ∃ i, StandsOnlyAt p log i captured := by
  have hlength : ∀ {i captured}, StandsAt p log i captured → i ∈ List.range log.length :=
    fun h => List.mem_range.2 (h.lt_length hmark)
  rw [occurrences, search_eq hmark (by simp), filterMap_eq_singleton_iff List.nodup_range]
  simp only [← standsAt_iff]
  constructor
  · rintro ⟨i, -, hi, honly⟩
    exact ⟨i, hi, fun j other hj => honly j (hlength hj) other hj⟩
  · rintro ⟨i, hi, honly⟩
    exact ⟨i, hlength hi, hi, fun j _ other hj => honly j other hj⟩

end BenchSweep.Log
