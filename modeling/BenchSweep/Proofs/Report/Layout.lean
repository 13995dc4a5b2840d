import BenchSweep.Proofs.Decimal.Written
import BenchSweep.Proofs.Report.Tables
import BenchSweep.Report.Console

/-! # The Layout of Tables

    Every row of an analysed table has a place for each of its columns, speedups and
    phases.  And whatever is measured, what a report writes for it is made of a few
    characters, none of which means anything to the format of a report. -/

namespace BenchSweep

/-! ## Section 1: Places -/

/-- All rows have the places that the labels of the table ask for. -/
structure FamilyTable.Filled (t : FamilyTable) : Prop where
  cells : ∀ r ∈ t.rows, r.cells.length = t.columns.length
  speedups : ∀ r ∈ t.rows, r.speedups.length = t.speedups.length
  phases : ∀ r ∈ t.rows, r.phases.length = t.phases.length
  phaseCells : ∀ r ∈ t.rows, ∀ cells ∈ r.phases, cells.length = t.columns.length

section Analysed

variable {c : Catalog} {xs : List Descriptor} {p : Progress} {t : FamilyTable}

theorem mem_tables :
    t ∈ (analyse c xs p).tables ↔
      ∃ f ∈ c.families, ∃ metric ∈ f.metrics, p.measured.table xs f metric = t := by
  rw [analyse_tables]
  simp only [List.mem_flatMap, List.mem_map]

theorem filled_table (m : Measured) (xs : List Descriptor) (f : Family) (metric : String) :
    (m.table xs f metric).Filled where
  cells := by
    intro r hr
    obtain ⟨model, -, rfl⟩ := List.mem_map.1 hr
    simp only [Measured.row, Measured.table, List.length_map]
  speedups := by
    intro r hr
    obtain ⟨model, -, rfl⟩ := List.mem_map.1 hr
    simp only [Measured.row, Measured.table, List.length_map]
  phases := by
    intro r hr
    obtain ⟨model, -, rfl⟩ := List.mem_map.1 hr
    simp only [Measured.row, Measured.table, List.length_map]
  phaseCells := by
    intro r hr cells hcells
    obtain ⟨model, -, rfl⟩ := List.mem_map.1 hr
    obtain ⟨phase, -, rfl⟩ := List.mem_map.1 hcells
    simp only [Measured.table, List.length_map]

theorem filled_of_mem (h : t ∈ (analyse c xs p).tables) : t.Filled := by
  obtain ⟨f, -, metric, -, rfl⟩ := mem_tables.1 h
  exact filled_table _ _ _ _

/-- The rows of a table are those of the family's models. -/
theorem models_table (m : Measured) (xs : List Descriptor) (f : Family) (metric : String) :
    (m.table xs f metric).rows.map Row.model = f.sortedModels.map Model.name := by
  rw [Measured.table, List.map_map]
  rfl

end Analysed

/-! ## Section 2: Written values -/

/-- The text is made of digits and these signs. -/
def WrittenWith (signs : List Char) (s : String) : Prop :=
  ∀ c ∈ s.toList, c.isDigit = true ∨ c ∈ signs

section WrittenWith

variable {signs : List Char} {s t : String}

theorem WrittenWith.notMem (h : WrittenWith signs s) {c : Char} (hdigit : c.isDigit = false)
    (hsign : c ∉ signs) : c ∉ s.toList := by
  intro hc
  rcases h c hc with hd | hs
  · rw [hdigit] at hd
    cases hd
  · exact hsign hs

theorem WrittenWith.append (hs : WrittenWith signs s) (ht : WrittenWith signs t) :
    WrittenWith signs (s ++ t) := by
  intro c hc
  rw [String.toList_append, List.mem_append] at hc
  exact hc.elim (hs c) (ht c)

/-- A text without digits. -/
theorem writtenWith_of_subset (h : s.toList ⊆ signs) : WrittenWith signs s :=
  fun _ hc => Or.inr (h hc)

theorem writtenWith_natural (n : Nat) : WrittenWith signs (toString n) :=
  fun _ hc => Or.inl (Decimal.isDigit_of_mem_toString hc)

theorem writtenWith_placesText (hpoint : '.' ∈ signs) (places units : Nat) :
    WrittenWith signs (Decimal.placesText places units) := by
  have hdigits : ∀ c ∈ List.replicate (places + 1 - (Nat.toDigits 10 units).length) '0'
      ++ Nat.toDigits 10 units, c.isDigit = true := by
    intro c hc
    rcases List.mem_append.1 hc with hzero | hdigit
    · rw [List.eq_of_mem_replicate hzero]
      rfl
    · exact Nat.isDigit_of_mem_toDigits (by decide) (by decide) hdigit
  have htake : ∀ n, WrittenWith signs (String.ofList ((List.replicate
      (places + 1 - (Nat.toDigits 10 units).length) '0' ++ Nat.toDigits 10 units).take n)) := by
    intro n c hc
    rw [String.toList_ofList] at hc
    exact Or.inl (hdigits c (List.mem_of_mem_take hc))
  have hdrop : ∀ n, WrittenWith signs (String.ofList ((List.replicate
      (places + 1 - (Nat.toDigits 10 units).length) '0' ++ Nat.toDigits 10 units).drop n)) := by
    intro n c hc
    rw [String.toList_ofList] at hc
    exact Or.inl (hdigits c (List.mem_of_mem_drop hc))
  have hdot : WrittenWith signs "." :=
    writtenWith_of_subset (by simpa using hpoint)
  unfold Decimal.placesText
  dsimp only
  split
  · exact htake _
  · exact ((htake _).append hdot).append (hdrop _)

theorem writtenWith_signText (hminus : '-' ∈ signs) (negative : Bool) :
    WrittenWith signs (Decimal.signText negative) := by
  apply writtenWith_of_subset
  cases negative with
  | false => simp [Decimal.signText]
  | true => simpa [Decimal.signText] using hminus

end WrittenWith

/-- What written values have beside digits. -/
def figureSigns : List Char :=
  ".-NaNinfT/O ()%".toList

/-- The text is made of what values are written with. -/
def IsFigure (s : String) : Prop :=
  ∀ c ∈ s.toList, c.isDigit = true ∨ c ∈ figureSigns

theorem IsFigure.notMem {s : String} (h : IsFigure s) {c : Char} (hdigit : c.isDigit = false)
    (hsign : c ∉ figureSigns) : c ∉ s.toList :=
  WrittenWith.notMem h hdigit hsign

theorem IsFigure.append {s t : String} (hs : IsFigure s) (ht : IsFigure t) :
    IsFigure (s ++ t) :=
  WrittenWith.append hs ht

/-- A text without digits. -/
theorem isFigure_of_signs {s : String} (h : s.toList ⊆ figureSigns) : IsFigure s :=
  writtenWith_of_subset h

theorem isFigure_natural (n : Nat) : IsFigure (toString n) :=
  writtenWith_natural n

theorem isFigure_fixedText (places : Nat) (x : Float) : IsFigure (Decimal.fixedText places x) := by
  have hsign : ∀ negative, IsFigure (Decimal.signText negative) :=
    writtenWith_signText (by decide)
  unfold Decimal.fixedText
  split
  · exact isFigure_of_signs (by decide)
  · exact (hsign _).append (isFigure_of_signs (by decide))
  · exact (hsign _).append (writtenWith_placesText (by decide) _ _)

theorem isFigure_valueText (v : Option Float) : IsFigure (valueText v) := by
  have hplaceholder : IsFigure placeholder := isFigure_of_signs (by decide)
  unfold valueText
  split
  · split
    · exact isFigure_fixedText _ _
    · exact hplaceholder
  · exact hplaceholder

theorem isFigure_phaseText (c : Option PhaseCell) : IsFigure (Console.phaseText c) := by
  unfold Console.phaseText
  split
  · split
    · exact (((isFigure_valueText _).append (isFigure_of_signs (by decide))).append
        (isFigure_fixedText _ _)).append (isFigure_of_signs (by decide))
    · exact isFigure_valueText _
  · exact isFigure_of_signs (by decide)

end BenchSweep
