import BenchSweep.Proofs.Report.Fields
import BenchSweep.Proofs.Report.Page
import BenchSweep.Proofs.Report.Tabular

/-! # Undefined Ratios Are Dashed

    A ratio of means can fail to be a number in several ways: nothing was measured, a
    mean is NaN, the denominator is zero, or the quotient leaves the range of doubles.
    Operands are checked before the division and values when they are written, and both
    checks end in the same placeholder. -/

namespace BenchSweep

/-! ## Section 1: Finite values have digits -/

namespace Decimal

open Float.Model (UnpackedFloat)

/-- With the greatest exponent a double is not finite. -/
theorem isFinite_of_exponent {x : Float}
    (h : @UnpackedFloat.unpackExponent .binary64 x.toBits.toBitVec = -1#11) :
    x.isFinite = false := by
  show (UnpackedFloat.unpack .binary64 x.toBits.toBitVec).isFinite = false
  unfold UnpackedFloat.unpack
  dsimp only
  rw [if_pos h]
  split <;> rfl

/-- A finite double is a mantissa and an exponent. -/
theorem exists_finite {x : Float} (h : x.isFinite = true) :
    ∃ negative magnitude, meaning x = .finite negative magnitude := by
  have hbiased : x.toBits.toNat / twoPow 52 % twoPow 11
      = (@UnpackedFloat.unpackExponent .binary64 x.toBits.toBitVec).toNat := by
    simp [UnpackedFloat.unpackExponent, twoPow, Nat.shiftRight_eq_div_pow]
  unfold meaning Meaning.ofBits
  dsimp only
  split
  · rename_i hgreatest
    rw [hbiased] at hgreatest
    rw [isFinite_of_exponent (BitVec.eq_of_toNat_eq hgreatest)] at h
    cases h
  · split
    · exact ⟨_, _, rfl⟩
    · exact ⟨_, _, rfl⟩

end Decimal

/-- What figures have beside digits. -/
def numeralSigns : List Char :=
  ".-T/O ()%".toList

/-- The text says neither that a value is NaN nor that it is infinite. -/
structure Definite (s : String) : Prop where
  not_nan : ¬ "NaN".toList <:+: s.toList
  not_inf : ¬ "inf".toList <:+: s.toList

theorem WrittenWith.definite {s : String} (h : WrittenWith numeralSigns s) : Definite s where
  not_nan hin := h.notMem (by decide) (by decide) (hin.subset (by decide : 'N' ∈ "NaN".toList))
  not_inf hin := h.notMem (by decide) (by decide) (hin.subset (by decide : 'i' ∈ "inf".toList))

theorem writtenWith_fixedText (places : Nat) {x : Float} (h : x.isFinite = true) :
    WrittenWith numeralSigns (Decimal.fixedText places x) := by
  obtain ⟨negative, magnitude, hmeaning⟩ := Decimal.exists_finite h
  unfold Decimal.fixedText
  rw [hmeaning]
  exact (writtenWith_signText (by decide) negative).append
    (writtenWith_placesText (by decide) places _)

theorem writtenWith_valueText (v : Option Float) : WrittenWith numeralSigns (valueText v) := by
  have hplaceholder : WrittenWith numeralSigns placeholder := writtenWith_of_subset (by decide)
  unfold valueText
  split
  · split
    · rename_i hfinite
      exact writtenWith_fixedText 2 hfinite
    · exact hplaceholder
  · exact hplaceholder

/-! ## Section 2: Undefined ratios -/

/-- An operand without a value: nothing was measured, or what was is NaN. -/
def Valueless (x : Option Float) : Prop :=
  ∀ v ∈ x, v.isNaN = true

/-- The ratio means nothing: an operand has no value, or the denominator is zero. -/
def Meaningless (n d : Option Float) : Prop :=
  Valueless n ∨ Valueless d ∨ ∃ y ∈ d, (y == 0) = true

/-- The quotient is no finite number. -/
def Unbounded (n d : Option Float) : Prop :=
  ∃ x ∈ n, ∃ y ∈ d, (x / y).isFinite = false

theorem valueless_none : Valueless none :=
  fun _ hv => nomatch hv

/-- What means something is divided. -/
theorem ratio_of_not_meaningless {n d : Option Float} (h : ¬ Meaningless n d) :
    ∃ x ∈ n, ∃ y ∈ d, ratio n d = some (x / y) := by
  simp only [Meaningless, not_or, Valueless] at h
  obtain ⟨hn, hd, hzero⟩ := h
  cases n with
  | none => exact absurd valueless_none hn
  | some x =>
    cases d with
    | none => exact absurd valueless_none hd
    | some y =>
      have hguard : (x.isNaN || y.isNaN || y == 0) ≠ true := by
        simp only [Option.mem_def, Option.some.injEq, forall_eq', Bool.not_eq_true] at hn hd
        simp only [Option.mem_def, Option.some.injEq, exists_eq_left', Bool.not_eq_true] at hzero
        rw [hn, hd, hzero]
        decide
      exact ⟨x, rfl, y, rfl, if_neg hguard⟩

theorem ratio_of_meaningless {n d : Option Float} (h : Meaningless n d) : ratio n d = none := by
  unfold ratio
  split
  · rename_i x y
    have hguard : (x.isNaN || y.isNaN || y == 0) = true := by
      simpa only [Meaningless, Valueless, Option.mem_def, Option.some.injEq, forall_eq',
        exists_eq_left', Bool.or_eq_true, or_assoc] using h
    exact if_pos hguard
  · rfl

/-- Two places stand behind a point. -/
theorem fixedText_ne_placeholder {x : Float} (h : x.isFinite = true) :
    Decimal.fixedText 2 x ≠ placeholder := by
  obtain ⟨negative, magnitude, hmeaning⟩ := Decimal.exists_finite h
  have hpoint : '.' ∈ (Decimal.fixedText 2 x).toList := by
    unfold Decimal.fixedText
    rw [hmeaning]
    simp [Decimal.placesText]
  intro heq
  rw [heq] at hpoint
  exact absurd hpoint (by decide)

theorem valueText_eq_placeholder_iff {v : Option Float} :
    valueText v = placeholder ↔ ∀ x ∈ v, x.isFinite = false := by
  unfold valueText
  split
  · split
    · rename_i hfinite
      simp [fixedText_ne_placeholder hfinite, hfinite]
    · rename_i hfinite
      simpa using hfinite
  · simp

/-- The value of a ratio is dashed exactly where it is undefined. -/
theorem valueText_ratio_iff {n d : Option Float} :
    valueText (ratio n d) = placeholder ↔ Meaningless n d ∨ Unbounded n d := by
  rw [valueText_eq_placeholder_iff]
  by_cases hmeaning : Meaningless n d
  · simp [ratio_of_meaningless hmeaning, hmeaning]
  · obtain ⟨x, hx, y, hy, hratio⟩ := ratio_of_not_meaningless hmeaning
    cases hx
    cases hy
    simp [hratio, hmeaning, Unbounded]

/-! ## Section 3: Rows -/

/-- The mean that a speedup's template stands for, if it stands for an experiment. -/
def Measured.operand? (m : Measured) (metric template : String) (model : Model) : Option Float :=
  (Template.speedupName template model).toOption.bind fun name => m.aggregate.mean? name metric

theorem Measured.speedup_eq (m : Measured) (metric : String) (s : Speedup) (model : Model) :
    m.speedup metric s model
      = ratio (m.operand? metric s.numerator model) (m.operand? metric s.denominator model) := by
  unfold Measured.speedup Measured.operand?
  cases Template.speedupName s.numerator model with
  | error e => rfl
  | ok top =>
    cases Template.speedupName s.denominator model with
    | error e => exact (ratio_of_meaningless (.inr (.inl valueless_none))).symm
    | ok bottom => rfl

/-- The placeholder alone is written for the undefined ratios of a model. -/
structure Row.Dashed (r : Row) (p : Progress) (xs : List Descriptor) (f : Family)
    (t : FamilyTable) (model : Model) : Prop where
  /-- A speedup is dashed if it is undefined, and only then.  A numerator of zero does
      not make it so. -/
  speedups : List.Forall₂ (fun s quotient => valueText quotient = placeholder ↔
      Meaningless (p.measured.operand? t.metric s.numerator model)
        (p.measured.operand? t.metric s.denominator model) ∨
      Unbounded (p.measured.operand? t.metric s.numerator model)
        (p.measured.operand? t.metric s.denominator model))
    f.speedups r.speedups
  /-- A phase is dashed if its mean or the total time has no value, and if the total
      time is zero. -/
  phases : List.Forall₂ (fun phase cells =>
      List.Forall₂ (fun column cell => ∀ x, experimentAt? xs f.name model.name column = some x →
        Meaningless (p.measured.aggregate.mean? x.name phase)
          (p.measured.aggregate.mean? x.name timeKey) →
        Console.phaseText cell = placeholder) t.columns cells)
    t.phases r.phases

section Rows

variable (p : Progress) (xs : List Descriptor) (f : Family) (metric : String) (model : Model)

theorem phaseText_of_meaningless {m : Measured} {phase name : String}
    (h : Meaningless (m.aggregate.mean? name phase) (m.aggregate.mean? name timeKey)) :
    Console.phaseText (some (m.phaseCell phase name)) = placeholder := by
  unfold Console.phaseText Measured.phaseCell
  dsimp only
  rw [ratio_of_meaningless h]
  rfl

theorem row_dashed :
    (p.measured.row f metric (members f.name xs) (columnsOf (members f.name xs)) model).Dashed
      p xs f (p.measured.table xs f metric) model where
  speedups := by
    show List.Forall₂ _ f.speedups (f.speedups.map _)
    rw [List.forall₂_map_right_iff, List.forall₂_same]
    intro s _
    rw [Measured.speedup_eq]
    exact valueText_ratio_iff
  phases := by
    show List.Forall₂ _ (f.tablePhases metric) ((f.tablePhases metric).map _)
    rw [List.forall₂_map_right_iff, List.forall₂_same]
    intro phase _
    show List.Forall₂ _ (columnsOf (members f.name xs)) _
    rw [List.map_map, List.forall₂_map_right_iff, List.forall₂_same]
    intro column _ x hx hmeaning
    rw [Function.comp_apply, memberAt?_members, hx]
    exact phaseText_of_meaningless hmeaning

end Rows

/-! ## Section 4: Reports -/

/-- The share in the cell, if there is one, is a finite number. -/
def HasFiniteShare (cell : Option PhaseCell) : Prop :=
  ∀ c ∈ cell, ∀ share ∈ c.percent, share.isFinite = true

/-- The figures of the three reports of an analysis, where they stand, are definite. -/
structure Analysis.ReportsDefinite (a : Analysis) : Prop where
  /-- Every row of a LaTeX table is cut into its cells. -/
  latex : ∀ t ∈ a.tables, ∃ header rows rest,
    Latex.cutRows (Latex.table t).toList = header :: rows ++ [rest ++ Latex.closing.toList] ∧
    List.Forall₂ (fun r row => ∃ front,
      Latex.cutCells false row = Latex.framed front (Latex.rowCells t r)) t.rows rows
  latex_definite : ∀ t ∈ a.tables, ∀ r ∈ t.rows, ∀ s ∈ (Latex.rowCells t r).tail, Definite s
  /-- The page is read as the tables that it is written with. -/
  html : ∀ l, ∃ root, Markup.read Html.vocabulary (Html.page l a).toList
    = some [.void "!DOCTYPE html".toList, root] ∧ Html.ShowsAnalysis l a root
  html_statistics : ∀ name key, ∀ s ∈ (Html.metricTexts a name key).drop 2, Definite s
  html_definite : ∀ t ∈ a.tables, ∀ r ∈ t.rows,
    ∀ s ∈ r.cells.map Html.cellText ++ r.speedups.map valueText, Definite s
  /-- The console has the figures in fields. -/
  console : ∀ v, Console.Prints (Console.summary v a) (a.names.flatMap (Console.experimentFigures a)) ∧
    Console.Prints (Console.tables v a) (a.tables.flatMap Console.tableFigures)
  console_statistics : ∀ name, ∀ s ∈ Console.experimentFigures a name, Definite s
  console_definite : ∀ t ∈ a.tables, ∀ r ∈ t.rows, ∀ s ∈ Console.rowFigures r, Definite s
  /-- The cells of phases on the console and on the page. -/
  phases : ∀ t ∈ a.tables, ∀ r ∈ t.rows, ∀ cells ∈ r.phases, ∀ cell ∈ cells,
    HasFiniteShare cell → Definite (Console.phaseText cell)

section Reports

variable {a : Analysis} {t : FamilyTable} {r : Row} {s : String}

theorem definite_valueText (v : Option Float) : Definite (valueText v) :=
  (writtenWith_valueText v).definite

theorem definite_natural (n : Nat) : Definite (toString n) :=
  (writtenWith_natural n).definite

theorem definite_of_subset (h : s.toList ⊆ numeralSigns) : Definite s :=
  (writtenWith_of_subset h).definite

theorem definite_speedup (h : s ∈ r.speedups.map valueText) : Definite s := by
  obtain ⟨v, -, rfl⟩ := List.mem_map.1 h
  exact definite_valueText v

/-- What the LaTeX tables and the page write for an experiment. -/
theorem definite_mean (c : Cell) :
    Definite (if c.value.count = 0 ∧ 0 < c.timeouts then "T/O" else valueText c.value.mean) := by
  split
  · exact definite_of_subset (by decide)
  · exact definite_valueText _

theorem definite_latexCell (c : Option Cell) : Definite (Latex.cellText c) := by
  cases c with
  | none => exact definite_of_subset (by decide)
  | some c => exact definite_mean c

theorem definite_htmlCell (c : Option Cell) : Definite (Html.cellText c) := by
  cases c with
  | none => exact definite_of_subset (by decide)
  | some c => exact definite_mean c

theorem definite_consoleCell (c : Option Cell) : Definite (Console.cellText c) := by
  apply WrittenWith.definite
  unfold Console.cellText
  split
  · split
    · exact writtenWith_of_subset (by decide)
    · exact (((writtenWith_valueText _).append (writtenWith_of_subset (by decide))).append
        (writtenWith_natural _)).append (writtenWith_of_subset (by decide))
  · exact writtenWith_of_subset (by decide)

/-- A phase with a finite share. -/
theorem definite_phaseText {cell : Option PhaseCell} (h : HasFiniteShare cell) :
    Definite (Console.phaseText cell) := by
  apply WrittenWith.definite
  unfold Console.phaseText
  split
  · rename_i c
    split
    · rename_i share hshare
      have hfinite := h c rfl share hshare
      exact (((writtenWith_valueText _).append (writtenWith_of_subset (by decide))).append
        (writtenWith_fixedText 0 hfinite)).append (writtenWith_of_subset (by decide))
    · exact writtenWith_valueText none
  · exact writtenWith_of_subset (by decide)

/-- Behind the model's name a row of a LaTeX table has figures only. -/
theorem definite_rowCells (h : s ∈ (Latex.rowCells t r).tail) : Definite s := by
  have hcount : ∀ (shown : Bool) (n : Option Nat),
      s ∈ (if shown then [Latex.countText n] else []) → Definite s := by
    intro shown n hs
    cases shown with
    | false => cases hs
    | true =>
      rw [List.mem_singleton.1 hs]
      cases n with
      | none => exact definite_of_subset (by decide)
      | some n => exact definite_natural n
  simp only [Latex.rowCells, List.cons_append, List.tail_cons, List.mem_append] at h
  rcases h with ((h | h) | h) | h
  · exact hcount _ _ h
  · exact hcount _ _ h
  · obtain ⟨c, -, rfl⟩ := List.mem_map.1 h
    exact definite_latexCell c
  · exact definite_speedup h

theorem reportsDefinite (h : ∀ t ∈ a.tables, t.Filled) : a.ReportsDefinite where
  latex t ht := by
    obtain ⟨rows, rest, hrows, hcells⟩ := Latex.exists_rows (h t ht)
    exact ⟨_, rows, rest, hrows, hcells.imp fun _ _ hcell => hcell.1⟩
  latex_definite t ht r hr s hs := definite_rowCells hs
  html l := Html.exists_read l h
  html_statistics name key := by
    intro s hs
    simp only [Html.metricTexts, List.drop_succ_cons, List.drop_zero, List.mem_cons,
      List.not_mem_nil, or_false] at hs
    rcases hs with rfl | rfl | rfl | rfl
    · exact definite_natural _
    · exact definite_valueText _
    · exact definite_valueText _
    · split
      · exact definite_natural _
      · exact definite_of_subset (by decide)
  html_definite t ht r hr s hs := by
    rcases List.mem_append.1 hs with hcell | hspeedup
    · obtain ⟨c, -, rfl⟩ := List.mem_map.1 hcell
      exact definite_htmlCell c
    · exact definite_speedup hspeedup
  console v := ⟨Console.prints_summary v a, Console.prints_tables v a⟩
  console_statistics name := by
    intro s hs
    simp only [Console.experimentFigures, List.mem_cons, List.not_mem_nil, or_false] at hs
    rcases hs with rfl | rfl | rfl | rfl
    · exact definite_natural _
    · exact definite_valueText _
    · exact definite_valueText _
    · exact definite_natural _
  console_definite t ht r hr s hs := by
    rcases List.mem_append.1 hs with hcell | hspeedup
    · obtain ⟨c, -, rfl⟩ := List.mem_map.1 hcell
      exact definite_consoleCell c
    · exact definite_speedup hspeedup
  phases t ht r hr cells hcells cell hcell hshare := definite_phaseText hshare

end Reports

/-- **Undefined ratios are dashed.**  Whatever a progress holds, the tables of its
    analysis have a row for each model of a family.  Exactly the undefined speedups of a
    row are written as the placeholder and nothing else, and so are the phases where the
    mean or the total time has no value or the total time is zero.  The three reports
    show these texts as they are, and but for the phases whose share is not finite no
    figure in them is NaN or infinite. -/
theorem undefined_ratios_dashed (c : Catalog) (xs : List Descriptor) (p : Progress) :
    (∀ t ∈ (analyse c xs p).tables, ∃ f ∈ c.families, t.family = f.name ∧
      List.Forall₂ (fun model r => r.Dashed p xs f t model) f.sortedModels t.rows) ∧
    (analyse c xs p).ReportsDefinite := by
  constructor
  · intro t ht
    obtain ⟨f, hf, metric, -, rfl⟩ := mem_tables.1 ht
    refine ⟨f, hf, rfl, ?_⟩
    show List.Forall₂ _ f.sortedModels (f.sortedModels.map _)
    rw [List.forall₂_map_right_iff, List.forall₂_same]
    intro model _
    exact row_dashed p xs f metric model
  · exact reportsDefinite fun t ht => filled_of_mem ht

/-- Of the two experiments of a new project only the first one is measured. -/
def Progress.halfMeasured : Progress where
  iterations := 1
  notDone := 1
  results := [("kanban01-s-1", [(timeKey, 2)])]
  timeouts := []
  nextIteration := 0

theorem undefined_ratios_dashed_half :
    ∃ t ∈ (analyse (Catalog.starter "en") starterExperiments .halfMeasured).tables,
      ∃ r ∈ t.rows, r.speedups.map valueText = ["--"] := by
  have hmean : ∀ f ∈ (Catalog.starter "en").families, ∀ s ∈ f.speedups, ∀ m ∈ f.sortedModels,
      Progress.halfMeasured.measured.operand? timeKey s.denominator m = none := by
    decide +kernel
  have hone : ∀ f ∈ (Catalog.starter "en").families, f.speedups.length = 1 := by decide
  have hrow : ∃ t ∈ (analyse (Catalog.starter "en") starterExperiments .halfMeasured).tables,
      t.metric = timeKey ∧ ∃ r ∈ t.rows, True := by
    decide +kernel
  obtain ⟨t, ht, hmetric, r, hr, -⟩ := hrow
  obtain ⟨hrows, -⟩ :=
    undefined_ratios_dashed (Catalog.starter "en") starterExperiments .halfMeasured
  obtain ⟨f, hf, -, hall⟩ := hrows t ht
  obtain ⟨m, hm, hdashed⟩ := exists_mem_left hall hr
  have hspeedups := hdashed.speedups
  obtain ⟨s, hs⟩ := List.length_eq_one_iff.1 (hone f hf)
  rw [hs, hmetric] at hspeedups
  obtain ⟨quotient, rest, hiff, hrest, hquotients⟩ := List.forall₂_cons_left_iff.1 hspeedups
  rw [List.forall₂_nil_left_iff.1 hrest] at hquotients
  refine ⟨t, ht, r, hr, ?_⟩
  -- Nothing was measured of the experiment below the line.
  have hundefined : Valueless (Progress.halfMeasured.measured.operand? timeKey s.denominator m) := by
    rw [hmean f hf s (by rw [hs]; exact List.mem_singleton_self s) m hm]
    exact valueless_none
  rw [hquotients, List.map_cons, List.map_nil, hiff.2 (.inl (.inr (.inl hundefined)))]
  rfl

/-- The log of a run that tells its time and that of a phase. -/
def phaseLog (time phase : List Char) : List Char :=
  "Time for computing the bisimulation relation: ".toList ++ time
    ++ "\nTime for partition refinement: ".toList ++ phase

/-- One run took no time that can be told, and a phase of the other one more than a
    double can tell. -/
def Progress.extreme : Progress where
  iterations := 1
  notDone := 0
  results := [("kanban01-s-1", [(timeKey, 0), ("tref", 1)]),
    ("kanban01-s-4", [(timeKey, 2), ("tref", 1 / 0)])]
  timeouts := []
  nextIteration := 1

/-- Logs can say what is in the progress.  The speedup has a numerator of zero and is
    written as the number it is; the share of the endless phase is no finite number and
    is written behind the placeholder. -/
theorem zero_and_endless_written :
    LogFormat.mc.read (phaseLog ['0'] ['1']) = some [(timeKey, 0), ("tref", 1)] ∧
    LogFormat.mc.read (phaseLog ['2'] ('1' :: List.replicate 309 '0'))
      = some [(timeKey, 2), ("tref", 1 / 0)] ∧
    Progress.extreme.measured.aggregate.mean? "kanban01-s-1" timeKey = some 0 ∧
    ((analyse (Catalog.starter "en") starterExperiments .extreme).tables.flatMap fun t =>
      t.rows.flatMap fun r => r.speedups.map valueText) = ["0.00"] ∧
    ((analyse (Catalog.starter "en") starterExperiments .extreme).tables.flatMap fun t =>
      t.rows.map fun r => r.phases.map fun cells => cells.map Console.phaseText)
        = [[["--", "--"], ["--", "-- (inf%)"]]] := by
  decide +kernel

end BenchSweep
