import BenchSweep.Proofs.Report.Layout
import BenchSweep.Report.Console

/-! # The Fields of a Console Report

    A console report is words and figures, each figure at the right end of a field.
    Which figures these are is known line by line, whatever the words are and whatever
    styles are painted: a style begins in front of a field and ends behind it, and none
    begins or ends within a figure. -/

namespace BenchSweep

namespace Text

/-! ## Section 1: Painted texts -/

/-- Where no control sequence stands, no style is begun again. -/
theorem resume_of_notMem {start t : List Char} (h : '\x1b' ∉ t) : resume start t = t := by
  fun_induction resume start t with
  | case1 t ih => exact absurd List.mem_cons_self h
  | case2 c t _ ih => rw [ih fun hmem => h (List.mem_cons_of_mem c hmem)]
  | case3 => rfl

/-- What begins with a blank is no part of a reset in front of it. -/
theorem resume_append {start s t : List Char} (hblank : ∀ c ∈ t.head?, c = ' ')
    (h : '\x1b' ∉ t) : resume start (s ++ t) = resume start s ++ t := by
  fun_induction resume start s with
  | case1 s ih => simp [resume, ih]
  | case2 c s hne ih =>
    have hreset : ∀ u, c = '\x1b' → s ++ t = '[' :: '0' :: 'm' :: u → False := by
      intro u hc hsplit
      -- Only a text of fewer than three characters could leave a rest of the reset to `t`.
      rcases s with _ | ⟨a, _ | ⟨b, _ | ⟨d, s⟩⟩⟩ <;> simp_all
    rw [List.cons_append, resume, ih, List.cons_append]
    exact hreset
  | case3 => exact resume_of_notMem h

theorem notMem_spaces {c : Char} (h : c ≠ ' ') (n : Nat) : c ∉ (spaces n).toList := by
  intro hc
  rw [spaces, String.toList_ofList] at hc
  exact h (List.eq_of_mem_replicate hc)

theorem notMem_padLeft {c : Char} {s : String} (hblank : c ≠ ' ') (h : c ∉ s.toList)
    (width : Nat) : c ∉ (padLeft width s).toList := by
  rw [padLeft, String.toList_append, List.mem_append]
  exact fun hc => hc.elim (notMem_spaces hblank _) h

end Text

namespace Console

open Text (Style padLeft padRight)

/-! ## Section 2: Texts with figures -/

/-- The text has these figures, each in a field of its own, from left to right, and
    words around them. -/
inductive Prints : String → List String → Prop
  | words (s : String) : Prints s []
  | figure {t : String} {fs : List String} (s : String) (width : Nat) (f : String)
      (h : Prints t fs) : Prints (s ++ padLeft width f ++ t) (f :: fs)

section Prints

variable {s t : String} {fs gs : List String} {f : String}

theorem Prints.append (hs : Prints s fs) (ht : Prints t gs) : Prints (s ++ t) (fs ++ gs) := by
  induction hs with
  | words s =>
    cases ht with
    | words t => exact .words _
    | figure u width f h =>
      rw [← String.append_assoc, ← String.append_assoc]
      exact .figure (s ++ u) width f h
  | figure u width f _ ih =>
    rw [String.append_assoc]
    exact .figure u width f ih

theorem Prints.behind (s : String) (h : Prints t fs) : Prints (s ++ t) fs :=
  (Prints.words s).append h

theorem Prints.before (t : String) (h : Prints s fs) : Prints (s ++ t) fs := by
  have happend := h.append (.words t)
  rwa [List.append_nil] at happend

theorem Prints.line (h : Prints s fs) : Prints (line s) fs :=
  h.before "\n"

section Join

variable {α : Type} {xs : List α} {g : α → String}

theorem Prints.join {figures : α → List String} (h : ∀ x ∈ xs, Prints (g x) (figures x)) :
    Prints (String.join (xs.map g)) (xs.flatMap figures) := by
  induction xs with
  | nil => exact .words _
  | cons x xs ih =>
    rw [List.map_cons, String.join_cons, List.flatMap_cons]
    exact (h x List.mem_cons_self).append (ih fun y hy => h y (List.mem_cons_of_mem x hy))

/-- One figure each. -/
theorem Prints.join_map {figure : α → String} (h : ∀ x ∈ xs, Prints (g x) [figure x]) :
    Prints (String.join (xs.map g)) (xs.map figure) := by
  rw [List.map_eq_flatMap (f := figure)]
  exact Prints.join h

end Join

theorem prints_field (width : Nat) (f : String) : Prints (padLeft width f) [f] := by
  have hfield := Prints.figure "" width f (.words "")
  rwa [String.empty_append, String.append_empty] at hfield

/-- A figure with a style of its own. -/
theorem prints_paint (v : Voice) (style : Style) (width : Nat) (h : '\x1b' ∉ f.toList) :
    Prints (v.paint style (padLeft width f)) [f] := by
  unfold Voice.paint Text.paint
  split
  · rw [Text.resume_of_notMem (Text.notMem_padLeft (by decide) h width), String.ofList_toList]
    exact .figure style.start width f (.words Style.reset)
  · exact prints_field width f

/-- A style takes a text with figures as it is if no control sequence stands there, and
    if it is set off from the words in front of it. -/
theorem Prints.paint_behind (ht : Prints t fs) (hblank : ∀ c ∈ t.toList.head?, c = ' ')
    (hescape : '\x1b' ∉ t.toList) (v : Voice) (style : Style) (s : String) :
    Prints (v.paint style (s ++ t)) fs := by
  unfold Voice.paint Text.paint
  split
  · -- The words may hold resets, behind which the style begins again; the figures do not.
    rw [String.toList_append, Text.resume_append hblank hescape, String.ofList_append,
      String.ofList_toList]
    exact ((ht.behind _).behind style.start).before Style.reset
  · exact ht.behind s

section Fields

variable {α : Type} {xs : List α} {figure : α → String} (width : Nat)

/-- Fields, each behind a blank. -/
theorem prints_fields :
    Prints (String.join (xs.map fun x => " " ++ padLeft width (figure x))) (xs.map figure) :=
  Prints.join_map fun x _ => (prints_field width (figure x)).behind " "

theorem head?_fields :
    ∀ c ∈ (String.join (xs.map fun x => " " ++ padLeft width (figure x))).toList.head?, c = ' ' := by
  cases xs with
  | nil => simp
  | cons x xs => simp [String.join_cons]

theorem notMem_fields (h : ∀ x ∈ xs, '\x1b' ∉ (figure x).toList) :
    '\x1b' ∉ (String.join (xs.map fun x => " " ++ padLeft width (figure x))).toList := by
  rw [String.toList_join, List.mem_flatMap]
  intro ⟨t, ht, hmem⟩
  obtain ⟨x, hx, rfl⟩ := List.mem_map.1 ht
  rw [String.toList_append, List.mem_append] at hmem
  exact hmem.elim (by decide) (Text.notMem_padLeft (by decide) (h x hx) width)

end Fields

end Prints

/-! ## Section 3: Reports -/

/-- The figures of an experiment's line. -/
def experimentFigures (a : Analysis) (name : String) : List String :=
  let time := a.aggregate.summary? name timeKey
  [toString ((time.map Summary.count).getD 0), valueText (time.bind Summary.mean),
    valueText (time.bind Summary.stdDev), toString ((a.timeouts.find? name).getD 0)]

/-- The figures of a model's line. -/
def rowFigures (r : Row) : List String :=
  r.cells.map cellText ++ r.speedups.map valueText

/-- The figures of the lines of a model's phases. -/
def phaseFigures (t : FamilyTable) (r : Row) : List String :=
  (t.phases.zip r.phases).flatMap fun p => p.2.map phaseText

/-- The figures of a table. -/
def tableFigures (t : FamilyTable) : List String :=
  t.rows.flatMap rowFigures ++ t.rows.flatMap (phaseFigures t)

/-- No figure holds a control sequence. -/
theorem notMem_figure {f : String} (h : IsFigure f) : '\x1b' ∉ f.toList :=
  h.notMem (by decide) (by decide)

theorem prints_experimentLine (v : Voice) (a : Analysis) (name : String) :
    Prints (experimentLine v a name) (experimentFigures a name) := by
  have htimeouts : ∀ n : Nat, Prints
      (if 0 < n then v.paint .red (padLeft 8 (toString n)) else padLeft 8 (toString n))
      [toString n] := by
    intro n
    split
    · exact prints_paint v .red 8 (notMem_figure (isFigure_natural n))
    · exact prints_field 8 _
  have hname := Prints.words ("  " ++ padRight 40 name)
  unfold experimentLine summaryLine experimentFigures
  apply Prints.line
  exact ((((((((hname.append (.words " ")).append (prints_field 5 _)).append (.words " ")).append
    (prints_field 10 _)).append (.words " ")).append (prints_field 10 _)).append (.words " ")).append
    (htimeouts _))

theorem prints_summary (v : Voice) (a : Analysis) :
    Prints (summary v a) (a.names.flatMap (experimentFigures a)) := by
  apply Prints.behind
  exact Prints.join fun name _ => prints_experimentLine v a name

theorem prints_rowLine (v : Voice) (r : Row) : Prints (rowLine v r) (rowFigures r) := by
  have hspeedups : Prints
      (String.join (r.speedups.map fun s => " " ++ v.paint .green (padLeft 10 (valueText s))))
      (r.speedups.map valueText) :=
    Prints.join_map fun s _ =>
      (prints_paint v .green 10 (notMem_figure (isFigure_valueText s))).behind " "
  unfold rowLine rowFigures
  apply Prints.line
  exact ((prints_fields 16).behind _).append hspeedups

theorem prints_phaseLine (v : Voice) (model phase : String) (cells : List (Option PhaseCell)) :
    Prints (phaseLine v model phase cells) (cells.map phaseText) := by
  have hescape := notMem_fields 16 fun c (_ : c ∈ cells) => notMem_figure (isFigure_phaseText c)
  apply Prints.line
  exact (prints_fields 16).paint_behind (head?_fields 16) hescape v .dimmed _

theorem prints_phases (v : Voice) (t : FamilyTable) :
    Prints (phases v t) (t.rows.flatMap (phaseFigures t)) := by
  unfold phases
  split
  · rename_i hnone
    -- A table without phases has no lines for them, nor figures.
    have hfigures : t.rows.flatMap (phaseFigures t) = [] := by
      simp [phaseFigures, hnone]
    rw [hfigures]
    exact .words ""
  · apply Prints.behind
    apply Prints.join
    intro r _
    exact Prints.join fun p _ => prints_phaseLine v r.model p.1 p.2

theorem prints_table (v : Voice) (t : FamilyTable) : Prints (table v t) (tableFigures t) := by
  have hrows : Prints (String.join (t.rows.map (rowLine v))) (t.rows.flatMap rowFigures) :=
    Prints.join fun r _ => prints_rowLine v r
  unfold table tableFigures
  exact (hrows.behind _).append (prints_phases v t)

theorem prints_tables (v : Voice) (a : Analysis) :
    Prints (tables v a) (a.tables.flatMap tableFigures) :=
  Prints.join fun t _ => prints_table v t

end Console

end BenchSweep
