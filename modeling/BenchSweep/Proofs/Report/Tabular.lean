import Mathlib.Data.List.SplitBy
import BenchSweep.Proofs.Report.Layout
import BenchSweep.Report.Latex

/-! # LaTeX Tables Are Rectangular

    A table is read by cutting it between any two backslashes that stand side by side,
    and each of its rows at every ampersand that has no backslash in front of it.  No
    escaped text is cut in either way, and none ends in a backslash, so the cuts are
    those that the table was written with. -/

namespace BenchSweep.Latex

/-! ## Section 1: Reading a table -/

/-- Whether two neighbours belong to one row: not both are backslashes. -/
def sameRow (a b : Char) : Bool :=
  !(a == '\\' && b == '\\')

/-- A text, cut between any two backslashes that stand side by side. -/
def cutRows (text : List Char) : List (List Char) :=
  text.splitBy sameRow

/-- A text, cut at every ampersand that has no backslash in front of it.  In front of
    the text itself one may stand. -/
def cutCells (escaped : Bool) : List Char → List (List Char)
  | [] => [[]]
  | c :: s =>
    if c = '&' ∧ escaped = false then [] :: cutCells false s
    else (cutCells (c == '\\') s).modifyHead (c :: ·)

/-- The letters of the columns: what stands in the second pair of braces. -/
def columnLetters (text : List Char) : List Char :=
  ((text.dropWhile (· ≠ '\x7d')).drop 2).takeWhile (· ≠ '\x7d')

/-! ## Section 2: Texts that are not cut -/

/-- No row ends in the text, nor with it. -/
structure InRow (w : List Char) : Prop where
  chain : w.IsChain fun a b => sameRow a b
  last : w.getLast? ≠ some '\\'

/-- No cell ends in the text either, and nothing behind it is escaped by it. -/
structure InCell (w : List Char) : Prop extends InRow w where
  cell : ∀ s, cutCells false (w ++ s) = (cutCells false s).modifyHead (w ++ ·)

theorem cutCells_cons_of_ne {c : Char} (h : c ≠ '&') (escaped : Bool) (s : List Char) :
    cutCells escaped (c :: s) = (cutCells (c == '\\') s).modifyHead (c :: ·) := by
  rw [cutCells, if_neg fun hc => h hc.1]

theorem cutCells_ampersand (s : List Char) : cutCells false ('&' :: s) = [] :: cutCells false s := by
  rw [cutCells, if_pos ⟨rfl, rfl⟩]

theorem inRow_nil : InRow [] where
  chain := List.isChain_nil
  last := nofun

theorem InRow.append {v w : List Char} (hv : InRow v) (hw : InRow w) : InRow (v ++ w) where
  chain := by
    refine hv.chain.append hw.chain fun a ha b _ => ?_
    have hne : a ≠ '\\' := fun heq => hv.last (by rw [← heq]; exact ha)
    simp [sameRow, hne]
  last := by
    rw [List.getLast?_append]
    cases hlast : w.getLast? with
    | none => exact hv.last
    | some a =>
      rw [Option.some_or, ← hlast]
      exact hw.last

theorem inRow_singleton {c : Char} (h : c ≠ '\\') : InRow [c] where
  chain := List.isChain_singleton c
  last heq := h (Option.some.inj heq)

theorem inCell_nil : InCell [] where
  toInRow := inRow_nil
  cell s := by
    cases h : cutCells false s <;> simp [h]

theorem InCell.append {v w : List Char} (hv : InCell v) (hw : InCell w) : InCell (v ++ w) where
  toInRow := hv.toInRow.append hw.toInRow
  cell s := by
    rw [List.append_assoc, hv.cell, hw.cell, List.modifyHead_modifyHead]
    congr 1
    funext u
    exact (List.append_assoc v w u).symm

theorem InCell.flatMap {α : Type} {f : α → List Char} {xs : List α} (h : ∀ x ∈ xs, InCell (f x)) :
    InCell (xs.flatMap f) := by
  induction xs with
  | nil => exact inCell_nil
  | cons x xs ih =>
    rw [List.flatMap_cons]
    exact (h x List.mem_cons_self).append (ih fun y hy => h y (List.mem_cons_of_mem x hy))

/-- A character that is neither an ampersand nor a backslash. -/
theorem inCell_singleton {c : Char} (hcell : c ≠ '&') (hrow : c ≠ '\\') : InCell [c] where
  toInRow := inRow_singleton hrow
  cell s := by
    rw [List.singleton_append, cutCells_cons_of_ne hcell, beq_eq_false_iff_ne.2 hrow]
    rfl

/-- Without ampersands and backslashes a text is not cut. -/
theorem inCell_of_notMem {w : List Char} (hcell : '&' ∉ w) (hrow : '\\' ∉ w) : InCell w := by
  have hw : w.flatMap (fun c => [c]) = w := List.flatMap_singleton' w
  rw [← hw]
  refine InCell.flatMap fun c hc => inCell_singleton ?_ ?_
  · rintro rfl
    exact hcell hc
  · rintro rfl
    exact hrow hc

/-- Behind a backslash an ampersand may stand, and nothing is cut. -/
theorem inCell_backslash {c : Char} (hrow : c ≠ '\\') : InCell ['\\', c] where
  chain := by
    rw [List.isChain_pair]
    simp [sameRow, hrow]
  last heq := hrow (Option.some.inj heq)
  cell s := by
    have hcut : cutCells true (c :: s) = (cutCells false s).modifyHead (c :: ·) := by
      rw [cutCells, if_neg fun hc => Bool.noConfusion hc.2, beq_eq_false_iff_ne.2 hrow]
    show cutCells false ('\\' :: c :: s) = _
    rw [cutCells_cons_of_ne (by decide)]
    show (cutCells true (c :: s)).modifyHead _ = _
    rw [hcut, List.modifyHead_modifyHead]
    rfl

/-- A backslash and what it stands in front of. -/
theorem inCell_command {c : Char} {w : List Char} (hc : c ≠ '\\') (hcell : '&' ∉ w)
    (hrow : '\\' ∉ w) : InCell ('\\' :: c :: w) :=
  (inCell_backslash hc).append (inCell_of_notMem hcell hrow)

theorem inCell_figure {s : String} (h : IsFigure s) : InCell s.toList :=
  inCell_of_notMem (h.notMem (by decide) (by decide)) (h.notMem (by decide) (by decide))

/-! ## Section 3: Escaped texts -/

/-- The characters that are escaped, with what stands behind the backslash: the
    character itself, or the name of a command. -/
def escapes : List (Char × List Char) :=
  ['_', '%', '&', '#', '$', '\x7b', '\x7d'].map (fun c => (c, [c])) ++
    [('\\', "textbackslash\x7b\x7d".toList), ('^', "textasciicircum\x7b\x7d".toList),
      ('~', "textasciitilde\x7b\x7d".toList)]

theorem escapeChar_cases (c : Char) :
    (∃ w, (c, w) ∈ escapes ∧ escapeChar c = '\\' :: w) ∨
      (escapeChar c = [c] ∧ c ≠ '&' ∧ c ≠ '\\') := by
  unfold escapeChar
  split
  · rename_i hmarked
    exact Or.inl ⟨[c], List.mem_append_left _ (List.mem_map_of_mem hmarked), rfl⟩
  · rename_i hmarked
    split
    · rename_i heq
      exact Or.inl ⟨_, by rw [heq]; decide, rfl⟩
    · rename_i hrow
      split
      · rename_i heq
        exact Or.inl ⟨_, by rw [heq]; decide, rfl⟩
      · split
        · rename_i heq
          exact Or.inl ⟨_, by rw [heq]; decide, rfl⟩
        · refine Or.inr ⟨rfl, ?_, hrow⟩
          rintro rfl
          exact hmarked (by decide)

/-- What follows the backslash of an escape never begins with one, and is no ampersand
    but directly behind it. -/
theorem inCell_of_mem_escapes {e : Char × List Char} (h : e ∈ escapes) : InCell ('\\' :: e.2) := by
  have hall : ∀ e ∈ escapes, e.2 ≠ [] ∧ e.2.head? ≠ some '\\' ∧ '&' ∉ e.2.tail ∧ '\\' ∉ e.2.tail := by
    decide
  obtain ⟨hne, hhead, hcell, hrow⟩ := hall e h
  obtain ⟨c, w, he⟩ := List.exists_cons_of_ne_nil hne
  rw [he] at hhead hcell hrow ⊢
  exact inCell_command (fun hc => hhead (congrArg some hc)) hcell hrow

theorem inCell_escape (s : String) : InCell (escape s).toList := by
  rw [escape, String.toList_ofList]
  refine InCell.flatMap fun c _ => ?_
  rcases escapeChar_cases c with ⟨w, hw, h⟩ | ⟨h, hcell, hrow⟩
  · rw [h]
    exact inCell_of_mem_escapes hw
  · rw [h]
    exact inCell_singleton hcell hrow

/-- No escape goes on where another one ends, so it can be told where each ends. -/
theorem escapeChar_append_inj {c d : Char} {s t : List Char}
    (h : escapeChar c ++ s = escapeChar d ++ t) : c = d ∧ s = t := by
  have hbegins : ∀ e ∈ escapes, ∀ e' ∈ escapes, e.2 <+: e'.2 → e = e' := by decide
  rcases escapeChar_cases c with ⟨w, hw, hc⟩ | ⟨hc, -, hrow⟩ <;>
    rcases escapeChar_cases d with ⟨w', hw', hd⟩ | ⟨hd, -, hrow'⟩ <;>
    rw [hc, hd] at h
  · have hrest : w ++ s = w' ++ t := (List.cons.inj h).2
    have heq : (c, w) = (d, w') := by
      rcases List.prefix_or_prefix_of_prefix (List.prefix_append w s)
        (hrest ▸ List.prefix_append w' t) with hle | hle
      · exact hbegins _ hw _ hw' hle
      · exact (hbegins _ hw' _ hw hle).symm
    cases heq
    exact ⟨rfl, List.append_cancel_left hrest⟩
  · exact absurd (List.cons.inj h).1.symm hrow'
  · exact absurd (List.cons.inj h).1 hrow
  · exact List.cons.inj h

/-- The escaped form of a text determines the text. -/
theorem escape_injective : Function.Injective escape := by
  have hne : ∀ c s, escapeChar c ++ s ≠ [] := by
    intro c s
    rcases escapeChar_cases c with ⟨w, -, h⟩ | ⟨h, -⟩ <;>
    · rw [h]
      exact List.cons_ne_nil _ _
  have hchars : ∀ s t : List Char, s.flatMap escapeChar = t.flatMap escapeChar → s = t := by
    intro s
    induction s with
    | nil =>
      intro t h
      cases t with
      | nil => rfl
      | cons d t => exact absurd h.symm (hne d _)
    | cons c s ih =>
      intro t h
      cases t with
      | nil => exact absurd h (hne c _)
      | cons d t =>
        obtain ⟨rfl, hrest⟩ := escapeChar_append_inj h
        rw [ih t hrest]
  intro s t h
  rw [← String.toList_inj]
  apply hchars
  simpa [escape] using congrArg String.toList h

/-! ## Section 4: Rows -/

/-- The cells of a row as they are read: what stands in front of the first cell, blanks
    around the separators, and the first half of the row's end. -/
def framed (front : List Char) : List String → List (List Char)
  | [] => []
  | [c] => [front ++ c.toList ++ [' ', '\\']]
  | c :: d :: cs => (front ++ c.toList ++ [' ']) :: framed [' '] (d :: cs)

@[simp] theorem length_framed (front : List Char) (cs : List String) :
    (framed front cs).length = cs.length := by
  induction cs generalizing front with
  | nil => rfl
  | cons c cs ih =>
    cases cs with
    | nil => rfl
    | cons d cs =>
      rw [framed, List.length_cons, ih]
      rfl

/-- What is read of a row and what stands in front of it, up to the first half of the
    row's end. -/
def rowText (front : List Char) (cs : List String) : List Char :=
  front ++ (String.intercalate " & " cs).toList ++ [' ', '\\']

theorem toList_intercalate_cons_cons (c d : String) (cs : List String) :
    (String.intercalate " & " (c :: d :: cs)).toList
      = c.toList ++ [' ', '&', ' '] ++ (String.intercalate " & " (d :: cs)).toList := by
  rw [String.toList_intercalate, String.toList_intercalate]
  exact List.intercalate_cons_cons

/-- A row is cut into its cells. -/
theorem cutCells_rowText {front : List Char} (hfront : InCell front) {cs : List String}
    (hne : cs ≠ []) (h : ∀ c ∈ cs, InCell c.toList) :
    cutCells false (rowText front cs) = framed front cs := by
  induction cs generalizing front with
  | nil => exact absurd rfl hne
  | cons c cs ih =>
    have hc := hfront.append (h c List.mem_cons_self)
    cases cs with
    | nil =>
      rw [rowText, String.intercalate_singleton, hc.cell]
      rfl
    | cons d cs =>
      -- The separator's blanks belong to the cells around it.
      have hblank : InCell [' '] := inCell_singleton (by decide) (by decide)
      have hrest := ih hblank (List.cons_ne_nil d cs) fun e he => h e (List.mem_cons_of_mem c he)
      have hsplit : rowText front (c :: d :: cs)
          = (front ++ c.toList ++ [' ']) ++ '&' :: rowText [' '] (d :: cs) := by
        simp [rowText]
      rw [hsplit, (hc.append hblank).cell, cutCells_ampersand, hrest, framed]
      simp

theorem inRow_intercalate {cs : List String} (h : ∀ c ∈ cs, InRow c.toList) :
    InRow (String.intercalate " & " cs).toList := by
  induction cs with
  | nil => exact inRow_nil
  | cons c cs ih =>
    have hc := h c List.mem_cons_self
    cases cs with
    | nil =>
      rw [String.intercalate_singleton]
      exact hc
    | cons d cs =>
      rw [toList_intercalate_cons_cons]
      have hseparator : InRow [' ', '&', ' '] := ⟨by decide, by decide⟩
      exact (hc.append hseparator).append (ih fun e he => h e (List.mem_cons_of_mem c he))

/-- Behind the first half of a row's end the text is cut, and not before. -/
theorem cutRows_rowText {front : List Char} (hfront : InRow front) {cs : List String}
    (h : ∀ c ∈ cs, InRow c.toList) (s : List Char) :
    cutRows (rowText front cs ++ '\\' :: s) = rowText front cs :: cutRows ('\\' :: s) := by
  have hchain : (rowText front cs).IsChain fun a b => sameRow a b := by
    have hfirst := hfront.append (inRow_intercalate h)
    refine hfirst.chain.append (by decide) fun a ha b hb => ?_
    rw [← Option.some.inj hb]
    simp [sameRow]
  have hlast : (rowText front cs).getLast? = some '\\' := by
    rw [rowText, List.getLast?_append]
    rfl
  rw [cutRows, List.splitBy_append_cons, List.splitBy_of_isChain _ hchain]
  · rfl
  · intro hnil
    rw [hnil] at hlast
    cases hlast
  · intro a ha
    rw [hlast] at ha
    rw [← Option.some.inj ha]
    rfl

/-! ## Section 5: Tables -/

/-- How many columns a table has: the models', those of the states and the blocks if any
    are known, and one for each label. -/
def width (t : FamilyTable) : Nat :=
  1 + (showsStates t).toNat + (showsBlocks t).toNat + t.columns.length + t.speedups.length

/-- What a table begins with. -/
def opening (t : FamilyTable) : String :=
  "\\begin\x7btabular\x7d\x7b" ++ alignment t ++ "\x7d\n\\toprule\n"

/-- What a table ends with, behind the rows. -/
def closing : String :=
  "\\bottomrule\n\\end\x7btabular\x7d\n"

/-- The rows of a table as they are read.  Behind the end of a row stands its second
    half; behind that of the header, a rule. -/
def rowTexts (front : List Char) : List (List String) → List (List Char)
  | [] => [front ++ closing.toList]
  | cs :: rows => rowText front cs :: rowTexts ['\\', '\n'] rows

section Rows

variable {t : FamilyTable} {r : Row}

theorem length_headerCells (t : FamilyTable) : (headerCells t).length = width t := by
  unfold headerCells width
  cases showsStates t <;> cases showsBlocks t <;> simp <;> omega

theorem length_rowCells (h : t.Filled) (hr : r ∈ t.rows) : (rowCells t r).length = width t := by
  have hcells := h.cells r hr
  have hspeedups := h.speedups r hr
  unfold rowCells width
  cases showsStates t <;> cases showsBlocks t <;> simp <;> omega

/-- The models' names stand to the left, all else to the right. -/
theorem toList_alignment (t : FamilyTable) :
    (alignment t).toList = 'l' :: List.replicate (width t - 1) 'r' := by
  unfold alignment width
  cases showsStates t <;> cases showsBlocks t <;>
    simp [← List.replicate_succ, Nat.add_comm, Nat.add_left_comm, Nat.add_assoc]

theorem inCell_headerCells {c : String} (h : c ∈ headerCells t) : InCell c.toList := by
  have hlabels : ∀ labels : List String, c ∈ labels.map escape → InCell c.toList := by
    intro labels hc
    obtain ⟨label, -, rfl⟩ := List.mem_map.1 hc
    exact inCell_escape label
  have hcount : ∀ (shown : Bool) (name : String), InCell name.toList →
      c ∈ (if shown then [name] else []) → InCell c.toList := by
    intro shown name hname hc
    cases shown with
    | false => cases hc
    | true => rwa [List.mem_singleton.1 hc]
  simp only [headerCells, List.cons_append, List.mem_cons, List.mem_append] at h
  rcases h with rfl | ((h | h) | h) | h
  · exact inCell_escape "Model"
  · exact hcount _ _ (inCell_of_notMem (by decide) (by decide)) h
  · exact hcount _ _ (inCell_of_notMem (by decide) (by decide)) h
  · exact hlabels _ h
  · exact hlabels _ h

theorem isFigure_countText (n : Option Nat) : IsFigure (countText n) := by
  cases n with
  | none => exact isFigure_of_signs (by decide)
  | some n => exact isFigure_natural n

theorem isFigure_cellText (c : Option Cell) : IsFigure (cellText c) := by
  unfold cellText
  split
  · split
    · exact isFigure_of_signs (by decide)
    · exact isFigure_valueText _
  · exact isFigure_of_signs (by decide)

theorem inCell_rowCells {c : String} (h : c ∈ rowCells t r) : InCell c.toList := by
  have hcount : ∀ (shown : Bool) (n : Option Nat),
      c ∈ (if shown then [countText n] else []) → InCell c.toList := by
    intro shown n hc
    cases shown with
    | false => cases hc
    | true =>
      rw [List.mem_singleton.1 hc]
      exact inCell_figure (isFigure_countText n)
  simp only [rowCells, List.cons_append, List.mem_cons, List.mem_append, List.mem_map] at h
  rcases h with rfl | ((h | h) | ⟨cell, -, rfl⟩) | ⟨speedup, -, rfl⟩
  · exact inCell_escape r.model
  · exact hcount _ _ h
  · exact hcount _ _ h
  · exact inCell_figure (isFigure_cellText cell)
  · exact inCell_figure (isFigure_valueText speedup)

theorem notMem_alignment {c : Char} (hl : c ≠ 'l') (hr : c ≠ 'r') : c ∉ (alignment t).toList := by
  rw [toList_alignment, List.mem_cons]
  rintro (heq | hmem)
  · exact hl heq
  · exact hr (List.eq_of_mem_replicate hmem)

theorem inCell_opening (t : FamilyTable) : InCell (opening t).toList := by
  have halignment : InCell (alignment t).toList :=
    inCell_of_notMem (notMem_alignment (by decide) (by decide))
      (notMem_alignment (by decide) (by decide))
  have hbegin : InCell "\\begin\x7btabular\x7d\x7b".toList :=
    inCell_command (by decide) (by decide) (by decide)
  have hbrace : InCell "\x7d\n".toList := inCell_of_notMem (by decide) (by decide)
  have hrule : InCell "\\toprule\n".toList :=
    inCell_command (by decide) (by decide) (by decide)
  unfold opening
  rw [String.toList_append, String.toList_append]
  exact (hbegin.append halignment).append (hbrace.append hrule)

theorem inCell_rule : InCell ('\\' :: "\n\\midrule\n".toList) := by
  have hrule : InCell "\\midrule\n".toList :=
    inCell_command (by decide) (by decide) (by decide)
  exact (inCell_backslash (by decide : '\n' ≠ '\\')).append hrule

theorem inRow_closing : InRow closing.toList :=
  ⟨by decide, by decide⟩

/-- The lines of some rows, as they are cut. -/
theorem cutRows_rowTexts {front : List Char} (hfront : InRow ('\\' :: front))
    {rows : List (List String)} (h : ∀ cs ∈ rows, ∀ c ∈ cs, InRow c.toList) :
    cutRows ('\\' :: front ++ (rows.flatMap fun cs => (line cs).toList) ++ closing.toList)
      = rowTexts ('\\' :: front) rows := by
  induction rows generalizing front with
  | nil =>
    rw [List.flatMap_nil, List.append_nil, cutRows, rowTexts]
    exact List.splitBy_of_isChain (List.cons_ne_nil _ _) (hfront.append inRow_closing).chain
  | cons cs rows ih =>
    have hend : InRow ['\\', '\n'] := ⟨by decide, by decide⟩
    have hrest := ih hend fun ds hds => h ds (List.mem_cons_of_mem cs hds)
    have hsplit : '\\' :: front ++ ((cs :: rows).flatMap fun cs => (line cs).toList) ++ closing.toList
        = rowText ('\\' :: front) cs
          ++ '\\' :: ('\n' :: (rows.flatMap fun cs => (line cs).toList) ++ closing.toList) := by
      simp [rowText, line]
    rw [hsplit, cutRows_rowText hfront (h cs List.mem_cons_self), rowTexts]
    exact congrArg _ hrest

/-- The text of a table, from row to row. -/
theorem toList_table (t : FamilyTable) :
    (table t).toList = rowText (opening t).toList (headerCells t)
      ++ '\\' :: ("\n\\midrule\n".toList
        ++ ((t.rows.map (rowCells t)).flatMap fun cs => (line cs).toList) ++ closing.toList) := by
  unfold table opening closing
  simp [line, rowText, List.flatMap_map]

/-- A table is cut into its header, its rows and what stands behind them. -/
theorem cutRows_table (t : FamilyTable) :
    cutRows (table t).toList = rowText (opening t).toList (headerCells t)
      :: rowTexts ('\\' :: "\n\\midrule\n".toList) (t.rows.map (rowCells t)) := by
  have hrows : ∀ cs ∈ t.rows.map (rowCells t), ∀ c ∈ cs, InRow c.toList := by
    intro cs hcs c hc
    obtain ⟨r, -, rfl⟩ := List.mem_map.1 hcs
    exact (inCell_rowCells hc).toInRow
  rw [toList_table, cutRows_rowText (inCell_opening t).toInRow fun c hc => (inCell_headerCells hc).toInRow]
  exact congrArg _ (cutRows_rowTexts inCell_rule.toInRow hrows)

/-- The letters of the columns are read off the text. -/
theorem columnLetters_table (t : FamilyTable) :
    columnLetters (table t).toList = 'l' :: List.replicate (width t - 1) 'r' := by
  have hbefore : ∀ w : List Char, '\x7d' ∉ w → ∀ c ∈ w, decide (c ≠ '\x7d') = true := by
    intro w hw c hc
    refine decide_eq_true ?_
    rintro rfl
    exact hw hc
  have hletters := hbefore _ (notMem_alignment (t := t) (by decide) (by decide))
  have hname := hbefore "\\begin\x7btabular".toList (by decide)
  have hopening : ∀ s, (opening t).toList ++ s = "\\begin\x7btabular".toList ++ '\x7d' :: '\x7b' ::
      ((alignment t).toList ++ '\x7d' :: ("\n\\toprule\n".toList ++ s)) := by
    intro s
    unfold opening
    simp
  rw [toList_table, rowText, List.append_assoc, List.append_assoc, columnLetters, hopening,
    List.dropWhile_append_of_pos hname, List.dropWhile_cons_of_neg (by decide), List.drop_succ_cons,
    List.drop_succ_cons, List.drop_zero, List.takeWhile_append_of_pos hletters,
    List.takeWhile_cons_of_neg (by decide), List.append_nil, toList_alignment]

/-- Behind the rows stands the end of the table, and every row is cut into its cells. -/
theorem exists_rowTexts {front : List Char} (hfront : InCell front) {rows : List (List String)}
    {n : Nat} (hlength : ∀ cs ∈ rows, cs.length = n + 1)
    (h : ∀ cs ∈ rows, ∀ c ∈ cs, InCell c.toList) :
    ∃ texts rest, rowTexts front rows = texts ++ [rest ++ closing.toList] ∧
      List.Forall₂ (fun cs text => (∃ front, cutCells false text = framed front cs) ∧
        (cutCells false text).length = n + 1) rows texts := by
  induction rows generalizing front with
  | nil => exact ⟨[], front, rfl, List.Forall₂.nil⟩
  | cons cs rows ih =>
    obtain ⟨texts, rest, htexts, hcells⟩ := ih (inCell_backslash (by decide : '\n' ≠ '\\'))
      (fun ds hds => hlength ds (List.mem_cons_of_mem cs hds))
      fun ds hds => h ds (List.mem_cons_of_mem cs hds)
    have hcs := hlength cs List.mem_cons_self
    have hrow := cutCells_rowText hfront (List.ne_nil_of_length_eq_add_one hcs)
      (h cs List.mem_cons_self)
    exact ⟨rowText front cs :: texts, rest, by rw [rowTexts, htexts, List.cons_append],
      List.Forall₂.cons ⟨⟨front, hrow⟩, by rw [hrow, length_framed, hcs]⟩ hcells⟩

/-- Between the header and the end of a table stand its rows, cut into their cells. -/
theorem exists_rows (h : t.Filled) :
    ∃ rows rest, cutRows (table t).toList = rowText (opening t).toList (headerCells t)
        :: rows ++ [rest ++ closing.toList] ∧
      List.Forall₂ (fun r row => (∃ front, cutCells false row = framed front (rowCells t r)) ∧
        (cutCells false row).length = width t) t.rows rows := by
  have hwidth : width t = (width t - 1) + 1 := by
    unfold width
    omega
  have hlength : ∀ cs ∈ t.rows.map (rowCells t), cs.length = (width t - 1) + 1 := by
    intro cs hcs
    obtain ⟨r, hr, rfl⟩ := List.mem_map.1 hcs
    rw [length_rowCells h hr, ← hwidth]
  have hcut : ∀ cs ∈ t.rows.map (rowCells t), ∀ c ∈ cs, InCell c.toList := by
    intro cs hcs c hc
    obtain ⟨r, -, rfl⟩ := List.mem_map.1 hcs
    exact inCell_rowCells hc
  obtain ⟨rows, rest, hrows, hcells⟩ := exists_rowTexts inCell_rule hlength hcut
  rw [← hwidth, List.forall₂_map_left_iff] at hcells
  exact ⟨rows, rest, by rw [cutRows_table, hrows, List.cons_append], hcells⟩

end Rows

/-- **Tables are rectangular.**  Whatever the texts of a catalog are, a table is cut
    into the header, one row for each model of its family, and the end of the table.
    The specification has a letter for each column, and the header and every row are
    cut into that many cells, which are those that were written.  The escaped form of a
    text determines the text. -/
theorem tables_rectangular (c : Catalog) (xs : List Descriptor) (p : Progress) :
    (∀ t ∈ (analyse c xs p).tables,
      (∃ f ∈ c.families, t.family = f.name ∧
        (t.rows.map Row.model).Perm (f.models.map Model.name)) ∧
      (columnLetters (table t).toList).length = width t ∧
      ∃ header rows rest,
        cutRows (table t).toList = header :: rows ++ [rest ++ closing.toList] ∧
        cutCells false header = framed (opening t).toList (headerCells t) ∧
        (cutCells false header).length = width t ∧
        List.Forall₂ (fun r row => (∃ front, cutCells false row = framed front (rowCells t r)) ∧
          (cutCells false row).length = width t) t.rows rows) ∧
    Function.Injective escape := by
  refine ⟨fun t ht => ?_, escape_injective⟩
  have hfilled := filled_of_mem ht
  have hwidth : width t = (width t - 1) + 1 := by
    unfold width
    omega
  have hheader : cutCells false (rowText (opening t).toList (headerCells t))
      = framed (opening t).toList (headerCells t) :=
    cutCells_rowText (inCell_opening t) (List.cons_ne_nil _ _) fun _ => inCell_headerCells
  have hlength : ∀ cs ∈ t.rows.map (rowCells t), cs.length = (width t - 1) + 1 := by
    intro cs hcs
    obtain ⟨r, hr, rfl⟩ := List.mem_map.1 hcs
    rw [length_rowCells hfilled hr, ← hwidth]
  have hcut : ∀ cs ∈ t.rows.map (rowCells t), ∀ c ∈ cs, InCell c.toList := by
    intro cs hcs c hc
    obtain ⟨r, -, rfl⟩ := List.mem_map.1 hcs
    exact inCell_rowCells hc
  obtain ⟨rows, rest, hrows, hcells⟩ := exists_rowTexts inCell_rule hlength hcut
  rw [← hwidth, List.forall₂_map_left_iff] at hcells
  refine ⟨?_, ?_, _, rows, rest, ?_, hheader, ?_, hcells⟩
  · obtain ⟨f, hf, metric, -, rfl⟩ := mem_tables.1 ht
    refine ⟨f, hf, rfl, ?_⟩
    rw [models_table]
    exact (List.mergeSort_perm _ _).map _
  · rw [columnLetters_table, List.length_cons, List.length_replicate, ← hwidth]
  · rw [cutRows_table, hrows, List.cons_append]
  · rw [hheader, length_framed, length_headerCells]

/-- A family whose model and speedup have separators and row ends in their names. -/
def separatorFamily : Family where
  name := "f"
  models := [⟨"a & b\\\\", [], some 4, none⟩]
  variants := []
  speedups := [⟨"\\\\&\\", "a", "b"⟩]
  phases := []
  metrics := [timeKey]

/-- Its catalog. -/
def separatorCatalog : Catalog :=
  { Catalog.default with families := [separatorFamily] }

theorem tables_rectangular_separators :
    ∃ t ∈ (analyse separatorCatalog [] ⟨0, 0, [], [], 0⟩).tables, width t = 3 ∧
      (columnLetters (table t).toList).length = 3 ∧
      ∃ header row rest, cutRows (table t).toList = [header, row, rest] ∧
        (cutCells false header).length = 3 ∧ (cutCells false row).length = 3 := by
  have htable : ∃ t ∈ (analyse separatorCatalog [] ⟨0, 0, [], [], 0⟩).tables,
      width t = 3 ∧ t.rows.length = 1 := by decide +kernel
  obtain ⟨t, ht, hwidth, hlength⟩ := htable
  obtain ⟨-, hletters, header, rows, rest, hrows, -, hheader, hcells⟩ :=
    (tables_rectangular separatorCatalog [] ⟨0, 0, [], [], 0⟩).1 t ht
  rw [hwidth] at hletters hheader hcells
  obtain ⟨row, rfl⟩ := List.length_eq_one_iff.1 (hcells.length_eq.symm.trans hlength)
  obtain ⟨r, -, hrow, -⟩ := List.forall₂_cons_right_iff.1 hcells
  exact ⟨t, ht, hwidth, hletters, header, row, _, hrows, hheader, hrow.2⟩

end BenchSweep.Latex
