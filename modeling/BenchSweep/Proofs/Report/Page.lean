import BenchSweep.Proofs.Report.Layout
import BenchSweep.Proofs.Report.Reader
import BenchSweep.Report.Html

/-! # The Report Page

    The page of an analysis is made of a few tags, whatever texts it shows.  Read back,
    it is one tree with the statistics and the families' tables, and each table has the
    texts of its family in rows of one width. -/

namespace BenchSweep.Html

open Markup

/-! ## Section 1: The tags of a page -/

/-- The elements of a page that may stand without attributes. -/
def plainTags : List String :=
  ["html", "head", "title", "style", "body", "h1", "h2", "table", "thead", "tbody", "tr", "th",
    "td"]

/-- The tags of a page that open an element, but for those that count values. -/
def elementTags : List String :=
  plainTags ++ ["div class='summary-container'", "div class='summary-item'",
    "span class='count '", "span class='count done-text'", "span class='count timeout-text'",
    "span class='count pending-text'", "span class='label'", "tr class='phase'",
    "td class='num'", "td class='timeout'"]

/-- A tag that tells how many values stand behind a mean: nothing varies in it but
    digits. -/
def isCountTag (tag : List Char) : Bool :=
  tag == "td class='num' title='n=".toList ++ tag.filter Char.isDigit ++ "'".toList

/-- The tags of report pages. -/
def vocabulary : Vocabulary where
  opens tag := elementTags.any (fun t => t.toList == tag) || isCountTag tag
  stands tag := ["!DOCTYPE html", "meta charset='utf-8'"].any fun t => t.toList == tag

theorem sound_vocabulary : vocabulary.Sound where
  opens tag h := by
    rw [vocabulary, Bool.or_eq_true, List.any_eq_true] at h
    rcases h with ⟨t, ht, heq⟩ | hcount
    · have hall : ∀ t ∈ elementTags, Bare t.toList ∧ t.toList.head? ≠ some '/' := by decide
      have htag := hall t ht
      rwa [beq_iff_eq.1 heq] at htag
    · rw [isCountTag, beq_iff_eq] at hcount
      have hdigits : ∀ c, c.isDigit = false → c ∉ tag.filter Char.isDigit := by
        intro c hc hmem
        rw [(List.mem_filter.1 hmem).2] at hc
        cases hc
      have hnotMem : ∀ c, c ∉ "td class='num' title='n=".toList → c ∉ "'".toList →
          c.isDigit = false → c ∉ tag := by
        intro c hfront hback hc
        rw [hcount, List.mem_append, List.mem_append]
        rintro ((hmem | hmem) | hmem)
        · exact hfront hmem
        · exact hdigits c hc hmem
        · exact hback hmem
      refine ⟨⟨hnotMem _ (by decide) (by decide) rfl, hnotMem _ (by decide) (by decide) rfl⟩, ?_⟩
      -- The first character is that of the constant front.
      rw [hcount, List.append_assoc]
      exact fun hhead => absurd (Option.some.inj hhead) (by decide)
  stands tag h := by
    rw [vocabulary, List.any_eq_true] at h
    obtain ⟨t, ht, heq⟩ := h
    have hall : ∀ t ∈ ["!DOCTYPE html", "meta charset='utf-8'"],
        Bare t.toList ∧ t.toList.head? ≠ some '/' ∧ vocabulary.opens t.toList = false := by
      decide
    have htag := hall t ht
    rwa [beq_iff_eq.1 heq] at htag

/-! ## Section 2: The style sheet -/

theorem bare_rule {r : StyleSheet.Rule} (hselector : Bare r.selector.toList)
    (hdeclarations : ∀ d ∈ r.declarations, Bare d.1.toList ∧ Bare d.2.toList) :
    Bare r.write.toList := by
  have hdeclare : ∀ d ∈ r.declarations, Bare (d.1 ++ ": " ++ d.2 ++ ";").toList := by
    intro d hd
    obtain ⟨hname, hvalue⟩ := hdeclarations d hd
    exact bare_append (bare_append (bare_append hname (by decide)) hvalue) (by decide)
  unfold StyleSheet.Rule.write
  dsimp only
  split
  · refine bare_append (bare_append (bare_append hselector (by decide)) ?_) (by decide)
    refine bare_intercalate (by decide) fun t ht => ?_
    obtain ⟨d, hd, rfl⟩ := List.mem_map.1 ht
    exact hdeclare d hd
  · refine bare_append (bare_append (bare_append hselector (by decide)) ?_) (by decide)
    refine bare_join fun t ht => ?_
    obtain ⟨d, hd, rfl⟩ := List.mem_map.1 ht
    exact bare_append (bare_append (by decide) (hdeclare d hd)) (by decide)

/-- No bracket stands in the style sheet. -/
theorem bare_sheet : Bare StyleSheet.text.toList := by
  have hrules : ∀ r ∈ StyleSheet.rules, Bare r.selector.toList ∧
      ∀ d ∈ r.declarations, Bare d.1.toList ∧ Bare d.2.toList := by
    decide +kernel
  refine bare_join fun text htext => ?_
  obtain ⟨r, hr, rfl⟩ := List.mem_map.1 htext
  exact bare_rule (hrules r hr).1 (hrules r hr).2

/-! ## Section 3: The page is made of them -/

/-- An element without attributes. -/
theorem fits_plain {tag : String} {content : List Node} (htag : tag ∈ plainTags)
    (hcontent : ∀ n ∈ content, Fits vocabulary n) : Fits vocabulary (.plain tag content) := by
  have hall : ∀ t ∈ plainTags,
      vocabulary.opens (t ++ writeAttributes []).toList = true ∧ ' ' ∉ t.toList := by
    decide +kernel
  exact .element (hall tag htag).1 (hall tag htag).2 hcontent

theorem fits_texts {s : String} : ∀ n ∈ [Node.text s], Fits vocabulary n := by
  intro n hn
  rw [List.mem_singleton.1 hn]
  exact .text s

theorem fits_td (s : String) : Fits vocabulary (td s) :=
  fits_plain (by decide) fits_texts

theorem fits_blank : Fits vocabulary blank :=
  fits_plain (by decide) nofun

theorem fits_th (s : String) : Fits vocabulary (th s) :=
  fits_plain (by decide) fits_texts

theorem fits_tdOf {kind : String} (h : kind ∈ ["num", "timeout"]) (s : String) :
    Fits vocabulary (tdOf kind s) := by
  have hall : ∀ kind ∈ ["num", "timeout"],
      vocabulary.opens ("td" ++ writeAttributes [("class", kind)]).toList = true := by
    decide +kernel
  exact .element (hall kind h) (by decide) fits_texts

/-- What values are written with is not escaped. -/
theorem escape_figure {s : String} (h : IsFigure s) : escape s = s := by
  have hspecial : ∀ c ∈ special, c.isDigit = false ∧ c ∉ figureSigns :=
    List.forall_mem_map.2 (by decide)
  refine escape_eq_self fun c hc hmem => ?_
  obtain ⟨hdigit, hsign⟩ := hspecial c hmem
  exact h.notMem hdigit hsign hc

/-- Of the attribute that tells a count nothing is escaped, so the tag is known. -/
theorem opens_count (n : Nat) :
    vocabulary.opens
      ("td" ++ writeAttributes [("class", "num"), ("title", "n=" ++ toString n)]).toList = true := by
  have hdigits : (toString n).toList.filter Char.isDigit = (toString n).toList :=
    List.filter_eq_self.2 fun c hc => Decimal.isDigit_of_mem_toString hc
  have hescape : escape ("n=" ++ toString n) = "n=" ++ toString n := by
    refine escape_eq_self fun c hc hmem => ?_
    rw [String.toList_append, List.mem_append] at hc
    have hspecial : ∀ c ∈ special, c.isDigit = false ∧ c ∉ "n=".toList :=
      List.forall_mem_map.2 (by decide)
    obtain ⟨hdigit, hfront⟩ := hspecial c hmem
    rcases hc with hc | hc
    · exact hfront hc
    · rw [Decimal.isDigit_of_mem_toString hc] at hdigit
      cases hdigit
  have htag : ("td" ++ writeAttributes [("class", "num"), ("title", "n=" ++ toString n)]).toList
      = "td class='num' title='n=".toList ++ (toString n).toList ++ "'".toList := by
    have hnum : escape "num" = "num" := by decide
    rw [writeAttributes, List.map_cons, List.map_cons, List.map_nil, hescape, hnum]
    simp
  have hfront : "td class='num' title='n=".toList.filter Char.isDigit = [] := by decide
  have hback : "'".toList.filter Char.isDigit = [] := by decide
  have hcount : isCountTag ("td class='num' title='n=".toList ++ (toString n).toList ++ "'".toList)
      = true := by
    rw [isCountTag, List.filter_append, List.filter_append, hdigits, hfront, hback, List.nil_append,
      List.append_nil, beq_iff_eq]
  rw [htag]
  unfold vocabulary
  dsimp only
  rw [hcount, Bool.or_true]

theorem fits_cell (c : Option Cell) : Fits vocabulary (cell c) := by
  unfold cell
  split
  · split
    · exact fits_tdOf (by decide) _
    · exact .element (opens_count _) (by decide) fits_texts
  · exact fits_blank

theorem fits_grid {header rows : List Node} (hheader : ∀ n ∈ header, Fits vocabulary n)
    (hrows : ∀ n ∈ rows, Fits vocabulary n) : Fits vocabulary (grid header rows) := by
  refine fits_plain (by decide) ?_
  simp only [List.mem_cons, List.not_mem_nil, or_false]
  rintro n (rfl | rfl)
  · refine fits_plain (by decide) fun n hn => ?_
    rw [List.mem_singleton.1 hn]
    exact fits_plain (by decide) hheader
  · exact fits_plain (by decide) hrows

theorem fits_countBox (l : Locale) (count : Nat) {kind : String}
    (h : kind ∈ ["", "done-text", "timeout-text", "pending-text"]) (label : Phrase) :
    Fits vocabulary (countBox l count kind label) := by
  have hall : ∀ kind ∈ ["", "done-text", "timeout-text", "pending-text"],
      vocabulary.opens ("span" ++ writeAttributes [("class", "count " ++ kind)]).toList = true := by
    decide +kernel
  refine .element (by decide +kernel) (by decide) ?_
  simp only [List.mem_cons, List.not_mem_nil, or_false]
  rintro n (rfl | rfl)
  · exact .element (hall kind h) (by decide) fits_texts
  · exact .element (by decide +kernel) (by decide) fits_texts

theorem fits_counts (l : Locale) (p : Progress) : Fits vocabulary (counts l p) := by
  refine .element (by decide +kernel) (by decide) ?_
  simp only [List.mem_cons, List.not_mem_nil, or_false]
  rintro n (rfl | rfl | rfl | rfl) <;> exact fits_countBox l _ (by decide) _

theorem fits_metricRow (a : Analysis) (name key : String) : Fits vocabulary (metricRow a name key) := by
  refine fits_plain (by decide) ?_
  simp only [List.mem_cons, List.not_mem_nil, or_false]
  rintro n (rfl | rfl | rfl | rfl | rfl | rfl)
  · split
    · exact fits_td _
    · exact fits_blank
  · exact fits_td _
  · exact fits_tdOf (by decide) _
  · exact fits_tdOf (by decide) _
  · exact fits_tdOf (by decide) _
  · split
    · refine fits_tdOf ?_ _
      split <;> decide
    · exact fits_blank

theorem fits_experiments (l : Locale) (a : Analysis) : Fits vocabulary (experiments l a) := by
  refine fits_grid (fun n hn => ?_) fun n hn => ?_
  · obtain ⟨phrase, -, rfl⟩ := List.mem_map.1 hn
    exact fits_th _
  · obtain ⟨name, -, hrow⟩ := List.mem_flatMap.1 hn
    obtain ⟨key, -, rfl⟩ := List.mem_map.1 hrow
    exact fits_metricRow a name key

theorem fits_rowsOf (t : FamilyTable) (r : Row) : ∀ n ∈ rowsOf t r, Fits vocabulary n := by
  intro n hn
  rcases List.mem_cons.1 hn with rfl | hphase
  · refine fits_plain (by decide) fun n hn => ?_
    simp only [List.cons_append, List.mem_cons, List.mem_append, List.mem_map] at hn
    rcases hn with rfl | ⟨c, -, rfl⟩ | ⟨s, -, rfl⟩
    · exact fits_td _
    · exact fits_cell c
    · exact fits_tdOf (by decide) _
  · obtain ⟨p, -, rfl⟩ := List.mem_map.1 hphase
    refine .element (by decide +kernel) (by decide) fun n hn => ?_
    simp only [List.cons_append, List.mem_cons, List.mem_append, List.mem_map] at hn
    rcases hn with rfl | ⟨c, -, rfl⟩ | ⟨s, -, rfl⟩
    · exact fits_td _
    · exact fits_tdOf (by decide) _
    · exact fits_blank

theorem fits_table (l : Locale) (t : FamilyTable) : ∀ n ∈ table l t, Fits vocabulary n := by
  simp only [table, List.mem_cons, List.not_mem_nil, or_false]
  rintro n (rfl | rfl)
  · exact fits_plain (by decide) fits_texts
  · refine fits_grid (fun n hn => ?_) fun n hn => ?_
    · rcases List.mem_cons.1 hn with rfl | hlabel
      · exact fits_th _
      · obtain ⟨label, -, rfl⟩ := List.mem_map.1 hlabel
        exact fits_th label
    · obtain ⟨r, -, hrow⟩ := List.mem_flatMap.1 hn
      exact fits_rowsOf t r n hrow

/-- The page is a tree of the report's tags, whatever texts are in it. -/
theorem fits_document (l : Locale) (a : Analysis) : Fits vocabulary (document l a) := by
  refine fits_plain (by decide) ?_
  simp only [List.mem_cons, List.not_mem_nil, or_false]
  rintro n (rfl | rfl)
  · refine fits_plain (by decide) ?_
    simp only [List.mem_cons, List.not_mem_nil, or_false]
    rintro n (rfl | rfl | rfl)
    · exact .void (by decide)
    · exact fits_plain (by decide) fits_texts
    · exact .style (by decide) bare_sheet
  · refine fits_plain (by decide) fun n hn => ?_
    rcases List.mem_append.1 hn with hfront | htable
    · simp only [List.mem_cons, List.not_mem_nil, or_false] at hfront
      rcases hfront with rfl | rfl | rfl | rfl
      · exact fits_plain (by decide) fits_texts
      · exact fits_counts l _
      · exact fits_plain (by decide) fits_texts
      · exact fits_experiments l a
    · obtain ⟨t, -, hn⟩ := List.mem_flatMap.1 htable
      exact fits_table l t n hn

/-! ## Section 4: What the page shows -/

/-- The header of the statistics. -/
def experimentHeader (l : Locale) : List String :=
  [.headerExperiment, .headerMetric, .headerRuns, .headerMean, .headerStdDev, .headerTimeouts].map
    l.say

/-- The texts of a metric's row; the name and the timeouts stand in the first row only. -/
def metricTexts (a : Analysis) (name key : String) : List String :=
  let s := a.aggregate.summary? name key
  [if key = timeKey then name else "", key, toString ((s.map Summary.count).getD 0),
    valueText (s.bind Summary.mean), valueText (s.bind Summary.stdDev),
    if key = timeKey then toString ((a.timeouts.find? name).getD 0) else ""]

/-- The header of a family's table. -/
def headerTexts (l : Locale) (t : FamilyTable) : List String :=
  l.say .headerModel :: (t.columns ++ t.speedups)

/-- The text of an experiment's cell. -/
def cellText : Option Cell → String
  | some c => if c.value.count = 0 ∧ 0 < c.timeouts then "T/O" else valueText c.value.mean
  | none => ""

/-- The texts of a model's row and of those of its phases. -/
def rowTexts (t : FamilyTable) (r : Row) : List (List String) :=
  (r.model :: (r.cells.map cellText ++ r.speedups.map valueText)) ::
    (t.phases.zip r.phases).map fun p =>
      p.1 :: (p.2.map Console.phaseText ++ t.speedups.map fun _ => "")

/-- A heading and a table that show a family. -/
structure ShowsFamily (l : Locale) (t : FamilyTable) (part : Item × Item) : Prop where
  heading : part.1.Shows "h2" (l.say (.familyBanner t.family t.metric))
  table : part.2.IsTable (1 + t.columns.length + t.speedups.length) (headerTexts l t)
    (t.rows.flatMap (rowTexts t))

theorem readsAs_td (s : String) : ReadsAs (Item.Shows "td") (td s) s :=
  readsAs_text (by decide) s

theorem readsAs_blank : ReadsAs (Item.Shows "td") blank "" :=
  readsAs_empty (by decide)

theorem readsAs_tdOf (kind s : String) : ReadsAs (Item.Shows "td") (tdOf kind s) s :=
  readsAs_text (by decide) s

theorem readsAs_th (s : String) : ReadsAs (Item.Shows "th") (th s) s :=
  readsAs_text (by decide) s

theorem readsAs_cell (c : Option Cell) : ReadsAs (Item.Shows "td") (cell c) (cellText c) := by
  cases c with
  | none => exact readsAs_blank
  | some c =>
    unfold cell cellText
    dsimp only
    split
    · exact readsAs_tdOf _ _
    · exact readsAs_text (by decide) _

theorem readsAs_header {width : Nat} {labels : List String} (h : labels.length = width) :
    ReadsAs (Item.IsRow "th" width) (.plain "tr" (labels.map th)) labels := by
  refine readsAs_row h ?_
  rw [← List.map_id' labels, List.map_map]
  exact forall₂_map fun s _ => readsAs_th s

theorem readsAs_metricRow (a : Analysis) (name key : String) :
    ReadsAs (Item.IsRow "td" 6) (metricRow a name key) (metricTexts a name key) := by
  have hname : ReadsAs (Item.Shows "td") (if key = timeKey then td name else blank)
      (if key = timeKey then name else "") := by
    split
    · exact readsAs_td name
    · exact readsAs_blank
  have htimeouts : ∀ (kind : String) (n : Nat),
      ReadsAs (Item.Shows "td") (if key = timeKey then tdOf kind (toString n) else blank)
        (if key = timeKey then toString n else "") := by
    intro kind n
    split
    · exact readsAs_tdOf _ _
    · exact readsAs_blank
  exact readsAs_row rfl (.cons hname (.cons (readsAs_td key) (.cons (readsAs_tdOf _ _)
    (.cons (readsAs_tdOf _ _) (.cons (readsAs_tdOf _ _) (.cons (htimeouts _ _) .nil))))))

theorem readsAs_experiments (l : Locale) (a : Analysis) :
    ReadsAs (Item.IsTable 6 (experimentHeader l)) (experiments l a)
      (a.names.flatMap fun name => (metricKeys a name).map (metricTexts a name)) := by
  have hheader : ReadsAs (Item.IsRow "th" 6) (.plain "tr" ((experimentHeader l).map th))
      (experimentHeader l) :=
    readsAs_header rfl
  refine readsAs_table hheader (forall₂_flatMap fun name _ => ?_)
  exact forall₂_map fun key _ => readsAs_metricRow a name key

/-- The rows of a model have a cell for each column and speedup, the phases' rows too. -/
theorem readsAs_rowsOf {t : FamilyTable} (h : t.Filled) {r : Row} (hr : r ∈ t.rows) :
    List.Forall₂ (ReadsAs (Item.IsRow "td" (1 + t.columns.length + t.speedups.length)))
      (rowsOf t r) (rowTexts t r) := by
  -- First the model's own row, then those of its phases.
  refine .cons (readsAs_row ?_ (.cons (readsAs_td _) (List.rel_append ?_ ?_))) ?_
  · have hcells := h.cells r hr
    have hspeedups := h.speedups r hr
    simp only [List.length_cons, List.length_append, List.length_map]
    omega
  · exact forall₂_map fun c _ => readsAs_cell c
  · exact forall₂_map fun s _ => readsAs_tdOf "num" _
  · refine forall₂_map fun p hp => ?_
    -- A phase has no speedups; blanks keep their places.
    refine readsAs_row ?_ (.cons (readsAs_td _) (List.rel_append ?_ ?_))
    · have hcells := h.phaseCells r hr p.2 (List.of_mem_zip hp).2
      simp only [List.length_cons, List.length_append, List.length_map]
      omega
    · exact forall₂_map fun c _ => readsAs_tdOf "num" _
    · exact forall₂_map fun _ _ => readsAs_blank

theorem itemsOf_table (l : Locale) {t : FamilyTable} (h : t.Filled) :
    ∃ part, itemsOf (table l t) = [part.1, part.2] ∧ ShowsFamily l t part := by
  have hwidth : (headerTexts l t).length = 1 + t.columns.length + t.speedups.length := by
    simp only [headerTexts, List.length_cons, List.length_append]
    omega
  obtain ⟨i, hi, hheading⟩ : ReadsAs (Item.Shows "h2")
      (.plain "h2" [.text (l.say (.familyBanner t.family t.metric))])
      (l.say (.familyBanner t.family t.metric)) :=
    readsAs_text (by decide) _
  obtain ⟨j, hj, htable⟩ : ReadsAs (Item.IsTable _ (headerTexts l t))
      (grid ((headerTexts l t).map th) (t.rows.flatMap (rowsOf t))) (t.rows.flatMap (rowTexts t)) :=
    readsAs_table (readsAs_header hwidth) (forall₂_flatMap fun r hr => readsAs_rowsOf h hr)
  refine ⟨(i, j), ?_, hheading, htable⟩
  have hgrid : table l t = [.plain "h2" [.text (l.say (.familyBanner t.family t.metric))],
      grid ((headerTexts l t).map th) (t.rows.flatMap (rowsOf t))] := rfl
  rw [hgrid, itemsOf, itemsOf, itemsOf, hi, hj]
  rfl

theorem itemsOf_tables (l : Locale) {ts : List FamilyTable} (h : ∀ t ∈ ts, t.Filled) :
    ∃ parts : List (Item × Item), itemsOf (ts.flatMap (table l)) = parts.flatMap (fun s => [s.1, s.2]) ∧
      List.Forall₂ (ShowsFamily l) ts parts := by
  induction ts with
  | nil => exact ⟨[], by rw [List.flatMap_nil, itemsOf, List.flatMap_nil], .nil⟩
  | cons t ts ih =>
    obtain ⟨part, hpart, hshows⟩ := itemsOf_table l (h t List.mem_cons_self)
    obtain ⟨parts, hparts, hall⟩ := ih fun u hu => h u (List.mem_cons_of_mem t hu)
    refine ⟨part :: parts, ?_, .cons hshows hall⟩
    rw [itemsOf_eq_flatMap] at hpart hparts ⊢
    rw [List.flatMap_cons, List.flatMap_append, hpart, hparts, List.flatMap_cons]

/-! ## Section 5: The page as it is read -/

/-- The phrases of the page in which nothing varies. -/
def fixedPhrases : List Phrase :=
  [.pageTitle, .pageHeader, .summaryBanner, .headerExperiment, .headerMetric, .headerRuns,
    .headerMean, .headerStdDev, .headerTimeouts, .headerModel, .countIterations, .countSuccessful,
    .countTimeouts, .countNotDone]

/-- The phrases of the page need no escape. -/
theorem escape_fixedPhrases (l : Locale) :
    (fixedPhrases.map l.say).map escape = fixedPhrases.map l.say := by
  cases l <;> decide +kernel

/-- The page's tree as it is read: a head, and a body with the counts, the statistics and
    the families' tables. -/
def ShowsAnalysis (l : Locale) (a : Analysis) (root : Item) : Prop :=
  ∃ name style title counts banner experiments parts,
    root = .element "html".toList [
      .element "head".toList [.void "meta charset='utf-8'".toList, name, style],
      .element "body".toList
        ([title, counts, banner, experiments] ++ parts.flatMap fun part => [part.1, part.2])] ∧
    name.Shows "title" (l.say .pageTitle) ∧ title.Shows "h1" (l.say .pageHeader) ∧
    banner.Shows "h2" (l.say .summaryBanner) ∧
    experiments.IsTable 6 (experimentHeader l)
      (a.names.flatMap fun name => (metricKeys a name).map (metricTexts a name)) ∧
    List.Forall₂ (ShowsFamily l) a.tables parts

theorem items_plain (tag : String) (content : List Node) :
    (Node.plain tag content).items = [.element tag.toList (itemsOf content)] := by
  have htag : tag ++ writeAttributes [] = tag := String.append_empty
  rw [Node.plain, Node.items, htag]

theorem readsAs_document (l : Locale) {a : Analysis} (h : ∀ t ∈ a.tables, t.Filled) :
    ∃ root, (document l a).items = [root] ∧ ShowsAnalysis l a root := by
  have hlabel : ∀ (tag : String) (phrase : Phrase), ' ' ∉ tag.toList →
      ReadsAs (Item.Shows tag) (.plain tag [.text (l.say phrase)]) (l.say phrase) :=
    fun tag phrase htag => readsAs_text htag _
  obtain ⟨name, hname, hpage⟩ := hlabel "title" .pageTitle (by decide)
  obtain ⟨title, htitle, hheader⟩ := hlabel "h1" .pageHeader (by decide)
  obtain ⟨banner, hbanner, hsummary⟩ := hlabel "h2" .summaryBanner (by decide)
  obtain ⟨boxes, hboxes⟩ : ∃ i, (counts l a.progress).items = [i] :=
    ⟨_, by rw [counts, Node.items]⟩
  obtain ⟨table, htable, hexperiments⟩ := readsAs_experiments l a
  obtain ⟨parts, hparts, hfamilies⟩ := itemsOf_tables l h
  -- Only the style sheet's element is known as such; of the others, what they show.
  refine ⟨_, by rw [document, items_plain], name, .element "style".toList
    (StyleSheet.text.toList.map .char), title, boxes, banner, table, parts, ?_, hpage, hheader,
    hsummary, hexperiments, hfamilies⟩
  have hmeta : (Node.void "meta" [("charset", "utf-8")]).items
      = [.void "meta charset='utf-8'".toList] := by
    rw [Node.items]
    rfl
  have hstyle : (Node.style StyleSheet.text).items
      = [.element "style".toList (StyleSheet.text.toList.map .char)] := by
    rw [Node.items]
  have hfront : itemsOf ([.plain "h1" [.text (l.say .pageHeader)], counts l a.progress,
      .plain "h2" [.text (l.say .summaryBanner)], experiments l a] ++ a.tables.flatMap (Html.table l))
      = [title, boxes, banner, table] ++ itemsOf (a.tables.flatMap (Html.table l)) := by
    simp only [itemsOf_eq_flatMap, List.flatMap_append, List.flatMap_cons, List.flatMap_nil, htitle,
      hboxes, hbanner, htable, List.append_nil, List.singleton_append]
  have hhead : itemsOf [.void "meta" [("charset", "utf-8")], .plain "title" [.text (l.say .pageTitle)],
      .style StyleSheet.text] = [.void "meta charset='utf-8'".toList, name,
        .element "style".toList (StyleSheet.text.toList.map .char)] := by
    simp only [itemsOf_eq_flatMap, List.flatMap_cons, List.flatMap_nil, hmeta, hname, hstyle,
      List.append_nil, List.singleton_append]
  have hhalves : ∀ head body, itemsOf [.plain "head" head, .plain "body" body]
      = [.element "head".toList (itemsOf head), .element "body".toList (itemsOf body)] := by
    intro head body
    rw [itemsOf, itemsOf, itemsOf, items_plain, items_plain]
    rfl
  rw [hhalves, hhead, hfront, hparts]

/-- The page of filled tables is read as one tree that shows them. -/
theorem exists_read (l : Locale) {a : Analysis} (h : ∀ t ∈ a.tables, t.Filled) :
    ∃ root, read vocabulary (page l a).toList = some [.void "!DOCTYPE html".toList, root] ∧
      ShowsAnalysis l a root := by
  have hread := read_page sound_vocabulary (fits_document l a) (by decide)
  obtain ⟨root, hroot, hshows⟩ := readsAs_document l h
  rw [hroot] at hread
  exact ⟨root, hread, hshows⟩

/-- The page is read as one tree, whatever texts are in it.  Every bracket of the page is
    that of a known tag, every element is closed where it is the innermost one, and only
    the two tags that open nothing stand alone.  Each family is a heading and a table
    with the family's texts, all of whose rows have the header's width.  Escaping is
    five replacements one after the other, and un-escaping undoes it; figures and fixed
    phrases are what they are when escaped. -/
theorem page_keeps_structure (l : Locale) (c : Catalog) (xs : List Descriptor) (p : Progress) :
    (∃ root, read vocabulary (page l (analyse c xs p)).toList
        = some [.void "!DOCTYPE html".toList, root] ∧ ShowsAnalysis l (analyse c xs p) root) ∧
      (∀ s, (escape s).toList = entities.foldl (fun t e => replace e t) s.toList ∧
        unescape (escape s).toList = s.toList) ∧
      (fixedPhrases.map l.say).map escape = fixedPhrases.map l.say ∧
      (∀ v, escape (valueText v) = valueText v) ∧
      ∀ cell, escape (Console.phaseText cell) = Console.phaseText cell := by
  refine ⟨?_, fun s => ⟨escape_eq_foldl s, unescape_escape s⟩, escape_fixedPhrases l,
    fun v => escape_figure (isFigure_valueText v), fun cell => escape_figure (isFigure_phaseText cell)⟩
  have hread := read_page sound_vocabulary (fits_document l (analyse c xs p)) (by decide)
  obtain ⟨root, hroot, hshows⟩ :=
    readsAs_document l fun t (ht : t ∈ (analyse c xs p).tables) => filled_of_mem ht
  rw [hroot] at hread
  exact ⟨root, hread, hshows⟩

end BenchSweep.Html
