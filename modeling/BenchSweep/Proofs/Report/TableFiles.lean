import BenchSweep.Catalog.File
import BenchSweep.Command.Report
import BenchSweep.Proofs.Disk.Directory
import BenchSweep.Proofs.Report.Layout
import BenchSweep.Proofs.Run.Course
import BenchSweep.Proofs.Run.Meets

/-! # The Files of Tables

    Every table of an accepted catalog is filed under a name in the directory that was
    asked for, and a file has the text of the last table that is filed under its name.
    Names are joined with underscores and may have some of their own, so tables of
    different families can be filed under one name. -/

namespace BenchSweep

/-! ## Section 1: Names that are joined -/

namespace Latex

/-- What a table is filed under, within what all file names have in common. -/
def stem (t : FamilyTable) : String :=
  if t.metric = timeKey then t.family else t.family ++ "_" ++ t.metric

theorem fileName_eq (t : FamilyTable) : fileName t = "results_" ++ stem t ++ ".tex" := by
  unfold fileName stem
  split <;> simp only [String.append_assoc]

theorem fileName_eq_iff_stem {t u : FamilyTable} : fileName t = fileName u ↔ stem t = stem u := by
  rw [fileName_eq, fileName_eq, String.append_left_inj, String.append_right_inj]

/-- Two tables of different families have the same file: where the name of the one family
    ends, that of the other goes on with an underscore and what looks like a metric. -/
inductive Clash (t u : FamilyTable) : Prop
  | total (ht : t.metric = timeKey) (hu : u.metric ≠ timeKey)
      (h : t.family = u.family ++ "_" ++ u.metric)
  | secondary (ht : t.metric ≠ timeKey) (hu : u.metric ≠ timeKey) (hne : t.family ≠ u.family)
      (h : t.family ++ "_" ++ t.metric = u.family ++ "_" ++ u.metric)

theorem Clash.fileName_eq {t u : FamilyTable} (h : Clash t u) : fileName t = fileName u := by
  rw [fileName_eq_iff_stem, stem, stem]
  cases h with
  | total ht hu h => rw [if_pos ht, if_neg hu, h]
  | secondary ht hu hne h => rw [if_neg ht, if_neg hu, h]

/-- Families without underscores in their names do not clash. -/
theorem not_clash_of_notMem {t u : FamilyTable} (ht : '_' ∉ t.family.toList)
    (hu : '_' ∉ u.family.toList) : ¬ Clash t u := by
  have hjoin : ∀ f m : String, (f ++ "_" ++ m).toList = f.toList ++ '_' :: m.toList := by
    intro f m
    simp
  -- The family ends where the first underscore stands.
  have hfirst : ∀ f m : List Char, '_' ∉ f → (f ++ '_' :: m).takeWhile (· ≠ '_') = f := by
    intro f m hf
    rw [List.takeWhile_append_of_pos, List.takeWhile_cons_of_neg (by decide), List.append_nil]
    intro c hc
    refine decide_eq_true ?_
    rintro rfl
    exact hf hc
  rintro (⟨-, -, h⟩ | ⟨-, -, hne, h⟩)
  · rw [h, hjoin] at ht
    exact ht (List.mem_append_right _ List.mem_cons_self)
  · have hchars := congrArg String.toList h
    rw [hjoin, hjoin] at hchars
    apply hne
    rw [← String.toList_inj, ← hfirst _ t.metric.toList ht, hchars, hfirst _ _ hu]

/-- Tables of one file are those of one family and metric, or they clash. -/
theorem fileName_eq_iff {t u : FamilyTable} :
    fileName t = fileName u ↔
      (t.family, t.metric) = (u.family, u.metric) ∨ Clash t u ∨ Clash u t := by
  constructor
  · intro h
    rw [fileName_eq_iff_stem, stem, stem] at h
    by_cases ht : t.metric = timeKey <;> by_cases hu : u.metric = timeKey
    · rw [if_pos ht, if_pos hu] at h
      exact Or.inl (by rw [h, ht, hu])
    · rw [if_pos ht, if_neg hu] at h
      exact Or.inr (Or.inl (.total ht hu h))
    · rw [if_neg ht, if_pos hu] at h
      exact Or.inr (Or.inr (.total hu ht h.symm))
    · rw [if_neg ht, if_neg hu] at h
      by_cases hfamily : t.family = u.family
      · rw [hfamily, String.append_right_inj] at h
        exact Or.inl (by rw [hfamily, h])
      · exact Or.inr (Or.inl (.secondary ht hu hfamily h))
  · rintro (h | h | h)
    · obtain ⟨hfamily, hmetric⟩ := Prod.mk.inj h
      rw [fileName_eq_iff_stem, stem, stem, hfamily, hmetric]
    · exact h.fileName_eq
    · exact h.fileName_eq.symm

end Latex

/-! ## Section 2: Names that are accepted -/

theorem Catalog.validate_of_ofText {text : String} {c : Catalog} (h : Catalog.ofText text = .ok c) :
    c.validate = .ok () := by
  unfold ofText at h
  split at h
  · cases h
  · rename_i read hread
    cases hvalid : read.validate with
    | error cause =>
      rw [hvalid] at h
      cases h
    | ok u =>
      rw [hvalid] at h
      rw [← Except.ok.inj h]
      exact hvalid

/-- What a family's tables are filed under has been checked. -/
theorem Catalog.isFileStem_of_validate {c : Catalog} (h : c.validate = .ok ()) {f : Family}
    (hf : f ∈ c.families) : ∀ name ∈ f.name :: f.metrics, isFileStem name = true := by
  unfold validate at h
  cases hdelay : settleDelay c.settleSecs with
  | error e => simp [hdelay, bind, Except.bind] at h
  | ok delay =>
    simp only [hdelay, bind, Except.bind] at h
    split at h
    · cases h
    · rename_i hnone
      intro name hname
      have hbad := List.find?_eq_none.1 (List.findSome?_eq_none_iff.1 hnone f hf) name hname
      simpa using hbad

theorem slash_notMem_of_isFileStem {name : String} (h : isFileStem name = true) :
    '/' ∉ name.toList := by
  unfold isFileStem at h
  intro hmem
  simp only [Bool.and_eq_true, Bool.not_eq_true', List.any_eq_false] at h
  have hslash := h.2 '/' hmem
  simp at hslash

/-- A table of an accepted catalog has a file of its directory. -/
theorem isFileName_fileName {c : Catalog} (h : c.validate = .ok ()) {xs : List Descriptor}
    {p : Progress} {t : FamilyTable} (ht : t ∈ (analyse c xs p).tables) :
    Path.IsFileName (Latex.fileName t) := by
  obtain ⟨f, hf, metric, hmetric, rfl⟩ := mem_tables.1 ht
  have hstems := Catalog.isFileStem_of_validate h hf
  have hfamily := slash_notMem_of_isFileStem (hstems f.name List.mem_cons_self)
  have hmetric' := slash_notMem_of_isFileStem (hstems metric (List.mem_cons_of_mem _ hmetric))
  -- From here on the table's rows do not matter.
  generalize ht' : p.measured.table xs f metric = t
  have htf : t.family = f.name := by rw [← ht']; rfl
  have htm : t.metric = metric := by rw [← ht']; rfl
  have hstem : '/' ∉ (Latex.stem t).toList := by
    unfold Latex.stem
    split
    · rwa [htf]
    · rw [htf, htm, String.toList_append, String.toList_append, List.mem_append, List.mem_append]
      rintro ((hmem | hmem) | hmem)
      · exact hfamily hmem
      · exact absurd hmem (by decide)
      · exact hmetric' hmem
  have hhead : (Latex.fileName t).toList.head? = some 'r' := by
    rw [Latex.fileName_eq, String.append_assoc, String.toList_append]
    rfl
  have hne : ∀ s : String, s.toList.head? ≠ some 'r' → Latex.fileName t ≠ s := by
    rintro s hs rfl
    exact hs hhead
  refine ⟨hne "" (by decide), hne "." (by decide), hne ".." (by decide), ?_⟩
  rw [Latex.fileName_eq, String.toList_append, String.toList_append, List.mem_append,
    List.mem_append]
  rintro ((hmem | hmem) | hmem)
  · exact absurd hmem (by decide)
  · exact hstem hmem
  · exact absurd hmem (by decide)

/-! ## Section 3: Writing tables -/

namespace Report

open Act

/-- The table whose text a file has in the end: the last one that is filed under its
    name. -/
def filed? (ts : List FamilyTable) (name : String) : Option FamilyTable :=
  ts.reverse.find? fun t => Latex.fileName t == name

theorem filed?_append_singleton (ts : List FamilyTable) (t : FamilyTable) (name : String) :
    filed? (ts ++ [t]) name = if Latex.fileName t = name then some t else filed? ts name := by
  rw [filed?, List.reverse_append, List.reverse_singleton, List.singleton_append, List.find?_cons]
  by_cases h : Latex.fileName t = name
  · rw [if_pos h, beq_iff_eq.2 h]
  · rw [if_neg h, beq_eq_false_iff_ne.2 h]
    rfl

theorem filed?_eq_some {ts : List FamilyTable} {name : String} {t : FamilyTable}
    (h : filed? ts name = some t) : t ∈ ts ∧ Latex.fileName t = name := by
  have hname := List.find?_some h
  exact ⟨List.mem_reverse.1 (List.mem_of_find?_eq_some h), beq_iff_eq.1 hname⟩

theorem exists_filed? {ts : List FamilyTable} {t : FamilyTable} (h : t ∈ ts) :
    ∃ u, filed? ts (Latex.fileName t) = some u := by
  cases hfiled : filed? ts (Latex.fileName t) with
  | some u => exact ⟨u, rfl⟩
  | none => exact absurd (beq_self_eq_true _) (List.find?_eq_none.1 hfiled t (List.mem_reverse.2 h))

/-- Every file that one of the tables is filed under has the text of the last such
    table. -/
structure Holds (here : Location) (dir : Path) (ts : List FamilyTable) (d : Disk) : Prop where
  here : d.here = here
  read : ∀ name t, filed? ts name = some t → d.read (dir.join name) = .ok (Latex.table t).toUTF8

variable {here : Location} {dir : Path} {front ts : List FamilyTable} {t : FamilyTable}

/-- One table more: it takes the place of those that are filed under its name, and all
    other files stay as they are. -/
theorem meets_writeTable (hfront : ∀ u ∈ front, Path.IsFileName (Latex.fileName u))
    (ht : Path.IsFileName (Latex.fileName t)) :
    Meets (Holds here dir front) (writeTable dir t)
      (fun path d => path = tablePath dir t ∧ Holds here dir (front ++ [t]) d)
      (fun _ _ => True) := by
  unfold writeTable writeText
  refine meets_bind (Q := fun _ d => Holds here dir (front ++ [t]) d) ?_ fun _ =>
    meets_pure fun d hd => ⟨rfl, hd⟩
  refine meets_blame (meets_change fun d hd => ?_)
  cases hwrite : d.write (tablePath dir t) (Latex.table t).toUTF8 with
  | error e => trivial
  | ok d' =>
    refine ⟨(Disk.within_write hwrite).here.trans hd.here, fun name u hu => ?_⟩
    rw [filed?_append_singleton] at hu
    split at hu
    · rename_i hname
      rw [← hname, ← Option.some.inj hu]
      exact Disk.read_of_write hwrite
    · -- Another name is another place of the directory.
      rename_i hname
      obtain ⟨hmem, rfl⟩ := filed?_eq_some hu
      refine Disk.read_write_of_ne hwrite (hd.read _ u hu) ?_
      rw [tablePath, Path.locate_join (hfront u hmem), Path.locate_join ht]
      exact fun heq => hname (List.cons.inj heq).1.symm

/-- Tables that are written one after the other. -/
theorem meets_mapM_writeTable (hfront : ∀ u ∈ front, Path.IsFileName (Latex.fileName u))
    (hts : ∀ u ∈ ts, Path.IsFileName (Latex.fileName u)) :
    Meets (Holds here dir front) (ts.mapM (writeTable dir))
      (fun paths d => paths = ts.map (tablePath dir) ∧ Holds here dir (front ++ ts) d)
      (fun _ _ => True) := by
  -- Induction on the tables that are left; those that are written gather in front.
  induction ts generalizing front with
  | nil =>
    rw [List.mapM_nil, List.append_nil]
    exact meets_pure fun d hd => ⟨rfl, hd⟩
  | cons t ts ih =>
    have ht := hts t List.mem_cons_self
    have hrest : ∀ u ∈ ts, Path.IsFileName (Latex.fileName u) :=
      fun u hu => hts u (List.mem_cons_of_mem t hu)
    have hnext : ∀ u ∈ front ++ [t], Path.IsFileName (Latex.fileName u) := by
      intro u hu
      rcases List.mem_append.1 hu with hu | hu
      · exact hfront u hu
      · rwa [List.mem_singleton.1 hu]
    rw [List.mapM_cons]
    refine meets_bind (meets_writeTable hfront ht) fun path => ?_
    refine (Meets.given fun hpath => ?_).mono (fun d hd => And.comm.1 hd) (fun _ _ hd => hd)
      fun _ _ hd => hd
    refine meets_bind (ih hnext hrest) fun paths => meets_pure fun d hd => ?_
    obtain ⟨hpaths, hholds⟩ := hd
    refine ⟨by rw [hpath, hpaths, List.map_cons], ?_⟩
    rwa [List.append_assoc, List.singleton_append] at hholds

/-- Making directories does not change where relative paths begin. -/
theorem here_haveDir {d d' : Disk} {p : Path} (h : d.haveDir p = .ok d') : d'.here = d.here := by
  have hmake : ∀ d', d.makeDir p = .ok d' → d'.here = d.here := by
    intro d' hd'
    unfold Disk.makeDir at hd'
    cases hl : d.locate p with
    | error e => simp [hl, bind, Except.bind] at hd'
    | ok l =>
      simp only [hl, bind, Except.bind] at hd'
      split at hd'
      · cases hd'
      · split at hd'
        · cases hd'
          rfl
        · cases hd'
  unfold Disk.haveDir at h
  split at h
  · split at h
    · rw [Except.ok.inj h]
    · cases h
  · exact hmake d' h

/-- All tables written into their directory. -/
theorem meets_writeTables (hts : ∀ u ∈ ts, Path.IsFileName (Latex.fileName u)) :
    Meets (fun d => d.here = here) (writeTables dir ts)
      (fun paths d => paths = ts.map (tablePath dir) ∧ Holds here dir ts d) (fun _ _ => True) := by
  have hdir : (Act.ensureDir dir).Maintains fun d => d.here = here :=
    Act.maintains_ensureDir fun q _ d d' hd hok => (here_haveDir hok).trans hd
  unfold writeTables
  refine meets_bind (Q := fun _ d => Holds here dir [] d) (meets_blame fun w hw => ?_) fun _ =>
    meets_mapM_writeTable (fun u hu => absurd hu List.not_mem_nil) hts
  have hhere := hdir.disk hw
  cases ((Act.ensureDir dir).perform w).1 with
  | error e => trivial
  | ok u => exact ⟨hhere, fun name t hnone => nomatch hnone⟩

/-- What was written if all writing went well. -/
theorem holds_of_perform {w w' : World} {paths : List Path}
    (hts : ∀ u ∈ ts, Path.IsFileName (Latex.fileName u))
    (h : (writeTables dir ts).perform w = (.ok paths, w')) :
    paths = ts.map (tablePath dir) ∧ Holds w.disk.here dir ts w'.disk := by
  have hmeets : Meets (fun d => d.here = w.disk.here) (writeTables dir ts) _ _ :=
    meets_writeTables hts
  have hresult : ((writeTables dir ts).perform w).1 = .ok paths := by rw [h]
  have hpost := hmeets.ok rfl hresult
  rwa [h] at hpost

/-- Every table is held by its file exactly if tables of one file have one text. -/
theorem Holds.all_iff {d : Disk} (h : Holds here dir ts d) :
    (∀ t ∈ ts, d.read (tablePath dir t) = .ok (Latex.table t).toUTF8) ↔
      ∀ t ∈ ts, ∀ u ∈ ts, Latex.fileName t = Latex.fileName u → Latex.table t = Latex.table u := by
  constructor
  · -- Tables of one file are read from one path.
    intro hall t ht u hu hname
    have hread := hall t ht
    rw [tablePath, hname, ← tablePath, hall u hu] at hread
    exact (String.toByteArray_inj.1 (Except.ok.inj hread)).symm
  · -- The file has the text of the last of them, which is the text of each.
    intro hall t ht
    obtain ⟨u, hfiled⟩ := exists_filed? ht
    obtain ⟨hu, hname⟩ := filed?_eq_some hfiled
    rw [hall t ht u hu hname.symm]
    exact h.read _ u hfiled

/-! ## Section 4: What a directory of tables holds -/

/-- Where the tables of an accepted catalog could be written, each one has a file of the
    directory, with the text of the last table that is filed there.  No table is lost
    exactly if those that clash have one text. -/
theorem tables_held_iff {text : String} {c : Catalog} {xs : List Descriptor} {p : Progress}
    {dir : Path} {w w' : World} {paths : List Path} (hc : Catalog.ofText text = .ok c)
    (hpairs : ((analyse c xs p).tables.map fun t => (t.family, t.metric)).Nodup)
    (hrun : (writeTables dir (analyse c xs p).tables).perform w = (.ok paths, w')) :
    paths = (analyse c xs p).tables.map (tablePath dir) ∧
      (∀ t ∈ (analyse c xs p).tables,
        (tablePath dir t).locate w'.disk.here
          = Latex.fileName t :: dir.locate w'.disk.here ∧
        ∃ u, filed? (analyse c xs p).tables (Latex.fileName t) = some u ∧
          w'.disk.read (tablePath dir t) = .ok (Latex.table u).toUTF8) ∧
      ((∀ t ∈ (analyse c xs p).tables,
          w'.disk.read (tablePath dir t) = .ok (Latex.table t).toUTF8) ↔
        ∀ t ∈ (analyse c xs p).tables, ∀ u ∈ (analyse c xs p).tables,
          Latex.Clash t u → Latex.table t = Latex.table u) := by
  have hnames : ∀ t ∈ (analyse c xs p).tables, Path.IsFileName (Latex.fileName t) :=
    fun t ht => isFileName_fileName (Catalog.validate_of_ofText hc) ht
  obtain ⟨hpaths, hholds⟩ := holds_of_perform hnames hrun
  refine ⟨hpaths, fun t ht => ⟨Path.locate_join (hnames t ht) _ _, ?_⟩, hholds.all_iff.trans ?_⟩
  · obtain ⟨u, hfiled⟩ := exists_filed? ht
    exact ⟨u, hfiled, hholds.read _ u hfiled⟩
  · constructor
    · exact fun hall t ht u hu hclash => hall t ht u hu hclash.fileName_eq
    · -- One family has one table of a metric, so all others of the file clash with it.
      intro hall t ht u hu hname
      rcases Latex.fileName_eq_iff.1 hname with heq | hclash | hclash
      · rw [List.inj_on_of_nodup_map hpairs ht hu heq]
      · exact hall t ht u hu hclash
      · exact (hall u hu t ht hclash).symm

theorem exists_of_toOption {ε α : Type} {a : Act ε α} {w : World} {x : α}
    (h : (a.perform w).1.toOption = some x) : ∃ w', a.perform w = (.ok x, w') := by
  cases hrun : a.perform w with
  | mk result w' =>
    rw [hrun] at h
    cases result with
    | error e => cases h
    | ok y => exact ⟨w', by rw [Option.some.inj h]⟩

/-- A text with one family, which has two tables. -/
def quotientText : String :=
  "[[families]]\nname = \"ctmc\"\nmetrics = [\"time\", \"tquot\"]\n" ++
  "models = [\x7b name = \"m\", input = [] \x7d]\n" ++
  "[[families.variants]]\nname = \"\x7bmodel\x7d\"\nlabel = \"tool\"\n" ++
  "command = \"tool\"\nparser = \"gmp\"\n"

/-- The family. -/
def quotientFamily : Family where
  name := "ctmc"
  models := [⟨"m", [], none, none⟩]
  variants := [⟨"\x7bmodel\x7d", "tool", .gmp, some "tool", [], []⟩]
  speedups := []
  phases := []
  metrics := [timeKey, "tquot"]

/-- Its experiment. -/
def quotientRun : Descriptor :=
  { Descriptor.plain "m" with origin := some ⟨"ctmc", "m", "tool"⟩ }

/-- What the text holds. -/
def quotientCatalog : Catalog :=
  { Catalog.default with families := [quotientFamily] }

/-- Before anything was written. -/
def blankWorld : World :=
  .fresh (.emptyAt [])

/-- The tables of a catalog with the experiment before it was measured. -/
def unmeasured (c : Catalog) : List FamilyTable :=
  (analyse c [quotientRun] ⟨0, 0, [], [], 0⟩).tables

/-- The family's name has no underscore, so its two tables do not clash. -/
theorem tables_held_quotient :
    ∃ w', (writeTables ⟨"tex"⟩ (unmeasured quotientCatalog)).perform blankWorld
          = (.ok [⟨"tex/results_ctmc.tex"⟩, ⟨"tex/results_ctmc_tquot.tex"⟩], w') ∧
      ∀ t ∈ unmeasured quotientCatalog,
        w'.disk.read (tablePath ⟨"tex"⟩ t) = .ok (Latex.table t).toUTF8 := by
  have hc : Catalog.ofText quotientText = .ok quotientCatalog := by decide +kernel
  have hpairs : ((unmeasured quotientCatalog).map fun t => (t.family, t.metric)).Nodup := by
    decide +kernel
  have hfamily : ∀ t ∈ unmeasured quotientCatalog, '_' ∉ t.family.toList := by decide +kernel
  have hresult : ((writeTables ⟨"tex"⟩ (unmeasured quotientCatalog)).perform blankWorld).1.toOption
      = some [⟨"tex/results_ctmc.tex"⟩, ⟨"tex/results_ctmc_tquot.tex"⟩] := by
    decide +kernel
  obtain ⟨w', hrun⟩ := exists_of_toOption hresult
  refine ⟨w', hrun, (tables_held_iff hc hpairs hrun).2.2.2 fun t ht u hu hclash => ?_⟩
  exact absurd hclash (Latex.not_clash_of_notMem (hfamily t ht) (hfamily u hu))

/-- The text, and behind it a family that has the name of the second table. -/
def clashText : String :=
  quotientText ++ "[[families]]\nname = \"ctmc_tquot\"\n" ++
  "models = [\x7b name = \"n\", input = [] \x7d]\n"

/-- What the text holds; the second family has no experiments yet. -/
def clashCatalog : Catalog :=
  { Catalog.default with
    families := [quotientFamily,
      { name := "ctmc_tquot"
        models := [⟨"n", [], none, none⟩]
        variants := []
        speedups := []
        phases := []
        metrics := [timeKey] }] }

/-- Accepted names may clash: two tables have one path, and the first of them is lost. -/
theorem table_overwritten :
    Catalog.ofText clashText = .ok clashCatalog ∧
      clashCatalog.descriptors {} = .ok [quotientRun] ∧
      ((unmeasured clashCatalog).map fun t => (t.family, t.metric)).Nodup ∧
      ∃ w', (writeTables ⟨"tex"⟩ (unmeasured clashCatalog)).perform blankWorld
            = (.ok [⟨"tex/results_ctmc.tex"⟩, ⟨"tex/results_ctmc_tquot.tex"⟩,
                ⟨"tex/results_ctmc_tquot.tex"⟩], w') ∧
        ¬ ∀ t ∈ unmeasured clashCatalog,
          w'.disk.read (tablePath ⟨"tex"⟩ t) = .ok (Latex.table t).toUTF8 := by
  have hc : Catalog.ofText clashText = .ok clashCatalog := by decide +kernel
  have hresult : ((writeTables ⟨"tex"⟩ (unmeasured clashCatalog)).perform blankWorld).1.toOption
      = some [⟨"tex/results_ctmc.tex"⟩, ⟨"tex/results_ctmc_tquot.tex"⟩,
        ⟨"tex/results_ctmc_tquot.tex"⟩] := by
    decide +kernel
  have hclash : ∃ t ∈ unmeasured clashCatalog, ∃ u ∈ unmeasured clashCatalog,
      Latex.fileName t = Latex.fileName u ∧ Latex.table t ≠ Latex.table u := by
    decide +kernel
  obtain ⟨w', hrun⟩ := exists_of_toOption hresult
  refine ⟨hc, by decide +kernel, by decide +kernel, w', hrun, fun hall => ?_⟩
  obtain ⟨t, ht, u, hu, hname, htext⟩ := hclash
  have hnames : ∀ v ∈ unmeasured clashCatalog, Path.IsFileName (Latex.fileName v) :=
    fun v hv => isFileName_fileName (Catalog.validate_of_ofText hc) hv
  exact htext ((holds_of_perform hnames hrun).2.all_iff.1 hall t ht u hu hname)

end Report

end BenchSweep
