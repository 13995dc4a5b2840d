import BenchSweep.Catalog.File
import BenchSweep.Proofs.Report.Tables

/-! # What Tables Leave Out

    A table has one place for each model and column, and shows there the first
    experiment that has the place.  An experiment is shown once, and in the
    tables of its own family only, exactly if it has no rival for its place. -/

namespace BenchSweep

/-! ## Section 1: The first of a list -/

section First

variable {α : Type} [DecidableEq α] {l : List α} {a : α}

/-- A search ends at the first element that is looked for. -/
theorem find?_eq_some_iff_idxOf {q : α → Bool} :
    l.find? q = some a ↔ a ∈ l ∧ q a = true ∧ ∀ b ∈ l, q b = true → l.idxOf a ≤ l.idxOf b := by
  have hfirst : ∀ {b}, l.find? q = some b → ∀ c ∈ l, q c = true → l.idxOf b ≤ l.idxOf c := by
    intro b hfind c hc hqc
    obtain ⟨hqb, front, back, hl, hfront⟩ := List.find?_eq_some_iff_append.1 hfind
    have hnotMem : ∀ d, q d = true → d ∉ front := by
      intro d hd hmem
      have hd' := hfront d hmem
      rw [hd] at hd'
      cases hd'
    rw [hl, List.idxOf_append_of_notMem (hnotMem b hqb),
      List.idxOf_append_of_notMem (hnotMem c hqc), List.idxOf_cons_self]
    omega
  constructor
  · intro hfind
    exact ⟨List.mem_of_find?_eq_some hfind, List.find?_some hfind, hfirst hfind⟩
  · rintro ⟨ha, hqa, hmin⟩
    cases hfind : l.find? q with
    | none => exact absurd hqa (List.find?_eq_none.1 hfind a ha)
    | some b =>
      have hb := List.mem_of_find?_eq_some hfind
      have hle := hfirst hfind a ha hqa
      have hge := hmin b hb (List.find?_some hfind)
      rw [(List.idxOf_inj hb).1 (Nat.le_antisymm hle hge)]

/-- An element stands at one position exactly if it is counted once. -/
theorem existsUnique_getElem?_iff : (∃! i : Nat, l[i]? = some a) ↔ l.count a = 1 := by
  induction l with
  | nil =>
    constructor
    · rintro ⟨i, hi, -⟩
      simp at hi
    · intro h
      simp at h
  | cons b l ih =>
    by_cases hb : b = a
    · subst hb
      rw [List.count_cons_self, Nat.add_eq_right, List.count_eq_zero]
      constructor
      · rintro ⟨i, hi, hunique⟩ hmem
        obtain ⟨j, hj⟩ := List.mem_iff_getElem?.1 hmem
        have hzero := hunique 0 rfl
        have hsucc := hunique (j + 1) hj
        omega
      · intro hmem
        refine ⟨0, rfl, fun j hj => ?_⟩
        cases j with
        | zero => rfl
        | succ j => exact absurd (List.mem_iff_getElem?.2 ⟨j, hj⟩) hmem
    · rw [List.count_cons_of_ne hb, ← ih]
      constructor
      · rintro ⟨i, hi, hunique⟩
        cases i with
        | zero => exact absurd (Option.some.inj hi) hb
        | succ i =>
          refine ⟨i, hi, fun j hj => ?_⟩
          have := hunique (j + 1) hj
          omega
      · rintro ⟨i, hi, hunique⟩
        refine ⟨i + 1, hi, fun j hj => ?_⟩
        cases j with
        | zero => exact absurd (Option.some.inj hj) hb
        | succ j => rw [hunique j hj]

end First

/-! ## Section 2: What is shown where -/

/-- The cell at a position of a table, given by its row and its column. -/
def FamilyTable.cell? (t : FamilyTable) (position : Nat × Nat) : Option Cell :=
  (t.rows[position.1]?).bind fun row => (row.cells[position.2]?).join

/-- Whatever was measured, the position shows the statistics of the experiment. -/
def ShowsAt (f : Family) (metric : String) (all : List Descriptor) (position : Nat × Nat)
    (x : Descriptor) : Prop :=
  ∀ p : Progress,
    (p.measured.table all f metric).cell? position = some (p.measured.cell metric x.name)

/-- The table of a metric shows each of the family's own experiments once, in the
    row of its model, and none of the others. -/
structure TableComplete (f : Family) (metric : String) (own all : List Descriptor) : Prop where
  shown : ∀ x ∈ own, ∃! position, ShowsAt f metric all position x
  row : ∀ x ∈ own, ∀ position, ShowsAt f metric all position x → ∃ o, x.origin = some o ∧
    ∀ p : Progress,
      ((p.measured.table all f metric).rows[position.1]?).map Row.model = some o.model
  foreign : ∀ y ∈ all, y ∉ own → ∀ position, ¬ ShowsAt f metric all position y

/-- No experiment of the family has a rival for its place: labels keep the family's
    own experiments apart, the models have their names for themselves, and where
    another family has the same name, its experiments come too late. -/
structure Unrivalled (f : Family) (own all : List Descriptor) : Prop where
  distinct : ∀ x ∈ own, ∀ y ∈ own, x.origin = y.origin → x = y
  listed : ∀ x ∈ own, ∀ o ∈ x.origin, (f.models.map Model.name).count o.model = 1
  first : ∀ y ∈ all, y ∉ own → ∀ o ∈ y.origin, o.family = f.name →
    o.model ∈ f.models.map Model.name →
      ∃ x ∈ own, x.origin = y.origin ∧ all.idxOf x < all.idxOf y

section Positions

variable {f : Family} {metric : String} {own all : List Descriptor} {x : Descriptor} {r j : Nat}

/-- The experiment of a place is the first one of all that have it. -/
theorem experimentAt?_eq_some_iff {family model column : String} :
    experimentAt? all family model column = some x ↔
      x ∈ all ∧ x.origin = some { family, model, column } ∧
        ∀ y ∈ all, y.origin = some { family, model, column } → all.idxOf x ≤ all.idxOf y := by
  rw [experimentAt?, find?_eq_some_iff_idxOf]
  simp only [beq_iff_eq]

/-- Where one experiment belongs there is a first one. -/
theorem exists_experimentAt? {family model column : String} (hx : x ∈ all)
    (horigin : x.origin = some { family, model, column }) :
    ∃ z, experimentAt? all family model column = some z := by
  cases hat : experimentAt? all family model column with
  | some z => exact ⟨z, rfl⟩
  | none => exact absurd (beq_iff_eq.2 horigin) (List.find?_eq_none.1 hat x hx)

theorem cell?_table (p : Progress) :
    (p.measured.table all f metric).cell? (r, j) = (f.sortedModels[r]?).bind fun m =>
      ((columnsOf (members f.name all))[j]?).bind fun column =>
        (experimentAt? all f.name m.name column).map fun x => p.measured.cell metric x.name := by
  have hcells : ∀ m, (p.measured.row f metric (members f.name all)
      (columnsOf (members f.name all)) m).cells = (columnsOf (members f.name all)).map fun column =>
        (experimentAt? all f.name m.name column).map fun x => p.measured.cell metric x.name := by
    intro m
    simp only [Measured.row, List.map_map]
    refine List.map_congr_left fun column _ => ?_
    rw [Function.comp_apply, memberAt?_members, Option.map_map]
    rfl
  simp only [FamilyTable.cell?, Measured.table, List.getElem?_map, Option.bind_map]
  congr 1
  funext m
  rw [Function.comp_apply, hcells, List.getElem?_map]
  cases (columnsOf (members f.name all))[j]? <;> rfl

/-- A position shows an experiment exactly if that is the experiment of its place. -/
theorem showsAt_iff (h : (all.map Descriptor.name).Nodup) (hx : x ∈ all) :
    ShowsAt f metric all (r, j) x ↔ ∃ m column, f.sortedModels[r]? = some m ∧
      (columnsOf (members f.name all))[j]? = some column ∧
      experimentAt? all f.name m.name column = some x := by
  constructor
  · intro hshows
    -- A progress in which only `x` overran tells the cells of the experiments apart.
    let p : Progress := ⟨0, 0, [], [(x.name, 0)], 0⟩
    have hcell := hshows p
    rw [cell?_table] at hcell
    obtain ⟨m, hm, hcell⟩ := Option.bind_eq_some_iff.1 hcell
    obtain ⟨column, hcolumn, hcell⟩ := Option.bind_eq_some_iff.1 hcell
    obtain ⟨z, hz, hcell⟩ := Option.map_eq_some_iff.1 hcell
    refine ⟨m, column, hm, hcolumn, ?_⟩
    have htally : ∀ name, (p.measured.cell metric name).timeouts = [x.name].count name :=
      fun name => find?_tally [x.name] name
    have htimeouts := congrArg Cell.timeouts hcell
    rw [htally, htally, List.count_singleton_self] at htimeouts
    have hname : x.name = z.name := by
      by_contra hne
      rw [List.count_singleton, beq_eq_false_iff_ne.2 hne] at htimeouts
      cases htimeouts
    have hzx : x = z := List.inj_on_of_nodup_map h hx (of_experimentAt? hz).1 hname
    rw [hz, hzx]
  · rintro ⟨m, column, hm, hcolumn, hat⟩ p
    rw [cell?_table, hm, Option.bind_some, hcolumn, Option.bind_some, hat]
    rfl

/-- An experiment that is shown comes first at its place, in the row of its model. -/
theorem ShowsAt.origin (hshows : ShowsAt f metric all (r, j) x)
    (h : (all.map Descriptor.name).Nodup) (hx : x ∈ all) :
    ∃ m column, f.sortedModels[r]? = some m ∧
      x.origin = some { family := f.name, model := m.name, column } ∧
      experimentAt? all f.name m.name column = some x := by
  obtain ⟨m, column, hm, -, hat⟩ := (showsAt_iff h hx).1 hshows
  exact ⟨m, column, hm, (of_experimentAt? hat).2, hat⟩

/-- The experiment of a place is shown in each row of the model's name, in one column. -/
theorem exists_showsAt (h : (all.map Descriptor.name).Nodup) {model column : String}
    (hat : experimentAt? all f.name model column = some x) :
    ∃ j, ∀ r k, ShowsAt f metric all (r, k) x ↔
      (f.sortedModels.map Model.name)[r]? = some model ∧ k = j := by
  obtain ⟨hx, horigin⟩ := of_experimentAt? hat
  have hcolumn : column ∈ columnsOf (members f.name all) :=
    mem_columnsOf.2 ⟨x, hx, model, horigin⟩
  obtain ⟨j, hj⟩ := List.mem_iff_getElem?.1 hcolumn
  refine ⟨j, fun r k => ?_⟩
  rw [showsAt_iff h hx, List.getElem?_map, Option.map_eq_some_iff]
  constructor
  · rintro ⟨m, column', hm, hk, hat'⟩
    have heq := (of_experimentAt? hat').2
    rw [horigin] at heq
    cases heq
    have hkj : k = j := (List.getElem?_inj (List.getElem?_eq_some_iff.1 hk).1
      (nodup_columnsOf _)).1 (hk.trans hj.symm)
    exact ⟨⟨m, hm, rfl⟩, hkj⟩
  · rintro ⟨⟨m, hm, rfl⟩, rfl⟩
    exact ⟨m, column, hm, hj, hat⟩

end Positions

/-! ## Section 3: Tables without rivals -/

section Complete

variable {f : Family} {metric : String} {own all : List Descriptor} {x : Descriptor}

theorem perm_sortedModels (f : Family) : f.sortedModels.Perm f.models :=
  List.mergeSort_perm _ _

theorem getElem?_sortedModels_iff {model : String} :
    (∃! r : Nat, (f.sortedModels.map Model.name)[r]? = some model) ↔
      (f.models.map Model.name).count model = 1 := by
  rw [existsUnique_getElem?_iff, ((perm_sortedModels f).map Model.name).count_eq]

/-- What an accepted family knows of its experiments. -/
structure OwnedBy (f : Family) (own all : List Descriptor) : Prop where
  distinct : (all.map Descriptor.name).Nodup
  subset : ∀ x ∈ own, x ∈ all
  origin : ∀ x ∈ own, ∃ m ∈ f.models, ∃ column,
    x.origin = some { family := f.name, model := m.name, column }

variable (h : OwnedBy f own all)

include h

/-- An experiment that is shown once has its place and the name of its model for
    itself. -/
theorem TableComplete.first (hcomplete : TableComplete f metric own all) (hx : x ∈ own) :
    ∃ model column, x.origin = some { family := f.name, model, column } ∧
      experimentAt? all f.name model column = some x ∧
      (f.models.map Model.name).count model = 1 := by
  obtain ⟨⟨r, j⟩, hshows, hunique⟩ := hcomplete.shown x hx
  obtain ⟨m, column, hm, horigin, hat⟩ := hshows.origin h.distinct (h.subset x hx)
  refine ⟨m.name, column, horigin, hat, getElem?_sortedModels_iff.1 ?_⟩
  -- Each row of the model's name shows the experiment in the same column.
  obtain ⟨k, hk⟩ := exists_showsAt h.distinct hat
  obtain ⟨hr, rfl⟩ := (hk r j).1 hshows
  refine ⟨r, hr, fun r' hr' => ?_⟩
  exact congrArg Prod.fst (hunique (r', j) ((hk r' j).2 ⟨hr', rfl⟩))

theorem TableComplete.unrivalled (hcomplete : TableComplete f metric own all) :
    Unrivalled f own all where
  distinct := by
    intro x hx y hy hxy
    obtain ⟨model, column, horigin, hat, -⟩ := hcomplete.first h hx
    obtain ⟨model', column', horigin', hat', -⟩ := hcomplete.first h hy
    rw [horigin, horigin'] at hxy
    cases hxy
    rw [hat] at hat'
    exact Option.some.inj hat'
  listed := by
    intro x hx o ho
    obtain ⟨model, column, horigin, -, hcount⟩ := hcomplete.first h hx
    cases horigin.symm.trans ho
    exact hcount
  first := by
    rintro y hy hown ⟨family, model, column⟩ horigin rfl hmodel
    -- The first experiment of the place is shown, so it is one of the family's own.
    obtain ⟨x, hat⟩ := exists_experimentAt? hy horigin
    obtain ⟨hx, hxorigin, hmin⟩ := experimentAt?_eq_some_iff.1 hat
    obtain ⟨j, hshows⟩ := exists_showsAt h.distinct hat
    have hrow : model ∈ f.sortedModels.map Model.name :=
      ((perm_sortedModels f).map Model.name).mem_iff.2 hmodel
    obtain ⟨r, hr⟩ := List.mem_iff_getElem?.1 hrow
    have hxown : x ∈ own := by
      by_contra hforeign
      exact hcomplete.foreign x hx hforeign (r, j) ((hshows r j).2 ⟨hr, rfl⟩)
    refine ⟨x, hxown, hxorigin.trans horigin.symm, Nat.lt_of_le_of_ne (hmin y hy horigin) ?_⟩
    intro hidx
    rw [(List.idxOf_inj hx).1 hidx] at hxown
    exact hown hxown

/-- Without rivals the experiment of its place is the experiment itself. -/
theorem Unrivalled.experimentAt? (hunrivalled : Unrivalled f own all) (hx : x ∈ own)
    {m : Model} (hm : m ∈ f.models) {column : String}
    (horigin : x.origin = some { family := f.name, model := m.name, column }) :
    experimentAt? all f.name m.name column = some x := by
  refine experimentAt?_eq_some_iff.2 ⟨h.subset x hx, horigin, ?_⟩
  -- Of the experiments of the place the first one cannot be another's.
  obtain ⟨z, hat⟩ := exists_experimentAt? (h.subset x hx) horigin
  obtain ⟨hz, hzorigin, hmin⟩ := experimentAt?_eq_some_iff.1 hat
  by_cases hzown : z ∈ own
  · rw [hunrivalled.distinct x hx z hzown (horigin.trans hzorigin.symm)]
    exact hmin
  · obtain ⟨x', hx', horigin', hlt⟩ := hunrivalled.first z hz hzown _ hzorigin rfl
      (List.mem_map_of_mem hm)
    have hle := hmin x' (h.subset x' hx') (horigin'.trans hzorigin)
    omega

theorem Unrivalled.complete (hunrivalled : Unrivalled f own all) :
    TableComplete f metric own all where
  shown := by
    intro x hx
    obtain ⟨m, hm, column, horigin⟩ := h.origin x hx
    have hat := hunrivalled.experimentAt? h hx hm horigin
    obtain ⟨j, hshows⟩ := exists_showsAt h.distinct hat
    obtain ⟨r, hr, hunique⟩ := getElem?_sortedModels_iff.2 (hunrivalled.listed x hx _ horigin)
    refine ⟨(r, j), (hshows r j).2 ⟨hr, rfl⟩, ?_⟩
    rintro ⟨r', k⟩ hposition
    obtain ⟨hr', rfl⟩ := (hshows r' k).1 hposition
    rw [hunique r' hr']
  row := by
    rintro x hx ⟨r, j⟩ hshows
    obtain ⟨m, column, hm, horigin, -⟩ := hshows.origin h.distinct (h.subset x hx)
    refine ⟨_, horigin, fun p => ?_⟩
    show ((f.sortedModels.map _)[r]?).map Row.model = _
    rw [List.getElem?_map, hm]
    rfl
  foreign := by
    rintro y hy hown ⟨r, j⟩ hshows
    obtain ⟨m, column, hm, horigin, hat⟩ := hshows.origin h.distinct hy
    have hmodel : m ∈ f.models := (perm_sortedModels f).mem_iff.1 (List.mem_of_getElem? hm)
    obtain ⟨x, hx, hxorigin, hlt⟩ := hunrivalled.first y hy hown _ horigin rfl
      (List.mem_map_of_mem hmodel)
    have hle := (experimentAt?_eq_some_iff.1 hat).2.2 x (h.subset x hx) (hxorigin.trans horigin)
    omega

end Complete

/-- The tables of an accepted catalog show every experiment once, in the row of its
    model, and in the tables of its own family only, exactly if it has no rival. -/
theorem tables_complete_iff {env : Shell.Environment} {c : Catalog} {all : List Descriptor}
    (h : c.descriptors env = .ok all) :
    (∀ f ∈ c.families, ∀ own, f.expand env = .ok own →
        ∀ metric ∈ f.metrics, TableComplete f metric own all) ↔
      ∀ f ∈ c.families, ∀ own, f.expand env = .ok own → f.metrics ≠ [] → Unrivalled f own all := by
  obtain ⟨groups, haccepted⟩ := Catalog.accepted h
  have howned : ∀ f ∈ c.families, ∀ own, f.expand env = .ok own → OwnedBy f own all := by
    intro f hf own hexpand
    obtain ⟨xs, hgroup, hxs⟩ := haccepted.family hf
    have heq : own = xs := Except.ok.inj (hexpand.symm.trans hxs.expand)
    subst heq
    exact ⟨haccepted.distinct, fun x hx => haccepted.subset hgroup hx, fun x hx => hxs.origin hx⟩
  constructor
  · intro hcomplete f hf own hexpand hmetrics
    obtain ⟨metric, hmetric⟩ := List.exists_mem_of_ne_nil f.metrics hmetrics
    exact (hcomplete f hf own hexpand metric hmetric).unrivalled (howned f hf own hexpand)
  · intro hunrivalled f hf own hexpand metric hmetric
    exact (hunrivalled f hf own hexpand (List.ne_nil_of_mem hmetric)).complete
      (howned f hf own hexpand)

theorem tables_complete_starter :
    (Catalog.starter "en").descriptors {} = .ok starterExperiments ∧
      ∀ f ∈ (Catalog.starter "en").families, ∀ own, f.expand {} = .ok own →
        ∀ metric ∈ f.metrics, TableComplete f metric own starterExperiments := by
  refine ⟨descriptors_starter, (tables_complete_iff descriptors_starter).2 ?_⟩
  intro f hf own hexpand _
  have hown : f.expand {} = .ok starterExperiments := by
    rw [List.mem_singleton.1 hf]
    decide +kernel
  rw [List.mem_singleton.1 hf, Except.ok.inj (hexpand.symm.trans hown)]
  exact ⟨by decide +kernel, by decide +kernel, by decide +kernel⟩

/-- Two families of one name, each with a variant of its own under one label. -/
def rivalText : String :=
  "[[families]]\nname = \"f\"\nmodels = [\x7b name = \"m\", input = [] \x7d]\n" ++
  "[[families.variants]]\nname = \"\x7bmodel\x7d-a\"\nlabel = \"tool\"\ncommand = \"tool\"\n" ++
  "parser = \"gmp\"\n" ++
  "[[families]]\nname = \"f\"\nmodels = [\x7b name = \"m\", input = [] \x7d]\n" ++
  "[[families.variants]]\nname = \"\x7bmodel\x7d-b\"\nlabel = \"tool\"\ncommand = \"tool\"\n" ++
  "parser = \"gmp\"\n"

/-- The family of one of the variants. -/
def rivalFamily (variant : String) : Family where
  name := "f"
  models := [⟨"m", [], none, none⟩]
  variants := [⟨"\x7bmodel\x7d-" ++ variant, "tool", .gmp, some "tool", [], []⟩]
  speedups := []
  phases := []
  metrics := [timeKey]

/-- What the text holds. -/
def rivalCatalog : Catalog :=
  { Catalog.default with families := ["a", "b"].map rivalFamily }

/-- The experiment of a variant. -/
def rival (variant : String) : Descriptor :=
  { Descriptor.plain ("m-" ++ variant) with origin := some ⟨"f", "m", "tool"⟩ }

/-- Labels and names of families are not checked for rivals: the second experiment
    is in no table at all, and in the table of its family stands the first one. -/
theorem rival_drops_out :
    Catalog.ofText rivalText = .ok rivalCatalog ∧
      rivalCatalog.descriptors {} = .ok [rival "a", rival "b"] ∧
      (rivalFamily "b").expand {} = .ok [rival "b"] ∧
      (∀ f ∈ rivalCatalog.families, ∀ position,
        ¬ ShowsAt f timeKey [rival "a", rival "b"] position (rival "b")) ∧
      ShowsAt (rivalFamily "b") timeKey [rival "a", rival "b"] (0, 0) (rival "a") ∧
      ¬ TableComplete (rivalFamily "b") timeKey [rival "b"] [rival "a", rival "b"] := by
  have hdistinct : ([rival "a", rival "b"].map Descriptor.name).Nodup := by decide +kernel
  have hat : experimentAt? [rival "a", rival "b"] "f" "m" "tool" = some (rival "a") := by
    decide +kernel
  have hdropped : ∀ f ∈ rivalCatalog.families, ∀ position,
      ¬ ShowsAt f timeKey [rival "a", rival "b"] position (rival "b") := by
    rintro f - ⟨r, j⟩ hshows
    obtain ⟨m, column, -, horigin, hat'⟩ := hshows.origin hdistinct (by simp)
    have hname : (Origin.mk "f" "m" "tool") = ⟨f.name, m.name, column⟩ := Option.some.inj horigin
    obtain ⟨hf, hm, hcolumn⟩ := Origin.mk.inj hname
    rw [← hf, ← hm, ← hcolumn, hat] at hat'
    exact absurd hat' (by decide +kernel)
  have hshown : ShowsAt (rivalFamily "b") timeKey [rival "a", rival "b"] (0, 0) (rival "a") :=
    (showsAt_iff hdistinct (by simp)).2 ⟨⟨"m", [], none, none⟩, "tool", by decide +kernel,
      by decide +kernel, hat⟩
  refine ⟨by decide +kernel, by decide +kernel, by decide +kernel, hdropped, hshown, ?_⟩
  intro hcomplete
  obtain ⟨position, hposition, -⟩ := hcomplete.shown (rival "b") (by simp)
  exact hdropped (rivalFamily "b") (by simp [rivalCatalog]) position hposition

end BenchSweep
