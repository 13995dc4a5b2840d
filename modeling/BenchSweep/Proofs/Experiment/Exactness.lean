import Mathlib.Data.List.Forall2
import BenchSweep.Proofs.Experiment.Accepted
import BenchSweep.Report.Analysis

/-! # What a Catalog Expands To

    A catalog is accepted exactly if everything that it crosses expands, under
    names that differ, and every speedup refers to experiments of its own family.
    Its experiments are then these expansions, in the order in which it crosses. -/

namespace BenchSweep

/-! ## Section 1: Lists in step -/

section InStep

variable {α β : Type} {R : α → β → Prop} {xs : List α} {ys : List β}

theorem exists_forall₂ (h : ∀ x ∈ xs, ∃ y, R x y) : ∃ ys, List.Forall₂ R xs ys := by
  induction xs with
  | nil => exact ⟨[], .nil⟩
  | cons x xs ih =>
    obtain ⟨y, hy⟩ := h x List.mem_cons_self
    obtain ⟨ys, hys⟩ := ih fun x hx => h x (List.mem_cons_of_mem _ hx)
    exact ⟨y :: ys, .cons hy hys⟩

/-- What holds between any two elements of a list is what holds between the partners
    of any two elements of the other. -/
theorem pairwise_partners_iff {S : β → β → Prop} (h : List.Forall₂ R xs ys)
    (hR : ∀ x y y', R x y → R x y' → y = y') :
    ys.Pairwise S ↔ xs.Pairwise fun x x' => ∀ y y', R x y → R x' y' → S y y' := by
  induction h with
  | nil => exact ⟨fun _ => .nil, fun _ => .nil⟩
  | @cons x y xs ys hxy h ih =>
    rw [List.pairwise_cons, List.pairwise_cons, ih]
    refine and_congr_left fun _ => ⟨fun hall x' hx' z z' hz hz' => ?_, fun hall y' hy' => ?_⟩
    · obtain ⟨y', hy', hxy'⟩ := exists_mem_right h hx'
      rw [hR x z y hz hxy, hR x' z' y' hz' hxy']
      exact hall y' hy'
    · obtain ⟨x', hx', hxy'⟩ := exists_mem_left h hy'
      exact hall x' hx' y y' hxy hxy'

end InStep

/-! ## Section 2: One experiment -/

variable {env : Shell.Environment} {f : Family} {t : Variant × Option Nat × Model}
  {x y : Descriptor} {xs ds : List Descriptor} {c : Catalog}

/-- What the templates of a variant are filled with. -/
def trialBinding (t : Variant × Option Nat × Model) : Template.Binding where
  variant := t.1.name
  model := t.2.2
  workers := t.2.1

/-- The experiment that a variant stands for, with a worker count and on a model: it has
    the name, the command and the format of the variant, and it tells its family, its
    model and its column. -/
structure Expands (env : Shell.Environment) (f : Family) (t : Variant × Option Nat × Model)
    (x : Descriptor) : Prop where
  name : Template.expand (trialBinding t) t.1.name = .ok x.name
  invocation : ∃ words arguments, t.1.commandWords env = .ok words ∧
    words.mapM (wordArguments (trialBinding t)) = .ok arguments ∧
    Invocation.ofWords? arguments.flatten = some x.invocation
  format : x.format = t.1.format
  origin : ∃ column, columnLabel t.1 (trialBinding t) = .ok column ∧
    x.origin = some { family := f.name, model := t.2.2.name, column }

theorem expandTrial_eq_ok_iff : expandTrial env f t.1 t.2.2 t.2.1 = .ok x ↔ Expands env f t x := by
  constructor
  · intro h
    obtain ⟨words, arguments, column, hname, hwords, harguments, hinvocation, hcolumn, hformat,
      horigin⟩ := expandTrial_ok h
    exact ⟨hname, ⟨words, arguments, hwords, harguments, hinvocation⟩, hformat,
      ⟨column, hcolumn, horigin⟩⟩
  · rintro ⟨hname, ⟨words, arguments, hwords, harguments, hinvocation⟩, hformat,
      ⟨column, hcolumn, horigin⟩⟩
    obtain ⟨name, invocation, format, origin⟩ := x
    cases hformat
    cases horigin
    refine bind_eq_ok.2 ⟨name, hname, bind_eq_ok.2 ⟨words, hwords, bind_eq_ok.2
      ⟨arguments, harguments, ?_⟩⟩⟩
    rw [hinvocation]
    exact bind_eq_ok.2 ⟨column, hcolumn, rfl⟩

theorem Expands.eq (h : Expands env f t x) (h' : Expands env f t y) : x = y :=
  Except.ok.inj ((expandTrial_eq_ok_iff.2 h).symm.trans (expandTrial_eq_ok_iff.2 h'))

/-! ## Section 3: One family -/

theorem expand_eq_ok_iff :
    f.expand env = .ok xs ↔ List.Forall₂ (Expands env f) f.trials xs := by
  rw [Family.expand, mapM_eq_ok]
  simp only [expandTrial_eq_ok_iff]

/-- A template refers to the family: it expands for each of the family's models, and for
    one of them it is the name of one of the family's experiments. -/
structure Family.RefersTo (env : Shell.Environment) (f : Family) (template : String) : Prop where
  expands : ∀ m ∈ f.models, ∃ name, Template.speedupName template m = .ok name
  own : ∃ m ∈ f.models, ∃ t ∈ f.trials, ∃ x, Expands env f t x ∧
    Template.speedupName template m = .ok x.name

theorem refersTo_eq_ok_iff {models : List Model} {names : List String} {template : String} :
    refersTo models names template = .ok true ↔
      (∀ m ∈ models, ∃ name, Template.speedupName template m = .ok name) ∧
        (models ≠ [] →
          ∃ m ∈ models, ∃ name ∈ names, Template.speedupName template m = .ok name) := by
  unfold refersTo
  rw [bind_eq_ok]
  constructor
  · rintro ⟨referred, hreferred, hany⟩
    have hstep := mapM_eq_ok.1 hreferred
    refine ⟨fun m hm => ?_, fun hne => ?_⟩
    · obtain ⟨name, -, hname⟩ := exists_mem_right hstep hm
      exact ⟨name, hname⟩
    · have hmem : ∃ name ∈ referred, name ∈ names := by
        simpa [pure, Except.pure, hne] using hany
      obtain ⟨name, hname, hnames⟩ := hmem
      obtain ⟨m, hm, hexpands⟩ := exists_mem_left hstep hname
      exact ⟨m, hm, name, hnames, hexpands⟩
  · rintro ⟨hexpands, hown⟩
    obtain ⟨referred, hstep⟩ := exists_forall₂ hexpands
    refine ⟨referred, mapM_eq_ok.2 hstep, congrArg Except.ok ?_⟩
    by_cases hne : models = []
    · simp [hne]
    · obtain ⟨m, hm, name, hnames, hname⟩ := hown hne
      obtain ⟨name', hname', hexpands'⟩ := exists_mem_right hstep hm
      obtain rfl := Except.ok.inj (hexpands'.symm.trans hname)
      simp only [Bool.or_eq_true, List.any_eq_true]
      exact .inr ⟨name', hname', List.contains_iff_mem.2 hnames⟩

theorem checkReference_eq_ok_iff {names : List String} {label template : String} :
    checkReference f names label template = .ok () ↔
      refersTo f.models names template = .ok true := by
  unfold checkReference
  rw [bind_eq_ok]
  constructor
  · rintro ⟨refers, hrefers, hcheck⟩
    cases refers with
    | true => exact hrefers
    | false => cases hcheck
  · intro h
    exact ⟨true, h, rfl⟩

/-- Where the family's experiments are known, a template is checked for whether it refers
    to them. -/
theorem refersTo_names_iff (hxs : List.Forall₂ (Expands env f) f.trials xs) {template : String} :
    refersTo f.models (xs.map Descriptor.name) template = .ok true ↔
      (f.models ≠ [] → f.RefersTo env template) := by
  rw [refersTo_eq_ok_iff]
  constructor
  · rintro ⟨hexpands, hown⟩ hne
    obtain ⟨m, hm, name, hname, hrefers⟩ := hown hne
    obtain ⟨x, hx, rfl⟩ := List.mem_map.1 hname
    obtain ⟨t, ht, hexpand⟩ := exists_mem_left hxs hx
    exact ⟨hexpands, m, hm, t, ht, x, hexpand, hrefers⟩
  · intro h
    refine ⟨fun m hm => (h (List.ne_nil_of_mem hm)).expands m hm, fun hne => ?_⟩
    obtain ⟨m, hm, t, ht, x, hexpand, hrefers⟩ := (h hne).own
    obtain ⟨x', hx', hexpand'⟩ := exists_mem_right hxs ht
    obtain rfl := hexpand.eq hexpand'
    exact ⟨m, hm, x.name, List.mem_map_of_mem hx', hrefers⟩

/-- The speedups of a family refer to its experiments, if it has models at all. -/
def Family.SpeedupsRefer (env : Shell.Environment) (f : Family) : Prop :=
  f.models ≠ [] → ∀ s ∈ f.speedups, f.RefersTo env s.numerator ∧ f.RefersTo env s.denominator

theorem checkSpeedups_eq_ok_iff (hxs : List.Forall₂ (Expands env f) f.trials xs) :
    f.checkSpeedups (xs.map Descriptor.name) = .ok () ↔ f.SpeedupsRefer env := by
  have hcheck : ∀ label template : String,
      checkReference f (xs.map Descriptor.name) label template = .ok () ↔
        (f.models ≠ [] → f.RefersTo env template) :=
    fun label template => checkReference_eq_ok_iff.trans (refersTo_names_iff hxs)
  rw [Family.checkSpeedups, forM_eq_ok]
  constructor
  · intro h hne s hs
    obtain ⟨_, hnumerator, hdenominator⟩ := bind_eq_ok.1 (h s hs)
    exact ⟨(hcheck _ _).1 hnumerator hne, (hcheck _ _).1 hdenominator hne⟩
  · intro h s hs
    have hnumerator := (hcheck s.label s.numerator).2 fun hne => (h hne s hs).1
    have hdenominator := (hcheck s.label s.denominator).2 fun hne => (h hne s hs).2
    exact bind_eq_ok.2 ⟨(), hnumerator, hdenominator⟩

theorem Family.accepted_iff :
    f.Accepted env xs ↔
      List.Forall₂ (Expands env f) f.trials xs ∧ f.SpeedupsRefer env := by
  constructor
  · intro h
    have hxs := expand_eq_ok_iff.1 h.expand
    exact ⟨hxs, (checkSpeedups_eq_ok_iff hxs).1 h.speedups⟩
  · rintro ⟨hxs, hspeedups⟩
    exact ⟨expand_eq_ok_iff.2 hxs, (checkSpeedups_eq_ok_iff hxs).2 hspeedups⟩

/-! ## Section 4: The catalog -/

/-- What a catalog crosses, in its order: families, variants, worker counts and models. -/
def Catalog.trials (c : Catalog) : List (Family × Variant × Option Nat × Model) :=
  c.families.flatMap fun f => f.trials.map (Prod.mk f)

/-- All that a catalog crosses expands, under names that differ, and its speedups refer to
    their families. -/
structure Catalog.Expandable (env : Shell.Environment) (c : Catalog) : Prop where
  trials : ∀ t ∈ c.trials, ∃ x, Expands env t.1 t.2 x
  distinct : c.trials.Pairwise fun t t' =>
    ∀ x x', Expands env t.1 t.2 x → Expands env t'.1 t'.2 x' → x.name ≠ x'.name
  speedups : ∀ f ∈ c.families, f.SpeedupsRefer env

/-- The experiments of the families, one family after the other, are those of all that is
    crossed. -/
theorem forall₂_trials {groups : List (List Descriptor)}
    (h : List.Forall₂ (fun f xs => List.Forall₂ (Expands env f) f.trials xs) c.families groups) :
    List.Forall₂ (fun t x => Expands env t.1 t.2 x) c.trials groups.flatten := by
  unfold Catalog.trials
  generalize c.families = fs at h ⊢
  induction h with
  | nil => exact .nil
  | @cons f xs fs groups hf _ ih =>
    have hfirst : List.Forall₂ (fun t x => Expands env t.1 t.2 x) (f.trials.map (Prod.mk f)) xs :=
      List.forall₂_map_left_iff.2 hf
    exact List.rel_append hfirst ih

theorem addFamily_of_accepted (h : f.Accepted env xs)
    (hdistinct : ((ds ++ xs).map Descriptor.name).Nodup) :
    addFamily env ds f = .ok (ds ++ xs) := by
  rw [List.map_append, List.nodup_append] at hdistinct
  obtain ⟨-, hxs, hapart⟩ := hdistinct
  have hnone : firstRepeated? (ds.map Descriptor.name) (xs.map Descriptor.name) = none :=
    firstRepeated?_eq_none.2 ⟨hxs, fun name hname hseen => hapart name hseen name hname rfl⟩
  refine bind_eq_ok.2 ⟨xs, h.expand, ?_⟩
  rw [hnone]
  exact bind_eq_ok.2 ⟨(), h.speedups, rfl⟩

/-- A catalog has the experiments of its families if these are accepted one by one and
    no name comes twice. -/
theorem Catalog.Accepted.descriptors {groups : List (List Descriptor)}
    (h : c.Accepted env groups ds) : c.descriptors env = .ok ds := by
  -- The induction is on the families that are left, behind those whose experiments are there.
  have hfold : ∀ (fs : List Family) (groups : List (List Descriptor)),
      List.Forall₂ (Family.Accepted env) fs groups → ∀ before : List Descriptor,
      ((before ++ groups.flatten).map Descriptor.name).Nodup →
      fs.foldlM (addFamily env) before = .ok (before ++ groups.flatten) := by
    intro fs groups hgroups
    induction hgroups with
    | nil =>
      intro before _
      rw [List.flatten_nil, List.append_nil]
      rfl
    | @cons f xs fs groups hf _ ih =>
      intro before hdistinct
      rw [List.flatten_cons, ← List.append_assoc] at hdistinct ⊢
      have hbefore : ((before ++ xs).map Descriptor.name).Nodup :=
        hdistinct.sublist ((List.sublist_append_left _ _).map _)
      rw [List.foldlM_cons]
      exact bind_eq_ok.2 ⟨before ++ xs, addFamily_of_accepted hf hbefore, ih _ hdistinct⟩
  have hds := h.flatten
  subst hds
  exact hfold c.families groups h.families [] h.distinct

theorem Catalog.Accepted.forall₂ {groups : List (List Descriptor)}
    (h : c.Accepted env groups ds) :
    List.Forall₂ (fun t x => Expands env t.1 t.2 x) c.trials ds := by
  rw [h.flatten]
  exact forall₂_trials (h.families.imp fun _ _ hf => (Family.accepted_iff.1 hf).1)

/-- **Expansion is exact.**  A catalog is accepted exactly if all that it crosses expands,
    under names that differ, and the speedups refer to their families.  Its experiments
    are then the expansions in the order of crossing, and the reports find both names of
    every speedup for every model. -/
theorem expansion_exact (env : Shell.Environment) (c : Catalog) :
    ((∃ ds, c.descriptors env = .ok ds) ↔ c.Expandable env) ∧
      ∀ ds, c.descriptors env = .ok ds →
        List.Forall₂ (fun t x => Expands env t.1 t.2 x) c.trials ds ∧
        ∀ f ∈ c.families, ∀ s ∈ f.speedups, ∀ m ∈ f.sortedModels,
          ∃ top bottom, Template.speedupName s.numerator m = .ok top ∧
            Template.speedupName s.denominator m = .ok bottom := by
  have hunique : ∀ (t : Family × Variant × Option Nat × Model) x y,
      Expands env t.1 t.2 x → Expands env t.1 t.2 y → x = y := fun _ _ _ => Expands.eq
  refine ⟨⟨?_, fun h => ?_⟩, fun ds h => ?_⟩
  · rintro ⟨ds, h⟩
    obtain ⟨groups, h⟩ := Catalog.accepted h
    refine ⟨fun t ht => ?_, ?_, fun f hf => ?_⟩
    · obtain ⟨x, -, hx⟩ := exists_mem_right h.forall₂ ht
      exact ⟨x, hx⟩
    · exact (pairwise_partners_iff h.forall₂ hunique).1 (List.pairwise_map.1 h.distinct)
    · obtain ⟨xs, -, hxs⟩ := h.family hf
      exact (Family.accepted_iff.1 hxs).2
  · -- Each family is accepted by itself, and the names differ over all of them.
    have hfamily : ∀ f ∈ c.families, ∃ xs, f.Accepted env xs := by
      intro f hf
      have htrials : ∀ t ∈ f.trials, ∃ x, Expands env f t x := fun t ht =>
        h.trials (f, t) (List.mem_flatMap.2 ⟨f, hf, List.mem_map_of_mem ht⟩)
      obtain ⟨xs, hxs⟩ := exists_forall₂ htrials
      exact ⟨xs, Family.accepted_iff.2 ⟨hxs, h.speedups f hf⟩⟩
    obtain ⟨groups, hgroups⟩ := exists_forall₂ hfamily
    have hstep := forall₂_trials (hgroups.imp fun _ _ hf => (Family.accepted_iff.1 hf).1)
    have hdistinct := List.pairwise_map.2 ((pairwise_partners_iff hstep hunique).2 h.distinct)
    exact ⟨_, Catalog.Accepted.descriptors ⟨hgroups, rfl, hdistinct⟩⟩
  · obtain ⟨groups, h⟩ := Catalog.accepted h
    refine ⟨h.forall₂, fun f hf s hs m hm => ?_⟩
    obtain ⟨xs, -, hxs⟩ := h.family hf
    exact hxs.speedupNames hs (List.mem_mergeSort.1 hm)

/-- A family with two models, on which one variant runs with two worker counts each
    and the other only on the first. -/
def Family.crossed : Family where
  name := "lts"
  models := [⟨"kanban", ["kanban.bdd", "kanban.order"], none, none⟩, ⟨"polling", [], some 9, none⟩]
  variants := [
    { name := "\x7bmodel\x7d-p-\x7bworkers\x7d"
      command := "tool -w \x7bworkers\x7d \x7binput\x7d"
      format := .mc
      label := none
      workers := [4, 1]
      exclude := [] },
    { name := "\x7bmodel\x7d-s"
      command := "tool \x7binput\x7d"
      format := .mc
      label := some "sequential"
      workers := []
      exclude := ["polling"] }]
  speedups := [⟨"speedup", "\x7bmodel\x7d-s", "\x7bmodel\x7d-p-4"⟩]
  phases := []
  metrics := []

/-- A catalog with another family behind that one, on the same models. -/
def Catalog.crossed : Catalog :=
  { Catalog.default with
    families := [.crossed, {
      name := "again"
      models := Family.crossed.models
      variants := [{
        name := "again-\x7bmodel\x7d"
        command := "tool"
        format := .gmp
        label := none
        workers := []
        exclude := ["kanban"] }]
      speedups := []
      phases := []
      metrics := [] }] }

theorem expansion_exact_crossed :
    ∃ ds, Catalog.crossed.descriptors {} = .ok ds ∧
      ds.map (fun x => (x.name, x.invocation.args)) =
        [("kanban-p-4", ["-w", "4", "kanban.bdd", "kanban.order"]), ("polling-p-4", ["-w", "4"]),
          ("kanban-p-1", ["-w", "1", "kanban.bdd", "kanban.order"]), ("polling-p-1", ["-w", "1"]),
          ("kanban-s", ["kanban.bdd", "kanban.order"]), ("again-polling", [])] ∧
      Catalog.crossed.Expandable {} ∧
      List.Forall₂ (fun t x => Expands {} t.1 t.2 x) Catalog.crossed.trials ds ∧
      ∀ f ∈ Catalog.crossed.families, ∀ s ∈ f.speedups, ∀ m ∈ f.sortedModels,
        ∃ top bottom, Template.speedupName s.numerator m = .ok top ∧
          Template.speedupName s.denominator m = .ok bottom := by
  obtain ⟨haccepted, hexact⟩ := expansion_exact {} .crossed
  have hds : (Catalog.crossed.descriptors {}).map
      (fun ds => ds.map fun x => (x.name, x.invocation.args)) =
        .ok [("kanban-p-4", ["-w", "4", "kanban.bdd", "kanban.order"]), ("polling-p-4", ["-w", "4"]),
          ("kanban-p-1", ["-w", "1", "kanban.bdd", "kanban.order"]), ("polling-p-1", ["-w", "1"]),
          ("kanban-s", ["kanban.bdd", "kanban.order"]), ("again-polling", [])] := by
    decide +kernel
  generalize Catalog.crossed.descriptors {} = outcome at hds haccepted hexact ⊢
  cases outcome with
  | error e => cases hds
  | ok ds => exact ⟨ds, rfl, Except.ok.inj hds, haccepted.1 ⟨ds, rfl⟩, hexact ds rfl⟩

end BenchSweep
