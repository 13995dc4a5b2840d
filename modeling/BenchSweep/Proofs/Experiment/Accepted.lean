import Mathlib.Data.List.Nodup
import BenchSweep.Experiment.Expansion

/-! # Accepted Catalogs

    A catalog is accepted if each of its families expands, no name comes twice,
    and the speedups name experiments.  Its experiments are then those of its
    families, one family after the other, and each tells where it belongs. -/

namespace BenchSweep

/-! ## Section 1: Computations that end well -/

/-- Whether two computations came to the same can be decided. -/
instance exceptDecidableEq {ε α : Type} [DecidableEq ε] [DecidableEq α] :
    DecidableEq (Except ε α)
  | .ok x, .ok y => decidable_of_iff (x = y) ⟨congrArg _, Except.ok.inj⟩
  | .error e, .error e' => decidable_of_iff (e = e') ⟨congrArg _, Except.error.inj⟩
  | .ok _, .error _ => isFalse nofun
  | .error _, .ok _ => isFalse nofun

theorem bind_eq_ok {ε α β : Type} {a : Except ε α} {f : α → Except ε β} {y : β} :
    a >>= f = .ok y ↔ ∃ x, a = .ok x ∧ f x = .ok y := by
  cases a with
  | error e => simp [bind, Except.bind]
  | ok x => simp [bind, Except.bind]

/-- A list is worked through if each of its items is, in order. -/
theorem mapM_eq_ok {ε α β : Type} {f : α → Except ε β} {xs : List α} {ys : List β} :
    xs.mapM f = .ok ys ↔ List.Forall₂ (fun x y => f x = .ok y) xs ys := by
  induction xs generalizing ys with
  | nil =>
    rw [List.mapM_nil, List.forall₂_nil_left_iff]
    exact ⟨fun h => (Except.ok.inj h).symm, fun h => by rw [h]; rfl⟩
  | cons x xs ih =>
    rw [List.mapM_cons, bind_eq_ok]
    constructor
    · rintro ⟨y, hy, hrest⟩
      obtain ⟨rest, hxs, hpure⟩ := bind_eq_ok.1 hrest
      cases hpure
      exact .cons hy (ih.1 hxs)
    · intro h
      cases h with
      | cons hy hrest => exact ⟨_, hy, bind_eq_ok.2 ⟨_, ih.2 hrest, rfl⟩⟩

/-- The work ends with the error of the first item that fails. -/
theorem mapM_eq_error {ε α β : Type} {f : α → Except ε β} {xs : List α} {e : ε} :
    xs.mapM f = .error e ↔ ∃ before x after, xs = before ++ x :: after ∧
      (∀ y ∈ before, ∃ z, f y = .ok z) ∧ f x = .error e := by
  induction xs with
  | nil => simp [pure, Except.pure]
  | cons x xs ih =>
    rw [List.mapM_cons]
    cases hx : f x with
    | error e' =>
      constructor
      · intro h
        cases h
        exact ⟨[], x, xs, rfl, by simp, hx⟩
      · intro h
        obtain ⟨before, y, after, heq, hbefore, hy⟩ := h
        cases before with
        | nil =>
          cases heq
          cases hx.symm.trans hy
          rfl
        | cons b before =>
          -- The item that fails would be one of those before the first that does.
          cases heq
          obtain ⟨z, hz⟩ := hbefore x List.mem_cons_self
          cases hx.symm.trans hz
    | ok y =>
      have hrest : (Except.ok y >>= fun y => xs.mapM f >>= fun ys => pure (y :: ys))
          = (.error e : Except ε (List β)) ↔ xs.mapM f = .error e := by
        cases xs.mapM f with
        | error e' => exact Iff.rfl
        | ok ys => exact ⟨nofun, nofun⟩
      rw [hrest, ih]
      constructor
      · intro h
        obtain ⟨before, x', after, rfl, hbefore, hx'⟩ := h
        exact ⟨x :: before, x', after, rfl, List.forall_mem_cons.2 ⟨⟨y, hx⟩, hbefore⟩, hx'⟩
      · intro h
        obtain ⟨before, x', after, heq, hbefore, hx'⟩ := h
        cases before with
        | nil =>
          cases heq
          cases hx.symm.trans hx'
        | cons b before =>
          cases heq
          exact ⟨before, x', after, rfl, (List.forall_mem_cons.1 hbefore).2, hx'⟩

theorem forM_eq_ok {ε α : Type} {f : α → Except ε Unit} {xs : List α} :
    xs.forM f = .ok () ↔ ∀ x ∈ xs, f x = .ok () := by
  induction xs with
  | nil => simp [pure, Except.pure]
  | cons x xs ih =>
    show (f x >>= fun _ => xs.forM f) = .ok () ↔ _
    rw [bind_eq_ok, List.forall_mem_cons, ← ih]
    constructor
    · rintro ⟨_, hx, hrest⟩
      exact ⟨hx, hrest⟩
    · rintro ⟨hx, hrest⟩
      exact ⟨(), hx, hrest⟩

section Related

variable {α β : Type} {R : α → β → Prop} {xs : List α} {ys : List β}

/-- An element of one of two related lists is related to one of the other. -/
theorem exists_mem_right (h : List.Forall₂ R xs ys) {x : α} (hx : x ∈ xs) : ∃ y ∈ ys, R x y := by
  induction h with
  | nil => cases hx
  | cons hxy _ ih =>
    rcases List.mem_cons.1 hx with rfl | hx
    · exact ⟨_, List.mem_cons_self, hxy⟩
    · obtain ⟨y, hy, hR⟩ := ih hx
      exact ⟨y, List.mem_cons_of_mem _ hy, hR⟩

theorem exists_mem_left (h : List.Forall₂ R xs ys) {y : β} (hy : y ∈ ys) : ∃ x ∈ xs, R x y :=
  exists_mem_right (List.Forall₂.flip h) hy

end Related

/-! ## Section 2: One experiment -/

variable {env : Shell.Environment} {f : Family} {v : Variant} {model : Model}
  {workers : Option Nat} {x y : Descriptor} {xs ds : List Descriptor} {c : Catalog}

/-- What an experiment consists of, if its templates expand. -/
theorem expandTrial_ok (h : expandTrial env f v model workers = .ok x) :
    ∃ words arguments column,
      Template.expand ⟨v.name, model, workers⟩ v.name = .ok x.name ∧
      v.commandWords env = .ok words ∧
      words.mapM (wordArguments ⟨v.name, model, workers⟩) = .ok arguments ∧
      Invocation.ofWords? arguments.flatten = some x.invocation ∧
      columnLabel v ⟨v.name, model, workers⟩ = .ok column ∧
      x.format = v.format ∧
      x.origin = some { family := f.name, model := model.name, column } := by
  unfold expandTrial at h
  obtain ⟨name, hname, h⟩ := bind_eq_ok.1 h
  obtain ⟨words, hwords, h⟩ := bind_eq_ok.1 h
  obtain ⟨arguments, harguments, h⟩ := bind_eq_ok.1 h
  cases hinvocation : Invocation.ofWords? arguments.flatten with
  | none => simp [hinvocation] at h
  | some invocation =>
    rw [hinvocation] at h
    obtain ⟨column, hcolumn, h⟩ := bind_eq_ok.1 h
    cases h
    exact ⟨words, arguments, column, hname, hwords, harguments, hinvocation, hcolumn, rfl, rfl⟩

/-! ## Section 3: One family -/

/-- The family is accepted with these experiments: each of its trials expands, and
    its speedups name some of them. -/
structure Family.Accepted (env : Shell.Environment) (f : Family) (xs : List Descriptor) : Prop where
  expand : f.expand env = .ok xs
  speedups : f.checkSpeedups (xs.map Descriptor.name) = .ok ()

/-- The trials of a family are its variants on their models at their worker counts. -/
theorem Family.mem_trials {w : Option Nat} {m : Model} :
    (v, w, m) ∈ f.trials ↔
      v ∈ f.variants ∧ w ∈ v.workerAxis ∧ m ∈ f.models ∧ m.name ∉ v.exclude := by
  simp only [Family.trials, List.mem_flatMap, List.mem_map, List.mem_filter, Prod.mk.injEq]
  constructor
  · rintro ⟨v', hv, w', hw, m', ⟨hm, hexclude⟩, rfl, rfl, rfl⟩
    exact ⟨hv, hw, hm, by simpa using hexclude⟩
  · rintro ⟨hv, hw, hm, hexclude⟩
    exact ⟨v, hv, w, hw, m, ⟨hm, by simpa using hexclude⟩, rfl, rfl, rfl⟩

/-- An experiment of a family is one of its variants on one of its models. -/
theorem Family.Accepted.trial (h : f.Accepted env xs) (hx : x ∈ xs) :
    ∃ v ∈ f.variants, ∃ w ∈ v.workerAxis, ∃ m ∈ f.models, expandTrial env f v m w = .ok x := by
  obtain ⟨⟨v, w, m⟩, hmem, hexpand⟩ := exists_mem_left (mapM_eq_ok.1 h.expand) hx
  obtain ⟨hv, hw, hm, -⟩ := Family.mem_trials.1 hmem
  exact ⟨v, hv, w, hw, m, hm, hexpand⟩

/-- An experiment tells its family and one of the family's models. -/
theorem Family.Accepted.origin (h : f.Accepted env xs) (hx : x ∈ xs) :
    ∃ m ∈ f.models, ∃ column,
      x.origin = some { family := f.name, model := m.name, column } := by
  obtain ⟨v, -, w, -, m, hm, hexpand⟩ := h.trial hx
  obtain ⟨words, arguments, column, -, -, -, -, -, -, horigin⟩ := expandTrial_ok hexpand
  exact ⟨m, hm, column, horigin⟩

/-- The templates of a speedup expand for every model of the family. -/
theorem Family.Accepted.speedupNames (h : f.Accepted env xs) {s : Speedup} (hs : s ∈ f.speedups)
    {m : Model} (hm : m ∈ f.models) :
    ∃ top bottom, Template.speedupName s.numerator m = .ok top ∧
      Template.speedupName s.denominator m = .ok bottom := by
  -- A reference that is checked was expanded for all the models first.
  have hname : ∀ template, checkReference f (xs.map Descriptor.name) s.label template = .ok () →
      ∃ name, Template.speedupName template m = .ok name := by
    intro template hcheck
    obtain ⟨referred, hreferred, -⟩ := bind_eq_ok.1 hcheck
    obtain ⟨names, hnames, -⟩ := bind_eq_ok.1 hreferred
    obtain ⟨name, -, hname⟩ := exists_mem_right (mapM_eq_ok.1 hnames) hm
    exact ⟨name, hname⟩
  obtain ⟨u, hnumerator, hdenominator⟩ := bind_eq_ok.1 (forM_eq_ok.1 h.speedups s hs)
  obtain ⟨top, htop⟩ := hname s.numerator hnumerator
  obtain ⟨bottom, hbottom⟩ := hname s.denominator hdenominator
  exact ⟨top, bottom, htop, hbottom⟩

/-! ## Section 4: The catalog -/

/-- Nothing is repeated if the new names differ from one another and from those
    seen before. -/
theorem firstRepeated?_eq_none {seen names : List String} :
    firstRepeated? seen names = none ↔ names.Nodup ∧ ∀ name ∈ names, name ∉ seen := by
  induction names generalizing seen with
  | nil => simp [firstRepeated?]
  | cons name names ih =>
    rw [firstRepeated?]
    by_cases hseen : name ∈ seen
    · simp [hseen]
    · have hcontains : seen.contains name = false := by simpa using hseen
      simp only [hcontains, Bool.false_eq_true, ↓reduceIte, ih, List.nodup_cons, List.mem_cons,
        forall_eq_or_imp, not_or]
      constructor
      · rintro ⟨hnodup, hnew⟩
        exact ⟨⟨fun hmem => (hnew name hmem).1 rfl, hnodup⟩, hseen, fun n hn => (hnew n hn).2⟩
      · rintro ⟨⟨hname, hnodup⟩, -, hnew⟩
        refine ⟨hnodup, fun n hn => ⟨?_, hnew n hn⟩⟩
        rintro rfl
        exact hname hn

theorem addFamily_ok (h : addFamily env ds f = .ok xs) :
    ∃ new, f.Accepted env new ∧ xs = ds ++ new ∧ (new.map Descriptor.name).Nodup ∧
      ∀ name ∈ new.map Descriptor.name, name ∉ ds.map Descriptor.name := by
  unfold addFamily at h
  obtain ⟨new, hexpand, h⟩ := bind_eq_ok.1 h
  cases hrepeated : firstRepeated? (ds.map Descriptor.name) (new.map Descriptor.name) with
  | some name => simp [hrepeated] at h
  | none =>
    rw [hrepeated] at h
    obtain ⟨u, hspeedups, h⟩ := bind_eq_ok.1 h
    cases h
    obtain ⟨hnodup, hnew⟩ := firstRepeated?_eq_none.1 hrepeated
    exact ⟨new, ⟨hexpand, hspeedups⟩, rfl, hnodup, hnew⟩

/-- The experiments of an accepted catalog, family by family. -/
structure Catalog.Accepted (env : Shell.Environment) (c : Catalog) (groups : List (List Descriptor))
    (ds : List Descriptor) : Prop where
  families : List.Forall₂ (Family.Accepted env) c.families groups
  flatten : ds = groups.flatten
  distinct : (ds.map Descriptor.name).Nodup

theorem Catalog.accepted (h : c.descriptors env = .ok ds) : ∃ groups, c.Accepted env groups ds := by
  -- The induction is on the families that are left, behind those of which the experiments are known.
  have hfold : ∀ (fs : List Family) (before : List Descriptor),
      (before.map Descriptor.name).Nodup → fs.foldlM (addFamily env) before = .ok ds →
      ∃ groups, List.Forall₂ (Family.Accepted env) fs groups ∧ ds = before ++ groups.flatten ∧
        (ds.map Descriptor.name).Nodup := by
    intro fs
    induction fs with
    | nil =>
      intro before hnodup hfold
      cases hfold
      exact ⟨[], .nil, (List.append_nil _).symm, hnodup⟩
    | cons f fs ih =>
      intro before hnodup hfold
      rw [List.foldlM_cons] at hfold
      obtain ⟨after, hadd, hrest⟩ := bind_eq_ok.1 hfold
      obtain ⟨new, hnew, rfl, hnodup', hapart⟩ := addFamily_ok hadd
      have hboth : ((before ++ new).map Descriptor.name).Nodup := by
        rw [List.map_append, List.nodup_append]
        refine ⟨hnodup, hnodup', fun a ha b hb hab => ?_⟩
        exact hapart b hb (hab ▸ ha)
      obtain ⟨groups, hgroups, hds, hdistinct⟩ := ih _ hboth hrest
      refine ⟨new :: groups, .cons hnew hgroups, ?_, hdistinct⟩
      rw [hds, List.flatten_cons, List.append_assoc]
  obtain ⟨groups, hgroups, hds, hdistinct⟩ := hfold c.families [] List.nodup_nil h
  exact ⟨groups, hgroups, hds, hdistinct⟩

namespace Catalog.Accepted

variable {groups : List (List Descriptor)} (h : c.Accepted env groups ds)

include h

/-- Each family contributes its experiments. -/
theorem family (hf : f ∈ c.families) : ∃ xs ∈ groups, f.Accepted env xs :=
  exists_mem_right h.families hf

theorem subset {xs : List Descriptor} (hxs : xs ∈ groups) (hx : x ∈ xs) : x ∈ ds := by
  rw [h.flatten]
  exact List.mem_flatten.2 ⟨xs, hxs, hx⟩

theorem nodup : ds.Nodup :=
  List.Nodup.of_map _ h.distinct

end Catalog.Accepted

/-- The experiments of the catalog that a new project starts from. -/
def starterExperiments : List Descriptor :=
  ["1", "4"].map fun workers =>
    { name := "kanban01-s-" ++ workers
      invocation := ⟨"./sigrefmc", ["models/kanban01.bdd", "-w", workers, "-l", "s"], by decide⟩
      format := .mc
      origin := some ⟨"lts", "kanban01", "s-" ++ workers⟩ }

/-- A new project starts from a catalog that is accepted. -/
theorem descriptors_starter : (Catalog.starter "en").descriptors {} = .ok starterExperiments := by
  decide +kernel

end BenchSweep
