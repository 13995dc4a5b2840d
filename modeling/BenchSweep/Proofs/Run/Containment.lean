import BenchSweep.Catalog.File
import BenchSweep.Proofs.Experiment.Accepted
import BenchSweep.Proofs.Run.Settled
import BenchSweep.Proofs.Run.Names

/-! # Artifacts Stay Apart

    The files of a trial stand under the experiment's name, which is free text.
    They stay in the output directory exactly if the name's way to its last slash
    comes back to where it begins, and they are the trial's own exactly if no
    other experiment has the same text behind its last slash. -/

namespace BenchSweep

/-! ## Section 1: Ways that come back -/

namespace Path

/-- Whether segments lead back to where they begin, without ever going above it,
    if they begin so many levels below. -/
def returns : Nat → List String → Bool
  | depth, [] => depth == 0
  | depth, s :: segments =>
    if s = "." then returns depth segments
    else if s = ".." then
      match depth with
      | 0 => false
      | depth + 1 => returns depth segments
    else returns (depth + 1) segments

/-- A name whose files stand in the directory itself, wherever that is. -/
def IsLocal (s : String) : Prop :=
  isAbsolute ⟨s⟩ = false ∧ returns 0 (detour s) = true

instance (s : String) : Decidable (IsLocal s) :=
  inferInstanceAs (Decidable (_ ∧ _))

theorem foldl_follow_of_returns {segments : List String} (front : Location)
    (h : returns front.length segments = true) (l : Location) :
    segments.foldl follow (front ++ l) = l := by
  induction segments generalizing front with
  | nil =>
    have hfront : front = [] := by simpa [returns] using h
    rw [hfront]
    rfl
  | cons s segments ih =>
    rw [List.foldl_cons, follow]
    unfold returns at h
    by_cases hhere : s = "."
    · rw [if_pos hhere] at h ⊢
      exact ih front h
    · rw [if_neg hhere] at h ⊢
      by_cases hup : s = ".."
      · rw [if_pos hup] at h ⊢
        cases front with
        | nil => cases h
        | cons name front => exact ih front h
      · rw [if_neg hup] at h ⊢
        exact ih (s :: front) h

/-- Each name of the place reached was there before or is one of the segments. -/
theorem mem_foldl_follow {segments : List String} {l : Location} {name : String}
    (h : name ∈ segments.foldl follow l) : name ∈ segments ∨ name ∈ l := by
  induction segments generalizing l with
  | nil => exact .inr h
  | cons s segments ih =>
    rcases ih h with hmem | hmem
    · exact .inl (List.mem_cons_of_mem s hmem)
    · rw [follow] at hmem
      split at hmem
      · exact .inr hmem
      · split at hmem
        · exact .inr (List.mem_of_mem_tail hmem)
        · rcases List.mem_cons.1 hmem with rfl | hmem
          · exact .inl List.mem_cons_self
          · exact .inr hmem

/-- Segments that come back to a place of which they do not hold the name never
    went above it. -/
theorem returns_of_foldl_follow {segments : List String} (front : Location) {name : String}
    (hname : name ∉ segments) (h : segments.foldl follow (front ++ [name]) = [name]) :
    returns front.length segments = true := by
  induction segments generalizing front with
  | nil =>
    have hfront : front = [] := List.append_left_eq_self.1 h
    rw [hfront]
    rfl
  | cons s segments ih =>
    have hrest : name ∉ segments := fun hmem => hname (List.mem_cons_of_mem s hmem)
    rw [List.foldl_cons, follow] at h
    unfold returns
    by_cases hhere : s = "."
    · rw [if_pos hhere] at h ⊢
      exact ih front hrest h
    · rw [if_neg hhere] at h ⊢
      by_cases hup : s = ".."
      · rw [if_pos hup] at h ⊢
        cases front with
        | nil =>
          -- Once it is left the name does not come back.
          have hmem : name ∈ segments.foldl follow [] := by
            rw [show ([] : Location) = ([] ++ [name]).tail from rfl, h]
            exact List.mem_cons_self
          exact ((mem_foldl_follow hmem).elim hrest List.not_mem_nil).elim
        | cons u front => exact ih front hrest h
      · rw [if_neg hup] at h ⊢
        exact ih (s :: front) hrest h

theorem slash_notMem_detour (s : String) : "/" ∉ detour s := by
  intro h
  obtain ⟨w, hw, htext⟩ := List.mem_map.1 h
  have hmem : w ∈ pieces s.toList := List.dropLast_subset _ (List.mem_of_mem_filter hw)
  have hchars : w = ['/'] := by
    rw [← String.toList_ofList (l := w), htext]
    rfl
  apply slash_notMem_of_mem_pieces hmem
  rw [hchars]
  exact List.mem_cons_self

/-- A name is local exactly if it leads from every directory to that directory. -/
theorem room_eq_self_iff {s : String} : (∀ l, room s l = l) ↔ IsLocal s := by
  constructor
  · intro h
    have hrelative : isAbsolute ⟨s⟩ = false := by
      cases habs : isAbsolute ⟨s⟩ with
      | false => rfl
      | true =>
        -- An absolute name leads to one place from everywhere.
        have hroom : room s [] = room s ["/"] := by
          rw [room, room, start, start, if_pos habs, if_pos habs]
        rw [h, h] at hroom
        cases hroom
    refine ⟨hrelative, returns_of_foldl_follow [] (slash_notMem_detour s) ?_⟩
    have hroom := h ["/"]
    rwa [room, start, if_neg (by rw [hrelative]; decide)] at hroom
  · rintro ⟨hrelative, hreturns⟩ l
    rw [room, start, if_neg (by rw [hrelative]; decide)]
    exact foldl_follow_of_returns [] hreturns l

/-- A name without slashes is local. -/
theorem isLocal_of_notMem {s : String} (h : '/' ∉ s.toList) : IsLocal s := by
  refine room_eq_self_iff.1 fun l => ?_
  have hrelative : isAbsolute ⟨s⟩ = false := by
    rw [isAbsolute, beq_eq_false_iff_ne]
    exact fun hhead => h (List.mem_of_mem_head? hhead)
  rw [room, detour_of_notMem h, start, if_neg (by rw [hrelative]; decide)]
  rfl

end Path

/-! ## Section 2: The files of a trial -/

open Artifact

/-- The files that a trial may have. -/
def Artifact.files (outdir : Path) (experiment : String) (iteration : Nat) : List Path :=
  let log := Artifact.log outdir experiment iteration
  [log, marker log, aside log]

theorem Artifact.mem_files {outdir p : Path} {e : String} {i : Nat} :
    p ∈ files outdir e i ↔ ∃ k, p = path outdir e i k := by
  simp only [files, List.mem_cons, List.not_mem_nil, or_false]
  constructor
  · rintro (rfl | rfl | rfl)
    · exact ⟨.log, (path_log outdir e i).symm⟩
    · exact ⟨.marker, (path_marker outdir e i).symm⟩
    · exact ⟨.aside, (path_aside outdir e i).symm⟩
  · rintro ⟨k, rfl⟩
    cases k with
    | log => exact .inl (path_log outdir e i)
    | marker => exact .inr (.inl (path_marker outdir e i))
    | aside => exact .inr (.inr (path_aside outdir e i))

/-- Every trial has its files in the output directory and shares none of them with
    another trial. -/
structure KeptApart (outdir : Path) (here : Location) (xs : List Descriptor) : Prop where
  inside : ∀ x ∈ xs, ∀ i, ∀ p ∈ files outdir x.name i,
    ∃ s, Path.IsFileName s ∧ p.locate here = s :: outdir.locate here
  apart : ∀ x ∈ xs, ∀ y ∈ xs, ∀ i j, ∀ p ∈ files outdir x.name i, ∀ q ∈ files outdir y.name j,
    p.locate here = q.locate here → x = y ∧ i = j

section Names

variable {outdir : Path} {here : Location} {xs : List Descriptor}

/-- The text behind the last slash and what a trial adds to it name an entry of a
    directory. -/
theorem isFileName_lastName (e : String) (i : Nat) (k : Kind) :
    Path.IsFileName (fileName (Path.lastName e) i k) :=
  isFileName (Path.slash_notMem_lastName e) i k

/-- Local names that differ behind their last slashes keep their files apart. -/
theorem keptApart_of_isLocal (hlocal : ∀ x ∈ xs, Path.IsLocal x.name)
    (hlast : (xs.map fun x => Path.lastName x.name).Nodup) : KeptApart outdir here xs where
  inside := by
    intro x hx i p hp
    obtain ⟨k, rfl⟩ := mem_files.1 hp
    refine ⟨fileName (Path.lastName x.name) i k, isFileName_lastName x.name i k, ?_⟩
    rw [locate_path_eq, Path.room_eq_self_iff.2 (hlocal x hx)]
  apart := by
    intro x hx y hy i j p hp q hq hpq
    obtain ⟨k, rfl⟩ := mem_files.1 hp
    obtain ⟨l, rfl⟩ := mem_files.1 hq
    rw [locate_path_eq, locate_path_eq] at hpq
    obtain ⟨hname, hij, -⟩ := fileName_inj (List.cons.inj hpq).1
    exact ⟨List.inj_on_of_nodup_map hlast hx hy hname, hij⟩

/-- A name whose files stay in every output directory is local. -/
theorem KeptApart.isLocal (h : ∀ outdir here, KeptApart outdir here xs) {x : Descriptor}
    (hx : x ∈ xs) : Path.IsLocal x.name := by
  refine Path.room_eq_self_iff.1 fun l => ?_
  -- Every place is that of an output directory: of the empty path, seen from there.
  have hplace : (Path.mk "").locate l = l := rfl
  obtain ⟨s, -, hs⟩ := (h ⟨""⟩ l).inside x hx 0 _ (mem_files.2 ⟨.log, rfl⟩)
  rw [locate_path_eq, hplace] at hs
  exact (List.cons.inj hs).2

/-- Experiments that never share a file differ behind the last slashes of their names. -/
theorem KeptApart.nodup_lastName (h : ∀ outdir here, KeptApart outdir here xs) (hxs : xs.Nodup) :
    (xs.map fun x => Path.lastName x.name).Nodup := by
  refine hxs.map_on fun x hx y hy hname => ?_
  refine ((h ⟨""⟩ []).apart x hx y hy 0 0 _ (mem_files.2 ⟨.log, rfl⟩) _
    (mem_files.2 ⟨.log, rfl⟩) ?_).1
  rw [locate_path_eq, locate_path_eq, hname,
    Path.room_eq_self_iff.2 (KeptApart.isLocal h hx),
    Path.room_eq_self_iff.2 (KeptApart.isLocal h hy)]

end Names

/-! ## Section 3: Accepted catalogs -/

section Catalogs

variable {env : Shell.Environment} {c : Catalog} {xs : List Descriptor}

/-- Without slashes in the names nothing has to be checked. -/
theorem artifacts_kept_apart_of_notMem (h : c.descriptors env = .ok xs)
    (hnames : ∀ x ∈ xs, '/' ∉ x.name.toList) (outdir : Path) (here : Location) :
    KeptApart outdir here xs := by
  obtain ⟨groups, haccepted⟩ := Catalog.accepted h
  have hlast : (xs.map fun x => Path.lastName x.name) = xs.map Descriptor.name :=
    List.map_congr_left fun x hx => Path.lastName_of_notMem (hnames x hx)
  apply keptApart_of_isLocal
  · exact fun x hx => Path.isLocal_of_notMem (hnames x hx)
  · rw [hlast]
    exact haccepted.distinct

/-- The experiments of an accepted catalog keep their files in the output directory
    and to themselves, whatever directory that is, exactly if their names are local
    and differ behind their last slashes. -/
theorem artifacts_kept_apart_iff (h : c.descriptors env = .ok xs) :
    (∀ outdir here, KeptApart outdir here xs) ↔
      (∀ x ∈ xs, Path.IsLocal x.name) ∧ (xs.map fun x => Path.lastName x.name).Nodup := by
  obtain ⟨groups, haccepted⟩ := Catalog.accepted h
  constructor
  · intro hkept
    exact ⟨fun x hx => KeptApart.isLocal hkept hx,
      KeptApart.nodup_lastName hkept haccepted.nodup⟩
  · rintro ⟨hlocal, hlast⟩ outdir here
    exact keptApart_of_isLocal hlocal hlast

end Catalogs

/-- The first trials of a new project keep their files apart in every directory. -/
theorem artifacts_kept_apart_starter :
    (Catalog.starter "en").descriptors {} = .ok starterExperiments ∧
      ∀ outdir here, KeptApart outdir here starterExperiments :=
  ⟨descriptors_starter,
    (artifacts_kept_apart_iff descriptors_starter).2 ⟨by decide +kernel, by decide +kernel⟩⟩

/-- A catalog of two variants, the second of which is named as a way to `out`. -/
def strayText : String :=
  "[[families]]\nname = \"f\"\nmodels = [\x7b name = \"m\", input = [] \x7d]\n" ++
  "[[families.variants]]\nname = \"\x7bmodel\x7d\"\ncommand = \"tool\"\nparser = \"gmp\"\n" ++
  "[[families.variants]]\nname = \"../out/\x7bmodel\x7d\"\ncommand = \"tool\"\nparser = \"gmp\"\n"

/-- What the text holds. -/
def strayCatalog : Catalog :=
  let variant (name : String) : Variant :=
    { name, command := "tool", format := .gmp, label := none, workers := [], exclude := [] }
  { Catalog.default with
    families := [
      { name := "f"
        models := [⟨"m", [], none, none⟩]
        variants := [variant "\x7bmodel\x7d", variant "../out/\x7bmodel\x7d"]
        speedups := []
        phases := []
        metrics := [timeKey] }] }

/-- What the catalog expands to. -/
def strayExperiments : List Descriptor :=
  ["m", "../out/m"].map fun name =>
    { Descriptor.plain name with origin := some ⟨"f", "m", name⟩ }

/-- Names are not checked for slashes: in `out` both experiments have the same
    files, and in any other directory those of the second are outside of it. -/
theorem accepted_names_may_stray :
    Catalog.ofText strayText = .ok strayCatalog ∧
      strayCatalog.descriptors {} = .ok strayExperiments ∧
      ¬ KeptApart ⟨"out"⟩ [] strayExperiments ∧ ¬ KeptApart ⟨"logs"⟩ [] strayExperiments := by
  refine ⟨by decide +kernel, by decide +kernel, ?_, ?_⟩
  · intro hkept
    have hsame := (hkept.apart strayExperiments[0] (by simp) strayExperiments[1] (by simp) 0 0
      _ List.mem_cons_self _ List.mem_cons_self (by decide +kernel)).1
    exact absurd (congrArg Descriptor.name hsame) (by decide)
  · intro hkept
    obtain ⟨s, -, hplace⟩ := hkept.inside strayExperiments[1] (by simp) 0 _ List.mem_cons_self
    have houtside : (Artifact.log ⟨"logs"⟩ strayExperiments[1].name 0).locate [] = ["m-0", "out"] := by
      decide +kernel
    rw [houtside] at hplace
    exact absurd (List.cons.inj hplace).2 (by decide +kernel)

end BenchSweep
