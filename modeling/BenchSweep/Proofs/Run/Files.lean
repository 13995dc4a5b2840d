import BenchSweep.Proofs.Run.Status

/-! # Files of a Log

    At the places of a log, of its marker and of the log set aside there may be a
    file each.  Where the log is a name in an open directory, a change of one of
    them leaves the others alone, and each reads as what stands at its place. -/

namespace BenchSweep

open Artifact

/-! ## Section 1: Three files -/

namespace Artifact

/-- What stands at the places of a log, of its marker, and of the log set aside. -/
structure Files where
  log : Option FileNode
  marker : Option FileNode
  aside : Option FileNode

namespace Files

def get (f : Files) : Kind → Option FileNode
  | .log => f.log
  | .marker => f.marker
  | .aside => f.aside

/-- The files with another one of a kind. -/
def set (f : Files) (k : Kind) (n : Option FileNode) : Files :=
  match k with
  | .log => { f with log := n }
  | .marker => { f with marker := n }
  | .aside => { f with aside := n }

theorem set_get (f : Files) (k : Kind) : f.set k (f.get k) = f := by
  cases k <;> rfl

theorem get_set_self (f : Files) (k : Kind) (n : Option FileNode) : (f.set k n).get k = n := by
  cases k <;> rfl

theorem get_set_ne (f : Files) {k l : Kind} (h : l ≠ k) (n : Option FileNode) :
    (f.set k n).get l = f.get l := by
  cases k <;> cases l <;> first | rfl | exact absurd rfl h

theorem ext_get {f g : Files} (h : ∀ k, f.get k = g.get k) : f = g := by
  obtain ⟨log, marker, aside⟩ := f
  have hlog : log = g.log := h .log
  have hmarker : marker = g.marker := h .marker
  have haside : aside = g.aside := h .aside
  rw [hlog, hmarker, haside]

end Files

end Artifact

namespace Disk

variable {d₀ d d' : Disk} {log dir : Path} {s : String} {f : Files} {k l : Kind}
  {content : ByteArray}

/-- What a disk has as the files of a log. -/
def filesOf (d : Disk) (log : Path) : Files where
  log := d.node? ((file log .log).locate d.here)
  marker := d.node? ((file log .marker).locate d.here)
  aside := d.node? ((file log .aside).locate d.here)

theorem get_filesOf (d : Disk) (log : Path) (k : Kind) :
    (d.filesOf log).get k = d.node? ((file log k).locate d.here) := by
  cases k <;> rfl

/-! ## Section 2: Logs in open directories -/

/-- The log is a name in a directory that is open. -/
structure Seats (d : Disk) (log dir : Path) (s : String) : Prop where
  joined : ∀ k, file log k = dir.join (s ++ k.ending)
  named : Path.IsFileName s
  opens : d.Opens dir

namespace Seats

variable (h : d.Seats log dir s)

include h

theorem isFileName (k : Kind) : Path.IsFileName (s ++ k.ending) := by
  cases k with
  | log =>
    rw [Kind.ending, String.append_empty]
    exact h.named
  | marker => exact isFileName_ending h.named.no_slash (by decide)
  | aside => exact isFileName_ending h.named.no_slash (by decide)

theorem place (k : Kind) (here : Location) :
    (file log k).locate here = (s ++ k.ending) :: dir.locate here := by
  rw [h.joined k]
  exact Path.locate_join (h.isFileName k) dir here

theorem place_ne_nil (k : Kind) (here : Location) : (file log k).locate here ≠ [] := by
  rw [h.place k]
  exact List.cons_ne_nil _ _

/-- No two files of a log have the same place. -/
theorem place_inj {here : Location} (heq : (file log k).locate here = (file log l).locate here) :
    k = l := by
  rw [h.place k, h.place l] at heq
  have hchars := congrArg String.toList (List.cons.inj heq).1
  rw [String.toList_append, String.toList_append] at hchars
  exact Kind.ending_inj (List.append_cancel_left hchars)

theorem held? (k : Kind) : d.held? dir (s ++ k.ending) = (d.filesOf log).get k := by
  rw [get_filesOf, h.place k]
  rfl

/-- One change at the place of a file changes that file only. -/
theorem filesOf_eq {n : Option FileNode} (hhere : d'.here = d.here)
    (hself : d'.node? ((file log k).locate d.here) = n)
    (hother : ∀ l, l ≠ (file log k).locate d.here → d'.node? l = d.node? l) :
    d'.filesOf log = (d.filesOf log).set k n := by
  apply Files.ext_get
  intro l
  rw [get_filesOf, hhere]
  by_cases hl : l = k
  · rw [hl, Files.get_set_self]
    exact hself
  · rw [Files.get_set_ne _ hl, get_filesOf]
    exact hother _ fun heq => hl (h.place_inj heq)

/-- A file whose text is known, if only that there is none, has a path that the
    system takes and is no directory. -/
theorem takes_of_content? {c : Option String} (hc : content? d (file log k) = .ok c) :
    (file log k).refusal? = none ∧ (d.filesOf log).get k ≠ some .dir := by
  have hname := h.isFileName k
  rw [← h.held? k]
  rw [h.joined k] at hc ⊢
  cases hr : (dir.join (s ++ k.ending)).refusal? with
  | some e =>
    rw [h.opens.content?_refused hname hr] at hc
    cases hc
  | none =>
    refine ⟨rfl, fun hdir => ?_⟩
    rw [h.opens.content?_dir hname hr hdir] at hc
    cases hc

end Seats

/-- A path that can be written does not end in a slash, a dot or two dots. -/
theorem isFileName_of_isNamed (hs : '/' ∉ s.toList) (hnamed : isNamed (dir.join s) = true)
    (hslash : (dir.join s).endsInSlash = false) : Path.IsFileName s := by
  have hlast : s ≠ "" → (dir.join s).segments.getLast? = some s := by
    intro hne
    rw [Path.segments_join_of_relative (Path.not_absolute_of_notMem hs),
      Path.segments_of_notMem hs, if_neg hne, List.getLast?_append]
    rfl
  refine ⟨?_, ?_, ?_, hs⟩
  · rintro rfl
    rcases Path.join_empty dir with hempty | hend
    · rw [hempty] at hnamed
      exact absurd hnamed (by decide)
    · rw [hend] at hslash
      cases hslash
  · rintro rfl
    rw [isNamed, hlast (by decide)] at hnamed
    exact absurd hnamed (by decide)
  · rintro rfl
    rw [isNamed, hlast (by decide)] at hnamed
    exact absurd hnamed (by decide)

/-- The log has a name in an open directory wherever something could be written. -/
theorem seats_of_write (h : d.write log content = .ok d') : ∃ dir s, d.Seats log dir s := by
  obtain ⟨dir, s, hs, hlog, hjoin⟩ := exists_folder log
  obtain ⟨⟨l, hl⟩, hnamed, hslash⟩ := locate_of_write h
  rw [hlog] at hl hnamed hslash
  have hname := isFileName_of_isNamed hs hnamed hslash
  exact ⟨dir, s, hjoin, hname, (opens_of_locate hname hl).1⟩

/-! ## Section 3: What becomes of the files -/

/-- Only files of a log differ from those on an earlier disk, and these are the given
    ones. -/
structure Turned (log : Path) (d₀ : Disk) (f : Files) (d : Disk) : Prop where
  within : Within (FilePlaces log d₀.here) d₀ d
  files : d.filesOf log = f

namespace Turned

theorem refl (log : Path) (d : Disk) : Turned log d (d.filesOf log) d :=
  ⟨Within.refl _ _, rfl⟩

variable (h : Turned log d₀ f d)

include h

theorem node? (k : Kind) : d.node? ((file log k).locate d.here) = f.get k := by
  rw [← h.files, get_filesOf]

theorem filePlace (k : Kind) : FilePlaces log d₀.here ((file log k).locate d.here) := by
  rw [h.within.here]
  exact ⟨k, rfl⟩

variable (hseats : d₀.Seats log dir s)

include hseats

theorem seats : d.Seats log dir s :=
  ⟨hseats.joined, hseats.named, h.within.opens hseats.opens⟩

theorem put (hk : f.get k ≠ some .dir) (content : ByteArray) :
    Turned log d₀ (f.set k (some (.file content)))
      (d.put ((file log k).locate d.here) (.file content)) := by
  have hroot := hseats.place_ne_nil k d.here
  rw [← h.node? k] at hk
  refine ⟨h.within.trans (Within.put hroot hk (h.filePlace k) content), ?_⟩
  rw [← h.files]
  exact (h.seats hseats).filesOf_eq rfl (node?_put_self _ _ hroot) fun l hl => node?_put_ne _ _ hl

theorem erase (hk : f.get k ≠ some .dir) :
    Turned log d₀ (f.set k none) (d.erase ((file log k).locate d.here)) := by
  have hroot := hseats.place_ne_nil k d.here
  rw [← h.node? k] at hk
  refine ⟨h.within.trans (Within.erase hroot hk (h.filePlace k)), ?_⟩
  rw [← h.files]
  exact (h.seats hseats).filesOf_eq rfl (node?_erase_self _ hroot) fun l hl => node?_erase_ne _ hl

variable (hr : (file log k).refusal? = none)

include hr

theorem find_none (hk : f.get k = none) : d.find (file log k) = .error .notFound := by
  have hd := h.seats hseats
  rw [← h.node? k, hd.place k] at hk
  rw [hseats.joined k] at hr ⊢
  rw [find, hd.opens.locate_ok (hd.isFileName k) hr]
  simp only [bind, Except.bind, hk]

theorem read_file (hk : f.get k = some (.file content)) : d.read (file log k) = .ok content := by
  have hd := h.seats hseats
  rw [← h.files, ← hd.held? k] at hk
  rw [hseats.joined k] at hr ⊢
  rw [hd.opens.read_join (hd.isFileName k) hr, hk]

end Turned

end Disk

end BenchSweep
