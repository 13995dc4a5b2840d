import BenchSweep.Proofs.Decimal.Written
import BenchSweep.Proofs.Disk.Places
import BenchSweep.Run.Artifact

/-! # Names of Artifacts

    The log, the marker and the interrupted log of a trial differ in what
    follows the number of the iteration.  The number begins behind the last
    dash of the name, so a name tells experiment, iteration and kind apart:
    `a` at iteration 1 and `a-1` at iteration 0 never meet. -/

namespace BenchSweep.Artifact

/-! ## Section 1: Kinds -/

/-- The files that a trial may have. -/
inductive Kind where
  | log
  | marker
  | aside
deriving DecidableEq, Repr

/-- What follows the number of the iteration. -/
def Kind.ending : Kind → String
  | log => ""
  | marker => ".timeout"
  | aside => ".interrupted"

theorem Kind.ending_inj {k l : Kind} (h : k.ending.toList = l.ending.toList) : k = l := by
  cases k <;> cases l <;> first | rfl | exact absurd h (by decide)

/-- What follows the name of the experiment. -/
def tail (iteration : Nat) (k : Kind) : String :=
  "-" ++ toString iteration ++ k.ending

/-- The file of an experiment at an iteration. -/
def fileName (experiment : String) (iteration : Nat) (k : Kind) : String :=
  experiment ++ tail iteration k

/-- The path of such a file. -/
def path (outdir : Path) (experiment : String) (iteration : Nat) (k : Kind) : Path :=
  outdir.join (fileName experiment iteration k)

theorem toList_tail (i : Nat) (k : Kind) :
    (tail i k).toList = '-' :: ((toString i).toList ++ k.ending.toList) := by
  simp [tail, String.toList_append]

theorem dash_mem_tail (i : Nat) (k : Kind) : '-' ∈ (tail i k).toList := by
  rw [toList_tail]
  exact List.mem_cons_self

theorem slash_notMem_tail (i : Nat) (k : Kind) : '/' ∉ (tail i k).toList := by
  have hdigits : '/' ∉ (toString i).toList := Decimal.notMem_toString (by decide)
  have hending : '/' ∉ k.ending.toList := by cases k <;> decide
  simp only [toList_tail, List.mem_cons, List.mem_append, not_or]
  exact ⟨by decide, hdigits, hending⟩

/-- A trial's file is an entry of the output directory if the experiment's name
    has no slash. -/
theorem isFileName {e : String} (he : '/' ∉ e.toList) (i : Nat) (k : Kind) :
    Path.IsFileName (fileName e i k) := by
  have hmem : '-' ∈ (fileName e i k).toList := by
    rw [fileName, String.toList_append]
    exact List.mem_append_right _ (dash_mem_tail i k)
  have hne : ∀ t : String, '-' ∉ t.toList → fileName e i k ≠ t := by
    intro t ht heq
    rw [heq] at hmem
    exact ht hmem
  refine ⟨hne "" (by decide), hne "." (by decide), hne ".." (by decide), ?_⟩
  rw [fileName, String.toList_append, List.mem_append]
  exact fun h => h.elim he (slash_notMem_tail i k)

/-! ## Section 2: A name tells what it belongs to -/

/-- Two texts that are cut at their last dash are the same if the parts are. -/
theorem cut_inj {a b s t : List Char} (hs : '-' ∉ s) (ht : '-' ∉ t)
    (h : a ++ '-' :: s = b ++ '-' :: t) : a = b ∧ s = t := by
  induction a generalizing b with
  | nil =>
    cases b with
    | nil => exact ⟨rfl, (List.cons.inj h).2⟩
    | cons c b =>
      have hmem : '-' ∈ s := by
        rw [(List.cons.inj h).2]
        exact List.mem_append_right b List.mem_cons_self
      exact absurd hmem hs
  | cons c a ih =>
    cases b with
    | nil =>
      have hmem : '-' ∈ t := by
        rw [← (List.cons.inj h).2]
        exact List.mem_append_right a List.mem_cons_self
      exact absurd hmem ht
    | cons d b =>
      obtain ⟨hcd, hrest⟩ := List.cons.inj h
      obtain ⟨hab, hst⟩ := ih hrest
      exact ⟨by rw [hcd, hab], hst⟩

/-- The digits of a tail end where its ending begins. -/
theorem takeWhile_tail (i : Nat) (k : Kind) :
    ((toString i).toList ++ k.ending.toList).takeWhile Char.isDigit = (toString i).toList := by
  rw [List.takeWhile_append_of_pos fun _ hc => Decimal.isDigit_of_mem_toString hc]
  have hstop : k.ending.toList.takeWhile Char.isDigit = [] := by cases k <;> decide
  rw [hstop, List.append_nil]

theorem dash_notMem_number (i : Nat) (k : Kind) :
    '-' ∉ (toString i).toList ++ k.ending.toList := by
  have hdigits : '-' ∉ (toString i).toList := Decimal.notMem_toString (by decide)
  have hending : '-' ∉ k.ending.toList := by cases k <;> decide
  rw [List.mem_append]
  exact fun h => h.elim hdigits hending

/-- No two trials share a file name, and no trial uses one twice. -/
theorem fileName_inj {e f : String} {i j : Nat} {k l : Kind}
    (h : fileName e i k = fileName f j l) : e = f ∧ i = j ∧ k = l := by
  have hchars := congrArg String.toList h
  simp only [fileName, String.toList_append, toList_tail] at hchars
  -- A name may hold dashes itself, so the cut is at the last one, before the number.
  obtain ⟨hname, hnumber⟩ := cut_inj (dash_notMem_number i k) (dash_notMem_number j l) hchars
  -- The digits end at the dot of the ending, or with the name.
  have hdigits : (toString i).toList = (toString j).toList := by
    rw [← takeWhile_tail i k, hnumber, takeWhile_tail]
  have hending : k.ending.toList = l.ending.toList := by
    rw [hdigits] at hnumber
    exact List.append_cancel_left hnumber
  exact ⟨String.toList_inj.1 hname, Decimal.toString_inj hdigits, Kind.ending_inj hending⟩

/-! ## Section 3: Paths and places -/

/-- A suffix behind a name in a directory is a suffix of the name. -/
theorem withSuffix_join (dir : Path) {s : String} (hs : s ≠ "") (suffix : String) :
    (dir.join s).withSuffix suffix = dir.join (s ++ "." ++ suffix) := by
  have habs : Path.isAbsolute ⟨s ++ "." ++ suffix⟩ = Path.isAbsolute ⟨s⟩ := by
    obtain ⟨c, rest, hl⟩ := List.exists_cons_of_ne_nil (Path.toList_ne_nil_of_ne_empty hs)
    simp [Path.isAbsolute, String.toList_append, hl]
  unfold Path.join Path.withSuffix
  rw [habs]
  split
  · rfl
  · split <;> simp [String.append_assoc]

theorem path_log (outdir : Path) (e : String) (i : Nat) : path outdir e i .log = log outdir e i := by
  simp [path, fileName, tail, Kind.ending, log, String.append_assoc]

theorem fileName_ne_empty (e : String) (i : Nat) (k : Kind) : fileName e i k ≠ "" := by
  intro h
  have hmem : '-' ∈ (fileName e i k).toList := by
    rw [fileName, String.toList_append]
    exact List.mem_append_right _ (dash_mem_tail i k)
  rw [h] at hmem
  exact absurd hmem (by decide)

theorem path_marker (outdir : Path) (e : String) (i : Nat) :
    path outdir e i .marker = marker (log outdir e i) := by
  rw [← path_log, path, marker, path, withSuffix_join outdir (fileName_ne_empty e i .log)]
  simp [fileName, tail, Kind.ending, String.append_assoc]

theorem path_aside (outdir : Path) (e : String) (i : Nat) :
    path outdir e i .aside = aside (log outdir e i) := by
  rw [← path_log, path, aside, path, withSuffix_join outdir (fileName_ne_empty e i .log)]
  simp [fileName, tail, Kind.ending, String.append_assoc]

/-- The place of a trial's file, whatever the experiment is called: a slash in the
    name takes the front of it away, but never the tail. -/
theorem locate_path_eq (outdir : Path) (e : String) (i : Nat) (k : Kind) (here : Location) :
    (path outdir e i k).locate here
      = fileName (Path.lastName e) i k :: Path.room e (outdir.locate here) := by
  rw [path, fileName, Path.locate_join_eq,
    Path.locate_append e (slash_notMem_tail i k) (dash_mem_tail i k)]
  rfl

/-- The place of a trial's file. -/
theorem locate_path (outdir : Path) {e : String} (he : '/' ∉ e.toList) (i : Nat) (k : Kind)
    (here : Location) :
    (path outdir e i k).locate here = fileName e i k :: outdir.locate here :=
  Path.locate_join (isFileName he i k) outdir here

/-- Whatever the experiment is called, the place of its file tells the iteration. -/
theorem iteration_of_locate {outdir outdir' : Path} {e f : String} {i j : Nat} {k l : Kind}
    {here : Location}
    (h : (path outdir e i k).locate here = (path outdir' f j l).locate here) : i = j := by
  rw [locate_path_eq, locate_path_eq] at h
  exact (fileName_inj (List.cons.inj h).1).2.1

/-! ## Section 4: Files beside any log

    A log may have any path.  Its marker and its interrupted log are named like it
    with an ending more, so they stand in the same directory under names of their
    own, whatever the path of the log is. -/

/-- A file of the trial with the given log. -/
def file (log : Path) (k : Kind) : Path :=
  ⟨log.text ++ k.ending⟩

@[simp] theorem file_log (log : Path) : file log .log = log := by
  simp [file, Kind.ending]

@[simp] theorem file_marker (log : Path) : file log .marker = marker log := by
  simp [file, Kind.ending, marker, Path.withSuffix, String.append_assoc]

@[simp] theorem file_aside (log : Path) : file log .aside = aside log := by
  simp [file, Kind.ending, aside, Path.withSuffix, String.append_assoc]

theorem slash_notMem_ending (k : Kind) : '/' ∉ k.ending.toList := by
  cases k <;> decide

/-- The files of a log are one text in one directory, with an ending each; the log
    itself has none. -/
theorem exists_folder (log : Path) : ∃ (dir : Path) (s : String), '/' ∉ s.toList ∧
    log = dir.join s ∧ ∀ k, file log k = dir.join (s ++ k.ending) := by
  obtain ⟨dir, s, hs, hjoin⟩ := Path.exists_folder log
  have hfile : ∀ k, file log k = dir.join (s ++ k.ending) :=
    fun k => (hjoin k.ending (slash_notMem_ending k)).symm
  refine ⟨dir, s, hs, ?_, hfile⟩
  have hlog := hfile .log
  rwa [file_log, Kind.ending, String.append_empty] at hlog

/-- Whatever the log is called, the names of the other files are names of files. -/
theorem isFileName_ending {s : String} (hs : '/' ∉ s.toList) {k : Kind} (hk : k ≠ .log) :
    Path.IsFileName (s ++ k.ending) := by
  have hmem : 't' ∈ (s ++ k.ending).toList := by
    rw [String.toList_append]
    apply List.mem_append_right
    cases k with
    | log => exact absurd rfl hk
    | marker => decide
    | aside => decide
  have hne : ∀ t : String, 't' ∉ t.toList → s ++ k.ending ≠ t := by
    rintro t ht rfl
    exact ht hmem
  refine ⟨hne "" (by decide), hne "." (by decide), hne ".." (by decide), ?_⟩
  rw [String.toList_append, List.mem_append]
  exact fun h => h.elim hs (slash_notMem_ending k)

theorem file_eq_path (outdir : Path) (e : String) (i : Nat) (k : Kind) :
    file (log outdir e i) k = path outdir e i k := by
  cases k with
  | log => rw [file_log, path_log]
  | marker => rw [file_marker, path_marker]
  | aside => rw [file_aside, path_aside]

end BenchSweep.Artifact
