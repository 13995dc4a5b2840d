import BenchSweep.Proofs.Run.Steps

/-! # What the Entries of a Directory Say of a Trial

    In a directory that can be reached the status of a trial hangs on two
    entries, its log and its marker, and on whether the system refuses their
    paths.  A marker that a trial wrote reads back as the budget. -/

namespace BenchSweep

open Artifact

variable {d d' : Disk} {outdir : Path} {x : Descriptor} {i : Nat}

/-! ## Section 1: Logs that prove a run, markers that hold a budget -/

/-- A log proves a completed run or nothing. -/
theorem Artifact.proof?_done {content : Option String} {r : RunRecord}
    (h : proof? x content = some r) : ∃ t m, r = .done t m := by
  obtain ⟨metrics, -, hm⟩ := Option.bind_eq_some_iff.1 h
  obtain ⟨t, -, rfl⟩ := Option.map_eq_some_iff.1 hm
  exact ⟨t, metrics, rfl⟩

/-- A log that the parser of the experiment accepts proves a completed run. -/
theorem Artifact.proof?_of_read {content : String} {metrics : Metrics}
    (h : x.read content = some metrics) : ∃ t, proof? x (some content) = some (.done t metrics) := by
  obtain ⟨t, ht⟩ := Option.isSome_iff_exists.1 (LogFormat.find?_timeKey_read h)
  refine ⟨t, ?_⟩
  rw [proof?, Option.bind_some, h, Option.bind_some, RunRecord.ofMetrics?, ht, Option.map_some]

theorem Artifact.budgetOf?_budgetText (b : UInt64) :
    budgetOf? (Text.decode (budgetText b)) = some b := by
  have hle : b.toNat ≤ UInt64.size - 1 := by
    have := b.toNat_lt_size
    omega
  rw [budgetText, Text.decode_toUTF8, budgetOf?, Decimal.trim_toString,
    Decimal.boundedNatural_toString hle, Option.map_some, UInt64.ofNat_toNat]

/-- What the texts of a log and a marker say of a trial. -/
theorem Disk.status_of_contents {log : Path} {c c' : Option String}
    (hlog : content? d log = .ok c) (hmarker : content? d (marker log) = .ok c') :
    d.status x log = match proof? x c with
      | some r => .ok r
      | none => marked (marker log) c' := by
  unfold status
  simp only [hlog, hmarker, bind, Except.bind]
  cases proof? x c <;> rfl

/-- A trial is done exactly if its log can be read and proves it. -/
theorem Disk.status_eq_done_iff {log : Path} {t : Float} {m : Metrics} :
    d.status x log = .ok (.done t m) ↔ ∃ content, d.read log = .ok content ∧
      proof? x (some (Text.decode content)) = some (.done t m) := by
  constructor
  · intro h
    unfold status at h
    cases hlog : content? d log with
    | error e => rw [hlog] at h; cases h
    | ok c =>
      rw [hlog] at h
      cases hproof : proof? x c with
      | none =>
        simp only [hproof, bind, Except.bind] at h
        exfalso
        cases hmarker : content? d (marker log) with
        | error e => rw [hmarker] at h; cases h
        | ok c' =>
          rw [hmarker] at h
          simp only [marked] at h
          split at h
          · cases h
          · split at h <;> cases h
      | some r =>
        simp only [hproof, bind, Except.bind] at h
        cases h
        unfold content? readText? at hlog
        cases hread : d.read log with
        | error e =>
          rw [hread] at hlog
          cases e <;> cases hlog
          cases hproof
        | ok content =>
          rw [hread] at hlog
          cases hlog
          exact ⟨content, rfl, hproof⟩
  · rintro ⟨content, hread, hproof⟩
    have hlog : content? d log = .ok (some (Text.decode content)) := by
      rw [content?, readText?, hread]
      rfl
    rw [status, hlog]
    simp only [bind, Except.bind, hproof]
    rfl

/-! ## Section 2: Reading by name -/

namespace Disk

variable {s : String}

/-- Two disks on which the directory is open and holds the same under a name read
    the same there. -/
theorem Opens.read_congr (h : d.Opens outdir) (h' : d'.Opens outdir) (hs : Path.IsFileName s)
    (hheld : d'.held? outdir s = d.held? outdir s) :
    d'.read (outdir.join s) = d.read (outdir.join s) := by
  cases hr : (outdir.join s).refusal? with
  | some e =>
    rw [read, read, find, find, h.locate_error hs hr, h'.locate_error hs hr]
    rfl
  | none => rw [h.read_join hs hr, h'.read_join hs hr, hheld]

theorem Opens.content?_refused (h : d.Opens outdir) (hs : Path.IsFileName s) {e : IoError}
    (hr : (outdir.join s).refusal? = some e) :
    content? d (outdir.join s) = .error (.unreadable (outdir.join s) e) := by
  have hne := Path.refusal?_ne_notFound hr
  unfold content? readText?
  rw [read, find, h.locate_error hs hr]
  cases e <;> first | rfl | exact absurd rfl hne

theorem Opens.content?_none (h : d.Opens outdir) (hs : Path.IsFileName s)
    (hr : (outdir.join s).refusal? = none) (hheld : d.held? outdir s = none) :
    content? d (outdir.join s) = .ok none := by
  unfold content? readText?
  rw [h.read_join hs hr, hheld]
  rfl

theorem Opens.content?_file (h : d.Opens outdir) (hs : Path.IsFileName s)
    (hr : (outdir.join s).refusal? = none) {content : ByteArray}
    (hheld : d.held? outdir s = some (.file content)) :
    content? d (outdir.join s) = .ok (some (Text.decode content)) := by
  unfold content? readText?
  rw [h.read_join hs hr, hheld]
  rfl

theorem Opens.content?_dir (h : d.Opens outdir) (hs : Path.IsFileName s)
    (hr : (outdir.join s).refusal? = none) (hheld : d.held? outdir s = some .dir) :
    content? d (outdir.join s) = .error (.unreadable (outdir.join s) .isDirectory) := by
  unfold content? readText?
  rw [h.read_join hs hr, hheld]
  rfl

/-- What can be read under a name that no directory has, unless the system refuses
    the path. -/
theorem Opens.content?_cases (h : d.Opens outdir) (hs : Path.IsFileName s)
    (hheld : d.held? outdir s ≠ some .dir) :
    (∃ e, (outdir.join s).refusal? = some e ∧
      content? d (outdir.join s) = .error (.unreadable (outdir.join s) e)) ∨
    ∃ c, content? d (outdir.join s) = .ok c ∧ (d.held? outdir s = none → c = none) := by
  cases hr : (outdir.join s).refusal? with
  | some e => exact Or.inl ⟨e, rfl, h.content?_refused hs hr⟩
  | none =>
    cases hn : d.held? outdir s with
    | none => exact Or.inr ⟨none, h.content?_none hs hr hn, fun _ => rfl⟩
    | some n =>
      cases n with
      | dir => exact absurd hn hheld
      | file content => exact Or.inr ⟨_, h.content?_file hs hr hn, nofun⟩

/-- What can be located in a directory shows that the directory is open. -/
theorem opens_of_locate (hs : Path.IsFileName s) {l : Location}
    (h : d.locate (outdir.join s) = .ok l) :
    d.Opens outdir ∧ (outdir.join s).refusal? = none := by
  have hstart : (outdir.join s).start d.here = outdir.start d.here := by
    rw [Path.start, Path.start, Path.isAbsolute_join hs]
  have hwalk := walk_of_locate h
  rw [hstart, Path.segments_join hs] at hwalk
  have hopens : d.Opens outdir := by
    cases hdir : d.walk (outdir.start d.here) outdir.segments with
    | error e => rw [walk_error_append _ hdir] at hwalk; cases hwalk
    | ok m =>
      have hm : m = outdir.locate d.here := walk_ok hdir
      rw [walk_append [s] hdir, walk] at hwalk
      cases hen : d.enter m with
      | error e => rw [hen] at hwalk; cases hwalk
      | ok u =>
        refine ⟨by rw [hdir, hm], ?_⟩
        rw [← hm]
        exact dir_of_enter hen
  refine ⟨hopens, ?_⟩
  cases hr : (outdir.join s).refusal? with
  | none => rfl
  | some e => rw [hopens.locate_error hs hr] at h; cases h

end Disk

/-! ## Section 3: The status of a trial -/

/-- What a directory holds as the log and as the marker of a trial. -/
structure Entries where
  log : Option FileNode
  marker : Option FileNode
deriving DecidableEq

def Disk.entries (d : Disk) (outdir : Path) (x : Descriptor) (i : Nat) : Entries where
  log := d.held? outdir (fileName x.name i .log)
  marker := d.held? outdir (fileName x.name i .marker)

section Trial

variable (hx : '/' ∉ x.name.toList)

include hx

/-- The status does not change while the two entries stay. -/
theorem Disk.Opens.status_congr (h : d.Opens outdir) (h' : d'.Opens outdir)
    (heq : d'.entries outdir x i = d.entries outdir x i) :
    d'.status x (log outdir x.name i) = d.status x (log outdir x.name i) := by
  have hread := h.read_congr h' (isFileName hx i .log) (congrArg Entries.log heq)
  have hread' := h.read_congr h' (isFileName hx i .marker) (congrArg Entries.marker heq)
  rw [← path, path_log] at hread
  rw [← path, path_marker] at hread'
  unfold status content? readText?
  rw [hread, hread']

/-- Without a log a trial has no status if the path of its marker is refused. -/
theorem Disk.Opens.status_of_refused (h : d.Opens outdir)
    (hlog : d.held? outdir (fileName x.name i .log) = none) {e : IoError}
    (hr : (path outdir x.name i .marker).refusal? = some e) (r : RunRecord) :
    d.status x (log outdir x.name i) ≠ .ok r := by
  intro hstatus
  have hmarker := h.content?_refused (isFileName hx i .marker) hr
  rw [← path, path_marker] at hmarker
  unfold status at hstatus
  have hdir : d.held? outdir (fileName x.name i .log) ≠ some .dir := by
    rw [hlog]
    exact (Option.some_ne_none _).symm
  rcases h.content?_cases (isFileName hx i .log) hdir with
    ⟨e', -, hc⟩ | ⟨c, hc, hnone⟩
  · rw [← path_log, path, hc] at hstatus
    cases hstatus
  · rw [← path_log, path, hc, hnone hlog] at hstatus
    rw [← path_log, path] at hmarker
    simp only [proof?, bind, Except.bind, Option.bind_none, hmarker] at hstatus
    cases hstatus

/-- Where the files are whole, a trial has a status unless the system refuses the
    path of its log or of its marker. -/
theorem Disk.Opens.status_cases (h : d.Opens outdir)
    (hlog : d.held? outdir (fileName x.name i .log) ≠ some .dir)
    (hmarker : d.held? outdir (fileName x.name i .marker) = none ∨
      ∃ s, d.held? outdir (fileName x.name i .marker) = some (.file (budgetText s))) :
    (∃ k e, k ≠ .aside ∧ (path outdir x.name i k).refusal? = some e ∧
      d.status x (log outdir x.name i) = .error (.unreadable (path outdir x.name i k) e)) ∨
    (d.held? outdir (fileName x.name i .log) ≠ none ∧
      ∃ t m, d.status x (log outdir x.name i) = .ok (.done t m)) ∨
    (d.held? outdir (fileName x.name i .marker) = none ∧
      d.status x (log outdir x.name i) = .ok .notDone) ∨
    (∃ s, d.held? outdir (fileName x.name i .marker) = some (.file (budgetText s)) ∧
      d.status x (log outdir x.name i) = .ok (.timeout s)) := by
  have hfile := isFileName hx i .log
  have hfile' := isFileName hx i .marker
  rcases h.content?_cases hfile hlog with ⟨e, hr, hc⟩ | ⟨c, hc, hnone⟩
  · refine Or.inl ⟨.log, e, by decide, hr, ?_⟩
    rw [status, ← path_log, path, hc]
    rfl
  · rw [← path, path_log] at hc
    cases hproof : proof? x c with
    | some r =>
      -- A log that proves a run settles the matter.
      obtain ⟨t, m, rfl⟩ := proof?_done hproof
      refine Or.inr (Or.inl ⟨fun hheld => ?_, t, m, ?_⟩)
      · rw [hnone hheld] at hproof
        cases hproof
      · rw [status, hc]
        simp only [bind, Except.bind, hproof]
        rfl
    | none =>
      -- Otherwise the marker tells.
      cases hr : (path outdir x.name i .marker).refusal? with
      | some e =>
        refine Or.inl ⟨.marker, e, by decide, hr, ?_⟩
        rw [status, hc]
        simp only [bind, Except.bind, hproof]
        rw [← path_marker, path, h.content?_refused hfile' hr]
      | none =>
        rcases hmarker with hnone | ⟨s, hs⟩
        · refine Or.inr (Or.inr (Or.inl ⟨hnone, ?_⟩))
          have hc' := h.content?_none hfile' hr hnone
          rw [← path, path_marker] at hc'
          rw [status_of_contents hc hc', hproof]
          rfl
        · refine Or.inr (Or.inr (Or.inr ⟨s, hs, ?_⟩))
          have hc' := h.content?_file hfile' hr hs
          rw [← path, path_marker] at hc'
          rw [status_of_contents hc hc', hproof]
          simp only [marked, budgetOf?_budgetText]

end Trial

end BenchSweep
