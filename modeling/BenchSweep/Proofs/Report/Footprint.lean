import BenchSweep.Proofs.Catalog.Starter
import BenchSweep.Proofs.Report.TableFiles
import BenchSweep.Proofs.Run.Extent
import BenchSweep.Proofs.Run.Status

/-! # What a Report Leaves on the Disk

    A report looks before it writes: where anything is wrong with the catalog, the
    settings or the output directory, it leaves the world as it was.  Otherwise it
    changes the files that were asked for and no others, and makes at most the directory
    of the tables with those above it.  No table has the name of a log or a marker, so a
    scan tells the same afterwards, unless the operator points the report at one. -/

namespace BenchSweep

open Act

/-! ## Section 1: Scans of the same files -/

namespace Disk

variable {d d' : Disk} {outdir : Path} {budget : UInt64} {xs : List Descriptor}

theorem bookRow_congr {i : Nat}
    (h : ∀ x ∈ xs, d'.status x (Artifact.log outdir x.name i) = d.status x (Artifact.log outdir x.name i))
    (l : Ledger) : d'.bookRow outdir budget i xs l = d.bookRow outdir budget i xs l := by
  induction xs generalizing l with
  | nil => rfl
  | cons x xs ih =>
    rw [bookRow, bookRow, h x (List.mem_cons_self ..)]
    exact bind_congr fun r => ih (fun y hy => h y (List.mem_cons_of_mem x hy)) _

/-- A scan hangs on the status of every trial and on nothing else. -/
theorem scan_congr (h : ∀ x ∈ xs, ∀ i,
      d'.status x (Artifact.log outdir x.name i) = d.status x (Artifact.log outdir x.name i)) :
    d'.scan outdir budget xs = d.scan outdir budget xs := by
  have hrow : ∀ i l, d'.bookRow outdir budget i xs l = d.bookRow outdir budget i xs l :=
    fun i => bookRow_congr fun x hx => h x hx i
  have hscan : ∀ i l result, d.ScansFrom outdir budget xs i l result →
      d'.ScansFrom outdir budget xs i l result := by
    intro i l result hresult
    induction hresult with
    | fails hfails => exact .fails ((hrow _ _).trans hfails)
    | ends hends hstop hblanks => exact .ends ((hrow _ _).trans hends) hstop hblanks
    | goes hgoes hstop _ ih => exact .goes ((hrow _ _).trans hgoes) hstop ih
  exact (d'.scansFrom_scan outdir budget xs).unique (hscan _ _ _ (d.scansFrom_scan outdir budget xs))

/-! ## Section 2: Directories -/

theorem opens_of_isDir {dir : Path} (h : d.isDir dir = true) : d.Opens dir := by
  have hfind : d.find dir = .ok .dir := by
    unfold isDir at h
    split at h
    · assumption
    · cases h
  unfold find at hfind
  cases hl : d.locate dir with
  | error e => simp [hl, bind, Except.bind] at hfind
  | ok l =>
    have hnode : d.node? l = some .dir := by
      simp only [hl, bind, Except.bind] at hfind
      split at hfind
      · cases hfind
      · split at hfind <;> cases hfind
      · assumption
    have hplace := locate_ok hl
    rw [hplace] at hl hnode
    exact ⟨walk_of_locate hl, hnode⟩

/-- Above a directory that is open there are only directories. -/
theorem Opens.node_of_lineage {dir : Path} (h : d.Opens dir) {q : Path} (hq : q ∈ dir.lineage) :
    d.node? (q.locate d.here) = some .dir := by
  obtain ⟨habs, rest, hrest⟩ := Path.segments_of_mem_lineage hq
  have hstart : dir.start d.here = q.start d.here := by rw [Path.start, Path.start, habs]
  have hreached := h.reached
  rw [hrest, hstart] at hreached
  cases hwalk : d.walk (q.start d.here) q.segments with
  | error e => simp [walk_error_append rest hwalk] at hreached
  | ok l =>
    have hl : l = q.locate d.here := walk_ok hwalk
    rw [walk_append rest hwalk] at hreached
    rw [← hl]
    cases rest with
    | nil =>
      cases hreached
      exact h.node
    | cons s rest =>
      rw [walk] at hreached
      cases henter : d.enter l with
      | error e => simp [henter, bind, Except.bind] at hreached
      | ok u => exact dir_of_enter henter

theorem haveDir_ok {q : Path} (h : d.haveDir q = .ok d') :
    d' = d ∨ d.node? (q.locate d.here) = none ∧ d' = d.put (q.locate d.here) .dir := by
  have hmake : d.makeDir q = .ok d' →
      d.node? (q.locate d.here) = none ∧ d' = d.put (q.locate d.here) .dir := by
    intro hd'
    unfold makeDir at hd'
    cases hl : d.locate q with
    | error e => simp [hl, bind, Except.bind] at hd'
    | ok l =>
      rw [← Disk.locate_ok hl]
      simp only [hl, bind, Except.bind] at hd'
      split at hd'
      · cases hd'
      · rename_i hnone
        split at hd'
        · cases hd'
          exact ⟨hnone, rfl⟩
        · cases hd'
  unfold haveDir at h
  split at h
  · split at h
    · exact .inl (Except.ok.inj h).symm
    · cases h
  · exact .inr (hmake h)

end Disk

/-! ## Section 3: Lists of actions -/

namespace Act

variable {ε α β : Type} {I : Disk → Prop}

theorem maintains_mapM {f : α → Act ε β} {xs : List α} (h : ∀ x ∈ xs, (f x).Maintains I) :
    (xs.mapM f).Maintains I := by
  induction xs with
  | nil =>
    rw [List.mapM_nil]
    exact maintains_pure _
  | cons x xs ih =>
    rw [List.mapM_cons]
    apply maintains_bind (h x (List.mem_cons_self ..))
    intro y
    exact maintains_bind (ih fun z hz => h z (List.mem_cons_of_mem x hz)) fun _ => maintains_pure _

theorem maintains_forM {f : α → Act ε PUnit} {xs : List α} (h : ∀ x ∈ xs, (f x).Maintains I) :
    (xs.forM f).Maintains I := by
  induction xs with
  | nil => exact maintains_pure _
  | cons x xs ih =>
    exact maintains_bind (h x (List.mem_cons_self ..)) fun _ =>
      ih fun z hz => h z (List.mem_cons_of_mem x hz)

end Act

/-! ## Section 4: What a report may change -/

/-- What a report that was asked for may put in a place of the disk: a directory where
    nothing was, or a file where no directory was. -/
inductive ReportRequest.Puts (r : ReportRequest) (d : Disk) : Location → FileNode → Prop
  /-- The directory of the tables, or one above it. -/
  | directory {dir q : Path} (hdir : r.latex = some dir) (hq : q ∈ dir.lineage)
      (hnone : d.node? (q.locate d.here) = none) : Puts r d (q.locate d.here) .dir
  /-- A file of that directory. -/
  | table {dir : Path} {stem : String} {content : ByteArray} (hdir : r.latex = some dir)
      (hstem : '/' ∉ stem.toList) :
      Puts r d (("results_" ++ stem ++ ".tex") :: dir.locate d.here) (.file content)
  | html {p : Path} {content : ByteArray} (hp : r.html = some p) :
      Puts r d (p.locate d.here) (.file content)
  | json {p : Path} {content : ByteArray} (hp : r.json = some p) :
      Puts r d (p.locate d.here) (.file content)

/-- A disk differs from the one before at most in what the report may put there. -/
structure ReportRequest.Leaves (r : ReportRequest) (d d' : Disk) : Prop where
  here : d'.here = d.here
  dirs : ∀ l, d.node? l = some .dir → d'.node? l = some .dir
  nodes : ∀ l, d'.node? l = d.node? l ∨ ∃ n, d'.node? l = some n ∧ r.Puts d l n

namespace ReportRequest.Leaves

variable {r : ReportRequest} {d d' d'' : Disk} {p : Path} {content : ByteArray}

theorem refl (r : ReportRequest) (d : Disk) : r.Leaves d d :=
  ⟨rfl, fun _ h => h, fun _ => .inl rfl⟩

theorem write (h : r.Leaves d d') (hputs : r.Puts d (p.locate d.here) (.file content))
    (hwrite : d'.write p content = .ok d'') : r.Leaves d d'' := by
  obtain ⟨hnode, rfl⟩ := Disk.write_ok hwrite
  have hne := Disk.ne_nil_of_node? hnode
  refine ⟨h.here, fun l hl => ?_, fun l => ?_⟩
  · have hdir := h.dirs l hl
    have : l ≠ p.locate d'.here := fun heq => hnode (heq ▸ hdir)
    rw [Disk.node?_put_ne _ _ this, hdir]
  · by_cases hl : l = p.locate d'.here
    · rw [hl, Disk.node?_put_self _ _ hne, h.here]
      exact .inr ⟨_, rfl, hputs⟩
    · rw [Disk.node?_put_ne _ _ hl]
      exact h.nodes l

theorem haveDir (h : r.Leaves d d') {dir q : Path} (hdir : r.latex = some dir)
    (hq : q ∈ dir.lineage) (hmake : d'.haveDir q = .ok d'') : r.Leaves d d'' := by
  obtain rfl | ⟨hnone, rfl⟩ := Disk.haveDir_ok hmake
  · exact h
  · rw [h.here] at hnone ⊢
    have hne : q.locate d.here ≠ [] := Disk.ne_nil_of_node? (by rw [hnone]; simp)
    -- What stands nowhere now did not stand there before.
    have hbefore : d.node? (q.locate d.here) = none := by
      obtain hsame | ⟨n, hn, -⟩ := h.nodes (q.locate d.here)
      · rw [← hsame, hnone]
      · simp [hnone] at hn
    refine ⟨h.here, fun l hl => ?_, fun l => ?_⟩
    · have : l ≠ q.locate d.here := by
        rintro rfl
        simp [hbefore] at hl
      rw [Disk.node?_put_ne _ _ this, h.dirs l hl]
    · by_cases hl : l = q.locate d.here
      · rw [hl, Disk.node?_put_self _ _ hne]
        exact .inr ⟨_, rfl, .directory hdir hq hbefore⟩
      · rw [Disk.node?_put_ne _ _ hl]
        exact h.nodes l

end ReportRequest.Leaves

namespace Report

variable {r : ReportRequest} {d : Disk}

theorem maintains_writeText {p : Path} (text : String) (doing : String)
    (hputs : r.Puts d (p.locate d.here) (.file text.toUTF8)) :
    (writeText doing p text).Maintains (r.Leaves d) :=
  maintains_blame _ (maintains_change fun _ _ h hwrite => h.write hputs hwrite)

theorem maintains_writeTables {dir : Path} (hdir : r.latex = some dir) {ts : List FamilyTable}
    (hts : ∀ t ∈ ts, Path.IsFileName (Latex.fileName t)) :
    (writeTables dir ts).Maintains (r.Leaves d) := by
  have hensure : (Act.ensureDir dir).Maintains (r.Leaves d) :=
    Act.maintains_ensureDir fun q hq _ _ h hmake => h.haveDir hdir hq hmake
  apply maintains_bind (maintains_blame _ hensure)
  intro _
  apply maintains_mapM
  intro t ht
  have hstem : '/' ∉ (Latex.stem t).toList := by
    intro hmem
    apply (hts t ht).no_slash
    simp [Latex.fileName_eq, hmem]
  have hplace : (tablePath dir t).locate d.here
      = ("results_" ++ Latex.stem t ++ ".tex") :: dir.locate d.here := by
    rw [tablePath, Path.locate_join (hts t ht), Latex.fileName_eq]
  apply maintains_bind (maintains_writeText _ _ ?_) fun _ => maintains_pure _
  rw [hplace]
  exact .table hdir hstem

/-- The tables, if they are asked for. -/
def putTables (v : Voice) (r : ReportRequest) (a : Analysis) : Act Failure Unit :=
  match r.latex with
  | some dir => do (← writeTables dir a.tables).forM (tellWritten v)
  | none => pure ()

/-- A text, if a file is asked for. -/
def putFile (v : Voice) (doing : String) (file : Option Path) (text : String) : Act Failure Unit :=
  match file with
  | some p => do
    writeText (doing ++ p.text) p text
    tellWritten v p
  | none => pure ()

/-- What is asked for is written one after the other. -/
theorem writeAll_eq (s : Surroundings) (v : Voice) (r : ReportRequest) (a : Analysis) :
    writeAll s v r a = (do
      putTables v r a
      putFile v "Failed to write HTML report: " r.html (Html.page v.locale a)
      putFile v "Failed to write JSON report: " r.json (Dump.report s.now a).text) := by
  unfold writeAll putTables putFile
  cases r.latex <;> cases r.html <;> cases r.json <;> simp

theorem maintains_putFile {v : Voice} {doing : String} {file : Option Path} {text : String}
    (hputs : ∀ p, file = some p → r.Puts d (p.locate d.here) (.file text.toUTF8)) :
    (putFile v doing file text).Maintains (r.Leaves d) := by
  unfold putFile
  split
  · exact maintains_bind (maintains_writeText _ _ (hputs _ rfl)) fun _ => maintains_print _
  · exact maintains_pure _

theorem maintains_writeAll (s : Surroundings) (v : Voice) {a : Analysis}
    (hts : ∀ t ∈ a.tables, Path.IsFileName (Latex.fileName t)) :
    (writeAll s v r a).Maintains (r.Leaves d) := by
  have htables : (putTables v r a).Maintains (r.Leaves d) := by
    unfold putTables
    split
    · apply maintains_bind (maintains_writeTables ‹_› hts)
      exact fun paths => maintains_forM fun p _ => maintains_print _
    · exact maintains_pure _
  rw [writeAll_eq]
  apply maintains_bind htables
  intro _
  apply maintains_bind (maintains_putFile fun p hp => .html hp)
  intro _
  exact maintains_putFile fun p hp => .json hp

/-! ## Section 5: What a report looks at first -/

/-- Why a report writes nothing. -/
inductive Refuses (s : Surroundings) (r : ReportRequest) (d : Disk) : Failure → Prop
  /-- The catalog cannot be read or is invalid. -/
  | session {e : Failure} (h : d.loadSession s r.config r.language = .error e) : Refuses s r d e
  | settings {session : Session} {e : SettingsError}
      (h : d.loadSession s r.config r.language = .ok session)
      (he : Settings.resolve s.env session.catalog { outdir := r.outdir } = .error e) :
      Refuses s r d (.settings e)
  /-- The output directory is missing. -/
  | outdir {session : Session} {settings : Settings}
      (h : d.loadSession s r.config r.language = .ok session)
      (hsettings : Settings.resolve s.env session.catalog { outdir := r.outdir } = .ok settings)
      (hdir : d.isDir settings.outdir = false) :
      Refuses s r d (.refused (session.voice.say (.outdirMissing settings.outdir.text)))
  | scan {session : Session} {settings : Settings} {e : StoreError}
      (h : d.loadSession s r.config r.language = .ok session)
      (hsettings : Settings.resolve s.env session.catalog { outdir := r.outdir } = .ok settings)
      (hdir : d.isDir settings.outdir = true)
      (he : d.scan settings.outdir settings.timeout session.experiments = .error e) :
      Refuses s r d (.trial (.store e))

/-- What a report is about. -/
structure Ready (s : Surroundings) (r : ReportRequest) (d : Disk) (session : Session)
    (settings : Settings) (progress : Progress) : Prop where
  loads : d.loadSession s r.config r.language = .ok session
  resolves : Settings.resolve s.env session.catalog { outdir := r.outdir } = .ok settings
  present : d.isDir settings.outdir = true
  scans : d.scan settings.outdir settings.timeout session.experiments = .ok progress

variable {s : Surroundings} {session : Session} {settings : Settings} {progress : Progress}

theorem gather_of_refuses {e : Failure} (h : Refuses s r d e) : gather s r d = .error e := by
  unfold gather
  cases h with
  | session h => simp [h, bind, Except.bind]
  | settings h he => simp [h, he, Except.mapError, bind, Except.bind]
  | outdir h hsettings hdir => simp [h, hsettings, hdir, Except.mapError, bind, Except.bind]
  | scan h hsettings hdir he => simp [h, hsettings, hdir, he, Except.mapError, bind, Except.bind]

theorem gather_of_ready (h : Ready s r d session settings progress) :
    gather s r d = .ok (session.voice, analyse session.catalog session.experiments progress) := by
  unfold gather
  simp [h.loads, h.resolves, h.present, h.scans, Except.mapError, bind, Except.bind, pure,
    Except.pure]

theorem refuses_or_ready (s : Surroundings) (r : ReportRequest) (d : Disk) :
    (∃ e, Refuses s r d e) ∨ ∃ session settings progress, Ready s r d session settings progress := by
  cases hloads : d.loadSession s r.config r.language with
  | error e => exact .inl ⟨_, .session hloads⟩
  | ok session =>
    cases hresolves : Settings.resolve s.env session.catalog { outdir := r.outdir } with
    | error e => exact .inl ⟨_, .settings hloads hresolves⟩
    | ok settings =>
      cases hpresent : d.isDir settings.outdir with
      | false => exact .inl ⟨_, .outdir hloads hresolves hpresent⟩
      | true =>
        cases hscans : d.scan settings.outdir settings.timeout session.experiments with
        | error e => exact .inl ⟨_, .scan hloads hresolves hpresent hscans⟩
        | ok progress =>
          exact .inr ⟨session, settings, progress, ⟨hloads, hresolves, hpresent, hscans⟩⟩

/-- The catalog of a session has passed its checks. -/
theorem Ready.valid (h : Ready s r d session settings progress) : session.catalog.validate = .ok () := by
  obtain ⟨c, hload, hrest⟩ := bind_eq_ok.1 h.loads
  obtain ⟨xs, -, hsession⟩ := bind_eq_ok.1 hrest
  obtain ⟨text, -, htext⟩ := bind_eq_ok.1 hload
  have hc : session.catalog = c := by
    rw [← Except.ok.inj hsession]
  rw [hc]
  cases hread : Catalog.ofText text with
  | error e =>
    rw [hread] at htext
    cases htext
  | ok c' =>
    rw [hread] at htext
    cases htext
    exact Catalog.validate_of_ofText hread

/-- Shows an analysis, and writes the reports that are asked for. -/
def present (s : Surroundings) (v : Voice) (r : ReportRequest) (a : Analysis) : Act Failure Unit := do
  Act.print (Console.progressLine v a.progress)
  Act.print (Console.summary v a)
  Act.print (Console.tables v a)
  writeAll s v r a

theorem perform_of_ready {w : World} (h : Ready s r w.disk session settings progress) :
    (Command.report s r).perform w = (present s session.voice r
      (analyse session.catalog session.experiments progress)).perform w := by
  rw [Command.report, perform_bind, perform_look, gather_of_ready h]
  rfl

/-- Where it is ready, a report writes what is asked for and no more. -/
theorem Ready.passes {w : World} (h : Ready s r w.disk session settings progress) :
    (Command.report s r).Passes (r.Leaves w.disk) w := by
  have hts : ∀ t ∈ (analyse session.catalog session.experiments progress).tables,
      Path.IsFileName (Latex.fileName t) := fun t ht => isFileName_fileName h.valid ht
  unfold Passes
  rw [perform_of_ready h]
  -- Showing the report changes nothing, and then it is written.
  apply (maintains_bind (maintains_print _) fun _ => maintains_bind (maintains_print _) fun _ =>
    maintains_bind (maintains_print _) fun _ => maintains_writeAll s session.voice hts) w
  exact .refl r w.disk

end Report

/-! ## Section 6: Scans afterwards -/

/-- The places where a sweep records its trials. -/
def Disk.recordPlaces (d : Disk) (outdir : Path) (xs : List Descriptor) : Set Location :=
  {l | ∃ x ∈ xs, ∃ i, l = (Artifact.log outdir x.name i).locate d.here ∨
    l = (Artifact.marker (Artifact.log outdir x.name i)).locate d.here}

/-- A record of an experiment without slashes in its name stands in the output
    directory, under the name of a trial's file. -/
theorem Disk.name_of_recordPlaces {d : Disk} {outdir : Path} {xs : List Descriptor}
    (hnames : ∀ x ∈ xs, '/' ∉ x.name.toList) {l : Location} (h : l ∈ d.recordPlaces outdir xs) :
    ∃ e i k, l = Artifact.fileName e i k :: outdir.locate d.here := by
  obtain ⟨x, hx, i, rfl | rfl⟩ := h
  · exact ⟨x.name, i, .log, by rw [← Artifact.path_log, Artifact.locate_path outdir (hnames x hx)]⟩
  · exact ⟨x.name, i, .marker, by
      rw [← Artifact.path_marker, Artifact.locate_path outdir (hnames x hx)]⟩

/-- No table is filed under the name of a trial's file. -/
theorem Artifact.fileName_ne_table (e : String) (i : Nat) (k : Kind) (stem : String) :
    fileName e i k ≠ "results_" ++ stem ++ ".tex" := by
  intro h
  have hlast : (fileName e i k).toList.getLast? = some 'x' := by
    rw [h, String.toList_append, List.getLast?_append]
    rfl
  have hsplit : (fileName e i k).toList =
      e.toList ++ '-' :: (toString i).toList ++ k.ending.toList := by
    rw [fileName, String.toList_append, toList_tail, List.append_assoc, List.cons_append]
  rw [hsplit, List.getLast?_append, List.getLast?_append, List.getLast?_cons] at hlast
  cases k with
  | log =>
    -- The name ends in a digit.
    cases hdigit : (toString i).toList.getLast? with
    | none => exact Decimal.toString_ne_nil i (List.getLast?_eq_none_iff.1 hdigit)
    | some c =>
      rw [hdigit] at hlast
      have hx : c = 'x' := Option.some.inj hlast
      have := Decimal.isDigit_of_mem_toString (List.mem_of_getLast? hdigit)
      simp [hx] at this
  | marker => cases hlast
  | aside => cases hlast

section Scans

variable {r : ReportRequest} {d d' : Disk} {outdir : Path} {xs : List Descriptor}

/-- The operator points the report at no record of the sweep: not with the files that
    are asked for, and not with a directory that is made for the tables.  The output
    directory itself need not be made. -/
structure ReportRequest.Avoids (r : ReportRequest) (d : Disk) (outdir : Path)
    (places : Set Location) : Prop where
  html : ∀ p, r.html = some p → p.locate d.here ∉ places
  json : ∀ p, r.json = some p → p.locate d.here ∉ places
  latex : ∀ dir, r.latex = some dir → dir = outdir ∨
    ∀ q ∈ dir.lineage, d.node? (q.locate d.here) = none → q.locate d.here ∉ places

/-- A record of the sweep is left as it is. -/
theorem ReportRequest.Leaves.held? (h : r.Leaves d d') (hopens : d.Opens outdir)
    {places : Set Location} (havoids : r.Avoids d outdir places) {e : String} {i : Nat}
    {k : Artifact.Kind} (hplace : Artifact.fileName e i k :: outdir.locate d.here ∈ places) :
    d'.held? outdir (Artifact.fileName e i k) = d.held? outdir (Artifact.fileName e i k) := by
  rw [Disk.held?, Disk.held?, h.here]
  obtain hsame | ⟨n, -, hputs⟩ := h.nodes (Artifact.fileName e i k :: outdir.locate d.here)
  · exact hsame
  · exfalso
    generalize hl : Artifact.fileName e i k :: outdir.locate d.here = l at hputs hplace
    cases hputs with
    | directory hdir hq hnone =>
      obtain rfl | hmade := havoids.latex _ hdir
      · rw [hopens.node_of_lineage hq] at hnone
        cases hnone
      · exact hmade _ hq hnone hplace
    | table hdir hstem => exact Artifact.fileName_ne_table e i k _ (List.cons.inj hl).1
    | html hp => exact havoids.html _ hp hplace
    | json hp => exact havoids.json _ hp hplace

/-- A scan tells the same after a report that avoids the records of the sweep. -/
theorem ReportRequest.Leaves.scan_eq (h : r.Leaves d d') (hdir : d.isDir outdir = true)
    (hnames : ∀ x ∈ xs, '/' ∉ x.name.toList)
    (havoids : r.Avoids d outdir (d.recordPlaces outdir xs)) (budget : UInt64) :
    d'.scan outdir budget xs = d.scan outdir budget xs := by
  have hopens := Disk.opens_of_isDir hdir
  have hopens' := hopens.mono h.here h.dirs
  apply Disk.scan_congr
  intro x hx i
  have hplace : ∀ k, k ≠ .aside →
      Artifact.fileName x.name i k :: outdir.locate d.here ∈ d.recordPlaces outdir xs := by
    intro k hk
    rw [← Artifact.locate_path outdir (hnames x hx)]
    refine ⟨x, hx, i, ?_⟩
    cases k with
    | log => exact .inl (by rw [Artifact.path_log])
    | marker => exact .inr (by rw [Artifact.path_marker])
    | aside => exact absurd rfl hk
  apply hopens.status_congr (hnames x hx) hopens'
  rw [Disk.entries, Disk.entries, h.held? hopens havoids (hplace .log (by decide)),
    h.held? hopens havoids (hplace .marker (by decide))]

end Scans

namespace Report

/-- Nothing is special about the surroundings. -/
def plainRoom : Surroundings where
  env := {}
  colors := false
  now := ""
  host _ := Host.telling fun _ => none

/-- A project that was just begun: its catalog, the output directory and what is in it. -/
def projectDisk (outputs : List (Location × FileNode)) : Disk where
  here := []
  nodes := (["Sweep.toml"], .file (Catalog.starter "en").toText.toUTF8) :: (["out"], .dir) :: outputs

def projectSettings : Settings where
  outdir := ⟨"out"⟩
  timeout := 1200
  settle := ⟨2000000000⟩
  onInterrupt := .rename
  timeout_ne := by decide

theorem ready_projectDisk {outputs : List (Location × FileNode)} {r : ReportRequest}
    (hconfig : r.config = Init.path) (houtdir : r.outdir = none)
    (hscan : (projectDisk outputs).scan ⟨"out"⟩ 1200 starterExperiments = .ok progress) :
    Ready plainRoom r (projectDisk outputs) (starterSession plainRoom "en" r.language)
      projectSettings progress where
  loads := by
    rw [hconfig]
    exact Disk.loadSession_starter rfl plainRoom r.language
  resolves := by
    rw [houtdir]
    show Settings.resolve {} (Catalog.starter "en") { outdir := none } = .ok projectSettings
    decide +kernel
  present := rfl
  scans := hscan

end Report

/-- **A report leaves the sweep alone.**  Either something is wrong with the catalog, the
    settings or the output directory, and the world stays as it was.  Or every disk that
    the report goes through differs from the one before only in what the report was asked
    to put there.  If the experiments have names without slashes, and neither a file that
    is asked for nor a directory that is made takes the place of a record, then a scan
    tells the same as before. -/
theorem report_leaves_sweep (s : Surroundings) (r : ReportRequest) (w : World) :
    (∃ e, Report.Refuses s r w.disk e ∧ (Command.report s r).perform w = (.error e, w)) ∨
    ∃ session settings progress, Report.Ready s r w.disk session settings progress ∧
      (Command.report s r).Passes (fun d =>
        r.Leaves w.disk d ∧
        ((∀ x ∈ session.experiments, '/' ∉ x.name.toList) →
          r.Avoids w.disk settings.outdir (w.disk.recordPlaces settings.outdir session.experiments) →
          ∀ budget, d.scan settings.outdir budget session.experiments
            = w.disk.scan settings.outdir budget session.experiments)) w := by
  obtain ⟨e, hrefuses⟩ | ⟨session, settings, progress, hready⟩ :=
    Report.refuses_or_ready s r w.disk
  · have hlook : (look (Report.gather s r)).perform w = (.error e, w) := by
      rw [perform_look, Report.gather_of_refuses hrefuses]
    refine .inl ⟨e, hrefuses, ?_⟩
    rw [Command.report, perform_bind, hlook]
  · refine .inr ⟨session, settings, progress, hready, hready.passes.mono fun d hd => ⟨hd, ?_⟩⟩
    intro hnames havoids budget
    exact hd.scan_eq hready.present hnames havoids budget

namespace Report

/-- The tables and the page go into the output directory. -/
def fullRequest : ReportRequest where
  config := Init.path
  latex := some ⟨"out"⟩
  html := some ⟨"out/report.html"⟩
  json := some ⟨"report.json"⟩

/-- One trial of two has overrun its budget. -/
def overrunDisk : Disk :=
  projectDisk [(["kanban01-s-1-0.timeout", "out"], .file "1200".toUTF8)]

def overrunProgress : Progress where
  iterations := 1
  notDone := 1
  results := []
  timeouts := [("kanban01-s-1", 1200)]
  nextIteration := 0

theorem report_leaves_overrun :
    ((Command.report plainRoom fullRequest).perform (.fresh overrunDisk)).1 = .ok () ∧
      overrunDisk.scan ⟨"out"⟩ 1200 starterExperiments = .ok overrunProgress ∧
      ((Command.report plainRoom fullRequest).perform (.fresh overrunDisk)).2.disk.scan ⟨"out"⟩ 1200
        starterExperiments = .ok overrunProgress := by
  have hscan : overrunDisk.scan ⟨"out"⟩ 1200 starterExperiments = .ok overrunProgress := by
    decide +kernel
  have hready : Ready plainRoom fullRequest (World.fresh overrunDisk).disk
      (starterSession plainRoom "en" none) projectSettings overrunProgress :=
    ready_projectDisk rfl rfl hscan
  have hnames : ∀ x ∈ starterExperiments, '/' ∉ x.name.toList := by decide
  -- Every record has a dash in its name.
  have hdash : ∀ name above, '-' ∉ name.toList →
      name :: above ∉ overrunDisk.recordPlaces ⟨"out"⟩ starterExperiments := by
    intro name above hname hmem
    obtain ⟨e, i, k, hl⟩ := Disk.name_of_recordPlaces hnames hmem
    rw [(List.cons.inj hl).1, Artifact.fileName, String.toList_append, List.mem_append, not_or] at hname
    exact hname.2 (Artifact.dash_mem_tail i k)
  have havoids : fullRequest.Avoids overrunDisk ⟨"out"⟩
      (overrunDisk.recordPlaces ⟨"out"⟩ starterExperiments) := by
    refine ⟨fun p hp => ?_, fun p hp => ?_, fun dir hdir => .inl ?_⟩
    · cases hp
      exact hdash "report.html" ["out"] (by decide)
    · cases hp
      exact hdash "report.json" [] (by decide)
    · cases hdir
      rfl
  obtain ⟨e, hrefuses, -⟩ | ⟨session, settings, progress, hready', hpasses⟩ :=
    report_leaves_sweep plainRoom fullRequest (.fresh overrunDisk)
  · cases (gather_of_refuses hrefuses).symm.trans (gather_of_ready hready)
  · have hsession := Except.ok.inj (hready'.loads.symm.trans hready.loads)
    rw [hsession] at hready' hpasses
    have hsettings := Except.ok.inj (hready'.resolves.symm.trans hready.resolves)
    rw [hsettings] at hpasses
    have hkept := (hpasses.disk ⟨.refl _ _, fun _ _ _ => rfl⟩).2 hnames havoids 1200
    refine ⟨?_, hscan, hkept.trans hscan⟩
    rw [perform_of_ready hready]
    decide +kernel

/-- A report that is asked for its tables where the first log of an experiment would
    be makes a directory there, and no scan can read it. -/
theorem tables_in_place_of_log :
    ∃ session settings progress,
      Ready plainRoom { config := Init.path, latex := some ⟨"out/kanban01-s-1-0"⟩ } (projectDisk [])
        session settings progress ∧
      (∀ x ∈ session.experiments, '/' ∉ x.name.toList) ∧
      ((Command.report plainRoom
          { config := Init.path, latex := some ⟨"out/kanban01-s-1-0"⟩ }).perform
          (.fresh (projectDisk []))).2.disk.scan settings.outdir settings.timeout session.experiments
        = .error (.unreadable ⟨"out/kanban01-s-1-0"⟩ .isDirectory) := by
  have hready := ready_projectDisk
    (r := { config := Init.path, latex := some ⟨"out/kanban01-s-1-0"⟩ }) rfl rfl
    (show (projectDisk []).scan ⟨"out"⟩ 1200 starterExperiments = .ok ⟨0, 0, [], [], 0⟩ by
      decide +kernel)
  refine ⟨_, _, _, hready, by decide, ?_⟩
  rw [perform_of_ready (w := .fresh (projectDisk [])) hready]
  decide +kernel

end Report

end BenchSweep
