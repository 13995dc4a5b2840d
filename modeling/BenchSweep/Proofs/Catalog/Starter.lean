import BenchSweep.Catalog.Encode
import BenchSweep.Catalog.File
import BenchSweep.Command.Init
import BenchSweep.Proofs.Disk.Directory
import BenchSweep.Proofs.Experiment.Accepted
import BenchSweep.Proofs.Run.Meets
import BenchSweep.Proofs.Toml.Documents

/-! # The Catalog to Start From

    What the init command writes can be loaded in any language: the text of
    the catalog reads back as that catalog, and its experiments expand in every
    environment.  The language is the first line of the text, so it is enough
    that the text without it reads back. -/

namespace BenchSweep

variable {c c' : Catalog} {t : Toml.Table} {env : Shell.Environment} {s : List Char}

/-! ## Section 1: The language of a catalog -/

/-- The catalog in a language. -/
def Catalog.speaking (c : Catalog) (language : Option String) : Catalog :=
  { c with language }

theorem Catalog.toText_speaking (hc : c.language = none) (language : String) :
    (c.speaking (some language)).toText = Toml.write (("language", .string language) :: c.toTable) := by
  simp [speaking, toText, toTable, ifSet, hc]

/-- A catalog without a language comes from a table without one. -/
theorem Catalog.language_of_ofTable? (h : Catalog.ofTable? t = some c) (hc : c.language = none) :
    t.get? "language" = none := by
  unfold ofTable? at h
  obtain ⟨language, hlanguage, h⟩ := Option.bind_eq_some_iff.1 h
  have heq : c.language = language := by
    simp only [bind, Option.bind_eq_some_iff, pure, Option.some.injEq] at h
    obtain ⟨_, _, _, _, _, _, _, _, _, _, rfl⟩ := h
    rfl
  cases hget : t.get? "language" with
  | none => rfl
  | some v =>
    rw [maybe, optional, hget] at hlanguage
    obtain ⟨l, -, hl⟩ := Option.map_eq_some_iff.1 hlanguage
    rw [heq, ← hl] at hc
    cases hc

theorem Catalog.optional_cons {α : Type} {j k : String} (hne : k ≠ j) (v : Toml.Value)
    (item : Toml.Value → Option α) (default : α) :
    optional ((j, v) :: t) k item default = optional t k item default := by
  simp [optional, Toml.Table.get?, List.lookup_cons, beq_eq_false_iff_ne.2 hne]

/-- A language in front of a table becomes that of the catalog. -/
theorem Catalog.ofTable?_cons (h : Catalog.ofTable? t = some c) (language : String) :
    Catalog.ofTable? (("language", .string language) :: t) = some (c.speaking (some language)) := by
  have hlanguage : maybe (("language", .string language) :: t) "language" asString? =
      some (some language) := by
    simp [maybe, optional, Toml.Table.get?, asString?]
  unfold ofTable? at h ⊢
  rw [hlanguage, optional_cons (by decide), optional_cons (by decide), optional_cons (by decide),
    optional_cons (by decide), optional_cons (by decide)]
  simp only [bind, Option.bind_eq_some_iff, pure, Option.some.injEq] at h ⊢
  obtain ⟨_, -, outdir, houtdir, timeout, htimeout, settle, hsettle, policy, hpolicy, families,
    hfamilies, rfl⟩ := h
  exact ⟨_, rfl, outdir, houtdir, timeout, htimeout, settle, hsettle, policy, hpolicy, families,
    hfamilies, rfl⟩

/-- The checks do not look at the language. -/
theorem Catalog.validate_speaking (c : Catalog) (language : Option String) :
    (c.speaking language).validate = c.validate := rfl

theorem Catalog.ofText_of_read {text : String} (hread : (Toml.read text).bind ofTable? = some c)
    (hvalid : c.validate = .ok ()) : ofText text = .ok c := by
  simp only [ofText, hread, hvalid]

theorem Catalog.read_of_ofText {text : String} (h : ofText text = .ok c) :
    (Toml.read text).bind ofTable? = some c ∧ c.validate = .ok () := by
  unfold ofText at h
  cases hread : (Toml.read text).bind ofTable? with
  | none => simp [hread] at h
  | some c' =>
    cases hvalid : c'.validate with
    | error e => simp [hread, hvalid] at h
    | ok u =>
      simp only [hread, hvalid, Except.ok.injEq] at h
      exact ⟨congrArg some h, h ▸ hvalid⟩

/-- If the text of a catalog without a language reads back, it does with any
    language. -/
theorem Catalog.ofText_speaking (hc : c.language = none)
    (hmark : c.toText.toList.head? ≠ some '\uFEFF') (h : Catalog.ofText c.toText = .ok c)
    (language : String) :
    Catalog.ofText (c.speaking (some language)).toText = .ok (c.speaking (some language)) := by
  obtain ⟨hread, hvalid⟩ := read_of_ofText h
  obtain ⟨t, ht, htable⟩ := Option.bind_eq_some_iff.1 hread
  have hnew := language_of_ofTable? htable hc
  have hfront := Toml.read_string_front (k := "language") (by decide) (by decide) hmark ht hnew
    language
  apply ofText_of_read
  · rw [toText_speaking hc, hfront, Option.bind_some, ofTable?_cons htable]
  · rw [validate_speaking, hvalid]

/-! ## Section 2: Commands that name no variable -/

namespace Shell

theorem expandVariables_of_notMem (h : '$' ∉ s) : expandVariables env s = .ok s := by
  induction s with
  | nil => rw [expandVariables]
  | cons c s ih =>
    simp only [List.mem_cons, not_or] at h
    rw [expandVariables, ih h.2]
    · rfl
    all_goals simp [Ne.symm h.1]

/-- A text without a dollar sign and without a tilde in front stays as it is. -/
theorem expand_of_notMem {text : String} (hdollar : '$' ∉ text.toList)
    (htilde : text.toList.head? ≠ some '~') : expand env text = .ok text := by
  simp [expand, expandVariables_of_notMem hdollar, htilde, bind, Except.bind, pure, Except.pure]

end Shell

/-- Whether a command is the same in every environment. -/
def Variant.isClosed (v : Variant) : Bool :=
  !v.command.toList.contains '$' && v.command.toList.head? != some '~'

theorem Variant.commandWords_of_isClosed {v : Variant} (h : v.isClosed = true) (env : Shell.Environment) :
    v.commandWords env = v.commandWords {} := by
  simp only [isClosed, Bool.and_eq_true, Bool.not_eq_true', List.contains_eq_mem,
    decide_eq_false_iff_not, bne_iff_ne] at h
  rw [commandWords, commandWords, Shell.expand_of_notMem h.1 h.2, Shell.expand_of_notMem h.1 h.2]

theorem mapM_congr_mem {ε α β : Type} {f g : α → Except ε β} {xs : List α}
    (h : ∀ x ∈ xs, f x = g x) : xs.mapM f = xs.mapM g := by
  induction xs with
  | nil => rfl
  | cons x xs ih =>
    rw [List.mapM_cons, List.mapM_cons, h x (List.mem_cons_self ..),
      ih fun y hy => h y (List.mem_cons_of_mem x hy)]

theorem foldlM_congr_mem {ε α β : Type} {f g : β → α → Except ε β} {xs : List α}
    (h : ∀ x ∈ xs, ∀ b, f b x = g b x) (b : β) : xs.foldlM f b = xs.foldlM g b := by
  induction xs generalizing b with
  | nil => rfl
  | cons x xs ih =>
    have hrest := ih fun y hy => h y (List.mem_cons_of_mem x hy)
    rw [List.foldlM_cons, List.foldlM_cons, h x (List.mem_cons_self ..)]
    exact bind_congr hrest

/-- Where no command looks at the environment, the experiments do not. -/
theorem Catalog.descriptors_of_isClosed (h : ∀ f ∈ c.families, ∀ v ∈ f.variants, v.isClosed = true)
    (env : Shell.Environment) : c.descriptors env = c.descriptors {} := by
  have htrial : ∀ f ∈ c.families, ∀ x ∈ f.trials,
      expandTrial env f x.1 x.2.2 x.2.1 = expandTrial {} f x.1 x.2.2 x.2.1 := by
    intro f hf x hx
    have hv : x.1 ∈ f.variants := by
      simp only [Family.trials, List.mem_flatMap, List.mem_map] at hx
      obtain ⟨v, hv, -, -, -, -, rfl⟩ := hx
      exact hv
    simp only [expandTrial, x.1.commandWords_of_isClosed (h f hf x.1 hv) env]
  have hadd : ∀ f ∈ c.families, ∀ soFar, addFamily env soFar f = addFamily {} soFar f := by
    intro f hf soFar
    have hexpand : f.expand env = f.expand {} := mapM_congr_mem (htrial f hf)
    rw [addFamily, addFamily, hexpand]
  exact foldlM_congr_mem hadd []

/-! ## Section 3: The catalog to start from -/

/-- The catalog to start from, before it is given a language. -/
def Catalog.silent : Catalog :=
  (Catalog.starter "").speaking none

/-- The lines of its text. -/
def Catalog.silentLines : List String := [
  "outdir = \"out\"",
  "timeout = 1200",
  "settle_secs = 2.0",
  "on_interrupt = \"rename\"",
  "",
  "[[families]]",
  "name = \"lts\"",
  "phases = [",
  "    \"tsig\",",
  "    \"tref\",",
  "]",
  "metrics = [\"time\"]",
  "",
  "[[families.models]]",
  "name = \"kanban01\"",
  "input = [\"models/kanban01.bdd\"]",
  "",
  "[[families.variants]]",
  "name = \"\x7bmodel\x7d-s-\x7bworkers\x7d\"",
  "command = \"./sigrefmc \x7binput\x7d -w \x7bworkers\x7d -l s\"",
  "parser = \"mc\"",
  "workers = [",
  "    1,",
  "    4,",
  "]",
  "",
  "[[families.speedups]]",
  "label = \"Speedup\"",
  "numerator = \"\x7bmodel\x7d-s-1\"",
  "denominator = \"\x7bmodel\x7d-s-4\""]

theorem Catalog.toText_silent :
    silent.toText.toList = silentLines.flatMap fun line => line.toList ++ ['\n'] := by
  -- The text is taken apart before it is computed: appending strings is slow in the kernel.
  simp only [silent, starter, speaking, toText, toTable, ofFamily, ofModel, ofVariant, ofSpeedup,
    strings, ifAny, ifSet, Toml.write, Toml.writeSimple, Toml.writeTables, Toml.writeUnder,
    Toml.writeElements, Toml.isTableList, Toml.writeValue, Toml.writeItems, String.toList_append,
    String.toList_ofList, List.map, List.cons_append, List.nil_append, List.isEmpty, Option.map_none,
    String.toList_empty, List.append_nil, Bool.false_eq_true, if_false, if_true]
  decide +kernel

theorem Catalog.ofText_silent : ofText silent.toText = .ok silent := by
  have hread : (Toml.read silent.toText).bind ofTable? = some silent := by
    rw [Toml.read_eq, toText_silent]
    decide +kernel
  have hvalid : silent.validate = .ok () := by decide +kernel
  exact ofText_of_read hread hvalid

/-- Its text reads back, whatever the language. -/
theorem Catalog.ofText_starter (language : String) :
    ofText (starter language).toText = .ok (starter language) := by
  have hmark : silent.toText.toList.head? ≠ some '\uFEFF' := by
    rw [toText_silent]
    decide
  exact ofText_speaking (c := silent) rfl hmark ofText_silent language

/-- Its experiments are the same in every language and environment. -/
theorem Catalog.descriptors_starter_of (language : String) (env : Shell.Environment) :
    (starter language).descriptors env = .ok starterExperiments := by
  have hclosed : ∀ f ∈ silent.families, ∀ v ∈ f.variants, v.isClosed = true := by decide
  exact (descriptors_of_isClosed (c := starter language) hclosed env).trans
    BenchSweep.descriptors_starter

/-- **The catalog to start from reads back.**  Its text is read as the catalog that it
    was written for, whatever text its language is, and its experiments are accepted in
    every environment. -/
theorem starter_reads_back (language : String) :
    Catalog.ofText (Catalog.starter language).toText = .ok (Catalog.starter language) ∧
      ∀ env, (Catalog.starter language).descriptors env = .ok starterExperiments :=
  ⟨Catalog.ofText_starter language, Catalog.descriptors_starter_of language⟩

/-! ## Section 4: The command that writes it -/

/-- The command leaves the catalog in its file, unless it fails. -/
theorem meets_init (s : Surroundings) (language : String) :
    Act.Meets (fun _ => True) (Command.init s language false)
      (fun _ d => d.read Init.path = .ok (Catalog.starter language).toText.toUTF8)
      (fun _ _ => True) := by
  unfold Command.init Init.writeCatalog
  simp only [Bool.false_eq_true, if_false]
  apply Act.meets_bind (Q := fun _ _ => True)
  · exact Act.meets_look fun _ _ => trivial
  intro present
  split
  · exact Act.meets_fail fun _ _ => trivial
  apply Act.meets_bind (Q := fun _ _ => True)
  · apply Act.meets_look
    intro d _
    rw [Catalog.descriptors_starter_of]
    trivial
  intro _
  apply Act.meets_bind
    (Q := fun _ d => d.read Init.path = .ok (Catalog.starter language).toText.toUTF8)
  · apply Act.meets_blame
    apply Act.meets_change
    intro d _
    cases hwrite : d.write Init.path (Catalog.starter language).toText.toUTF8 with
    | ok d' => exact Disk.read_of_write hwrite
    | error e => trivial
  intro _
  exact Act.meets_bind (Act.meets_print fun _ h => h) fun _ => Act.meets_print fun _ h => h

theorem Disk.readText_of_read {d : Disk} {p : Path} {text : String}
    (h : d.read p = .ok text.toUTF8) : d.readText p = .ok text := by
  have hutf8 : String.fromUTF8? text.toUTF8 = some text := dif_pos text.isValidUTF8
  simp only [readText, h, bind, Except.bind, hutf8]

/-- What a session on the catalog begins with. -/
def starterSession (s : Surroundings) (language : String) (choice : Option String) : Session where
  catalog := Catalog.starter language
  experiments := starterExperiments
  voice :=
    { locale := Locale.activated (Locale.requested choice (some language) (Locale.system s.env))
      colors := s.colors }

theorem Disk.loadSession_starter {d : Disk} {p : Path} {language : String}
    (h : d.read p = .ok (Catalog.starter language).toText.toUTF8) (s : Surroundings)
    (choice : Option String) : d.loadSession s p choice = .ok (starterSession s language choice) := by
  have hload : d.loadCatalog p = .ok (Catalog.starter language) := by
    simp only [loadCatalog, readText_of_read h, Except.mapError, bind, Except.bind,
      Catalog.ofText_starter]
  simp only [loadSession, hload, Catalog.descriptors_starter_of, Except.mapError, bind, Except.bind,
    pure, Except.pure]
  rfl

/-- After the command has run a session can begin, with the catalog that it
    stands for. -/
theorem loadSession_of_init {s : Surroundings} {language : String} {w w' : World}
    (h : (Command.init s language false).perform w = (.ok (), w')) (choice : Option String) :
    w'.disk.loadSession s Init.path choice = .ok (starterSession s language choice) := by
  have hread := (meets_init s language).ok (w := w) (x := ()) trivial (by rw [h])
  rw [h] at hread
  exact Disk.loadSession_starter hread s choice

end BenchSweep
