import BenchSweep.Proofs.Decimal.Written
import BenchSweep.Proofs.Experiment.Accepted

/-! # Data on a Command Line

    A command goes through three stages: variables are replaced, the line is split
    into words, and the groups of each word are filled.  The data of a model come in
    at the last stage only.  A word is laid out in texts and groups in one way, its
    groups are filled from left to right, and what was put in is not looked at again. -/

namespace BenchSweep

/-! ## Section 1: The first occurrence -/

namespace Shell

variable {c : Char} {s before after : List Char}

theorem splitAt?_of_notMem (h : c ∉ s) : splitAt? c s = none := by
  induction s with
  | nil => rfl
  | cons d s ih =>
    simp only [List.mem_cons, not_or] at h
    simp [splitAt?, Ne.symm h.1, ih h.2]

theorem splitAt?_append (h : c ∉ before) (after : List Char) :
    splitAt? c (before ++ c :: after) = some (before, after) := by
  induction before with
  | nil => simp [splitAt?]
  | cons d before ih =>
    simp only [List.mem_cons, not_or] at h
    simp [splitAt?, Ne.symm h.1, ih h.2]

theorem splitAt?_eq_none (h : splitAt? c s = none) : c ∉ s := by
  intro hmem
  -- A list with the character is split at its first occurrence.
  obtain ⟨before, after, rfl, hnew⟩ := List.eq_append_cons_of_mem hmem
  rw [splitAt?_append hnew] at h
  cases h

theorem splitAt?_eq_some (h : splitAt? c s = some (before, after)) :
    s = before ++ c :: after ∧ c ∉ before := by
  by_cases hmem : c ∈ s
  · obtain ⟨front, back, rfl, hnew⟩ := List.eq_append_cons_of_mem hmem
    rw [splitAt?_append hnew] at h
    cases h
    exact ⟨rfl, hnew⟩
  · rw [splitAt?_of_notMem hmem] at h
    cases h

theorem joinWith_eq_intercalate (separator : List Char) (ws : List (List Char)) :
    joinWith separator ws = separator.intercalate ws := by
  induction ws with
  | nil => rfl
  | cons w ws ih =>
    cases ws with
    | nil => simp [joinWith]
    | cons w' ws =>
      rw [joinWith, ih, List.intercalate_cons_cons]
      exact List.cons_ne_nil w' ws

end Shell

/-! ## Section 2: Layouts -/

namespace Template

/-- How a template is laid out: texts and groups by turns, one more text, and then,
    if the last opening brace is not closed, that brace and what is behind it.  A
    closing brace that closes nothing is text, and an opening one within a group is
    part of its key. -/
structure Layout where
  /-- The key of each group, behind the text before it. -/
  groups : List (List Char × List Char)
  /-- The text behind the last group. -/
  rest : List Char
  /-- What stands behind an opening brace that is not closed. -/
  unclosed : Option (List Char)
  text_plain : ∀ g ∈ groups, '\x7b' ∉ g.1
  key_closed : ∀ g ∈ groups, '\x7d' ∉ g.2
  rest_plain : '\x7b' ∉ rest
  unclosed_open : ∀ s ∈ unclosed, '\x7d' ∉ s

namespace Layout

def keys (l : Layout) : List (List Char) :=
  l.groups.map Prod.snd

/-- The tail that an opening brace begins. -/
def tail (l : Layout) : List Char :=
  match l.unclosed with
  | none => []
  | some s => '\x7b' :: s

/-- The pieces behind the groups. -/
def lastPieces (rest : List Char) : Option (List Char) → List Piece
  | none => [.text rest]
  | some s => [.text rest, .tail ('\x7b' :: s)]

/-- The texts and groups by turns, and what comes last. -/
def pieces (l : Layout) : List Piece :=
  (l.groups.flatMap fun g => [.text g.1, .group g.2]) ++ lastPieces l.rest l.unclosed

/-- The template that is laid out. -/
def source (l : Layout) : List Char :=
  l.pieces.flatMap Piece.source

/-- The template with values in the place of its groups. -/
def filled (l : Layout) (values : List (List Char)) : List Char :=
  (List.zipWith (fun g v => g.1 ++ v) l.groups values).flatten ++ l.rest ++ l.tail

end Layout

variable {text key rest s : List Char}

/-- How a template is read, without the proof that it is read to its end. -/
theorem pieces_eq (s : List Char) :
    pieces s =
      match Shell.splitAt? '\x7b' s with
      | none => [.text s]
      | some (before, after) =>
        match Shell.splitAt? '\x7d' after with
        | none => [.text before, .tail ('\x7b' :: after)]
        | some (key, rest) => .text before :: .group key :: pieces rest := by
  rw [pieces]
  split
  · rename_i hopen
    rw [hopen]
  · rename_i before after hopen
    rw [hopen]
    split
    · rename_i hclose
      simp only [hclose]
    · rename_i hclose
      simp only [hclose]

theorem pieces_of_notMem (h : '\x7b' ∉ text) : pieces text = [.text text] := by
  rw [pieces_eq, Shell.splitAt?_of_notMem h]

theorem pieces_unclosed (htext : '\x7b' ∉ text) (hs : '\x7d' ∉ s) :
    pieces (text ++ '\x7b' :: s) = [.text text, .tail ('\x7b' :: s)] := by
  rw [pieces_eq, Shell.splitAt?_append htext]
  simp only [Shell.splitAt?_of_notMem hs]

theorem pieces_group (htext : '\x7b' ∉ text) (hkey : '\x7d' ∉ key) (rest : List Char) :
    pieces (text ++ '\x7b' :: (key ++ '\x7d' :: rest))
      = .text text :: .group key :: pieces rest := by
  rw [pieces_eq, Shell.splitAt?_append htext]
  simp only [Shell.splitAt?_append hkey]

/-- A template is read as it is laid out. -/
theorem Layout.pieces_source (l : Layout) : Template.pieces l.source = l.pieces := by
  obtain ⟨groups, rest, unclosed, htext, hkey, hrest, hopen⟩ := l
  unfold source Layout.pieces
  induction groups with
  | nil =>
    cases unclosed with
    | none => simpa [lastPieces, Piece.source] using pieces_of_notMem hrest
    | some s => simpa [lastPieces, Piece.source] using pieces_unclosed hrest (hopen s rfl)
  | cons g groups ih =>
    -- The first group is read, and the others are those of a layout as well.
    obtain ⟨htext₁, htext⟩ := List.forall_mem_cons.1 htext
    obtain ⟨hkey₁, hkey⟩ := List.forall_mem_cons.1 hkey
    have hfirst := pieces_group htext₁ hkey₁
    simp only [List.flatMap_cons, List.append_assoc, List.cons_append, List.nil_append,
      Piece.source] at ih ⊢
    rw [hfirst, ih htext hkey]

/-- No two layouts have the same pieces. -/
theorem Layout.pieces_inj {l l' : Layout} (h : l.pieces = l'.pieces) : l = l' := by
  have hlists : ∀ (groups groups' : List (List Char × List Char)) (rest rest' : List Char)
      (unclosed unclosed' : Option (List Char)),
      (groups.flatMap fun g => [Piece.text g.1, .group g.2]) ++ lastPieces rest unclosed
        = (groups'.flatMap fun g => [Piece.text g.1, .group g.2]) ++ lastPieces rest' unclosed' →
      groups = groups' ∧ rest = rest' ∧ unclosed = unclosed' := by
    intro groups
    induction groups with
    | nil =>
      intro groups' rest rest' unclosed unclosed' h
      cases groups' with
      | nil => cases unclosed <;> cases unclosed' <;> simp_all [lastPieces]
      -- A group never stands behind the last text.
      | cons g' groups' => cases unclosed <;> simp [lastPieces] at h
    | cons g groups ih =>
      intro groups' rest rest' unclosed unclosed' h
      cases groups' with
      | nil => cases unclosed' <;> simp [lastPieces] at h
      | cons g' groups' =>
        simp only [List.flatMap_cons, List.cons_append, List.nil_append, List.cons.injEq,
          Piece.text.injEq, Piece.group.injEq] at h
        obtain ⟨htext, hkey, hrest⟩ := h
        obtain ⟨rfl, rfl, rfl⟩ := ih groups' rest rest' unclosed unclosed' hrest
        exact ⟨by rw [Prod.ext htext hkey], rfl, rfl⟩
  obtain ⟨groups, rest, unclosed, _, _, _, _⟩ := l
  obtain ⟨groups', rest', unclosed', _, _, _, _⟩ := l'
  obtain ⟨rfl, rfl, rfl⟩ := hlists groups groups' rest rest' unclosed unclosed' h
  rfl

theorem Layout.source_inj {l l' : Layout} (h : l.source = l'.source) : l = l' := by
  apply pieces_inj
  rw [← pieces_source, ← pieces_source, h]

/-- Every template is laid out in some way. -/
theorem exists_layout (s : List Char) : ∃ l : Layout, l.source = s := by
  induction s using pieces.induct with
  | case1 s hopen =>
    refine ⟨⟨[], s, none, nofun, nofun, Shell.splitAt?_eq_none hopen, nofun⟩, ?_⟩
    simp [Layout.source, Layout.pieces, Layout.lastPieces, Piece.source]
  | case2 s before after hopen hclose =>
    obtain ⟨rfl, hbefore⟩ := Shell.splitAt?_eq_some hopen
    have hafter := Shell.splitAt?_eq_none hclose
    refine ⟨⟨[], before, some after, nofun, nofun, hbefore, fun s hs => ?_⟩, ?_⟩
    · cases hs
      exact hafter
    · simp [Layout.source, Layout.pieces, Layout.lastPieces, Piece.source]
  | case3 s before after hopen key rest hclose ih =>
    obtain ⟨rfl, hbefore⟩ := Shell.splitAt?_eq_some hopen
    obtain ⟨rfl, hkey⟩ := Shell.splitAt?_eq_some hclose
    obtain ⟨l, rfl⟩ := ih
    refine ⟨⟨(before, key) :: l.groups, l.rest, l.unclosed,
      List.forall_mem_cons.2 ⟨hbefore, l.text_plain⟩, List.forall_mem_cons.2 ⟨hkey, l.key_closed⟩,
      l.rest_plain, l.unclosed_open⟩, ?_⟩
    simp [Layout.source, Layout.pieces, Layout.lastPieces, Piece.source]

/-! ## Section 3: Filling -/

/-- What stands for a group: the model's name, its inputs with blanks between them, or
    the worker count. -/
inductive Binding.Puts (b : Binding) : List Char → List Char → Prop where
  | model : b.Puts "model".toList b.model.name.toList
  | input : b.Puts "input".toList (" ".intercalate b.model.input).toList
  | workers {w : Nat} : b.workers = some w → b.Puts "workers".toList (toString w).toList

/-- Why nothing stands for a group: its key is unknown, or there is no worker count. -/
inductive Binding.Refuses (b : Binding) (template : String) : List Char → CatalogError → Prop where
  | unknown {key : List Char} :
      key ≠ "model".toList → key ≠ "input".toList → key ≠ "workers".toList →
      b.Refuses template key (.unknownPlaceholder template (String.ofList key))
  | noWorkers : b.workers = none →
      b.Refuses template "workers".toList (.missingWorkers template b.variant)

variable {b : Binding} {template : String} {e : CatalogError} {v : List Char}

theorem Binding.value_of_puts (h : b.Puts key v) : b.value template key = .ok v := by
  cases h with
  | model => rfl
  | input =>
    rw [String.toList_intercalate]
    exact congrArg Except.ok (Shell.joinWith_eq_intercalate _ _)
  | workers hworkers =>
    unfold value
    rw [if_neg (by decide), if_neg (by decide), if_pos rfl, hworkers, Decimal.toList_toString]

theorem Binding.value_of_refuses (h : b.Refuses template key e) : b.value template key = .error e := by
  cases h with
  | unknown hmodel hinput hworkers =>
    unfold value
    rw [if_neg hmodel, if_neg hinput, if_neg hworkers]
  | noWorkers hworkers =>
    unfold value
    rw [if_neg (by decide), if_neg (by decide), if_pos rfl, hworkers]

/-- Something stands for a key, or there is a reason why nothing does. -/
theorem Binding.puts_or_refuses (b : Binding) (template : String) (key : List Char) :
    (∃ v, b.Puts key v) ∨ ∃ e, b.Refuses template key e := by
  by_cases hmodel : key = "model".toList
  · rw [hmodel]
    exact .inl ⟨_, .model⟩
  by_cases hinput : key = "input".toList
  · rw [hinput]
    exact .inl ⟨_, .input⟩
  by_cases hworkers : key = "workers".toList
  · rw [hworkers]
    cases hcount : b.workers with
    | none => exact .inr ⟨_, .noWorkers hcount⟩
    | some w => exact .inl ⟨_, .workers hcount⟩
  · exact .inr ⟨_, .unknown hmodel hinput hworkers⟩

theorem Binding.value_eq_ok_iff (template : String) :
    b.value template key = .ok v ↔ b.Puts key v := by
  refine ⟨fun h => ?_, value_of_puts⟩
  -- What stands for the key is what was computed, and nothing refuses it.
  rcases b.puts_or_refuses template key with ⟨w, hw⟩ | ⟨e, he⟩
  · obtain rfl := Except.ok.inj (h.symm.trans (value_of_puts hw))
    exact hw
  · cases h.symm.trans (value_of_refuses he)

theorem Binding.value_eq_error_iff :
    b.value template key = .error e ↔ b.Refuses template key e := by
  refine ⟨fun h => ?_, value_of_refuses⟩
  rcases b.puts_or_refuses template key with ⟨w, hw⟩ | ⟨e', he⟩
  · cases h.symm.trans (value_of_puts hw)
  · obtain rfl := Except.error.inj (h.symm.trans (value_of_refuses he))
    exact he

/-- The pieces of a layout are filled by filling its groups. -/
theorem Binding.fillAll_pieces (l : Layout) :
    b.fillAll template l.pieces = (l.keys.mapM (b.value template)).map l.filled := by
  obtain ⟨groups, rest, unclosed, htext, hkey, hrest, hopen⟩ := l
  unfold Layout.pieces Layout.keys Layout.filled Layout.tail
  induction groups with
  | nil =>
    cases unclosed with
    | none => simp [Layout.lastPieces, fillAll, fill, pure, Except.pure, Except.map]
    | some s => simp [Layout.lastPieces, fillAll, fill, pure, Except.pure, Except.map]
  | cons g groups ih =>
    have hrest := ih (List.forall_mem_cons.1 htext).2 (List.forall_mem_cons.1 hkey).2
    simp only [List.flatMap_cons, List.cons_append, List.nil_append, List.map_cons, List.mapM_cons]
    unfold fillAll
    simp only [fill]
    unfold fillAll
    simp only [fill]
    rw [hrest]
    cases b.value template g.2 with
    | error e => rfl
    | ok v =>
      cases (groups.map Prod.snd).mapM (b.value template) with
      | error e => rfl
      | ok values => simp [Except.map, bind, Except.bind, pure, Except.pure]

/-- What a template comes to, by its layout: with a value for each of its groups, the
    texts and the values in a row, and otherwise the error of the first group that has
    none. -/
structure Layout.Tells (l : Layout) (b : Binding) (template : String) : Prop where
  ok : ∀ out, expand b template = .ok out ↔
    ∃ values, List.Forall₂ b.Puts l.keys values ∧ out.toList = l.filled values
  error : ∀ e, expand b template = .error e ↔
    ∃ before key after, l.keys = before ++ key :: after ∧
      (∀ k ∈ before, ∃ v, b.Puts k v) ∧ b.Refuses template key e

theorem Layout.tells (b : Binding) {l : Layout} (h : l.source = template.toList) :
    l.Tells b template := by
  have hexpand : expand b template
      = (l.keys.mapM (b.value template)).map fun values => String.ofList (l.filled values) := by
    rw [expand, ← h, pieces_source, Binding.fillAll_pieces]
    cases l.keys.mapM (b.value template) <;> rfl
  constructor
  · intro out
    have hputs : ∀ values, List.Forall₂ b.Puts l.keys values ↔
        l.keys.mapM (b.value template) = .ok values := by
      intro values
      rw [mapM_eq_ok]
      simp only [Binding.value_eq_ok_iff template]
    simp only [hputs, hexpand]
    cases l.keys.mapM (b.value template) with
    | error e => simp [Except.map]
    | ok values => simp [Except.map, ← String.toList_inj, eq_comm]
  · intro e
    simp only [← Binding.value_eq_ok_iff template, ← Binding.value_eq_error_iff,
      ← mapM_eq_error]
    rw [hexpand]
    cases l.keys.mapM (b.value template) <;> simp [Except.map]

/-- What a word of a command stands for: the model's inputs as they are if the word is
    the group of the input and nothing else, and one argument otherwise. -/
inductive Binding.StandsFor (b : Binding) : String → List String → Prop where
  | inputs : b.StandsFor "\x7binput\x7d" b.model.input
  | argument {word argument : String} : word ≠ "\x7binput\x7d" →
      expand b word = .ok argument → b.StandsFor word [argument]

end Template

/-! ## Section 4: Commands -/

variable {env : Shell.Environment} {f : Family} {v : Variant} {model : Model}
  {workers : Option Nat} {x : Descriptor} {b b' : Template.Binding}

theorem wordArguments_eq_ok_iff {word : String} {arguments : List String} :
    wordArguments b word = .ok arguments ↔ b.StandsFor word arguments := by
  unfold wordArguments
  by_cases hword : word = "\x7binput\x7d"
  · rw [if_pos hword, hword]
    constructor
    · intro h
      cases h
      exact .inputs
    · intro h
      cases h with
      | inputs => rfl
      | argument hne => exact absurd rfl hne
  · rw [if_neg hword]
    constructor
    · intro h
      cases hexpand : Template.expand b word with
      | error e =>
        rw [hexpand] at h
        cases h
      | ok argument =>
        rw [hexpand] at h
        cases h
        exact .argument hword hexpand
    · intro h
      cases h with
      | inputs => exact absurd rfl hword
      | argument _ hexpand =>
        rw [hexpand]
        rfl

theorem commandWords_eq_ok_iff {words : List String} :
    v.commandWords env = .ok words ↔ ∃ line split, Shell.expand env v.command = .ok line ∧
      Shell.splitWords line.toList = some split ∧ words = split.map String.ofList := by
  unfold Variant.commandWords
  cases Shell.expand env v.command with
  | error e => simp
  | ok line =>
    cases hsplit : Shell.splitWords line.toList with
    | none => simp [hsplit]
    | some split => simp [hsplit, eq_comm]

/-- The command of an experiment, by the words of its variant's command. -/
theorem exists_arguments (h : expandTrial env f v model workers = .ok x) :
    ∃ words arguments, v.commandWords env = .ok words ∧
      List.Forall₂ (Template.Binding.StandsFor ⟨v.name, model, workers⟩) words arguments ∧
      x.invocation.words = arguments.flatten := by
  obtain ⟨words, arguments, column, -, hwords, harguments, hinvocation, -⟩ := expandTrial_ok h
  refine ⟨words, arguments, hwords, ?_, Invocation.words_of_ofWords? hinvocation⟩
  exact (mapM_eq_ok.1 harguments).imp fun _ _ => wordArguments_eq_ok_iff.1

/-- Words stand for equally many arguments with any two models of as many inputs. -/
theorem length_flatten_eq (hinput : b.model.input.length = b'.model.input.length)
    {words : List String} {arguments arguments' : List (List String)}
    (h : List.Forall₂ b.StandsFor words arguments)
    (h' : List.Forall₂ b'.StandsFor words arguments') :
    arguments.flatten.length = arguments'.flatten.length := by
  induction h generalizing arguments' with
  | nil =>
    cases h'
    rfl
  | cons hword _ ih =>
    cases h' with
    | cons hword' hwords' =>
      rw [List.flatten_cons, List.flatten_cons, List.length_append, List.length_append, ih hwords']
      congr 1
      -- The word is the same for both models, so it stands for both in the same way.
      cases hword with
      | inputs =>
        cases hword' with
        | inputs => exact hinput
        | argument hne => exact absurd rfl hne
      | argument hne =>
        cases hword' with
        | inputs => exact absurd rfl hne
        | argument => rfl

/-- **Data are taken as they are.**  The words of a command come from the variant and
    the environment alone.  The command of an experiment is what they stand for, one
    after the other: the model's inputs themselves, or one argument with its groups
    filled.  So models with as many inputs get commands of the same length.  Any template
    has one layout, with which it is filled from left to right, and nothing in what is put
    in counts as a part of it. -/
theorem data_taken_verbatim (env : Shell.Environment) (v : Variant) :
    (∀ f model workers x, expandTrial env f v model workers = .ok x →
      ∃ line words arguments, Shell.expand env v.command = .ok line ∧
        Shell.splitWords line.toList = some words ∧
        List.Forall₂ (Template.Binding.StandsFor ⟨v.name, model, workers⟩)
          (words.map String.ofList) arguments ∧
        x.invocation.words = arguments.flatten) ∧
    (∀ f f' model model' workers workers' x x',
      expandTrial env f v model workers = .ok x → expandTrial env f' v model' workers' = .ok x' →
      model.input.length = model'.input.length →
      x.invocation.words.length = x'.invocation.words.length) ∧
    ∀ (b : Template.Binding) (template : String), ∃ l : Template.Layout,
      l.source = template.toList ∧
      (∀ l' : Template.Layout, l'.source = template.toList → l' = l) ∧ l.Tells b template := by
  refine ⟨fun f model workers x h => ?_, fun f f' m m' w w' x x' h h' hinput => ?_,
    fun b template => ?_⟩
  · obtain ⟨words, arguments, hwords, hstand, hinvocation⟩ := exists_arguments h
    obtain ⟨line, split, hline, hsplit, rfl⟩ := commandWords_eq_ok_iff.1 hwords
    exact ⟨line, split, arguments, hline, hsplit, hstand, hinvocation⟩
  · obtain ⟨words, arguments, hwords, hstand, hinvocation⟩ := exists_arguments h
    obtain ⟨words', arguments', hwords', hstand', hinvocation'⟩ := exists_arguments h'
    obtain rfl := Except.ok.inj (hwords.symm.trans hwords')
    rw [hinvocation, hinvocation']
    exact length_flatten_eq hinput hstand hstand'
  · obtain ⟨l, hl⟩ := Template.exists_layout template.toList
    exact ⟨l, hl, fun l' hl' => Template.Layout.source_inj (hl'.trans hl.symm),
      Template.Layout.tells b hl⟩

/-- A variant whose name is a group, and a command with groups within quotes and without
    an end. -/
def Variant.ofGroups : Variant where
  name := "\x7bmodel\x7d"
  command := "~/run \"a \x7bmodel\x7d\" \x7binput\x7d \x7binput"
  format := .mc
  label := none
  workers := []
  exclude := []

/-- A model of signs that mean something to a shell or to a template. -/
def Model.ofSigns : Model where
  name := "$HOME '#"
  input := ["~", "b  c", "\x7bmodel\x7d"]
  states := none
  blocks := none

theorem data_taken_verbatim_signs :
    ∃ x, expandTrial [("HOME", "/root")]
        { name := "f", models := [], variants := [], speedups := [], phases := [], metrics := [] }
        Variant.ofGroups Model.ofSigns none = .ok x ∧
      x.invocation.words = ["/root/run", "a $HOME '#", "~", "b  c", "\x7bmodel\x7d", "\x7binput"] ∧
      ∃ line words arguments, Shell.expand [("HOME", "/root")] Variant.ofGroups.command = .ok line ∧
        Shell.splitWords line.toList = some words ∧
        List.Forall₂ (Template.Binding.StandsFor ⟨Variant.ofGroups.name, Model.ofSigns, none⟩)
          (words.map String.ofList) arguments ∧
        x.invocation.words = arguments.flatten := by
  have hwords : (expandTrial [("HOME", "/root")]
      { name := "f", models := [], variants := [], speedups := [], phases := [], metrics := [] }
      Variant.ofGroups Model.ofSigns none).map (fun x => x.invocation.words)
      = .ok ["/root/run", "a $HOME '#", "~", "b  c", "\x7bmodel\x7d", "\x7binput"] := by
    decide +kernel
  have htaken := (data_taken_verbatim [("HOME", "/root")] Variant.ofGroups).1
    { name := "f", models := [], variants := [], speedups := [], phases := [], metrics := [] }
    Model.ofSigns none
  generalize expandTrial _ _ _ _ _ = outcome at hwords htaken ⊢
  cases outcome with
  | error e => cases hwords
  | ok x => exact ⟨x, rfl, Except.ok.inj hwords, htaken x rfl⟩

end BenchSweep
