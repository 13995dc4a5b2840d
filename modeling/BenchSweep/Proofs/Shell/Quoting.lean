import BenchSweep.Proofs.Experiment.Substitution

/-! # Command Lines Are Read Back

    A word is written stretch by stretch, bare or in one of two kinds of quotes.  The
    splitter takes each stretch for the characters that it was written for, wherever in
    a word it stands, and a word ends where the next blank is.  So a command line is
    split into the words that it was made of. -/

namespace BenchSweep

namespace Shell

/-! ## Section 1: Stretches -/

/-- Within a word the text is read as the characters. -/
def Writes (text w : List Char) : Prop :=
  ∀ acc rest, splitFrom .word acc (text ++ rest) = splitFrom .word (w.reverse ++ acc) rest

/-- The first character neither separates words nor begins a comment. -/
def BeginsWord (text : List Char) : Prop :=
  ∃ c s, text = c :: s ∧ isSeparator c = false ∧ c ≠ '#'

variable {c : Char} {s text w v stretch rest acc : List Char}

theorem writes_nil : Writes [] [] :=
  fun _ _ => rfl

theorem Writes.append (ht : Writes text w) (hs : Writes s v) : Writes (text ++ s) (w ++ v) := by
  intro acc rest
  rw [List.append_assoc, ht, hs, List.reverse_append, List.append_assoc]

theorem BeginsWord.append (h : BeginsWord text) (s : List Char) : BeginsWord (text ++ s) := by
  obtain ⟨c, front, rfl, hc⟩ := h
  exact ⟨c, front ++ s, rfl, hc⟩

/-- A word begins as it would go on. -/
theorem BeginsWord.splitFrom_gap (h : BeginsWord text) :
    splitFrom .gap acc text = splitFrom .word [] text := by
  obtain ⟨c, s, rfl, hseparator, hcomment⟩ := h
  simp only [splitFrom, hseparator, hcomment, Bool.false_eq_true, ↓reduceIte]

theorem beginsWord_quote (h : c = '\'' ∨ c = '"') (s : List Char) : BeginsWord (c :: s) := by
  refine ⟨c, s, rfl, ?_⟩
  rcases h with rfl | rfl <;> decide

/-- A character that may stand bare means nothing to the splitter. -/
structure Ordinary (c : Char) : Prop where
  separator : isSeparator c = false
  comment : c ≠ '#'
  double : c ≠ '"'
  single : c ≠ '\''
  backslash : c ≠ '\\'

theorem ordinary_of_bare (h : (stylesOf c).bare = true) : Ordinary c := by
  have hne : ∀ d : Char, (stylesOf d).bare = false → c ≠ d := by
    rintro d hd rfl
    rw [h] at hd
    cases hd
  refine ⟨?_, hne '#' (by decide), hne '"' (by decide), hne '\'' (by decide), hne '\\' (by decide)⟩
  simp [isSeparator, hne ' ' (by decide), hne '\t' (by decide), hne '\n' (by decide)]

theorem writes_bare (h : ∀ c ∈ stretch, (stylesOf c).bare = true) : Writes stretch stretch := by
  induction stretch with
  | nil => exact writes_nil
  | cons c stretch ih =>
    obtain ⟨hc, hrest⟩ := List.forall_mem_cons.1 h
    have hordinary := ordinary_of_bare hc
    have hfirst : Writes [c] [c] := by
      intro acc rest
      simp [splitFrom, hordinary.separator, hordinary.double, hordinary.single, hordinary.backslash]
    exact hfirst.append (ih hrest)

theorem writes_single (h : '\'' ∉ stretch) : Writes ('\'' :: stretch ++ ['\'']) stretch := by
  have hinside : ∀ acc rest, splitFrom .single acc (stretch ++ '\'' :: rest)
      = splitFrom .word (stretch.reverse ++ acc) rest := by
    induction stretch with
    | nil => exact fun _ _ => rfl
    | cons c stretch ih =>
      simp only [List.mem_cons, not_or] at h
      intro acc rest
      rw [List.cons_append, splitFrom, if_neg (Ne.symm h.1), ih h.2]
      simp
  intro acc rest
  have hopen : splitFrom .word acc ('\'' :: (stretch ++ '\'' :: rest))
      = splitFrom .single acc (stretch ++ '\'' :: rest) := rfl
  simp only [List.cons_append, List.append_assoc, List.nil_append]
  rw [hopen, hinside]

/-- What stands between double quotes for a character. -/
def doubleChar (c : Char) : List Char :=
  if isDoubleEscapable c then ['\\', c] else [c]

/-- Any text can stand between double quotes. -/
theorem writes_double (stretch : List Char) :
    Writes ('"' :: stretch.flatMap doubleChar ++ ['"']) stretch := by
  have hchar : ∀ c acc rest,
      splitFrom .double acc (doubleChar c ++ rest) = splitFrom .double (c :: acc) rest := by
    intro c acc rest
    unfold doubleChar
    split
    · -- The escapes are those that the splitter undoes.
      rename_i hescaped
      have hline : c ≠ '\n' := by
        rintro rfl
        exact absurd hescaped (by decide)
      simp [splitFrom, hline, hescaped]
    · rename_i hplain
      have hne : ∀ d, isDoubleEscapable d = true → c ≠ d := by
        rintro d hd rfl
        exact hplain hd
      simp [splitFrom, hne '"' (by decide), hne '\\' (by decide)]
  have hinside : ∀ acc rest, splitFrom .double acc (stretch.flatMap doubleChar ++ '"' :: rest)
      = splitFrom .word (stretch.reverse ++ acc) rest := by
    induction stretch with
    | nil => exact fun _ _ => rfl
    | cons c stretch ih =>
      intro acc rest
      rw [List.flatMap_cons, List.append_assoc, hchar, ih]
      simp
  intro acc rest
  have hopen : splitFrom .word acc ('"' :: (stretch.flatMap doubleChar ++ '"' :: rest))
      = splitFrom .double acc (stretch.flatMap doubleChar ++ '"' :: rest) := rfl
  simp only [List.cons_append, List.append_assoc, List.nil_append]
  rw [hopen, hinside]

/-! ## Section 2: Words -/

/-- The styles that are left fit all characters of a stretch. -/
structure Styles.Fit (a : Styles) (stretch : List Char) : Prop where
  bare : a.bare = true → ∀ c ∈ stretch, (stylesOf c).bare = true
  single : a.single = true → '\'' ∉ stretch

/-- A stretch is written as it is read, whatever style is taken. -/
theorem Styles.Fit.writes {a : Styles} (h : a.Fit stretch) :
    Writes (writeStretch a stretch) stretch := by
  unfold writeStretch
  split
  · rename_i hbare
    exact writes_bare (h.bare hbare)
  · split
    · rename_i hsingle
      exact writes_single (h.single hsingle)
    · exact writes_double stretch

theorem Styles.Fit.beginsWord {a : Styles} (h : a.Fit stretch) (hne : stretch ≠ []) :
    BeginsWord (writeStretch a stretch) := by
  unfold writeStretch
  split
  · rename_i hbare
    obtain ⟨c, s, rfl⟩ := List.exists_cons_of_ne_nil hne
    have hordinary := ordinary_of_bare (h.bare hbare c List.mem_cons_self)
    exact ⟨c, s, rfl, hordinary.separator, hordinary.comment⟩
  · split
    · exact beginsWord_quote (.inl rfl) _
    · exact beginsWord_quote (.inr rfl) _

/-- The styles that are left are some of those that were there, and fit what they were
    left for. -/
theorem takeStretch_spec {a r : Styles} (h : takeStretch a s = (r, stretch, rest)) :
    s = stretch ++ rest ∧ r.Fit stretch ∧ (r.bare = true → a.bare = true) ∧
      (r.single = true → a.single = true) := by
  induction s generalizing a stretch with
  | nil =>
    cases h
    exact ⟨rfl, ⟨nofun, nofun⟩, id, id⟩
  | cons c s ih =>
    rw [takeStretch] at h
    split at h
    · obtain ⟨⟨r', stretch', rest'⟩, htake⟩ : ∃ t, takeStretch (a.meet (stylesOf c)) s = t := ⟨_, rfl⟩
      simp only [htake, Prod.mk.injEq] at h
      obtain ⟨rfl, rfl, rfl⟩ := h
      obtain ⟨hs, hfit, hbare, hsingle⟩ := ih htake
      simp only [Styles.meet, Bool.and_eq_true] at hbare hsingle
      refine ⟨by rw [hs, List.cons_append], ⟨fun hr => ?_, fun hr => ?_⟩, fun hr => (hbare hr).1,
        fun hr => (hsingle hr).1⟩
      · exact List.forall_mem_cons.2 ⟨(hbare hr).2, hfit.bare hr⟩
      · rw [List.mem_cons, not_or]
        refine ⟨?_, hfit.single hr⟩
        rintro rfl
        exact absurd (hsingle hr).2 (by decide)
    · cases h
      exact ⟨rfl, ⟨nofun, nofun⟩, id, id⟩

/-- There is a style for every character but the caret. -/
theorem stylesOf_any (h : c ≠ '^') : (stylesOf c).any = true := by
  unfold Styles.any stylesOf
  by_cases hquote : c = '\''
  · rw [hquote]
    decide
  by_cases hbackslash : c = '\\'
  · rw [hbackslash]
    decide
  simp [h, hquote, hbackslash]

/-- The first stretch of a word has a character, and styles that fit it. -/
theorem firstStretch_spec (hs : s ≠ []) :
    ∃ a stretch rest, firstStretch s = (a, stretch, rest) ∧ s = stretch ++ rest ∧ stretch ≠ [] ∧
      a.Fit stretch := by
  obtain ⟨c, s, rfl⟩ := List.exists_cons_of_ne_nil hs
  by_cases hc : c = '^'
  · subst hc
    obtain ⟨⟨r, stretch, rest⟩, htake⟩ : ∃ t, takeStretch ⟨false, true, false⟩ s = t := ⟨_, rfl⟩
    obtain ⟨hs, hfit, hbare, -⟩ := takeStretch_spec htake
    refine ⟨r, '^' :: stretch, rest, by rw [firstStretch, htake], by rw [hs, List.cons_append],
      List.cons_ne_nil _ _, ⟨fun hr => ?_, fun hr => ?_⟩⟩
    · cases hbare hr
    · rw [List.mem_cons, not_or]
      exact ⟨by decide, hfit.single hr⟩
  · obtain ⟨⟨r, stretch, rest⟩, htake⟩ : ∃ t, takeStretch ⟨true, true, true⟩ (c :: s) = t := ⟨_, rfl⟩
    have hfirst : firstStretch (c :: s) = takeStretch ⟨true, true, true⟩ (c :: s) := by
      rw [firstStretch]
      rintro t ⟨⟩
      exact hc rfl
    obtain ⟨hs', hfit, -⟩ := takeStretch_spec htake
    refine ⟨r, stretch, rest, hfirst.trans htake, hs', ?_, hfit⟩
    rintro rfl
    -- The first character has a style, so it was taken.
    have hany : ((⟨true, true, true⟩ : Styles).meet (stylesOf c)).any = true := stylesOf_any hc
    rw [takeStretch, if_pos hany] at htake
    cases htake

theorem writes_quoteStretches {n : Nat} (h : s.length ≤ n) : Writes (quoteStretches n s) s := by
  induction n generalizing s with
  | zero =>
    rw [List.length_eq_zero_iff.1 (Nat.le_zero.1 h)]
    exact writes_nil
  | succ n ih =>
    cases s with
    | nil => exact writes_nil
    | cons c s =>
      obtain ⟨a, stretch, rest, hfirst, hs, hne, hfit⟩ := firstStretch_spec (List.cons_ne_nil c s)
      have hlength : rest.length ≤ n := by
        have htotal := congrArg List.length hs
        have hstretch := List.length_pos_of_ne_nil hne
        rw [List.length_append] at htotal
        omega
      rw [quoteStretches, hfirst, hs]
      · exact hfit.writes.append (ih hlength)
      · exact fun heq => absurd heq (List.cons_ne_nil c s)

theorem writes_quoteWord (w : List Char) : Writes (quoteWord w) w := by
  unfold quoteWord
  split
  · rename_i hw
    rw [hw]
    exact @writes_single [] List.not_mem_nil
  · exact writes_quoteStretches (Nat.le_refl _)

theorem beginsWord_quoteWord (w : List Char) : BeginsWord (quoteWord w) := by
  cases w with
  | nil => exact beginsWord_quote (.inl rfl) _
  | cons c s =>
    obtain ⟨a, stretch, rest, hfirst, -, hne, hfit⟩ := firstStretch_spec (List.cons_ne_nil c s)
    rw [quoteWord, if_neg (List.cons_ne_nil c s), List.length_cons, quoteStretches, hfirst]
    · exact (hfit.beginsWord hne).append _
    · exact fun heq => absurd heq (List.cons_ne_nil c s)

/-- A written word is read as the word, up to where it ends. -/
theorem splitFrom_quoteWord (w rest : List Char) :
    splitFrom .gap [] (quoteWord w ++ rest) = splitFrom .word w.reverse rest := by
  rw [((beginsWord_quoteWord w).append rest).splitFrom_gap, writes_quoteWord, List.append_nil]

/-! ## Section 3: Command lines -/

theorem splitWords_joinWith (words : List (List Char)) :
    splitWords (joinWith [' '] (words.map quoteWord)) = some words := by
  unfold splitWords
  induction words with
  | nil => rfl
  | cons w words ih =>
    cases words with
    | nil =>
      have hlast := splitFrom_quoteWord w []
      rw [List.append_nil] at hlast
      rw [List.map_singleton, joinWith, hlast, splitFrom, List.reverse_reverse]
    | cons v words =>
      have hblank : ∀ s, splitFrom .word w.reverse (' ' :: s)
          = (splitFrom .gap [] s).map (w :: ·) := by
        intro s
        rw [splitFrom, if_pos (by decide), List.reverse_reverse]
      rw [List.map_cons, List.map_cons, joinWith, List.append_assoc, splitFrom_quoteWord,
        List.singleton_append, hblank, ← List.map_cons, ih]
      · rfl
      · exact List.cons_ne_nil _ _

/-- Words without NUL are read back from their command line. -/
theorem splitWords_commandLine {words : List (List Char)} (h : ∀ w ∈ words, '\x00' ∉ w) :
    splitWords (commandLine words) = some words := by
  have hnul : words.any (·.contains '\x00') = false := by
    rw [List.any_eq_false]
    intro w hw
    rw [List.contains_iff_mem]
    exact h w hw
  rw [commandLine, hnul]
  exact splitWords_joinWith words

end Shell

/-- **The displayed command is the command that runs.**  Unless a word holds a NUL, which
    no system takes, splitting the command line of an experiment as the commands of a
    catalog are split gives its invocation back; so a catalog with the line for a
    command, in which no variable is left to replace, stands for the same words. -/
theorem command_line_reads_back {x : Descriptor} (h : ∀ w ∈ x.invocation.words, '\x00' ∉ w.toList) :
    Shell.splitWords x.invocation.commandLine.toList
        = some (x.invocation.words.map String.toList) ∧
      ∀ (env : Shell.Environment) (v : Variant),
        Shell.expand env v.command = .ok x.invocation.commandLine →
        v.commandWords env = .ok x.invocation.words := by
  have hsplit : Shell.splitWords x.invocation.commandLine.toList
      = some (x.invocation.words.map String.toList) := by
    rw [Invocation.commandLine, String.toList_ofList]
    exact Shell.splitWords_commandLine (List.forall_mem_map.2 h)
  refine ⟨hsplit, fun env v hexpand => ?_⟩
  refine commandWords_eq_ok_iff.2 ⟨_, _, hexpand, hsplit, ?_⟩
  rw [List.map_map]
  exact (List.map_id'' (fun w => String.ofList_toList) _).symm

/-- An experiment whose words need every style of quoting. -/
def Descriptor.ofQuotes : Descriptor where
  name := "quotes"
  invocation :=
    { program := "it's ^\"1\\2\""
      args := ["", "#$`!^^", "two\nlines\t", "-x=~/é", "\\'"]
      program_ne := by decide }
  format := .gmp
  origin := none

/-- A variant that is given its command line. -/
def Variant.ofQuotes : Variant where
  name := "quotes"
  command := Descriptor.ofQuotes.invocation.commandLine
  format := .gmp
  label := none
  workers := []
  exclude := []

theorem command_line_reads_back_quotes :
    (∀ w ∈ Descriptor.ofQuotes.invocation.words, '\x00' ∉ w.toList) ∧
      Shell.splitWords Descriptor.ofQuotes.invocation.commandLine.toList
        = some (Descriptor.ofQuotes.invocation.words.map String.toList) ∧
      Shell.expand {} Variant.ofQuotes.command = .ok Descriptor.ofQuotes.invocation.commandLine ∧
      Variant.ofQuotes.commandWords {} = .ok Descriptor.ofQuotes.invocation.words := by
  have hwords : ∀ w ∈ Descriptor.ofQuotes.invocation.words, '\x00' ∉ w.toList := by decide
  have hexpand : Shell.expand {} Variant.ofQuotes.command
      = .ok Descriptor.ofQuotes.invocation.commandLine := by
    decide +kernel
  obtain ⟨hsplit, hcommand⟩ := command_line_reads_back hwords
  exact ⟨hwords, hsplit, hexpand, hcommand {} Variant.ofQuotes hexpand⟩

end BenchSweep
