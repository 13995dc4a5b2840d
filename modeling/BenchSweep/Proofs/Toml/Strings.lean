import BenchSweep.Toml.Writer

/-! # Written Strings Read Back

    The reader of strings undoes the writer, whichever of the four forms the
    writer takes.  The readers of basic strings share how they treat escapes,
    and the readers of long strings how they treat runs of quotes; each of
    these is stated once for both. -/

namespace BenchSweep.Toml

variable {read : Place → List Char → Read (List Char)} {long : List Char → Read (List Char)}
  {c d e q : Char} {n run value : Nat} {newline : Bool} {s t rest : List Char}

@[simp] theorem prepend_some (c : Char) (s rest : List Char) :
    prepend c (some (s, rest)) = some (c :: s, rest) := rfl

/-! ## Section 1: Escapes -/

/-- How a reader of basic strings goes over a character that is no quote.  The
    flag says whether line breaks may stand as they are. -/
structure Unescapes (newline : Bool) (read : Place → List Char → Read (List Char)) : Prop where
  plain : ∀ c s, isPlain c = true → c ≠ '"' → c ≠ '\\' →
    read .plain (c :: s) = prepend c (read .plain s)
  newline : newline = true → ∀ s, read .plain ('\n' :: s) = prepend '\n' (read .plain s)
  backslash : ∀ s, read .plain ('\\' :: s) = read .escaped s
  letter : ∀ e c s, afterEscape e = some (.inl c) →
    read .escaped (e :: s) = prepend c (read .plain s)
  number : ∀ e n s, afterEscape e = some (.inr n) →
    read .escaped (e :: s) = read (.digits n 0) s
  digit : ∀ c d n value s, hexValue? c = some d →
    read (.digits (n + 1) value) (c :: s) = read (.digits n (16 * value + d)) s
  lastDigit : ∀ c d e value s, hexValue? c = some d → charOf? (16 * value + d) = some e →
    read (.digits 0 value) (c :: s) = prepend e (read .plain s)

theorem unescapes_readBasic : Unescapes false readBasic where
  plain c s hplain hquote hbackslash := by
    rw [readBasic, if_neg hquote, if_neg hbackslash, if_pos hplain]
  newline h := by cases h
  backslash s := rfl
  letter e c s h := by rw [readBasic, h]
  number e n s h := by rw [readBasic, h]
  digit c d n value s h := by simp only [readBasic, h]
  lastDigit c d e value s h he := by simp only [readBasic, h, he]

/-- Behind a backslash, what is no blank is looked up among the escapes. -/
theorem readLongBasic_escaped (h : (afterEscape c).isSome) :
    readLongBasic .escaped (c :: s) =
      match afterEscape c with
      | some (.inl d) => prepend d (readLongBasic .plain s)
      | some (.inr more) => readLongBasic (.digits more 0) s
      | none => none := by
  have hne : ∀ d, afterEscape d = none → c ≠ d := by
    intro d hd hcd
    simp [hcd, hd] at h
  have hspace := hne ' ' rfl
  have htab := hne '\t' rfl
  rw [readLongBasic, if_neg (hne '\n' rfl), if_neg (by simp [hspace, htab])]
  -- No line ends here, so what is left is what stands on the right already.
  all_goals first
    | rfl
    | simp [hne '\r' rfl]

theorem unescapes_readLongBasic : Unescapes true readLongBasic where
  plain c s hplain hquote hbackslash := by
    have hreturn : c ≠ '\r' := by
      intro h
      simp [h, isPlain] at hplain
    rw [readLongBasic, if_neg hbackslash, if_pos (by simp [hplain])]
    all_goals simp [hquote, hreturn]
  newline _ s := by
    rw [readLongBasic]
    · rfl
    all_goals simp
  backslash s := by
    rw [readLongBasic]
    · rfl
    all_goals simp
  letter e c s h := by rw [readLongBasic_escaped (by simp [h]), h]
  number e n s h := by rw [readLongBasic_escaped (by simp [h]), h]
  digit c d n value s h := by simp only [readLongBasic, h]
  lastDigit c d e value s h he := by simp only [readLongBasic, h, he]

theorem charOf?_toNat (c : Char) : charOf? c.toNat = some c := by
  have h : c.toNat.isValidChar := c.valid
  rw [charOf?, dif_pos h]
  rfl

theorem toNat_lt_of_not_isPlain (h : isPlain c = false) : c.toNat < 128 := by
  simp [isPlain] at h
  omega

/-- The two last digits of a character that can only be written by number. -/
theorem numbered_eq (h : isPlain c = false) :
    numbered c = ['\\', 'u', '0', '0', (Nat.digitChar (c.toNat / 16)).toUpper,
      (Nat.digitChar (c.toNat % 16)).toUpper] := by
  have hdigits : ∀ n < 128, ((Nat.toDigits 16 n).map Char.toUpper).leftpad 4 '0' =
      ['0', '0', (Nat.digitChar (n / 16)).toUpper, (Nat.digitChar (n % 16)).toUpper] := by
    decide
  have := hdigits c.toNat (toNat_lt_of_not_isPlain h)
  simpa [numbered, List.leftpad] using this

theorem hexValue?_digitChar : ∀ d < 16, hexValue? (Nat.digitChar d).toUpper = some d := by
  decide

namespace Unescapes

variable (h : Unescapes newline read)

include h

/-- A character that is written by its number reads back. -/
theorem read_numbered (hc : isPlain c = false) :
    read .plain (numbered c ++ s) = prepend c (read .plain s) := by
  have hlt := toNat_lt_of_not_isPlain hc
  have hhigh := hexValue?_digitChar (c.toNat / 16) (by omega)
  have hlow := hexValue?_digitChar (c.toNat % 16) (by omega)
  have hchar : charOf? (16 * (c.toNat / 16) + c.toNat % 16) = some c := by
    rw [Nat.div_add_mod, charOf?_toNat]
  rw [numbered_eq hc]
  simp only [List.cons_append, List.nil_append]
  rw [h.backslash, h.number 'u' 3 _ rfl, h.digit '0' 0 2 0 _ rfl, h.digit '0' 0 1 0 _ rfl,
    h.digit _ _ 0 _ _ hhigh, h.lastDigit _ _ c _ _ hlow (by simpa using hchar)]

/-- Every character but a quote reads back from the way it is written. -/
theorem read_basicChar (hquote : c ≠ '"') :
    read .plain (basicChar newline c ++ s) = prepend c (read .plain s) := by
  have hletter : ∀ e, afterEscape e = some (.inl c) →
      read .plain (['\\', e] ++ s) = prepend c (read .plain s) := by
    intro e he
    show read .plain ('\\' :: e :: s) = _
    rw [h.backslash, h.letter e c s he]
  fun_cases basicChar newline c with
  | case1 hc => exact hletter '\\' (by rw [hc]; rfl)
  | case2 _ hc => exact hletter 't' (hc ▸ rfl)
  | case3 _ _ hc => exact hletter 'b' (hc ▸ rfl)
  | case4 _ _ _ hc => exact hletter 'f' (hc ▸ rfl)
  | case5 _ _ _ _ hc => exact hletter 'r' (hc ▸ rfl)
  | case6 _ _ _ _ _ hc hnewline =>
    rw [hc]
    exact h.newline hnewline s
  | case7 _ _ _ _ _ hc => exact hletter 'n' (hc ▸ rfl)
  | case8 hbackslash _ _ _ _ _ hplain => exact h.plain c s hplain hquote hbackslash
  | case9 _ _ _ _ _ _ hplain => exact h.read_numbered (by simpa using hplain)

end Unescapes

/-- What is written for a character that is no quote does not begin with one,
    nor with a line break in the form that has none. -/
theorem exists_basicChar (long : Bool) (c : Char) :
    ∃ d t, basicChar long c = d :: t ∧ (c ≠ '"' → d ≠ '"') ∧ (c ≠ '\n' → d ≠ '\n' ∧ d ≠ '\r') := by
  fun_cases basicChar long c
  all_goals exact ⟨_, _, rfl, by simp_all⟩

/-! ## Section 2: Strings on one line -/

theorem readBasic_basicContent (run : Nat) (s : List Char) :
    readBasic .plain (basicContent false run s ++ '"' :: rest) = some (s, rest) := by
  induction s generalizing run with
  | nil => rfl
  | cons c s ih =>
    rw [basicContent]
    by_cases hquote : c = '"'
    · rw [if_pos hquote, if_neg (by simp), hquote]
      show readBasic .plain ('\\' :: '"' :: (basicContent false 0 s ++ '"' :: rest)) = _
      rw [unescapes_readBasic.backslash, unescapes_readBasic.letter '"' '"' _ rfl, ih]
      rfl
    · rw [if_neg hquote, List.append_assoc, unescapes_readBasic.read_basicChar hquote, ih]
      rfl

theorem readLiteral_append (hplain : ∀ c ∈ s, isPlain c = true) (hquote : '\'' ∉ s) :
    readLiteral (s ++ '\'' :: rest) = some (s, rest) := by
  induction s with
  | nil => rfl
  | cons c s ih =>
    simp only [List.mem_cons, not_or, forall_eq_or_imp] at hplain hquote
    rw [List.cons_append, readLiteral, if_neg (Ne.symm hquote.1), if_pos hplain.1,
      ih hplain.2 hquote.2]
    rfl

/-! ## Section 3: Strings over several lines -/

/-- How a reader of long strings goes over quotes: three end the string, unless
    more follow, and where no three stand the quote is part of it. -/
structure ReadsRuns (q : Char) (long : List Char → Read (List Char)) : Prop where
  close : ∀ run rest, run ≤ 2 → rest.head? ≠ some q →
    long (List.replicate run q ++ q :: q :: q :: rest) = some (List.replicate run q, rest)
  quote : ∀ s, ¬ [q, q] <+: s → long (q :: s) = prepend q (long s)

theorem ne_cons_of_head? (h : s.head? ≠ some q) (t : List Char) : s ≠ q :: t := by
  intro hs
  rw [hs] at h
  exact h rfl

/-- A quote in front of something else is alone. -/
theorem not_pair_prefix (h : s.head? ≠ some q) : ¬ [q, q] <+: q :: s := by
  intro ⟨t, ht⟩
  exact ne_cons_of_head? h t (List.cons.inj ht).2.symm

theorem readsRuns_readLongBasic : ReadsRuns '"' (readLongBasic .plain) where
  close run rest hrun hrest := by
    have hne := ne_cons_of_head? hrest
    match run, hrun with
    | 0, _ =>
      show readLongBasic .plain ('"' :: '"' :: '"' :: rest) = _
      rw [readLongBasic]
      · rfl
      all_goals simp [hne]
    | 1, _ =>
      show readLongBasic .plain ('"' :: '"' :: '"' :: '"' :: rest) = _
      rw [readLongBasic]
      · rfl
      all_goals simp [hne]
    | 2, _ => rfl
  quote s hs := by
    have hne : ∀ t, s ≠ '"' :: '"' :: t := by
      intro t ht
      simp [ht] at hs
    rw [readLongBasic]
    · rfl
    all_goals simp [hne]

theorem readsRuns_readLongLiteral : ReadsRuns '\'' readLongLiteral where
  close run rest hrun hrest := by
    have hne := ne_cons_of_head? hrest
    match run, hrun with
    | 0, _ =>
      show readLongLiteral ('\'' :: '\'' :: '\'' :: rest) = _
      rw [readLongLiteral]
      · rfl
      all_goals simp [hne]
    | 1, _ =>
      show readLongLiteral ('\'' :: '\'' :: '\'' :: '\'' :: rest) = _
      rw [readLongLiteral]
      · rfl
      all_goals simp [hne]
    | 2, _ => rfl
  quote s hs := by
    have hne : ∀ t, s ≠ '\'' :: '\'' :: t := by
      intro t ht
      simp [ht] at hs
    rw [readLongLiteral]
    · rfl
    all_goals simp [hne]

theorem replicate_succ_append (run : Nat) (q : Char) (s : List Char) :
    List.replicate (run + 1) q ++ s = List.replicate run q ++ q :: s := by
  rw [List.replicate_succ', List.append_assoc]
  rfl

/-- Up to two quotes before anything else are part of the string. -/
theorem ReadsRuns.skip (h : ReadsRuns q long) (hrun : run ≤ 2) (hc : c ≠ q)
    (hread : long (c :: s) = some (t, rest)) :
    long (List.replicate run q ++ c :: s) = some (List.replicate run q ++ t, rest) := by
  induction run with
  | zero => exact hread
  | succ run ih =>
    have hshort : ¬ [q, q] <+: List.replicate run q ++ c :: s := by
      match run, hrun with
      | 0, _ => simp [hc.symm]
      | 1, _ => simp [hc.symm]
    show long (q :: (List.replicate run q ++ c :: s)) = _
    rw [h.quote _ hshort, ih (by omega)]
    rfl

/-- The number counts the quotes that stand before the content. -/
theorem readLongBasic_basicContent (hrun : run ≤ 2) (hrest : rest.head? ≠ some '"')
    (s : List Char) :
    readLongBasic .plain
        (List.replicate run '"' ++ (basicContent true run s ++ '"' :: '"' :: '"' :: rest)) =
      some (List.replicate run '"' ++ s, rest) := by
  have hruns := readsRuns_readLongBasic
  have hread := unescapes_readLongBasic
  induction s generalizing run with
  | nil =>
    rw [basicContent, List.append_nil]
    exact hruns.close run rest hrun hrest
  | cons c s ih =>
    -- Behind anything but a quote the count starts over.
    have hagain : readLongBasic .plain (basicContent true 0 s ++ '"' :: '"' :: '"' :: rest) =
        some (s, rest) := ih (Nat.zero_le 2)
    rw [basicContent]
    by_cases hquote : c = '"'
    · rw [if_pos hquote, hquote]
      by_cases hfull : run < 2
      · rw [if_pos ⟨rfl, hfull⟩, List.cons_append, ← replicate_succ_append, ih (by omega),
          replicate_succ_append]
      · rw [if_neg (by simp [hfull])]
        apply hruns.skip hrun (by decide)
        show readLongBasic .plain ('\\' :: '"' :: (basicContent true 0 s ++ _)) = _
        rw [hread.backslash, hread.letter '"' '"' _ rfl, hagain]
        rfl
    · obtain ⟨d, t, ht, hd, -⟩ := exists_basicChar true c
      have hcontent := hread.read_basicChar hquote
        (s := basicContent true 0 s ++ '"' :: '"' :: '"' :: rest)
      rw [hagain] at hcontent
      rw [if_neg hquote, List.append_assoc]
      rw [ht] at hcontent ⊢
      exact hruns.skip hrun (hd hquote) hcontent

theorem le_longestRun (q : Char) (run : Nat) (s : List Char) : run ≤ longestRun q run s := by
  induction s generalizing run with
  | nil => exact Nat.le_refl run
  | cons c s ih =>
    rw [longestRun]
    split
    · exact Nat.le_of_succ_le (ih (run + 1))
    · exact Nat.le_max_left ..

/-- Without a run there is no such character. -/
theorem not_mem_of_longestRun (h : longestRun q 0 s = 0) : q ∉ s := by
  induction s with
  | nil => simp
  | cons c s ih =>
    rw [longestRun] at h
    split at h
    · have := le_longestRun q (0 + 1) s
      omega
    · have hs := ih (by omega)
      simp_all [eq_comm]

theorem isControl_eq_false : isControl c = false ↔ isPlain c = true ∨ c = '\n' := by
  cases hplain : isPlain c with
  | true => simp [isControl, hplain]
  | false =>
    have htab : c ≠ '\t' := by
      intro hc
      simp [hc, isPlain] at hplain
    simp [isControl, hplain, htab]

theorem ne_return_of_isControl (h : isControl c = false) : c ≠ '\r' := by
  intro hc
  simp [hc, isControl, isPlain] at h

theorem readLongLiteral_append (hrun : longestRun '\'' run s ≤ 2)
    (hcontrol : ∀ c ∈ s, isControl c = false) (hrest : rest.head? ≠ some '\'') :
    readLongLiteral (List.replicate run '\'' ++ (s ++ '\'' :: '\'' :: '\'' :: rest)) =
      some (List.replicate run '\'' ++ s, rest) := by
  have hruns := readsRuns_readLongLiteral
  induction s generalizing run with
  | nil =>
    rw [List.append_nil]
    exact hruns.close run rest hrun hrest
  | cons c s ih =>
    have hmem : ∀ d ∈ s, isControl d = false := fun d hd => hcontrol d (List.mem_cons_of_mem c hd)
    rw [longestRun] at hrun
    by_cases hquote : c = '\''
    · rw [if_pos hquote] at hrun
      rw [hquote, List.cons_append, ← replicate_succ_append, ih hrun hmem, replicate_succ_append]
    · rw [if_neg hquote] at hrun
      have hagain : readLongLiteral (s ++ '\'' :: '\'' :: '\'' :: rest) = some (s, rest) :=
        ih (show longestRun '\'' 0 s ≤ 2 by omega) hmem
      apply hruns.skip (by omega) hquote
      have hc := hcontrol c (List.mem_cons_self ..)
      have hplain : (isPlain c || c == '\n') = true := by
        simpa using isControl_eq_false.1 hc
      show readLongLiteral (c :: (s ++ '\'' :: '\'' :: '\'' :: rest)) = _
      rw [readLongLiteral, if_pos hplain, hagain]
      · rfl
      all_goals simp [hquote, ne_return_of_isControl hc]

/-! ## Section 4: Strings in any form -/

theorem readString_short (hshort : ¬ [q, q] <+: s) : readString (q :: s) = readShort (q :: s) := by
  have hne : ∀ p t, q :: s ≠ p :: p :: p :: t := by
    intro p t h
    simp_all
  rw [readString]
  · exact hne '"'
  · exact hne '\''

theorem readString_basic (hrest : rest.head? ≠ some '"') :
    readString (writeForm .basic newline s ++ rest) = some (s, rest) := by
  have hshort : ¬ ['"', '"'] <+: basicContent false 0 s ++ '"' :: rest := by
    cases s with
    | nil => exact not_pair_prefix hrest
    | cons c s =>
      rw [basicContent]
      obtain ⟨d, t, ht, hd, -⟩ := exists_basicChar false c
      split
      · simp
      · simp [ht, (hd ‹_›).symm]
  have heq : writeForm .basic newline s ++ rest = '"' :: (basicContent false 0 s ++ '"' :: rest) := by
    simp [writeForm]
  rw [heq, readString_short hshort]
  exact readBasic_basicContent 0 s

theorem readString_literal (hplain : ∀ c ∈ s, isPlain c = true) (hquote : '\'' ∉ s)
    (hrest : rest.head? ≠ some '\'') :
    readString (writeForm .literal newline s ++ rest) = some (s, rest) := by
  have hshort : ¬ ['\'', '\''] <+: s ++ '\'' :: rest := by
    cases s with
    | nil => exact not_pair_prefix hrest
    | cons c s =>
      have hc : '\'' ≠ c := fun hc => hquote (hc ▸ List.mem_cons_self ..)
      simp [hc]
  have heq : writeForm .literal newline s ++ rest = '\'' :: (s ++ '\'' :: rest) := by
    simp [writeForm]
  rw [heq, readString_short hshort]
  exact readLiteral_append hplain hquote

/-- The line break that is written before the first line is skipped, and no
    other. -/
theorem skipFirstNewline_opening (h : newline = false → s.head? ≠ some '\n' ∧ s.head? ≠ some '\r') :
    skipFirstNewline ((if newline then ['\n'] else []) ++ s) = s := by
  cases newline with
  | true => rfl
  | false =>
    obtain ⟨hbreak, hreturn⟩ := h rfl
    show skipFirstNewline s = s
    fun_cases skipFirstNewline s <;> simp_all

theorem readString_longBasic (hnewline : newline = false → '\n' ∉ s)
    (hrest : rest.head? ≠ some '"') :
    readString (writeForm .longBasic newline s ++ rest) = some (s, rest) := by
  have heq : writeForm .longBasic newline s ++ rest = '"' :: '"' :: '"' ::
      ((if newline then ['\n'] else []) ++ (basicContent true 0 s ++ '"' :: '"' :: '"' :: rest)) := by
    simp [writeForm]
  rw [heq, readString, skipFirstNewline_opening]
  · exact readLongBasic_basicContent (Nat.zero_le 2) hrest s
  · intro h
    cases s with
    | nil => simp [basicContent]
    | cons c s =>
      rw [basicContent]
      obtain ⟨d, t, ht, -, hd⟩ := exists_basicChar true c
      have hc : c ≠ '\n' := fun hc => hnewline h (hc ▸ List.mem_cons_self ..)
      split
      · simp
      · simp [ht, hd hc]

theorem readString_longLiteral (hcontrol : ∀ c ∈ s, isControl c = false)
    (hrun : longestRun '\'' 0 s ≤ 2) (hnewline : newline = false → '\n' ∉ s)
    (hrest : rest.head? ≠ some '\'') :
    readString (writeForm .longLiteral newline s ++ rest) = some (s, rest) := by
  have heq : writeForm .longLiteral newline s ++ rest = '\'' :: '\'' :: '\'' ::
      ((if newline then ['\n'] else []) ++ (s ++ '\'' :: '\'' :: '\'' :: rest)) := by
    simp [writeForm]
  rw [heq, readString, skipFirstNewline_opening]
  · exact readLongLiteral_append hrun hcontrol hrest
  · intro h
    cases s with
    | nil => simp
    | cons c s =>
      have hc : c ≠ '\n' := fun hc => hnewline h (hc ▸ List.mem_cons_self ..)
      simp [hc, ne_return_of_isControl (hcontrol c (List.mem_cons_self ..))]

/-- A written string begins with a quote. -/
theorem exists_writeString (s : List Char) :
    ∃ q t, writeString s = q :: t ∧ (q = '"' ∨ q = '\'') := by
  show ∃ q t, writeForm (formOf (demandsOf s)) (demandsOf s).newline s = q :: t ∧ _
  cases formOf (demandsOf s)
  · exact ⟨_, _, rfl, .inl rfl⟩
  · exact ⟨_, _, rfl, .inr rfl⟩
  · exact ⟨_, _, rfl, .inl rfl⟩
  · exact ⟨_, _, rfl, .inr rfl⟩

/-- A written string reads back if what is behind it does not go on with it. -/
theorem readString_writeString (hdouble : rest.head? ≠ some '"')
    (hsingle : rest.head? ≠ some '\'') : readString (writeString s ++ rest) = some (s, rest) := by
  show readString (writeForm (formOf (demandsOf s)) (demandsOf s).newline s ++ rest) = _
  have hnewline : (demandsOf s).newline = false → '\n' ∉ s := by
    simp [demandsOf]
  have hcontrol : (demandsOf s).control = false → ∀ c ∈ s, isControl c = false := by
    simp [demandsOf]
  fun_cases formOf (demandsOf s) with
  | case1 => exact readString_basic hdouble
  | case2 _ h =>
    simp only [Bool.and_eq_true, Bool.not_eq_true', beq_iff_eq] at h
    obtain ⟨⟨hc, hn⟩, hrun⟩ := h
    have hplain : ∀ c ∈ s, isPlain c = true := by
      intro c hmem
      cases isControl_eq_false.1 (hcontrol hc c hmem) with
      | inl hplain => exact hplain
      | inr hbreak => exact absurd (hbreak ▸ hmem) (hnewline hn)
    exact readString_literal hplain (not_mem_of_longestRun hrun) hsingle
  | case3 => exact readString_longBasic hnewline hdouble
  | case4 _ _ _ h =>
    simp only [Bool.and_eq_true, Bool.not_eq_true', decide_eq_true_eq] at h
    exact readString_longLiteral (hcontrol h.1) h.2 hnewline hsingle
  | case5 => exact readString_longBasic hnewline hdouble
  | case6 => exact readString_basic hdouble

end BenchSweep.Toml
