import BenchSweep.Proofs.Toml.Strings

/-! # An Entry in Front of a Document

    A document that reads back still does with one more line in front of it, if
    the key of the line is new: every statement changes a table under one key
    and carries along what stands under the others. -/

namespace BenchSweep.Toml

/-! ## Section 1: Changes under one key -/

namespace Entries

variable {f : Entries → Option Entries} {es es' : Entries} {j k : String} {m n : Node}

@[simp] theorem get?_cons_self : get? ((k, m) :: es) k = some m := by
  simp [get?]

theorem get?_cons_ne (h : k ≠ j) : get? ((k, m) :: es) j = get? es j := by
  simp [get?, List.lookup_cons, beq_eq_false_iff_ne.2 h.symm]

theorem set_cons_ne (h : k ≠ j) : set j n ((k, m) :: es) = (k, m) :: set j n es := by
  simp only [set, get?_cons_ne h]
  split
  · simp [h]
  · rfl

theorem get?_eq_none_iff : es.get? k = none ↔ ∀ e ∈ es, k ≠ e.1 := by
  simp [get?, List.lookup_eq_none_iff]

/-- What is set is there, and what was there stays. -/
theorem get?_set_eq_none (h : (set j n es).get? k = none) : k ≠ j ∧ es.get? k = none := by
  unfold set at h
  split at h
  · rename_i hpresent
    have hnone : es.get? k = none := by
      rw [get?_eq_none_iff] at h ⊢
      intro e he
      have := h _ (List.mem_map.2 ⟨e, he, rfl⟩)
      split at this
      · simp_all
      · exact this
    have hne : k ≠ j := by
      intro hk
      simp [← hk, hnone] at hpresent
    exact ⟨hne, hnone⟩
  · rw [get?_eq_none_iff] at h ⊢
    exact ⟨h (j, n) (by simp), fun e he => h e (List.mem_append_left _ he)⟩

/-- A change that looks under one key of a table and sets it. -/
def IsLocal (f : Entries → Option Entries) : Prop :=
  ∃ j, ∃ g : Option Node → Option Node, ∀ es : Entries, f es = (g (es.get? j)).map fun n => es.set j n

/-- A local change carries along an entry that it does not touch.  Nothing is
    ever removed, so it is enough that the result does without the key. -/
theorem IsLocal.carry (hf : IsLocal f) (h : f es = some es') (hk : es'.get? k = none) :
    es.get? k = none ∧ f ((k, m) :: es) = some ((k, m) :: es') := by
  obtain ⟨j, g, hg⟩ := hf
  rw [hg] at h
  obtain ⟨n, hn, rfl⟩ := Option.map_eq_some_iff.1 h
  obtain ⟨hne, hnone⟩ := get?_set_eq_none hk
  rw [hg, get?_cons_ne hne, hn, Option.map_some, set_cons_ne hne]
  exact ⟨hnone, rfl⟩

/-- What comes to stand under the first key of a path when the table at the end of the
    path is changed. -/
def alterNode (byDots : Bool) (change : Origin → Entries → Option Entries) :
    Option Node → Option Node
  | none =>
    let origin := if byDots then Origin.dotted else .implied
    (change origin []).map fun t => .table origin t
  | some (.table origin t) =>
    if byDots && origin = .header then none
    else (change origin t).map fun t => .table origin t
  | some (.tables elements) =>
    match elements.getLast? with
    | some last => (change .header last).map fun t => .tables (elements.dropLast ++ [t])
    | none => none
  | some (.value _) => none

/-- What comes to stand under the last key of a table's header. -/
def openNode : Option Node → Option Node
  | none => some (.table .header [])
  | some (.table .implied inner) => some (.table .header inner)
  | some _ => none

/-- What comes to stand under the last key of a header in a list. -/
def extendNode : Option Node → Option Node
  | none => some (.tables [[]])
  | some (.tables elements) => some (.tables (elements ++ [[]]))
  | some _ => none

theorem alterAt_isLocal {byDots : Bool} {f : Origin → Entries → Option Entries}
    (hf : ∀ origin, IsLocal (f origin)) (path : List String) (origin : Origin) :
    IsLocal (alterAt byDots f path origin) := by
  cases path with
  | nil => exact hf origin
  | cons k path =>
    refine ⟨k, alterNode byDots (alterAt byDots f path), fun es => ?_⟩
    rw [alterAt]
    cases es.get? k with
    | none => simp only [alterNode, Option.map_map, Function.comp_def]
    | some n =>
      cases n with
      | value v => rfl
      | table origin t =>
        simp only [alterNode]
        split <;> simp only [Option.map_map, Function.comp_def, Option.map_none]
      | tables elements =>
        simp only [alterNode]
        cases elements.getLast? <;> simp only [Option.map_map, Function.comp_def, Option.map_none]

theorem assign_isLocal (path : List String) (k : String) (v : Value) (origin : Origin) :
    IsLocal (assign path k v origin) := by
  apply alterAt_isLocal
  intro reached
  refine ⟨k, fun n => if (reached = .dotted ↔ path ≠ []) ∧ n.isNone then some (.value v) else none,
    fun es => ?_⟩
  simp only
  split <;> rfl

theorem assignIn_isLocal (header path : List String) (k : String) (v : Value) :
    IsLocal (assignIn header path k v) :=
  alterAt_isLocal (assign_isLocal path k v) header .header

theorem openTable_isLocal (path : List String) (k : String) : IsLocal (openTable path k) := by
  apply alterAt_isLocal
  intro reached
  refine ⟨k, openNode, fun es => ?_⟩
  dsimp only
  unfold openNode
  split <;> simp only [*, Option.map_some, Option.map_none]

theorem openElement_isLocal (path : List String) (k : String) : IsLocal (openElement path k) := by
  apply alterAt_isLocal
  intro reached
  refine ⟨k, extendNode, fun es => ?_⟩
  dsimp only
  unfold extendNode
  split <;> simp only [*, Option.map_some, Option.map_none]

end Entries

/-! ## Section 2: Statements -/

theorem readStatement_local (header : List String) (s : List Char) :
    (∀ root, readStatement ⟨root, header⟩ s = none) ∨ ∃ f header' rest, Entries.IsLocal f ∧
      ∀ root, readStatement ⟨root, header⟩ s = (f root).map fun root => (⟨root, header'⟩, rest) := by
  unfold readStatement
  split
  · split
    · exact .inr ⟨_, _, _, Entries.openElement_isLocal _ _, fun _ => rfl⟩
    · exact .inl fun _ => rfl
  · split
    · exact .inr ⟨_, _, _, Entries.openTable_isLocal _ _, fun _ => rfl⟩
    · exact .inl fun _ => rfl
  · split
    · exact .inr ⟨_, _, _, Entries.assignIn_isLocal _ _ _ _, fun _ => rfl⟩
    · exact .inl fun _ => rfl

variable {p p' : Progress} {s rest : List Char} {es : Entries} {m : Node} {k : String} {n more : Nat}

/-- An entry in front. -/
def Progress.behind (k : String) (m : Node) (p : Progress) : Progress :=
  { p with root := (k, m) :: p.root }

theorem readStatement_behind (h : readStatement p s = some (p', rest)) (hk : p'.root.get? k = none) :
    p.root.get? k = none ∧ readStatement (p.behind k m) s = some (p'.behind k m, rest) := by
  obtain hfail | ⟨f, header, rest', hf, hread⟩ := readStatement_local p.header s
  · rw [show p = ⟨p.root, p.header⟩ from rfl, hfail] at h
    cases h
  · rw [show p = ⟨p.root, p.header⟩ from rfl, hread] at h
    obtain ⟨root, hroot, heq⟩ := Option.map_eq_some_iff.1 h
    cases heq
    obtain ⟨hnone, hcarry⟩ := hf.carry hroot hk
    refine ⟨hnone, ?_⟩
    rw [Progress.behind, hread, hcarry]
    rfl

/-- More fuel does no harm, and an entry in front is carried along by all
    statements. -/
theorem readStatements_behind (h : readStatements n p s = some es) (hk : es.get? k = none)
    (hmore : n ≤ more) :
    p.root.get? k = none ∧ readStatements more (p.behind k m) s = some ((k, m) :: es) := by
  induction n generalizing p s more with
  | zero => cases h
  | succ n ih =>
    obtain ⟨more, rfl⟩ : ∃ more', more = more' + 1 := ⟨more - 1, by omega⟩
    rw [readStatements] at h ⊢
    cases hgap : skipGap false s with
    | none => simp [hgap] at h
    | some s =>
      cases s with
      | nil =>
        simp only [hgap, Option.some.injEq] at h ⊢
        rw [← h] at hk ⊢
        exact ⟨hk, rfl⟩
      | cons c s =>
        simp only [hgap] at h ⊢
        cases hstatement : readStatement p (c :: s) with
        | none => simp [hstatement] at h
        | some q =>
          obtain ⟨p', rest⟩ := q
          simp only [hstatement] at h
          obtain ⟨rest', hend, hrest⟩ := Option.bind_eq_some_iff.1 h
          obtain ⟨hroot, hread⟩ := ih hrest (Nat.le_of_succ_le_succ hmore)
          obtain ⟨hnone, hfront⟩ := readStatement_behind (m := m) hstatement hroot
          refine ⟨hnone, ?_⟩
          simp only [hfront, hend, Option.bind_some]
          exact hread

/-! ## Section 3: A string in front -/

theorem ne_of_isBareKeyChar {c q : Char} (hc : isBareKeyChar c = true)
    (hq : isBareKeyChar q = false) : c ≠ q := by
  intro h
  rw [h, hq] at hc
  cases hc

/-- A key that needs no quotes begins with one of its characters. -/
theorem exists_bareKey (hne : k ≠ "") (hbare : k.toList.all isBareKeyChar = true) :
    ∃ c t, k.toList = c :: t ∧ isBareKeyChar c = true := by
  cases hk : k.toList with
  | nil => exact absurd (by simpa using hk) hne
  | cons c t => exact ⟨c, t, rfl, List.all_eq_true.1 hbare c (by simp [hk])⟩

theorem readKey_bare (hne : k ≠ "") (hbare : k.toList.all isBareKeyChar = true) :
    readKey (k.toList ++ ' ' :: '=' :: s) = some (([], k), '=' :: s) := by
  have hall : ∀ c ∈ k.toList, isBareKeyChar c = true := List.all_eq_true.1 hbare
  obtain ⟨c, t, hk, hc⟩ := exists_bareKey hne hbare
  have htake : (k.toList ++ ' ' :: '=' :: s).takeWhile isBareKeyChar = k.toList := by
    rw [List.takeWhile_append_of_pos hall]
    simp [isBareKeyChar]
  have hdrop : (k.toList ++ ' ' :: '=' :: s).dropWhile isBareKeyChar = ' ' :: '=' :: s := by
    rw [List.dropWhile_append_of_pos hall]
    simp [isBareKeyChar]
  have hpart : readKeyPart (k.toList ++ ' ' :: '=' :: s) = some (k, ' ' :: '=' :: s) := by
    rw [readKeyPart]
    · simp only [htake, hdrop, String.ofList_toList, if_neg (show k.toList ≠ [] by simp [hk])]
    · simp [hk, ne_of_isBareKeyChar hc (q := '"') rfl]
    · simp [hk, ne_of_isBareKeyChar hc (q := '\'') rfl]
  show readKeyParts (79 + 1) _ = _
  rw [readKeyParts, hpart]
  rfl

theorem readValue_writeString (hdouble : rest.head? ≠ some '"') (hsingle : rest.head? ≠ some '\'')
    (v : List Char) :
    readValue depthLimit (writeString v ++ rest) = some (.string (String.ofList v), rest) := by
  have hread := readString_writeString (s := v) hdouble hsingle
  show readValue (79 + 1) _ = _
  obtain ⟨q, t, ht, hq⟩ := exists_writeString v
  rw [ht, List.cons_append] at hread ⊢
  cases hq with
  | inl hq =>
    rw [hq] at hread ⊢
    simp only [readValue, hread, Option.map_some]
  | inr hq =>
    rw [hq] at hread ⊢
    simp only [readValue, hread, Option.map_some]

/-- The line of a string is a statement. -/
theorem readStatement_line (hne : k ≠ "") (hbare : k.toList.all isBareKeyChar = true) (v s : List Char) :
    readStatement ⟨[], []⟩ (k.toList ++ ' ' :: '=' :: ' ' :: (writeString v ++ '\n' :: s)) =
      some (⟨[(k, .value (.string (String.ofList v)))], []⟩, '\n' :: s) := by
  obtain ⟨c, t, hk, hc⟩ := exists_bareKey hne hbare
  have hspaces : skipSpaces (' ' :: (writeString v ++ '\n' :: s)) = writeString v ++ '\n' :: s := by
    obtain ⟨q, t, ht, hq | hq⟩ := exists_writeString v
    · simp [skipSpaces, ht, hq, isSpace]
    · simp [skipSpaces, ht, hq, isSpace]
  rw [readStatement]
  · simp only [readPair, readKey_bare hne hbare, hspaces,
      readValue_writeString (show ('\n' :: s).head? ≠ some '"' by simp) (by simp), Option.map_some]
    rfl
  · simp [hk, ne_of_isBareKeyChar hc (q := '[') rfl]
  · simp [hk, ne_of_isBareKeyChar hc (q := '[') rfl]

theorem skipGap_bare {c : Char} (hc : isBareKeyChar c = true) : skipGap false (c :: s) = some (c :: s) := by
  have hspace : isSpace c = false := by
    simp [isSpace, ne_of_isBareKeyChar hc (q := ' ') rfl, ne_of_isBareKeyChar hc (q := '\t') rfl]
  rw [skipGap, hspace, if_neg (ne_of_isBareKeyChar hc (q := '#') rfl)]
  · rfl
  · exact ne_of_isBareKeyChar hc rfl
  · exact fun _ h => absurd h (ne_of_isBareKeyChar hc rfl)

theorem get?_finishEntries (es : Entries) (k : String) :
    (finishEntries es).get? k = (es.get? k).map Node.finish := by
  induction es with
  | nil => rfl
  | cons e es ih =>
    obtain ⟨j, n⟩ := e
    by_cases hk : k = j
    · simp [finishEntries, Table.get?, Entries.get?, hk]
    · simpa [finishEntries, Table.get?, Entries.get?, List.lookup_cons, beq_eq_false_iff_ne.2 hk]
        using ih

/-- A string in front of a table is written as a line in front of its text. -/
theorem write_string_front (k v : String) (t : Table) :
    write ((k, .string v) :: t) = writeKey k ++ " = " ++ writeValue (.string v) ++ "\n" ++ write t := by
  simp [write, writeSimple, writeTables, writeUnder, String.append_assoc]

theorem read_eq (text : String) :
    Toml.read text = (readStatements ((skipMark text.toList).length + 1) ⟨[], []⟩
      (skipMark text.toList)).map finishEntries := rfl

/-- What is read from the text of a table is read behind a string in front of
    it, whatever the string.  Only a byte order mark would be read differently
    there. -/
theorem read_string_front {t t' : Table} (hne : k ≠ "") (hbare : k.toList.all isBareKeyChar = true)
    (hmark : (write t).toList.head? ≠ some '\uFEFF') (hread : Toml.read (write t) = some t')
    (hnew : t'.get? k = none) (v : String) :
    Toml.read (write ((k, .string v) :: t)) = some ((k, .string v) :: t') := by
  have hskip : ∀ s : List Char, s.head? ≠ some '\uFEFF' → skipMark s = s := by
    intro s hs
    fun_cases skipMark s
    · simp at hs
    · rfl
  obtain ⟨c, cs, hk, hc⟩ := exists_bareKey hne hbare
  have htext : (write ((k, .string v) :: t)).toList =
      k.toList ++ ' ' :: '=' :: ' ' :: (writeString v.toList ++ '\n' :: (write t).toList) := by
    simp [write_string_front, writeKey, hne, hbare, writeValue]
  have hfront : (write ((k, .string v) :: t)).toList.head? ≠ some '\uFEFF' := by
    simp [htext, hk, ne_of_isBareKeyChar hc (q := '\uFEFF') rfl]
  rw [read_eq, hskip _ hmark] at hread
  rw [read_eq, hskip _ hfront]
  obtain ⟨es, hes, hfinish⟩ := Option.map_eq_some_iff.1 hread
  have hnone : Entries.get? es k = none := by
    have := get?_finishEntries es k
    rw [hfinish, hnew] at this
    simpa using this.symm
  have hlength : (write t).toList.length + 1 ≤ (write ((k, .string v) :: t)).toList.length := by
    rw [htext]
    simp
    omega
  obtain ⟨-, hrest⟩ := readStatements_behind (m := .value (.string v)) hes hnone hlength
  have hgap : skipGap false (write ((k, .string v) :: t)).toList =
      some (c :: (cs ++ ' ' :: '=' :: ' ' :: (writeString v.toList ++ '\n' :: (write t).toList))) := by
    rw [htext, hk, List.cons_append, skipGap_bare hc]
  have hstatement := readStatement_line hne hbare v.toList (write t).toList
  rw [hk, List.cons_append, String.ofList_toList] at hstatement
  have hend : skipLineEnd ('\n' :: (write t).toList) = some (write t).toList := rfl
  simp only [readStatements, hgap, hstatement, hend, Option.bind_some]
  show (readStatements _ (Progress.behind k (.value (.string v)) ⟨[], []⟩) _).map finishEntries = _
  rw [hrest, ← hfinish]
  rfl

end BenchSweep.Toml
