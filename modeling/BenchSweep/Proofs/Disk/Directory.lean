import BenchSweep.Disk.Access
import BenchSweep.Proofs.Disk.Places

/-! # Entries of a Directory

    Under a directory that can be reached, what an access to a name does hangs
    on the entry of that name alone, unless the system refuses the path whatever
    the disk holds. -/

namespace BenchSweep

/-! ## Section 1: Refused paths -/

/-- Why the system refuses a path, whatever the disk holds. -/
def Path.refusal? (p : Path) : Option IoError :=
  if p.text.toList.contains '\x00' then some .nulInPath
  else if Disk.maxPath < p.text.utf8ByteSize then some .nameTooLong
  else if p.segments.any fun s => decide (Disk.maxName < s.utf8ByteSize) then some .nameTooLong
  else none

/-- A path whose last name is too long is refused. -/
theorem Path.refusal?_of_long {s : String} (hs : Path.IsFileName s) (dir : Path)
    (hlong : Disk.maxName < s.utf8ByteSize) : ∃ e, (dir.join s).refusal? = some e := by
  unfold refusal?
  split
  · exact ⟨_, rfl⟩
  · split
    · exact ⟨_, rfl⟩
    · rw [segments_join hs, List.any_append, List.any_cons, decide_eq_true hlong, Bool.true_or,
        Bool.or_true]
      exact ⟨_, rfl⟩

/-- A path is never refused as if nothing were there. -/
theorem Path.refusal?_ne_notFound {p : Path} {e : IoError} (h : p.refusal? = some e) :
    e ≠ .notFound := by
  unfold refusal? at h
  split at h
  · cases h; exact nofun
  · split at h
    · cases h; exact nofun
    · split at h
      · cases h; exact nofun
      · cases h

namespace Disk

variable {d d' : Disk} {dir : Path} {s t : String}

/-! ## Section 2: Directories that can be reached -/

/-- The path leads to a directory, and every directory on the way can be entered. -/
structure Opens (d : Disk) (dir : Path) : Prop where
  reached : d.walk (dir.start d.here) dir.segments = .ok (dir.locate d.here)
  node : d.node? (dir.locate d.here) = some .dir

/-- What a directory holds under a name. -/
def held? (d : Disk) (dir : Path) (s : String) : Option FileNode :=
  d.node? (s :: dir.locate d.here)

theorem enter_of_dir {l : Location} (h : d.node? l = some .dir) : d.enter l = .ok () := by
  unfold enter
  rw [h]

theorem dir_of_enter {l : Location} (h : d.enter l = .ok ()) : d.node? l = some .dir := by
  unfold enter at h
  split at h
  · assumption
  · cases h
  · cases h

theorem checkName_eq_ok {s : String} : checkName s = .ok () ↔ ¬ maxName < s.utf8ByteSize := by
  unfold checkName
  split <;> simp_all

/-- A walk goes on where its first part ended. -/
theorem walk_append {l m : Location} {a : List String} (b : List String)
    (h : d.walk l a = .ok m) : d.walk l (a ++ b) = d.walk m b := by
  induction a generalizing l with
  | nil => cases h; rfl
  | cons s a ih =>
    rw [List.cons_append, walk]
    rw [walk] at h
    cases he : d.enter l with
    | error e => simp [he, bind, Except.bind] at h
    | ok u =>
      cases hn : checkName s with
      | error e => simp [he, hn, bind, Except.bind] at h
      | ok v =>
        simp only [he, hn, bind, Except.bind] at h ⊢
        exact ih h

/-- A walk that fails goes no further. -/
theorem walk_error_append {l : Location} {a : List String} {e : IoError} (b : List String)
    (h : d.walk l a = .error e) : d.walk l (a ++ b) = .error e := by
  induction a generalizing l with
  | nil => cases h
  | cons s a ih =>
    rw [List.cons_append, walk]
    rw [walk] at h
    cases he : d.enter l with
    | error e' => simpa [he, bind, Except.bind] using h
    | ok u =>
      cases hn : checkName s with
      | error e' => simpa [he, hn, bind, Except.bind] using h
      | ok v =>
        simp only [he, hn, bind, Except.bind] at h ⊢
        exact ih h

/-- No name on a walk that succeeds is too long. -/
theorem walk_names {l m : Location} {a : List String} (h : d.walk l a = .ok m) :
    (a.any fun s => decide (maxName < s.utf8ByteSize)) = false := by
  induction a generalizing l with
  | nil => rfl
  | cons s a ih =>
    rw [walk] at h
    cases he : d.enter l with
    | error e => simp [he, bind, Except.bind] at h
    | ok u =>
      cases hn : checkName s with
      | error e => simp [he, hn, bind, Except.bind] at h
      | ok v =>
        simp only [he, hn, bind, Except.bind] at h
        rw [List.any_cons, ih h, Bool.or_false, decide_eq_false_iff_not]
        exact checkName_eq_ok.1 hn

/-- A walk that succeeds still does when directories were added. -/
theorem walk_mono (hd : ∀ l, d.node? l = some .dir → d'.node? l = some .dir)
    {l m : Location} {a : List String} (h : d.walk l a = .ok m) : d'.walk l a = .ok m := by
  induction a generalizing l with
  | nil => exact h
  | cons s a ih =>
    rw [walk] at h ⊢
    cases he : d.enter l with
    | error e => simp [he, bind, Except.bind] at h
    | ok u =>
      cases hn : checkName s with
      | error e => simp [he, hn, bind, Except.bind] at h
      | ok v =>
        simp only [he, hn, bind, Except.bind] at h
        rw [enter_of_dir (hd l (dir_of_enter he))]
        exact ih h

/-- What is located is what a walk finds. -/
theorem walk_of_locate {p : Path} {l : Location} (h : d.locate p = .ok l) :
    d.walk (p.start d.here) p.segments = .ok l := by
  unfold locate at h
  split at h
  · cases h
  · split at h
    · cases h
    · split at h
      · cases h
      · exact h

theorem Opens.mono (h : d.Opens dir) (hhere : d'.here = d.here)
    (hd : ∀ l, d.node? l = some .dir → d'.node? l = some .dir) : d'.Opens dir where
  reached := by
    rw [hhere]
    exact walk_mono hd h.reached
  node := by
    rw [hhere]
    exact hd _ h.node

/-- On the way to a directory that is open there are only directories. -/
theorem Opens.dir_of_lineage (h : d.Opens dir) {q : Path} (hq : q ∈ dir.lineage) {l : Location}
    (hl : d.locate q = .ok l) : d.node? l = some .dir := by
  obtain ⟨habs, rest, hrest⟩ := Path.segments_of_mem_lineage hq
  have hstart : q.start d.here = dir.start d.here := by rw [Path.start, Path.start, habs]
  have hwalk := walk_of_locate hl
  rw [hstart] at hwalk
  have hreached := h.reached
  rw [hrest, walk_append rest hwalk] at hreached
  cases rest with
  | nil =>
    rw [walk] at hreached
    rw [Except.ok.inj hreached]
    exact h.node
  | cons s rest =>
    rw [walk] at hreached
    cases hen : d.enter l with
    | error e => rw [hen] at hreached; cases hreached
    | ok u => exact dir_of_enter hen

/-- Where the directory is open, a name in it is found at its place unless the
    system refuses the path. -/
theorem Opens.locate_join (h : d.Opens dir) (hs : Path.IsFileName s) :
    d.locate (dir.join s) = match (dir.join s).refusal? with
      | some e => .error e
      | none => .ok (s :: dir.locate d.here) := by
  have htext : (dir.join s).text ≠ "" := by
    intro hempty
    have hseg := Path.segments_join hs dir
    rw [Path.segments, hempty] at hseg
    exact List.cons_ne_nil _ _ (List.append_eq_nil_iff.1 hseg.symm).2
  have hstart : (dir.join s).start d.here = dir.start d.here := by
    rw [Path.start, Path.start, Path.isAbsolute_join hs]
  -- The way to the name is the way to the directory and one step more.
  have hwalk : d.walk ((dir.join s).start d.here) (dir.join s).segments
      = (checkName s).map fun _ => s :: dir.locate d.here := by
    rw [hstart, Path.segments_join hs, walk_append [s] h.reached, walk, enter_of_dir h.node]
    cases hn : checkName s with
    | error e => rfl
    | ok u =>
      show d.walk (Path.follow (dir.locate d.here) s) [] = _
      rw [hs.follow]
      rfl
  -- The refusals of a whole path are checked before the walk, in this order.
  unfold locate Path.refusal?
  rw [hwalk, if_neg htext, Path.segments_join hs, List.any_append, walk_names h.reached]
  split
  · rfl
  · split
    · rfl
    · unfold checkName
      simp only [List.any_cons, List.any_nil, Bool.or_false, Bool.false_or, decide_eq_true_eq]
      split <;> rfl

theorem Opens.locate_ok (h : d.Opens dir) (hs : Path.IsFileName s)
    (hr : (dir.join s).refusal? = none) :
    d.locate (dir.join s) = .ok (s :: dir.locate d.here) := by
  rw [h.locate_join hs, hr]

theorem Opens.locate_error (h : d.Opens dir) (hs : Path.IsFileName s) {e : IoError}
    (hr : (dir.join s).refusal? = some e) : d.locate (dir.join s) = .error e := by
  rw [h.locate_join hs, hr]

/-- Where the directory is open, it does not matter what else the disk holds: a text
    without slashes behind its path leads to the same place. -/
theorem Opens.locate_congr (h : d.Opens dir) (h' : d'.Opens dir) (hhere : d'.here = d.here)
    (hs : '/' ∉ s.toList) : d'.locate (dir.join s) = d.locate (dir.join s) := by
  have hrelative := Path.not_absolute_of_notMem hs
  have hreached' := h'.reached
  have hnode' := h'.node
  rw [hhere] at hreached' hnode'
  -- Behind the directory there is at most one segment left.
  have hrest : d'.walk (dir.locate d.here) (if s = "" then [] else [s])
      = d.walk (dir.locate d.here) (if s = "" then [] else [s]) := by
    split
    · rfl
    · simp only [walk, enter_of_dir h.node, enter_of_dir hnode']
  have hwalk : d'.walk ((dir.join s).start d'.here) (dir.join s).segments
      = d.walk ((dir.join s).start d.here) (dir.join s).segments := by
    rw [hhere, Path.start, Path.isAbsolute_join_of_relative hrelative,
      Path.segments_join_of_relative hrelative, Path.segments_of_notMem hs]
    show d'.walk (dir.start d.here) _ = d.walk (dir.start d.here) _
    rw [walk_append _ hreached', walk_append _ h.reached, hrest]
  unfold locate
  rw [hwalk]

/-- Where a name in it is not refused, the directory itself is found. -/
theorem Opens.locate_self (h : d.Opens dir) (hs : Path.IsFileName s)
    (hr : (dir.join s).refusal? = none) (hdir : dir.text ≠ "") :
    d.locate dir = .ok (dir.locate d.here) := by
  -- The path of the directory is the first part of the path of the name.
  have hjoin : ∃ rest, (dir.join s).text = dir.text ++ rest := by
    unfold Path.join
    rw [if_neg (Bool.eq_false_iff.1 hs.not_absolute)]
    split
    · exact ⟨s, rfl⟩
    · exact ⟨"/" ++ s, String.append_assoc⟩
  obtain ⟨rest, hrest⟩ := hjoin
  unfold Path.refusal? at hr
  split at hr
  · cases hr
  · rename_i hnul
    split at hr
    · cases hr
    · rename_i hlong
      rw [hrest, String.toList_append] at hnul
      rw [hrest, String.utf8ByteSize_append] at hlong
      have hnul' : ¬ dir.text.toList.contains '\x00' = true := by
        intro hmem
        refine hnul ?_
        rw [List.contains_iff_mem] at hmem ⊢
        exact List.mem_append_left _ hmem
      have hlong' : ¬ maxPath < dir.text.utf8ByteSize := by omega
      unfold locate
      rw [if_neg hnul', if_neg hdir, if_neg hlong', h.reached]

/-! ## Section 3: What an access to a name does -/

theorem endsInSlash_join (hs : Path.IsFileName s) (dir : Path) :
    (dir.join s).endsInSlash = false := by
  have hlast : ∀ front : String, (front ++ s).toList.getLast? ≠ some '/' := by
    intro front heq
    have hne : s.toList ≠ [] := Path.toList_ne_nil_of_ne_empty hs.ne_empty
    rw [String.toList_append, List.getLast?_append, List.getLast?_eq_some_getLast hne,
      Option.some_or] at heq
    apply hs.no_slash
    rw [← Option.some.inj heq]
    exact List.getLast_mem hne
  have hjoin : ∃ front, dir.join s = ⟨front ++ s⟩ := by
    unfold Path.join
    split
    · exact ⟨"", by rw [String.empty_append]⟩
    · split
      · exact ⟨dir.text, rfl⟩
      · exact ⟨dir.text ++ "/", rfl⟩
  obtain ⟨front, hfront⟩ := hjoin
  rw [hfront, Path.endsInSlash]
  exact beq_eq_false_iff_ne.2 (hlast front)

theorem isNamed_join (hs : Path.IsFileName s) (dir : Path) : isNamed (dir.join s) = true := by
  unfold isNamed
  rw [Path.segments_join hs, List.getLast?_append, List.getLast?_singleton]
  simp [hs.ne_here, hs.ne_up]

section Access

variable (h : d.Opens dir) (hs : Path.IsFileName s) (hr : (dir.join s).refusal? = none)

include h hs hr

theorem Opens.read_join : d.read (dir.join s) =
    match d.held? dir s with
    | none => .error .notFound
    | some .dir => .error .isDirectory
    | some (.file content) => .ok content := by
  rw [read, find, h.locate_ok hs hr, held?]
  simp only [bind, Except.bind, endsInSlash_join hs]
  cases d.node? (s :: dir.locate d.here) with
  | none => rfl
  | some n => cases n <;> rfl

theorem Opens.write_join (content : ByteArray) (hn : d.held? dir s ≠ some .dir) :
    d.write (dir.join s) content = .ok (d.put (s :: dir.locate d.here) (.file content)) := by
  rw [held?] at hn
  rw [write, h.locate_ok hs hr]
  simp only [bind, Except.bind, isNamed_join hs, endsInSlash_join hs, Bool.not_true, Bool.or_self,
    Bool.false_eq_true, ↓reduceIte]

theorem Opens.remove_join : d.remove (dir.join s) =
    match d.held? dir s with
    | none => .error .notFound
    | some .dir => .error .isDirectory
    | some (.file _) => .ok (d.erase (s :: dir.locate d.here)) := by
  have hremove : d.remove (dir.join s) =
      (match d.node? (s :: dir.locate d.here) with
      | none => .error .notFound
      | some .dir => .error .isDirectory
      | some (.file _) => if (dir.join s).endsInSlash then .error .notDirectory
        else .ok (d.erase (s :: dir.locate d.here))) := by
    rw [remove, h.locate_ok hs hr]
    exact if_neg (by rw [isNamed_join hs]; decide)
  rw [hremove, held?, endsInSlash_join hs]
  cases d.node? (s :: dir.locate d.here) with
  | none => rfl
  | some n => cases n <;> rfl

theorem Opens.refill_join (content old : ByteArray) (hn : d.held? dir s = some (.file old)) :
    d.refill (dir.join s) content = d.put (s :: dir.locate d.here) (.file content) := by
  rw [held?] at hn
  rw [refill, h.locate_ok hs hr]
  simp only [hn]

end Access

/-! ## Section 4: What a change leaves alone -/

/-- Only files at the given places differ: nothing changed elsewhere, and no
    directory came or went. -/
structure Within (places : Location → Prop) (d d' : Disk) : Prop where
  here : d'.here = d.here
  outside : ∀ l, ¬ places l → d'.node? l = d.node? l
  dirs : ∀ l, d'.node? l = some .dir ↔ d.node? l = some .dir

namespace Within

variable {places : Location → Prop} {d d' d'' : Disk}

theorem refl (places : Location → Prop) (d : Disk) : Within places d d :=
  ⟨rfl, fun _ _ => rfl, fun _ => Iff.rfl⟩

theorem trans (h : Within places d d') (h' : Within places d' d'') : Within places d d'' where
  here := h'.here.trans h.here
  outside l hl := (h'.outside l hl).trans (h.outside l hl)
  dirs l := (h'.dirs l).trans (h.dirs l)

theorem mono {more : Location → Prop} (hsub : ∀ l, places l → more l) (h : Within places d d') :
    Within more d d' where
  here := h.here
  outside l hl := h.outside l fun hp => hl (hsub l hp)
  dirs := h.dirs

theorem symm (h : Within places d d') : Within places d' d where
  here := h.here.symm
  outside l hl := (h.outside l hl).symm
  dirs l := (h.dirs l).symm

theorem opens {dir : Path} (h : Within places d d') (ho : d.Opens dir) : d'.Opens dir :=
  ho.mono h.here fun l => (h.dirs l).2

theorem held? {dir : Path} {s : String} (h : Within places d d')
    (hs : ¬ places (s :: dir.locate d.here)) : d'.held? dir s = d.held? dir s := by
  rw [Disk.held?, Disk.held?, h.here]
  exact h.outside _ hs

/-- A file that is put where no directory is. -/
theorem put {l : Location} (hl : l ≠ []) (hd : d.node? l ≠ some .dir) (hp : places l)
    (content : ByteArray) : Within places d (d.put l (.file content)) where
  here := rfl
  outside m hm := by
    have hne : m ≠ l := fun heq => hm (by rw [heq]; exact hp)
    rw [node?_put_ne _ _ hne]
  dirs m := by
    by_cases hne : m = l
    · subst hne
      rw [node?_put_self _ _ hl]
      exact ⟨nofun, fun h => absurd h hd⟩
    · rw [node?_put_ne _ _ hne]

/-- What is no directory is taken away. -/
theorem erase {l : Location} (hl : l ≠ []) (hd : d.node? l ≠ some .dir) (hp : places l) :
    Within places d (d.erase l) where
  here := rfl
  outside m hm := by
    have hne : m ≠ l := fun heq => hm (by rw [heq]; exact hp)
    rw [node?_erase_ne _ hne]
  dirs m := by
    by_cases hne : m = l
    · subst hne
      rw [node?_erase_self _ hl]
      exact ⟨nofun, fun h => absurd h hd⟩
    · rw [node?_erase_ne _ hne]

end Within

/-- The root is a directory. -/
theorem ne_nil_of_node? {d : Disk} {l : Location} (h : d.node? l ≠ some .dir) : l ≠ [] := by
  rintro rfl
  exact h (node?_root d)

theorem write_ok {d d' : Disk} {p : Path} {content : ByteArray}
    (h : d.write p content = .ok d') :
    d.node? (p.locate d.here) ≠ some .dir ∧ d' = d.put (p.locate d.here) (.file content) := by
  unfold write at h
  cases hl : d.locate p with
  | error e => simp [hl, bind, Except.bind] at h
  | ok l =>
    rw [← Disk.locate_ok hl]
    simp only [hl, bind, Except.bind] at h
    split at h
    · cases h
    · split at h
      · cases h
      · rename_i hn
        cases h
        exact ⟨hn, rfl⟩

/-- What could be written has a path that leads to a name. -/
theorem locate_of_write {d d' : Disk} {p : Path} {content : ByteArray}
    (h : d.write p content = .ok d') :
    (∃ l, d.locate p = .ok l) ∧ isNamed p = true ∧ p.endsInSlash = false := by
  unfold write at h
  cases hl : d.locate p with
  | error e => simp [hl, bind, Except.bind] at h
  | ok l =>
    simp only [hl, bind, Except.bind] at h
    split at h
    · cases h
    · rename_i hname
      simp only [Bool.or_eq_true, Bool.not_eq_true', not_or, Bool.not_eq_true,
        Bool.not_eq_false] at hname
      exact ⟨⟨l, rfl⟩, hname⟩

theorem remove_ok {d d' : Disk} {p : Path} (h : d.remove p = .ok d') :
    d.node? (p.locate d.here) ≠ some .dir ∧ d' = d.erase (p.locate d.here) := by
  unfold remove at h
  cases hl : d.locate p with
  | error e => simp [hl, bind, Except.bind] at h
  | ok l =>
    rw [← Disk.locate_ok hl]
    simp only [hl, bind, Except.bind] at h
    split at h
    · cases h
    · split at h
      · cases h
      · cases h
      · rename_i hn
        split at h
        · cases h
        · cases h
          exact ⟨by rw [hn]; exact nofun, rfl⟩

/-- What could be read is a file. -/
theorem node?_of_read {d : Disk} {p : Path} {content : ByteArray} (h : d.read p = .ok content) :
    d.node? (p.locate d.here) = some (.file content) := by
  unfold read find at h
  cases hl : d.locate p with
  | error e => simp [hl, bind, Except.bind] at h
  | ok l =>
    rw [← Disk.locate_ok hl]
    cases hn : d.node? l with
    | none => simp [hl, hn, bind, Except.bind] at h
    | some n =>
      cases n with
      | dir => simp [hl, hn, bind, Except.bind] at h
      | file content' =>
        simp only [hl, hn, bind, Except.bind] at h
        by_cases hslash : p.endsInSlash = true
        · rw [if_pos hslash] at h
          cases h
        · rw [if_neg hslash] at h
          cases h
          rfl

/-- What is read hangs on the place of the path and on what stands there. -/
theorem read_congr {d d' : Disk} {p : Path} (hlocate : d'.locate p = d.locate p)
    (hnode : ∀ l, d.locate p = .ok l → d'.node? l = d.node? l) : d'.read p = d.read p := by
  unfold read find
  rw [hlocate]
  cases hl : d.locate p with
  | error e => rfl
  | ok l =>
    simp only [bind, Except.bind]
    rw [hnode l hl]

/-- What can be reached still can when directories were added. -/
theorem locate_mono {d d' : Disk} {p : Path} {l : Location} (hhere : d'.here = d.here)
    (hd : ∀ l, d.node? l = some .dir → d'.node? l = some .dir) (h : d.locate p = .ok l) :
    d'.locate p = .ok l := by
  have hwalk := walk_mono hd (walk_of_locate h)
  unfold locate at h ⊢
  rw [hhere, hwalk]
  split at h
  · cases h
  · rename_i hnul
    split at h
    · cases h
    · rename_i hempty
      split at h
      · cases h
      · rename_i hlong
        rw [if_neg hnul, if_neg hempty, if_neg hlong]

/-- A file is put among the directories that are there. -/
theorem within_write {d d' : Disk} {p : Path} {content : ByteArray}
    (h : d.write p content = .ok d') : Within (· = p.locate d.here) d d' := by
  obtain ⟨hnode, rfl⟩ := write_ok h
  refine Within.put (ne_nil_of_node? hnode) hnode ?_ content
  rfl

/-- What was written is read. -/
theorem read_of_write {d d' : Disk} {p : Path} {content : ByteArray}
    (h : d.write p content = .ok d') : d'.read p = .ok content := by
  obtain ⟨⟨l, hl⟩, -, hslash⟩ := locate_of_write h
  have hwithin := within_write h
  have hl' := locate_mono hwithin.here (fun m hm => (hwithin.dirs m).2 hm) hl
  obtain ⟨hnode, rfl⟩ := write_ok h
  rw [Disk.locate_ok hl] at hl'
  unfold read find
  simp only [hl', bind, Except.bind, node?_put_self _ _ (ne_nil_of_node? hnode), hslash]
  rfl

/-- What is read elsewhere stays as it is. -/
theorem read_write_of_ne {d d' : Disk} {p q : Path} {content old : ByteArray}
    (h : d.write p content = .ok d') (hq : d.read q = .ok old)
    (hne : q.locate d.here ≠ p.locate d.here) : d'.read q = .ok old := by
  have hwithin := within_write h
  cases hl : d.locate q with
  | error e => simp [read, find, hl, bind, Except.bind] at hq
  | ok l =>
    have hl' := locate_mono hwithin.here (fun m hm => (hwithin.dirs m).2 hm) hl
    rw [read_congr (hl'.trans hl.symm), hq]
    intro m hm
    refine hwithin.outside m ?_
    rw [Disk.locate_ok hm]
    exact hne

theorem rename_ok {d d' : Disk} {p q : Path} (h : d.rename p q = .ok d') :
    d.node? (p.locate d.here) ≠ some .dir ∧ d.node? (q.locate d.here) ≠ some .dir ∧
      (∃ m, d.locate q = .ok m) ∧ ∃ content, d.read p = .ok content ∧
        d' = (d.erase (p.locate d.here)).put (q.locate d.here) (.file content) := by
  unfold rename at h
  cases hread : d.read p with
  | error e => simp [hread, bind, Except.bind] at h
  | ok content =>
    cases hp : d.locate p with
    | error e => simp [hread, hp, bind, Except.bind] at h
    | ok l =>
      cases hq : d.locate q with
      | error e => simp [hread, hp, hq, bind, Except.bind] at h
      | ok m =>
        rw [← Disk.locate_ok hp, ← Disk.locate_ok hq]
        simp only [hread, hp, hq, bind, Except.bind] at h
        have hfile : d.node? l ≠ some .dir := by
          intro hdir
          have hcontent := node?_of_read hread
          rw [← Disk.locate_ok hp, hdir] at hcontent
          cases hcontent
        split at h
        · cases h
        · rename_i hm
          split at h
          · cases h
          · cases h
            exact ⟨hfile, hm, ⟨m, rfl⟩, content, rfl, rfl⟩

/-- Only a file that is there is filled. -/
theorem refill_cases (d : Disk) (p : Path) (content : ByteArray) :
    d.refill p content = d ∨ (∃ old, d.node? (p.locate d.here) = some (.file old)) ∧
      d.refill p content = d.put (p.locate d.here) (.file content) := by
  unfold refill
  cases hl : d.locate p with
  | error e => exact Or.inl rfl
  | ok l =>
    rw [← Disk.locate_ok hl]
    simp only
    split
    · rename_i hn
      exact Or.inr ⟨⟨_, hn⟩, rfl⟩
    · exact Or.inl rfl

end Disk

end BenchSweep
