import BenchSweep.Disk.Path

/-! # The Place of a Name

    Behind a directory's path a name adds one segment, so the place of the
    joined path is the name below the directory's place.  More generally, a
    slash-free text at the end of a path ends the last name of its place. -/

namespace BenchSweep.Path

/-! ## Section 1: Pieces -/

theorem pieces_ne_nil (s : List Char) : pieces s ≠ [] := by
  cases s with
  | nil => simp [pieces]
  | cons c s =>
    rw [pieces]
    split
    · exact List.cons_ne_nil _ _
    · split <;> exact List.cons_ne_nil _ _

/-- A text without slashes is one piece. -/
theorem pieces_of_notMem {w : List Char} (h : '/' ∉ w) : pieces w = [w] := by
  induction w with
  | nil => rfl
  | cons c w ih =>
    have hc : c ≠ '/' := fun heq => h (by rw [heq]; exact List.mem_cons_self)
    have hw : '/' ∉ w := fun hmem => h (List.mem_cons_of_mem c hmem)
    rw [pieces, if_neg hc, ih hw]

theorem pieces_cons_slash (s : List Char) : pieces ('/' :: s) = [] :: pieces s := by
  rw [pieces, if_pos rfl]

theorem pieces_cons_of_ne {c : Char} (hc : c ≠ '/') {s w : List Char} {ws : List (List Char)}
    (h : pieces s = w :: ws) : pieces (c :: s) = (c :: w) :: ws := by
  rw [pieces, if_neg hc, h]

/-- A slash-free text behind another one makes its last piece longer. -/
theorem pieces_append (s : List Char) {w : List Char} (h : '/' ∉ w) :
    ∃ ws v, pieces s = ws ++ [v] ∧ pieces (s ++ w) = ws ++ [v ++ w] := by
  induction s with
  | nil => exact ⟨[], [], rfl, pieces_of_notMem h⟩
  | cons c s ih =>
    obtain ⟨ws, v, hs, hsw⟩ := ih
    by_cases hc : c = '/'
    · subst hc
      refine ⟨[] :: ws, v, ?_, ?_⟩
      · rw [pieces_cons_slash, hs, List.cons_append]
      · rw [List.cons_append, pieces_cons_slash, hsw, List.cons_append]
    · cases ws with
      | nil => exact ⟨[], c :: v, pieces_cons_of_ne hc hs, pieces_cons_of_ne hc hsw⟩
      | cons u ws => exact ⟨(c :: u) :: ws, v, pieces_cons_of_ne hc hs, pieces_cons_of_ne hc hsw⟩

/-- At a slash a text falls into two. -/
theorem pieces_append_cons (s t : List Char) : pieces (s ++ '/' :: t) = pieces s ++ pieces t := by
  induction s with
  | nil => exact pieces_cons_slash t
  | cons c s ih =>
    obtain ⟨u, us, hs⟩ := List.exists_cons_of_ne_nil (pieces_ne_nil s)
    rw [hs] at ih
    by_cases hc : c = '/'
    · subst hc
      rw [List.cons_append, pieces_cons_slash, pieces_cons_slash, ih, hs]
      rfl
    · rw [List.cons_append, pieces_cons_of_ne hc hs, pieces_cons_of_ne hc ih]
      rfl

theorem slash_notMem_of_mem_pieces {s w : List Char} (h : w ∈ pieces s) : '/' ∉ w := by
  induction s generalizing w with
  | nil =>
    rw [List.mem_singleton.1 h]
    exact List.not_mem_nil
  | cons c s ih =>
    obtain ⟨u, us, hs⟩ := List.exists_cons_of_ne_nil (pieces_ne_nil s)
    by_cases hc : c = '/'
    · subst hc
      rw [pieces_cons_slash] at h
      rcases List.mem_cons.1 h with rfl | hmem
      · exact List.not_mem_nil
      · exact ih hmem
    · rw [pieces_cons_of_ne hc hs] at h
      rcases List.mem_cons.1 h with rfl | hmem
      · intro hslash
        rcases List.mem_cons.1 hslash with heq | hu
        · exact hc heq.symm
        · exact ih (by rw [hs]; exact List.mem_cons_self) hu
      · exact ih (by rw [hs]; exact List.mem_cons_of_mem u hmem)

theorem toList_ne_nil_of_ne_empty {s : String} (h : s ≠ "") : s.toList ≠ [] := by
  intro hnil
  apply h
  rw [← String.toList_inj, hnil]
  rfl

/-! ## Section 2: Names behind a directory -/

section Relative

variable {s : String} (h : isAbsolute ⟨s⟩ = false)

include h

/-- Behind a directory's path a relative name adds its own segments. -/
theorem segments_join_of_relative (dir : Path) :
    (dir.join s).segments = dir.segments ++ (Path.mk s).segments := by
  unfold join
  rw [if_neg (by rw [h]; decide)]
  split
  · rename_i hcase
    -- Nothing or a slash comes before the name, so no piece of the directory goes on in it.
    rcases hcase with hempty | hslash
    · rw [segments, segments, segments, hempty, String.empty_append]
      rfl
    · have hlast : dir.text.toList.getLast? = some '/' := by simpa [endsInSlash] using hslash
      obtain ⟨front, hfront⟩ := List.getLast?_eq_some_iff.1 hlast
      rw [segments, segments, segments, String.toList_append, hfront, List.append_assoc,
        List.singleton_append, pieces_append_cons, pieces_append_cons]
      simp [pieces]
  · have hslash : "/".toList = ['/'] := rfl
    rw [segments, segments, segments, String.toList_append, String.toList_append, hslash,
      List.append_assoc, List.singleton_append, pieces_append_cons, List.filter_append,
      List.map_append]

theorem isAbsolute_join_of_relative (dir : Path) : (dir.join s).isAbsolute = dir.isAbsolute := by
  have hhead : ∀ t : String, dir.text ≠ "" → isAbsolute ⟨dir.text ++ t⟩ = dir.isAbsolute := by
    intro t hne
    obtain ⟨c, rest, hl⟩ := List.exists_cons_of_ne_nil (toList_ne_nil_of_ne_empty hne)
    simp [isAbsolute, String.toList_append, hl]
  unfold join
  rw [if_neg (by rw [h]; decide)]
  by_cases hempty : dir.text = ""
  · rw [if_pos (Or.inl hempty), hempty, String.empty_append, h]
    simp [isAbsolute, hempty]
  · split
    · exact hhead s hempty
    · rw [String.append_assoc]
      exact hhead _ hempty

end Relative

/-- A joined path leads where the name leads from the place of the directory. -/
theorem locate_join_eq (dir : Path) (s : String) (here : Location) :
    (dir.join s).locate here = (Path.mk s).locate (dir.locate here) := by
  cases habs : isAbsolute ⟨s⟩ with
  | true =>
    have hjoin : dir.join s = ⟨s⟩ := by rw [join, if_pos habs]
    rw [hjoin, locate, locate, start, start, if_pos habs, if_pos habs]
  | false =>
    have hstart : (Path.mk s).start (dir.locate here) = dir.locate here := by
      rw [start, if_neg (by rw [habs]; decide)]
    rw [locate, segments_join_of_relative habs, start, isAbsolute_join_of_relative habs,
      List.foldl_append, ← start, ← locate_eq dir, locate_eq ⟨s⟩, hstart]

/-! ## Section 3: Names in a directory -/

/-- A text without slashes names at most one segment. -/
theorem segments_of_notMem {s : String} (h : '/' ∉ s.toList) :
    (Path.mk s).segments = if s = "" then [] else [s] := by
  rw [segments, pieces_of_notMem h]
  by_cases hs : s = ""
  · rw [if_pos hs, hs]
    rfl
  · rw [if_neg hs, List.filter_cons_of_pos (by simpa using toList_ne_nil_of_ne_empty hs)]
    simp

theorem not_absolute_of_notMem {s : String} (h : '/' ∉ s.toList) : isAbsolute ⟨s⟩ = false := by
  unfold isAbsolute
  cases hl : s.toList with
  | nil => rfl
  | cons c rest =>
    have hc : c ≠ '/' := by
      intro heq
      apply h
      rw [hl, heq]
      exact List.mem_cons_self
    simpa using hc

/-- A text without slashes leads nowhere, up, or down to a name. -/
theorem locate_of_notMem {s : String} (h : '/' ∉ s.toList) (l : Location) :
    (Path.mk s).locate l = if s = "" then l else follow l s := by
  rw [locate, segments_of_notMem h, start, if_neg (by rw [not_absolute_of_notMem h]; decide)]
  split <;> rfl

/-- A name that a path can end with: it names an entry of a directory. -/
structure IsFileName (s : String) : Prop where
  ne_empty : s ≠ ""
  ne_here : s ≠ "."
  ne_up : s ≠ ".."
  no_slash : '/' ∉ s.toList

variable {s : String} (hs : IsFileName s)

include hs

theorem IsFileName.not_absolute : isAbsolute ⟨s⟩ = false :=
  not_absolute_of_notMem hs.no_slash

theorem IsFileName.follow (l : Location) : Path.follow l s = s :: l := by
  rw [Path.follow, if_neg hs.ne_here, if_neg hs.ne_up]

theorem IsFileName.segments : (Path.mk s).segments = [s] := by
  rw [segments_of_notMem hs.no_slash, if_neg hs.ne_empty]

/-- What a name adds to the segments of a directory's path. -/
theorem segments_join (dir : Path) : (dir.join s).segments = dir.segments ++ [s] := by
  rw [segments_join_of_relative hs.not_absolute, hs.segments]

theorem isAbsolute_join (dir : Path) : (dir.join s).isAbsolute = dir.isAbsolute :=
  isAbsolute_join_of_relative hs.not_absolute dir

/-- The place of a name in a directory is the name below the directory's place. -/
theorem locate_join (dir : Path) (here : Location) :
    (dir.join s).locate here = s :: dir.locate here := by
  rw [locate_join_eq, locate_of_notMem hs.no_slash, if_neg hs.ne_empty, hs.follow]

omit hs

/-! ## Section 4: The name at the end of a path -/

/-- Behind the last slash of a text stands a text without slashes. -/
theorem exists_cut (l : List Char) :
    ∃ front s, l = front ++ s ∧ '/' ∉ s ∧ (front = [] ∨ front.getLast? = some '/') := by
  induction l with
  | nil => exact ⟨[], [], rfl, List.not_mem_nil, Or.inl rfl⟩
  | cons c l ih =>
    obtain ⟨front, s, hl, hs, hfront⟩ := ih
    rcases hfront with rfl | hlast
    · by_cases hc : c = '/'
      · exact ⟨[c], s, by rw [hl]; rfl, hs, Or.inr (by rw [hc]; rfl)⟩
      · refine ⟨[], c :: s, by rw [hl]; rfl, ?_, Or.inl rfl⟩
        intro hmem
        rcases List.mem_cons.1 hmem with heq | hmem
        · exact hc heq.symm
        · exact hs hmem
    · refine ⟨c :: front, s, by rw [hl]; rfl, hs, Or.inr ?_⟩
      rw [List.getLast?_cons, hlast]
      rfl

/-- A path is a text without slashes behind a directory's path, and what follows it
    is the end of that text. -/
theorem exists_folder (p : Path) :
    ∃ (dir : Path) (s : String), '/' ∉ s.toList ∧
      ∀ w : String, '/' ∉ w.toList → dir.join (s ++ w) = ⟨p.text ++ w⟩ := by
  obtain ⟨front, s, htext, hs, hfront⟩ := exists_cut p.text.toList
  refine ⟨⟨String.ofList front⟩, String.ofList s, by rwa [String.toList_ofList], fun w hw => ?_⟩
  have hcut : p.text = String.ofList front ++ String.ofList s := by
    rw [← String.ofList_append, ← htext, String.ofList_toList]
  have hrelative : isAbsolute ⟨String.ofList s ++ w⟩ = false := by
    apply not_absolute_of_notMem
    rw [String.toList_append, String.toList_ofList, List.mem_append]
    exact fun hmem => hmem.elim hs hw
  have hdir : String.ofList front = "" ∨ endsInSlash ⟨String.ofList front⟩ = true := by
    rcases hfront with rfl | hlast
    · exact Or.inl rfl
    · refine Or.inr ?_
      simp [endsInSlash, hlast]
  rw [join, if_neg (by rw [hrelative]; decide), if_pos hdir, hcut, String.append_assoc]

/-- Without a name behind it the path of a directory is empty or ends in a slash. -/
theorem join_empty (dir : Path) : dir.join "" = ⟨""⟩ ∨ (dir.join "").endsInSlash = true := by
  unfold join
  rw [if_neg (by decide)]
  split
  · rename_i hcase
    rw [String.append_empty]
    rcases hcase with hempty | hslash
    · exact Or.inl (by rw [hempty])
    · exact Or.inr hslash
  · refine Or.inr ?_
    simp [endsInSlash, String.toList_append]

/-- A longer name never leads where the name itself does. -/
theorem locate_join_ne {s w : String} (hs : '/' ∉ s.toList) (hw : w ≠ "") (dir : Path)
    (here : Location) : (dir.join s).locate here ≠ (s ++ w) :: dir.locate here := by
  rw [locate_join_eq, locate_of_notMem hs]
  generalize dir.locate here = l
  -- It leads nowhere, or up, or down to another name.
  have hstay : l ≠ (s ++ w) :: l := fun heq => by simpa using congrArg List.length heq
  have hup : l.tail ≠ (s ++ w) :: l := by
    intro heq
    have hlength := congrArg List.length heq
    rw [List.length_tail, List.length_cons] at hlength
    omega
  have hdown : s :: l ≠ (s ++ w) :: l := by
    intro heq
    have hchars := congrArg String.toList (List.cons.inj heq).1
    rw [String.toList_append] at hchars
    exact toList_ne_nil_of_ne_empty hw (List.self_eq_append_right.1 hchars)
  unfold follow
  split
  · exact hstay
  · split
    · exact hstay
    · split
      · exact hup
      · exact hdown

/-! ## Section 5: Names with slashes in them -/

/-- The segments of a name before its last slash. -/
def detour (s : String) : List String :=
  (((pieces s.toList).dropLast).filter (· ≠ [])).map String.ofList

/-- What follows the last slash of a name. -/
def lastName (s : String) : String :=
  String.ofList ((pieces s.toList).getLast (pieces_ne_nil s.toList))

/-- Where a name leads from a directory before its last slash. -/
def room (s : String) (l : Location) : Location :=
  (detour s).foldl follow ((Path.mk s).start l)

/-- What a slash-free text behind a name adds to its segments. -/
theorem segments_append (s : String) {w : String} (hslash : '/' ∉ w.toList) (hw : w ≠ "") :
    (Path.mk (s ++ w)).segments = detour s ++ [lastName s ++ w] := by
  obtain ⟨ws, v, hpieces, hpieces'⟩ := pieces_append s.toList hslash
  have hne : v ++ w.toList ≠ [] := by
    intro hnil
    exact toList_ne_nil_of_ne_empty hw (List.append_eq_nil_iff.1 hnil).2
  have hlast : lastName s ++ w = String.ofList (v ++ w.toList) := by
    simp only [lastName, hpieces, List.getLast_concat, String.ofList_append,
      String.ofList_toList]
  rw [hlast, segments, detour, String.toList_append, hpieces', hpieces, List.dropLast_concat]
  simp [-List.append_eq_nil_iff, hne]

theorem slash_notMem_lastName (s : String) : '/' ∉ (lastName s).toList := by
  obtain ⟨ws, v, hpieces, -⟩ := pieces_append s.toList (w := []) List.not_mem_nil
  have hlast : (lastName s).toList = v := by
    simp only [lastName, hpieces, List.getLast_concat, String.toList_ofList]
  rw [hlast]
  exact slash_notMem_of_mem_pieces (by rw [hpieces]; exact List.mem_append_right ws List.mem_cons_self)

/-- Whatever comes before it, a slash-free text with a dash ends the last name of
    the place. -/
theorem locate_append (s : String) {w : String} (hslash : '/' ∉ w.toList) (hdash : '-' ∈ w.toList)
    (here : Location) :
    (Path.mk (s ++ w)).locate here = (lastName s ++ w) :: room s here := by
  have hw : w ≠ "" := by
    rintro rfl
    exact absurd hdash (by decide)
  have hstart : (Path.mk (s ++ w)).start here = (Path.mk s).start here := by
    have habs : isAbsolute ⟨s ++ w⟩ = isAbsolute ⟨s⟩ := by
      unfold isAbsolute
      rw [String.toList_append]
      cases hs : s.toList with
      | cons c rest => simp
      | nil =>
        cases hl : w.toList with
        | nil => rfl
        | cons c rest =>
          have hc : c ≠ '/' := by
            rintro rfl
            exact hslash (by rw [hl]; exact List.mem_cons_self)
          simpa using hc
    rw [start, start, habs]
  -- With a dash in it the last name is neither dot nor two dots.
  have hdots : ∀ t : String, '-' ∉ t.toList → lastName s ++ w ≠ t := by
    intro t ht heq
    apply ht
    rw [← heq, String.toList_append]
    exact List.mem_append_right _ hdash
  rw [locate, segments_append s hslash hw, hstart, List.foldl_append, List.foldl_cons,
    List.foldl_nil, follow, if_neg (hdots "." (by decide)), if_neg (hdots ".." (by decide))]
  rfl

/-- A name without slashes is its own last name. -/
theorem lastName_of_notMem {s : String} (h : '/' ∉ s.toList) : lastName s = s := by
  simp only [lastName, pieces_of_notMem h, List.getLast_singleton, String.ofList_toList]

theorem detour_of_notMem {s : String} (h : '/' ∉ s.toList) : detour s = [] := by
  rw [detour, pieces_of_notMem h]
  rfl

/-! ## Section 6: Paths above a path -/

/-- Slash-free pieces are what their joined text falls into. -/
theorem pieces_ofPieces {ws : List (List Char)} (hne : ws ≠ []) (h : ∀ w ∈ ws, '/' ∉ w) :
    pieces (ofPieces ws) = ws := by
  induction ws with
  | nil => exact absurd rfl hne
  | cons w ws ih =>
    have hw : '/' ∉ w := h w List.mem_cons_self
    cases ws with
    | nil => exact pieces_of_notMem hw
    | cons v ws =>
      have hrest := ih (List.cons_ne_nil v ws) fun u hu => h u (List.mem_cons_of_mem w hu)
      rw [ofPieces, pieces_append_cons, pieces_of_notMem hw, hrest]
      · rfl
      · exact List.cons_ne_nil v ws

theorem ne_nil_of_mem_pieces {s w : List Char} (h : w ∈ pieces s) (hw : w ≠ []) : s ≠ [] := by
  rintro rfl
  exact hw (List.mem_singleton.1 h)

/-- A text begins with a slash exactly if its first piece is empty. -/
theorem head?_eq_slash_iff {s : List Char} (hs : s ≠ []) :
    s.head? = some '/' ↔ (pieces s).head? = some [] := by
  cases s with
  | nil => exact absurd rfl hs
  | cons c s =>
    obtain ⟨u, us, hu⟩ := List.exists_cons_of_ne_nil (pieces_ne_nil s)
    by_cases hc : c = '/'
    · subst hc
      rw [pieces_cons_slash]
      simp
    · rw [pieces_cons_of_ne hc hu]
      simp [hc]

/-- A path above another one ends with one of its pieces. -/
theorem mem_upward {ws : List (List Char)} {q : Path} (h : q ∈ upward ws) :
    ∃ front w rest, ws = front ++ w :: rest ∧ w ≠ [] ∧
      q.text.toList = ofPieces (w :: rest).reverse := by
  induction ws with
  | nil => cases h
  | cons w ws ih =>
    have hlater : q ∈ upward ws → ∃ front v rest, w :: ws = front ++ v :: rest ∧ v ≠ [] ∧
        q.text.toList = ofPieces (v :: rest).reverse := by
      intro hq
      obtain ⟨front, v, rest, hws, hv, htext⟩ := ih hq
      exact ⟨w :: front, v, rest, by rw [hws, List.cons_append], hv, htext⟩
    rw [upward] at h
    split at h
    · exact hlater h
    · rename_i hidle
      rcases List.mem_cons.1 h with rfl | hq
      · refine ⟨[], w, ws, rfl, ?_, String.toList_ofList⟩
        intro hw
        exact hidle (by rw [hw]; rfl)
      · exact hlater hq

/-- A lineage begins with its path, unless there is nothing to make. -/
theorem lineage_cases (p : Path) :
    p.text = "" ∧ p.lineage = [] ∨ p.text ≠ "" ∧ ∃ above, p.lineage = p :: above := by
  by_cases htext : p.text = ""
  · refine Or.inl ⟨htext, ?_⟩
    unfold lineage
    rw [htext]
    rfl
  · refine Or.inr ⟨htext, ?_⟩
    unfold lineage
    split
    · exact ⟨[], if_neg htext⟩
    · rename_i above _
      exact ⟨upward above, rfl⟩

/-- The way to a path begins with the way to any path above it. -/
theorem segments_of_mem_lineage {p q : Path} (h : q ∈ p.lineage) :
    q.isAbsolute = p.isAbsolute ∧ ∃ rest, p.segments = q.segments ++ rest := by
  unfold lineage at h
  split at h
  · split at h
    · cases h
    · rw [List.mem_singleton.1 h]
      exact ⟨rfl, [], (List.append_nil _).symm⟩
  · rename_i u above hdrop
    rcases List.mem_cons.1 h with rfl | hq
    · exact ⟨rfl, [], (List.append_nil _).symm⟩
    · obtain ⟨front, w, rest, habove, hw, htext⟩ := mem_upward hq
      -- The pieces of the path above come first among those of the path.
      have hpieces : ∃ more, pieces p.text.toList = (w :: rest).reverse ++ more := by
        have hall : (pieces p.text.toList).reverse
            = ((pieces p.text.toList).reverse.takeWhile isIdle ++ u :: front) ++ (w :: rest) := by
          rw [List.append_assoc, List.cons_append, ← habove, ← hdrop, List.takeWhile_append_dropWhile]
        refine ⟨(((pieces p.text.toList).reverse.takeWhile isIdle ++ u :: front)).reverse, ?_⟩
        rw [← List.reverse_append, ← hall, List.reverse_reverse]
      obtain ⟨more, hmore⟩ := hpieces
      have hne : (w :: rest).reverse ≠ [] := by simp
      have hq' : pieces q.text.toList = (w :: rest).reverse := by
        rw [htext]
        refine pieces_ofPieces hne fun v hv => slash_notMem_of_mem_pieces (s := p.text.toList) ?_
        rw [hmore]
        exact List.mem_append_left more hv
      have hp : p.text.toList ≠ [] := ne_nil_of_mem_pieces (by rw [hmore]; simp) hw
      have hqne : q.text.toList ≠ [] := ne_nil_of_mem_pieces (by rw [hq']; simp) hw
      refine ⟨?_, (more.filter (· ≠ [])).map String.ofList, ?_⟩
      · have hhead : q.text.toList.head? = some '/' ↔ p.text.toList.head? = some '/' := by
          rw [head?_eq_slash_iff hp, head?_eq_slash_iff hqne, hmore, hq', List.head?_append,
            List.head?_eq_some_head hne, Option.some_or]
        rw [Bool.eq_iff_iff, isAbsolute, isAbsolute, beq_iff_eq, beq_iff_eq]
        exact hhead
      · rw [segments, segments, hmore, hq', List.filter_append, List.map_append]

end BenchSweep.Path
