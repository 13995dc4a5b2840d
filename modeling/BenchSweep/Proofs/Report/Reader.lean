import Mathlib.Data.List.Forall2
import BenchSweep.Report.Markup

/-! # Pages Read Back

    A reader goes over a page character by character and keeps the elements that are
    open.  It takes angle brackets around the tags it knows and nowhere else, and a
    closing tag for the innermost open element only.  What a tree is written as is read
    as the tree: its elements, with the escaped texts in them. -/

namespace BenchSweep.Markup

/-! ## Section 1: Escaped texts -/

/-- A text in which the characters that were escaped are put back. -/
def unescape : List Char → List Char
  | '&' :: 'a' :: 'm' :: 'p' :: ';' :: s => '&' :: unescape s
  | '&' :: 'l' :: 't' :: ';' :: s => '<' :: unescape s
  | '&' :: 'g' :: 't' :: ';' :: s => '>' :: unescape s
  | '&' :: 'q' :: 'u' :: 'o' :: 't' :: ';' :: s => '"' :: unescape s
  | '&' :: '#' :: '3' :: '9' :: ';' :: s => '\'' :: unescape s
  | c :: s => c :: unescape s
  | [] => []

/-- The characters that are escaped, with what stands for them. -/
def entities : List (Char × List Char) :=
  [('&', "&amp;".toList), ('<', "&lt;".toList), ('>', "&gt;".toList), ('"', "&quot;".toList),
    ('\'', "&#39;".toList)]

/-- The characters that are escaped. -/
def special : List Char :=
  entities.map Prod.fst

theorem escapeChar_cases (c : Char) :
    (c, escapeChar c) ∈ entities ∨ (escapeChar c = [c] ∧ c ∉ special) := by
  by_cases hc : c ∈ special
  · have hall : ∀ c ∈ special, (c, escapeChar c) ∈ entities := List.forall_mem_map.2 (by decide)
    exact Or.inl (hall c hc)
  · refine Or.inr ⟨?_, hc⟩
    have hne : ∀ d ∈ special, c ≠ d := fun d hd heq => hc (heq ▸ hd)
    rw [escapeChar, if_neg (hne _ (by decide)), if_neg (hne _ (by decide)),
      if_neg (hne _ (by decide)), if_neg (hne _ (by decide)), if_neg (hne _ (by decide))]

theorem unescape_cons_of_ne {c : Char} (h : c ≠ '&') (s : List Char) :
    unescape (c :: s) = c :: unescape s := by
  rw [unescape] <;>
  · intro t heq
    exact absurd heq h

theorem unescape_escapeChar (c : Char) (s : List Char) :
    unescape (escapeChar c ++ s) = c :: unescape s := by
  rcases escapeChar_cases c with h | ⟨h, hspecial⟩
  · generalize escapeChar c = w at h
    simp only [entities, List.mem_cons, Prod.mk.injEq, List.not_mem_nil, or_false] at h
    rcases h with ⟨rfl, rfl⟩ | ⟨rfl, rfl⟩ | ⟨rfl, rfl⟩ | ⟨rfl, rfl⟩ | ⟨rfl, rfl⟩ <;> rfl
  · rw [h, List.singleton_append, unescape_cons_of_ne]
    rintro rfl
    exact hspecial (by decide)

theorem toList_escape (s : String) : (escape s).toList = s.toList.flatMap escapeChar := by
  rw [escape, String.toList_ofList]

/-- Un-escaping gives an escaped text back. -/
theorem unescape_escape (s : String) : unescape (escape s).toList = s.toList := by
  rw [toList_escape]
  induction s.toList with
  | nil => rfl
  | cons c s ih => rw [List.flatMap_cons, unescape_escapeChar, ih]

/-- Of the characters that are escaped only the ampersand stands in an escaped text. -/
theorem notMem_escape {c : Char} (hc : c ∈ special) (hamp : c ≠ '&') (s : String) :
    c ∉ (escape s).toList := by
  rw [toList_escape, List.mem_flatMap]
  rintro ⟨d, -, hmem⟩
  have hentities : ∀ e ∈ entities, ∀ e' ∈ entities, e.1 ≠ '&' → e.1 ∉ e'.2 := by decide
  rcases escapeChar_cases d with hd | ⟨hd, hspecial⟩
  · obtain ⟨e, he, rfl⟩ := List.mem_map.1 hc
    exact hentities e he _ hd hamp hmem
  · rw [hd, List.mem_singleton] at hmem
    exact hspecial (hmem ▸ hc)

/-- A text without the characters that are escaped is written as it is. -/
theorem escape_eq_self {s : String} (h : ∀ c ∈ s.toList, c ∉ special) : escape s = s := by
  have hchars : s.toList.map escapeChar = s.toList.map fun c => [c] := by
    refine List.map_congr_left fun c hc => ?_
    rcases escapeChar_cases c with hmem | ⟨heq, -⟩
    · exact absurd (List.mem_map_of_mem hmem) (h c hc)
    · exact heq
  rw [← String.toList_inj, toList_escape, List.flatMap_def, hchars, ← List.flatMap_def]
  exact List.flatMap_singleton' _

/-- A text in which a character is replaced wherever it stands. -/
def replace (e : Char × List Char) (s : List Char) : List Char :=
  s.flatMap fun c => if c = e.1 then e.2 else [c]

/-- Replacements one after the other act on each character for itself. -/
theorem foldl_replace (es : List (Char × List Char)) (s : List Char) :
    es.foldl (fun t e => replace e t) s
      = s.flatMap fun c => es.foldl (fun t e => replace e t) [c] := by
  induction es generalizing s with
  | nil => exact (List.flatMap_singleton' s).symm
  | cons e es ih =>
    -- The first one makes a text of each character, on which the others go on.
    simp only [List.foldl_cons]
    rw [ih, replace, List.flatMap_assoc]
    congr 1
    funext c
    rw [ih (replace e [c]), replace, List.flatMap_singleton]

/-- Escaping is five replacements, that of the ampersand first. -/
theorem escape_eq_foldl (s : String) :
    (escape s).toList = entities.foldl (fun t e => replace e t) s.toList := by
  have hchar : ∀ c, escapeChar c = entities.foldl (fun t e => replace e t) [c] := by
    intro c
    by_cases hc : c ∈ special
    · have hall : ∀ c ∈ special, escapeChar c = entities.foldl (fun t e => replace e t) [c] :=
        List.forall_mem_map.2 (by decide)
      exact hall c hc
    · have hne : ∀ d ∈ special, c ≠ d := fun d hd heq => hc (heq ▸ hd)
      rcases escapeChar_cases c with hmem | ⟨heq, -⟩
      · exact absurd (List.mem_map_of_mem hmem) hc
      · simp [heq, entities, replace, hne '&' (by decide), hne '<' (by decide), hne '>' (by decide),
          hne '"' (by decide), hne '\'' (by decide)]
  rw [toList_escape, foldl_replace]
  congr 1
  funext c
  exact hchar c

/-! ## Section 2: The reader -/

/-- A part of a page as it is read.  Tags are what stands between the brackets. -/
inductive Item where
  | char (c : Char)
  /-- An element with its opening tag and its content. -/
  | element (tag : List Char) (content : List Item)
  /-- A tag that opens nothing. -/
  | void (tag : List Char)

/-- The tags that a reader knows: those that open an element, and those that open
    nothing. -/
structure Vocabulary where
  opens : List Char → Bool
  stands : List Char → Bool

/-- What a reader has seen. -/
structure Reader where
  /-- The content of the innermost element that is open, the last item first. -/
  items : List Item
  /-- The elements that are open, the innermost first, each with what was in front of
      it. -/
  outer : List (List Char × List Item)
  /-- The tag that is being read, the last character first. -/
  tag : Option (List Char)

/-- The name that a tag begins with. -/
def tagName (tag : List Char) : List Char :=
  tag.takeWhile (· ≠ ' ')

namespace Reader

/-- Reads the end of a tag. -/
def finish (v : Vocabulary) (r : Reader) (tag : List Char) : Option Reader :=
  if tag.head? = some '/' then
    match r.outer with
    | (opening, before) :: outer =>
      if tagName opening = tag.tail then some ⟨.element opening r.items.reverse :: before, outer, none⟩
      else none
    | [] => none
  else if v.opens tag then some ⟨[], (tag, r.items) :: r.outer, none⟩
  else if v.stands tag then some ⟨.void tag :: r.items, r.outer, none⟩
  else none

/-- Reads one character.  Brackets stand around tags only. -/
def step (v : Vocabulary) (r : Reader) (c : Char) : Option Reader :=
  match r.tag with
  | none =>
    if c = '<' then some { r with tag := some [] }
    else if c = '>' then none
    else some { r with items := .char c :: r.items }
  | some seen =>
    if c = '<' then none
    else if c = '>' then r.finish v seen.reverse
    else some { r with tag := some (c :: seen) }

end Reader

/-- Reads a whole page, at the end of which no element is open. -/
def read (v : Vocabulary) (page : List Char) : Option (List Item) :=
  match page.foldlM (Reader.step v) ⟨[], [], none⟩ with
  | some ⟨items, [], none⟩ => some items.reverse
  | _ => none

/-! ## Section 3: What texts are read as -/

/-- Between tags the text is read as the items, whatever is open around it. -/
def Reads (v : Vocabulary) (text : List Char) (items : List Item) : Prop :=
  ∀ before outer, text.foldlM (Reader.step v) ⟨before, outer, none⟩
    = some ⟨items.reverse ++ before, outer, none⟩

/-- A text without brackets: the brackets around it are those of a tag, or of the tags
    before and behind it. -/
structure Bare (s : List Char) : Prop where
  no_open : '<' ∉ s
  no_close : '>' ∉ s

instance (s : List Char) : Decidable (Bare s) :=
  decidable_of_iff ('<' ∉ s ∧ '>' ∉ s) ⟨fun h => ⟨h.1, h.2⟩, fun h => ⟨h.no_open, h.no_close⟩⟩

theorem Bare.append {s t : List Char} (hs : Bare s) (ht : Bare t) : Bare (s ++ t) where
  no_open h := (List.mem_append.1 h).elim hs.no_open ht.no_open
  no_close h := (List.mem_append.1 h).elim hs.no_close ht.no_close

theorem bare_append {s t : String} (hs : Bare s.toList) (ht : Bare t.toList) :
    Bare (s ++ t).toList := by
  rw [String.toList_append]
  exact hs.append ht

theorem bare_join {ts : List String} (h : ∀ t ∈ ts, Bare t.toList) : Bare (String.join ts).toList := by
  rw [String.toList_join]
  constructor
  · rw [List.mem_flatMap]
    rintro ⟨t, ht, hmem⟩
    exact (h t ht).no_open hmem
  · rw [List.mem_flatMap]
    rintro ⟨t, ht, hmem⟩
    exact (h t ht).no_close hmem

theorem bare_intercalate {s : String} {ts : List String} (hs : Bare s.toList)
    (h : ∀ t ∈ ts, Bare t.toList) : Bare (String.intercalate s ts).toList := by
  rw [String.toList_intercalate]
  induction ts with
  | nil => exact ⟨List.not_mem_nil, List.not_mem_nil⟩
  | cons t ts ih =>
    have ht := h t List.mem_cons_self
    cases ts with
    | nil => simpa using ht
    | cons u ts =>
      rw [List.map_cons, List.map_cons, List.intercalate_cons_cons]
      exact (ht.append hs).append (ih fun v hv => h v (List.mem_cons_of_mem t hv))

/-- The vocabulary has proper tags only, none of which closes an element. -/
structure Vocabulary.Sound (v : Vocabulary) : Prop where
  opens : ∀ tag, v.opens tag = true → Bare tag ∧ tag.head? ≠ some '/'
  stands : ∀ tag, v.stands tag = true → Bare tag ∧ tag.head? ≠ some '/' ∧ v.opens tag = false

section Reads

variable {v : Vocabulary} {s t : List Char} {xs ys : List Item}

theorem reads_nil : Reads v [] [] :=
  fun _ _ => rfl

theorem Reads.append (hs : Reads v s xs) (ht : Reads v t ys) : Reads v (s ++ t) (xs ++ ys) := by
  intro before outer
  rw [List.foldlM_append, hs, Option.bind_eq_bind, Option.bind_some, ht, List.reverse_append,
    List.append_assoc]

/-- A text without brackets. -/
theorem reads_text (h : Bare s) : Reads v s (s.map .char) := by
  obtain ⟨hopen, hclose⟩ := h
  induction s with
  | nil => exact reads_nil
  | cons c s ih =>
    simp only [List.mem_cons, not_or] at hopen hclose
    -- No tag begins or ends here, whatever is open.
    have hchar : Reads v [c] [.char c] := by
      intro before outer
      simp [Reader.step, Ne.symm hopen.1, Ne.symm hclose.1]
    exact hchar.append (ih hopen.2 hclose.2)

/-- What is between brackets is taken up to the closing one. -/
theorem foldlM_tag {tag : List Char} (h : Bare tag) (before : List Item)
    (outer : List (List Char × List Item)) :
    ('<' :: tag ++ ['>']).foldlM (Reader.step v) ⟨before, outer, none⟩
      = Reader.finish v ⟨before, outer, some tag.reverse⟩ tag := by
  have hseen : ∀ seen : List Char, tag.foldlM (Reader.step v) ⟨before, outer, some seen⟩
      = some ⟨before, outer, some (tag.reverse ++ seen)⟩ := by
    obtain ⟨hopen, hclose⟩ := h
    induction tag with
    | nil => exact fun _ => rfl
    | cons c tag ih =>
      intro seen
      simp only [List.mem_cons, not_or] at hopen hclose
      have hstep : Reader.step v ⟨before, outer, some seen⟩ c
          = some ⟨before, outer, some (c :: seen)⟩ := by
        simp [Reader.step, Ne.symm hopen.1, Ne.symm hclose.1]
      rw [List.foldlM_cons, hstep, Option.bind_eq_bind, Option.bind_some, ih hopen.2 hclose.2,
        List.reverse_cons, List.append_assoc, List.singleton_append]
  have hfirst : Reader.step v ⟨before, outer, none⟩ '<' = some ⟨before, outer, some []⟩ := rfl
  rw [List.cons_append, List.foldlM_cons, hfirst, Option.bind_eq_bind, Option.bind_some,
    List.foldlM_append, hseen, List.append_nil, Option.bind_eq_bind, Option.bind_some]
  simp [Reader.step]

theorem finish_opens (hv : v.Sound) {tag : List Char} (h : v.opens tag = true) (r : Reader) :
    r.finish v tag = some ⟨[], (tag, r.items) :: r.outer, none⟩ := by
  rw [Reader.finish, if_neg (hv.opens tag h).2, if_pos h]

theorem finish_stands (hv : v.Sound) {tag : List Char} (h : v.stands tag = true) (r : Reader) :
    r.finish v tag = some ⟨.void tag :: r.items, r.outer, none⟩ := by
  obtain ⟨-, hhead, hopens⟩ := hv.stands tag h
  rw [Reader.finish, if_neg hhead, if_neg (by rw [hopens]; decide), if_pos h]

theorem finish_closing (tag : List Char) (items before : List Item)
    (outer : List (List Char × List Item)) (seen : Option (List Char)) :
    Reader.finish v ⟨items, (tag, before) :: outer, seen⟩ ('/' :: tagName tag)
      = some ⟨.element tag items.reverse :: before, outer, none⟩ := by
  simp [Reader.finish]

/-- A tag that opens nothing. -/
theorem reads_void (hv : v.Sound) {tag : List Char} (h : v.stands tag = true) :
    Reads v ('<' :: tag ++ ['>']) [.void tag] := by
  intro before outer
  rw [foldlM_tag (hv.stands tag h).1, finish_stands hv h]
  rfl

/-- An element that is closed where its content ends. -/
theorem Reads.element (hv : v.Sound) {tag : List Char} (h : v.opens tag = true)
    (hs : Reads v s xs) :
    Reads v ('<' :: tag ++ ['>'] ++ s ++ ('<' :: ('/' :: tagName tag) ++ ['>'])) [.element tag xs] := by
  have htag := (hv.opens tag h).1
  have hsub : ∀ c ∈ tagName tag, c ∈ tag := fun c hc => (List.takeWhile_prefix _).subset hc
  have hslash : Bare ['/'] := by decide
  have hname : Bare ('/' :: tagName tag) :=
    hslash.append ⟨fun hc => htag.no_open (hsub _ hc), fun hc => htag.no_close (hsub _ hc)⟩
  intro before outer
  -- While the content is read the element is the innermost one, and what was in front
  -- of it waits; the closing tag takes both back.
  rw [List.foldlM_append, List.foldlM_append, foldlM_tag htag, finish_opens hv h, Option.bind_eq_bind,
    Option.bind_some, hs, Option.bind_some, foldlM_tag hname, finish_closing, List.append_nil,
    List.reverse_reverse]
  rfl

end Reads

/-! ## Section 4: Trees -/

mutual

/-- What a part of a page is read as. -/
def Node.items : Node → List Item
  | .text s => (escape s).toList.map .char
  | .element tag attributes content =>
    [.element (tag ++ writeAttributes attributes).toList (itemsOf content)]
  | .void tag attributes => [.void (tag ++ writeAttributes attributes).toList]
  | .style sheet => [.element "style".toList (sheet.toList.map .char)]

/-- What consecutive parts of a page are read as. -/
def itemsOf : List Node → List Item
  | [] => []
  | n :: ns => n.items ++ itemsOf ns

end

/-- The tree is made of tags of the vocabulary. -/
inductive Fits (v : Vocabulary) : Node → Prop
  | text (s : String) : Fits v (.text s)
  | element {tag : String} {attributes : Attributes} {content : List Node}
      (hopens : v.opens (tag ++ writeAttributes attributes).toList = true)
      (hname : ' ' ∉ tag.toList) (hcontent : ∀ n ∈ content, Fits v n) :
      Fits v (.element tag attributes content)
  | void {tag : String} {attributes : Attributes}
      (hstands : v.stands (tag ++ writeAttributes attributes).toList = true) :
      Fits v (.void tag attributes)
  | style {sheet : String} (hopens : v.opens "style".toList = true) (hsheet : Bare sheet.toList) :
      Fits v (.style sheet)

section Trees

variable {v : Vocabulary}

theorem itemsOf_eq_flatMap (ns : List Node) : itemsOf ns = ns.flatMap Node.items := by
  induction ns with
  | nil => rw [itemsOf, List.flatMap_nil]
  | cons n ns ih => rw [itemsOf, ih, List.flatMap_cons]

/-- The name of an opening tag ends where its attributes begin. -/
theorem tagName_append {tag : String} (h : ' ' ∉ tag.toList) (attributes : Attributes) :
    tagName (tag ++ writeAttributes attributes).toList = tag.toList := by
  have htag : ∀ c ∈ tag.toList, decide (c ≠ ' ') = true := by
    intro c hc
    refine decide_eq_true ?_
    rintro rfl
    exact h hc
  rw [String.toList_append, tagName, List.takeWhile_append_of_pos htag]
  cases attributes with
  | nil => simp [writeAttributes]
  | cons a attributes => simp [writeAttributes]

theorem reads_writeAll {ns : List Node} (h : ∀ n ∈ ns, Reads v n.write.toList n.items) :
    Reads v (writeAll ns).toList (itemsOf ns) := by
  induction ns with
  | nil =>
    rw [writeAll, itemsOf]
    exact reads_nil
  | cons n ns ih =>
    rw [writeAll, itemsOf, String.toList_append]
    exact (h n List.mem_cons_self).append (ih fun m hm => h m (List.mem_cons_of_mem n hm))

/-- What a tree is written as is read as the tree. -/
theorem reads_write (hv : v.Sound) {n : Node} (h : Fits v n) : Reads v n.write.toList n.items := by
  induction h with
  | text s =>
    -- No bracket of the text is left when it is escaped.
    rw [Node.write, Node.items]
    exact reads_text ⟨notMem_escape (by decide) (by decide) s, notMem_escape (by decide) (by decide) s⟩
  | @element tag attributes content hopens hname _ ih =>
    -- The closing tag has the name only, which is what the opening one begins with.
    have hread := Reads.element hv hopens (reads_writeAll ih)
    rw [tagName_append hname] at hread
    rw [Node.write, Node.items]
    simpa using hread
  | void hstands =>
    have hread := reads_void hv hstands
    rw [Node.write, Node.items]
    simpa using hread
  | style hopens hsheet =>
    have hread := Reads.element hv hopens (reads_text hsheet)
    have hname : tagName "style".toList = "style".toList := by decide
    rw [hname] at hread
    rw [Node.write, Node.items]
    simpa using hread

/-- A page is read as its tree behind the tag that begins every page. -/
theorem read_page (hv : v.Sound) {root : Node} (h : Fits v root)
    (hdoctype : v.stands "!DOCTYPE html".toList = true) :
    read v (page root).toList = some (.void "!DOCTYPE html".toList :: root.items) := by
  have hread : Reads v (page root).toList (.void "!DOCTYPE html".toList :: root.items) := by
    have hall := (reads_void hv hdoctype).append (reads_write hv h)
    unfold page
    rw [String.toList_append]
    exact hall
  rw [read, hread]
  simp

end Trees

/-! ## Section 5: Tables -/

namespace Item

/-- The name of an element. -/
def name : Item → List Char
  | .element tag _ => tagName tag
  | .void tag => tagName tag
  | .char _ => []

def content : Item → List Item
  | .element _ content => content
  | _ => []

def char? : Item → Option Char
  | .char c => some c
  | _ => none

/-- The text in an element, with the escaped characters put back. -/
def text (i : Item) : String :=
  String.ofList (unescape (i.content.filterMap char?))

/-- An element of this name with this text and nothing else in it. -/
structure Shows (name : String) (i : Item) (s : String) : Prop where
  named : i.name = name.toList
  text : i.text = s
  only : ∀ j ∈ i.content, j.char?.isSome

/-- A row of just so many cells, with these texts. -/
structure IsRow (name : String) (width : Nat) (i : Item) (texts : List String) : Prop where
  named : i.name = "tr".toList
  width : i.content.length = width
  cells : List.Forall₂ (Shows name) i.content texts

/-- A table with its header and its rows, all of one width. -/
def IsTable (width : Nat) (header : List String) (i : Item) (rows : List (List String)) : Prop :=
  ∃ head top body, i.name = "table".toList ∧ i.content = [head, body] ∧
    head.name = "thead".toList ∧ head.content = [top] ∧ IsRow "th" width top header ∧
    body.name = "tbody".toList ∧ List.Forall₂ (IsRow "td" width) body.content rows

end Item

/-- The part of a page is read as one item, of which the relation holds. -/
def ReadsAs {β : Type} (R : Item → β → Prop) (n : Node) (b : β) : Prop :=
  ∃ i, n.items = [i] ∧ R i b

section Tables

variable {tag : String} {attributes : Attributes} {width : Nat}

theorem forall₂_itemsOf {β : Type} {R : Item → β → Prop} {ns : List Node} {bs : List β}
    (h : List.Forall₂ (ReadsAs R) ns bs) : List.Forall₂ R (itemsOf ns) bs := by
  induction h with
  | nil =>
    rw [itemsOf]
    exact .nil
  | cons hn _ ih =>
    obtain ⟨i, hi, hR⟩ := hn
    rw [itemsOf, hi]
    exact .cons hR ih

theorem forall₂_map {α β γ : Type} {R : α → β → Prop} {f : γ → α} {g : γ → β} {xs : List γ}
    (h : ∀ x ∈ xs, R (f x) (g x)) : List.Forall₂ R (xs.map f) (xs.map g) :=
  List.forall₂_map_left_iff.2 (List.forall₂_map_right_iff.2 (List.forall₂_same.2 h))

theorem forall₂_flatMap {α β γ : Type} {R : α → β → Prop} {f : γ → List α} {g : γ → List β}
    {xs : List γ} (h : ∀ x ∈ xs, List.Forall₂ R (f x) (g x)) :
    List.Forall₂ R (xs.flatMap f) (xs.flatMap g) := by
  induction xs with
  | nil => exact .nil
  | cons x xs ih =>
    rw [List.flatMap_cons, List.flatMap_cons]
    exact List.rel_append (h x List.mem_cons_self) (ih fun y hy => h y (List.mem_cons_of_mem x hy))

theorem filterMap_char (s : List Char) : (s.map Item.char).filterMap Item.char? = s := by
  rw [List.filterMap_map]
  exact List.filterMap_some

/-- A text in an element. -/
theorem readsAs_text (hname : ' ' ∉ tag.toList) (s : String) :
    ReadsAs (Item.Shows tag) (.element tag attributes [.text s]) s := by
  have hitems : itemsOf [.text s] = (escape s).toList.map .char := by
    rw [itemsOf_eq_flatMap, List.flatMap_singleton, Node.items]
  refine ⟨_, by rw [Node.items], ?_⟩
  rw [hitems]
  constructor
  · exact tagName_append hname attributes
  · rw [Item.text, Item.content, filterMap_char, unescape_escape, String.ofList_toList]
  · intro j hj
    obtain ⟨c, -, rfl⟩ := List.mem_map.1 hj
    rfl

/-- An element without content. -/
theorem readsAs_empty (hname : ' ' ∉ tag.toList) :
    ReadsAs (Item.Shows tag) (.element tag attributes []) "" := by
  refine ⟨_, by rw [Node.items], ?_⟩
  rw [itemsOf]
  exact ⟨tagName_append hname attributes, rfl, nofun⟩

theorem readsAs_row {cells : List Node} {texts : List String} (hwidth : texts.length = width)
    (h : List.Forall₂ (ReadsAs (Item.Shows tag)) cells texts) :
    ReadsAs (Item.IsRow tag width) (.element "tr" attributes cells) texts := by
  have hcells := forall₂_itemsOf h
  have hname : tagName ("tr" ++ writeAttributes attributes).toList = "tr".toList :=
    tagName_append (by decide) attributes
  refine ⟨_, by rw [Node.items], ?_⟩
  exact ⟨hname, hcells.length_eq.trans hwidth, hcells⟩

theorem readsAs_table {top : Node} {header : List String} {rows : List Node}
    {texts : List (List String)} (htop : ReadsAs (Item.IsRow "th" width) top header)
    (hrows : List.Forall₂ (ReadsAs (Item.IsRow "td" width)) rows texts) :
    ReadsAs (Item.IsTable width header)
      (.plain "table" [.plain "thead" [top], .plain "tbody" rows]) texts := by
  obtain ⟨i, hi, hrow⟩ := htop
  have hname : ∀ tag : String, ' ' ∉ tag.toList →
      tagName (tag ++ writeAttributes []).toList = tag.toList :=
    fun tag htag => tagName_append htag []
  refine ⟨_, by rw [Node.plain, Node.items], ?_⟩
  simp only [itemsOf_eq_flatMap, List.flatMap_cons, List.flatMap_nil, Node.plain, Node.items, hi,
    List.append_nil, List.singleton_append]
  refine ⟨_, i, _, hname _ (by decide), rfl, hname _ (by decide), rfl, hrow, hname _ (by decide), ?_⟩
  rw [Item.content, ← itemsOf_eq_flatMap]
  exact forall₂_itemsOf hrows

end Tables

end BenchSweep.Markup
