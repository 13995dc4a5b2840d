import Mathlib.Data.List.Pairwise
import BenchSweep.Proofs.Experiment.Exactness
import BenchSweep.Proofs.Experiment.Substitution

/-! # Columns Tell Worker Counts

    The experiments of a variant on a model differ in the worker count only, and so
    do the labels of their columns.  A label tells the count if its template names it,
    and a derived label comes from the template of the names: what is taken out of
    that is a whole group with the dash behind it, so every other group stays.  A count
    may stand at several places with digits around it; two counts still make two
    texts. -/

namespace BenchSweep

/-! ## Section 1: Layouts in a row -/

namespace Template

variable {l l' : Layout} {key before after : List Char}

/-- The last text of a layout and the first of the next become one text. -/
theorem Layout.exists_append (hclosed : l.unclosed = none) (l' : Layout) :
    ∃ both : Layout, both.source = l.source ++ l'.source ∧ both.keys = l.keys ++ l'.keys := by
  obtain ⟨groups, rest, unclosed, htext, hkey, hrest, hopen⟩ := l
  obtain ⟨groups', rest', unclosed', htext', hkey', hrest', hopen'⟩ := l'
  cases hclosed
  -- The first text of the second layout stands before its first group, or comes last.
  cases groups' with
  | nil =>
    have hboth : '\x7b' ∉ rest ++ rest' := by simp [hrest, hrest']
    refine ⟨⟨groups, rest ++ rest', unclosed', htext, hkey, hboth, hopen'⟩, ?_, ?_⟩
    · cases unclosed' <;> simp [source, pieces, lastPieces, Piece.source]
    · simp [keys]
  | cons g groups' =>
    obtain ⟨hg, htext'⟩ := List.forall_mem_cons.1 htext'
    obtain ⟨hk, hkey'⟩ := List.forall_mem_cons.1 hkey'
    have hboth : '\x7b' ∉ rest ++ g.1 := by simp [hrest, hg]
    refine ⟨⟨groups ++ (rest ++ g.1, g.2) :: groups', rest', unclosed',
      List.forall_mem_append.2 ⟨htext, List.forall_mem_cons.2 ⟨hboth, htext'⟩⟩,
      List.forall_mem_append.2 ⟨hkey, List.forall_mem_cons.2 ⟨hk, hkey'⟩⟩, hrest', hopen'⟩, ?_, ?_⟩
    · simp [source, pieces, lastPieces, Piece.source]
    · simp [keys]

/-- Two layouts in a row, with a group between them. -/
theorem Layout.exists_group_between (hclosed : l.unclosed = none) (hkey : '\x7d' ∉ key)
    (l' : Layout) :
    ∃ both : Layout, both.source = l.source ++ '\x7b' :: (key ++ '\x7d' :: l'.source) ∧
      both.keys = l.keys ++ key :: l'.keys := by
  refine ⟨⟨l.groups ++ (l.rest, key) :: l'.groups, l'.rest, l'.unclosed,
    List.forall_mem_append.2 ⟨l.text_plain, List.forall_mem_cons.2 ⟨l.rest_plain, l'.text_plain⟩⟩,
    List.forall_mem_append.2 ⟨l.key_closed, List.forall_mem_cons.2 ⟨hkey, l'.key_closed⟩⟩,
    l'.rest_plain, l'.unclosed_open⟩, ?_, ?_⟩
  · simp [source, pieces, lastPieces, Piece.source, hclosed]
  · simp [keys]

/-- What stands before a brace that is not closed is a layout of its own. -/
theorem Layout.exists_opened {s : List Char} (hunclosed : l.unclosed = some s) :
    ∃ front : Layout, front.unclosed = none ∧ l.source = front.source ++ '\x7b' :: s := by
  refine ⟨⟨l.groups, l.rest, none, l.text_plain, l.key_closed, l.rest_plain, nofun⟩, rfl, ?_⟩
  simp [source, pieces, lastPieces, Piece.source, hunclosed]

/-- A layout without its first character, if that opens no group. -/
theorem Layout.exists_behind {c : Char} (hc : c ≠ '\x7b') (h : l.source = c :: after) :
    ∃ l' : Layout, l'.source = after ∧ l'.keys = l.keys := by
  obtain ⟨l', hl'⟩ := exists_layout after
  have hplain : '\x7b' ∉ [c] := by simpa using hc.symm
  obtain ⟨both, hsource, hkeys⟩ :=
    Layout.exists_append (l := ⟨[], [c], none, nofun, nofun, hplain, nofun⟩) rfl l'
  have hboth : both = l := by
    apply source_inj
    rw [hsource, h, hl']
    rfl
  exact ⟨l', hl', by rw [← hboth, hkeys]; rfl⟩

/-! ## Section 2: Groups that are spelled out -/

/-- A template without a brace within a group.  Those that can be filled are such. -/
def Layout.Plain (l : Layout) : Prop :=
  ∀ key ∈ l.keys, '\x7b' ∉ key

/-- Where a plain template spells out a group, it has that group. -/
theorem Layout.Plain.cut (hplain : l.Plain) (hkey : '\x7d' ∉ key)
    (h : l.source = before ++ '\x7b' :: (key ++ '\x7d' :: after)) :
    ∃ front back : Layout, front.source = before ∧ front.unclosed = none ∧ back.source = after ∧
      l.keys = front.keys ++ key :: back.keys := by
  obtain ⟨front, rfl⟩ := exists_layout before
  obtain ⟨back, rfl⟩ := exists_layout after
  cases hfront : front.unclosed with
  | none =>
    obtain ⟨both, hsource, hkeys⟩ := exists_group_between hfront hkey back
    obtain rfl := source_inj (h.trans hsource.symm)
    exact ⟨front, back, rfl, hfront, rfl, hkeys⟩
  | some s =>
    -- The brace would stand within the key of a group that begins before it.
    obtain ⟨opened, hopened, hsource⟩ := exists_opened hfront
    have hlong : '\x7d' ∉ s ++ '\x7b' :: key := by simp [front.unclosed_open s hfront, hkey]
    obtain ⟨both, hboth, hkeys⟩ := exists_group_between hopened hlong back
    have hsame : both = l := by
      apply source_inj
      rw [hboth, h, hsource]
      simp
    have hmem : s ++ '\x7b' :: key ∈ l.keys := by simp [← hsame, hkeys]
    exact absurd (by simp) (hplain _ hmem)

theorem Layout.exists_spelled (h : key ∈ l.keys) :
    ∃ before after, l.source = before ++ '\x7b' :: (key ++ '\x7d' :: after) := by
  obtain ⟨⟨text, _⟩, hmem, rfl⟩ := List.mem_map.1 h
  obtain ⟨groups, groups', hgroups⟩ := List.append_of_mem hmem
  refine ⟨(groups.flatMap fun g => [Piece.text g.1, .group g.2]).flatMap Piece.source ++ text,
    ((groups'.flatMap fun g => [Piece.text g.1, .group g.2]) ++
      lastPieces l.rest l.unclosed).flatMap Piece.source, ?_⟩
  simp [source, pieces, hgroups, Piece.source]

/-- A plain template has the groups that it spells out. -/
theorem Layout.Plain.mem_keys_iff (hplain : l.Plain) (hkey : '\x7d' ∉ key) :
    key ∈ l.keys ↔
      ∃ before after, l.source = before ++ '\x7b' :: (key ++ '\x7d' :: after) := by
  refine ⟨exists_spelled, ?_⟩
  rintro ⟨before, after, h⟩
  obtain ⟨front, back, -, -, -, hkeys⟩ := hplain.cut hkey h
  simp [hkeys]

end Template

open Template

variable {needle s : List Char}

theorem occursIn_iff :
    occursIn needle s = true ↔ ∃ before after, s = before ++ needle ++ after := by
  induction s with
  | nil =>
    rw [occursIn, List.isEmpty_iff]
    constructor
    · rintro rfl
      exact ⟨[], [], rfl⟩
    · rintro ⟨before, after, h⟩
      exact (List.append_eq_nil_iff.1 (List.append_eq_nil_iff.1 h.symm).1).2
  | cons c s ih =>
    rw [occursIn, Bool.or_eq_true, Option.isSome_iff_exists, ih]
    constructor
    · rintro (⟨after, h⟩ | ⟨before, after, rfl⟩)
      · exact ⟨[], after, Log.afterPhrase_eq_some_iff.1 h⟩
      · exact ⟨c :: before, after, rfl⟩
    · rintro ⟨before, after, h⟩
      cases before with
      | nil => exact .inl ⟨after, Log.afterPhrase_eq_some_iff.2 h⟩
      | cons d before =>
        obtain ⟨-, rfl⟩ := List.cons.inj h
        exact .inr ⟨before, after, rfl⟩

/-- What is removed stood there, if anything is removed. -/
theorem removeFirst_eq (needle s : List Char) :
    removeFirst needle s = s ∨
      ∃ before after, s = before ++ needle ++ after ∧ removeFirst needle s = before ++ after := by
  induction s with
  | nil => exact .inl rfl
  | cons c s ih =>
    rw [removeFirst]
    cases hafter : Log.afterPhrase needle (c :: s) with
    | some after => exact .inr ⟨[], after, Log.afterPhrase_eq_some_iff.1 hafter, rfl⟩
    | none =>
      rcases ih with h | ⟨before, after, hs, h⟩
      · exact .inl (congrArg (c :: ·) h)
      · exact .inr ⟨c :: before, after, congrArg (c :: ·) hs, congrArg (c :: ·) h⟩

/-- A group is taken out of a template together with the character behind it: every
    other group stays, and none comes in. -/
theorem Template.Layout.Plain.exists_removed {l : Layout} (hplain : l.Plain) (key : List Char)
    (hkey : '\x7d' ∉ key) (c : Char) (hc : c ≠ '\x7b') :
    ∃ l' : Layout, l'.source = removeFirst ('\x7b' :: (key ++ ['\x7d', c])) l.source ∧
      (∀ k ∈ l'.keys, k ∈ l.keys) ∧ ∀ k ∈ l.keys, k ≠ key → k ∈ l'.keys := by
  rcases removeFirst_eq ('\x7b' :: (key ++ ['\x7d', c])) l.source with
    hnone | ⟨before, after, hsource, hremoved⟩
  · exact ⟨l, hnone.symm, fun _ hk => hk, fun _ hk _ => hk⟩
  · have hspelled : l.source = before ++ '\x7b' :: (key ++ '\x7d' :: c :: after) := by
      simp [hsource]
    obtain ⟨front, back, rfl, hclosed, hback, hkeys⟩ := hplain.cut hkey hspelled
    -- The front is closed, so every brace behind it keeps its partner.
    obtain ⟨rear, rfl, hrear⟩ := Layout.exists_behind hc hback
    obtain ⟨both, hboth, hbothKeys⟩ := Layout.exists_append hclosed rear
    refine ⟨both, hboth.trans hremoved.symm, fun k hk => ?_, fun k hk hne => ?_⟩
    · rw [hbothKeys, hrear] at hk
      rw [hkeys]
      exact (List.sublist_cons_self key back.keys).append_left front.keys |>.mem hk
    · rw [hkeys] at hk
      rw [hbothKeys, hrear]
      simpa [hne] using hk

/-! ## Section 3: Two counts in one template -/

/-- Two lists go together if the partners of one element in them do. -/
theorem forall₂_partners {α β γ : Type} {R : α → β → Prop} {R' : α → γ → Prop} {S : β → γ → Prop}
    (hS : ∀ x y z, R x y → R' x z → S y z) {xs : List α} {ys : List β} {zs : List γ}
    (h : List.Forall₂ R xs ys) (h' : List.Forall₂ R' xs zs) : List.Forall₂ S ys zs := by
  induction h generalizing zs with
  | nil =>
    cases h'
    exact .nil
  | cons hxy _ ih =>
    cases h' with
    | cons hxz hrest => exact .cons (hS _ _ _ hxy hxz) (ih hrest)

namespace Template

variable {b b' : Binding} {l : Layout} {template out : String} {key v : List Char}
  {groups : List (List Char × List Char)} {values values' : List (List Char)} {w w' : Nat}

/-- Groups that are filled with values no shorter make a text that is no shorter. -/
theorem length_woven_le (groups : List (List Char × List Char))
    (h : List.Forall₂ (fun v v' => v.length ≤ v'.length) values values') :
    (List.zipWith (fun g v => g.1 ++ v) groups values).flatten.length
      ≤ (List.zipWith (fun g v => g.1 ++ v) groups values').flatten.length := by
  induction h generalizing groups with
  | nil => exact Nat.le_refl _
  | cons hv _ ih =>
    cases groups with
    | nil => exact Nat.le_refl _
    | cons g groups =>
      have hrest := ih groups
      simp only [List.zipWith_cons_cons, List.flatten_cons, List.length_append]
      omega

theorem eq_of_woven_eq (h : List.Forall₂ (fun v v' => v.length ≤ v'.length) values values')
    (hlength : values.length = groups.length)
    (heq : (List.zipWith (fun g v => g.1 ++ v) groups values).flatten
      = (List.zipWith (fun g v => g.1 ++ v) groups values').flatten) : values = values' := by
  induction h generalizing groups with
  | nil => rfl
  | @cons v v' values values' hv hvalues ih =>
    cases groups with
    | nil => cases hlength
    | cons g groups =>
      simp only [List.zipWith_cons_cons, List.flatten_cons, List.append_assoc] at heq
      have hcut := List.append_cancel_left heq
      -- A longer value here would have to be made up for behind it, where none is shorter.
      have hsame : v.length = v'.length := by
        have hsum := congrArg List.length hcut
        have hrest := length_woven_le groups hvalues
        simp only [List.length_append] at hsum
        omega
      obtain ⟨hfirst, hrest⟩ := List.append_inj hcut hsame
      rw [hfirst, ih (Nat.succ.inj hlength) hrest]

/-- The values can be read off the filled template, as far as none of them gets longer. -/
theorem Layout.eq_of_filled_eq (l : Layout)
    (h : List.Forall₂ (fun v v' => v.length ≤ v'.length) values values')
    (hlength : values.length = l.keys.length) (heq : l.filled values = l.filled values') :
    values = values' := by
  rw [keys, List.length_map] at hlength
  exact eq_of_woven_eq h hlength (List.append_cancel_right (List.append_cancel_right heq))

theorem Binding.Puts.unique {v' : List Char} (h : b.Puts key v) (h' : b.Puts key v') : v = v' := by
  have hvalue : b.value "" key = .ok v := value_of_puts h
  exact Except.ok.inj (hvalue.symm.trans (value_of_puts h'))

/-- Only the count tells two experiments of a variant on a model apart. -/
theorem Binding.Puts.other (hmodel : b.model = b'.model) (hkey : key ≠ "workers".toList)
    (h : b.Puts key v) : b'.Puts key v := by
  cases h with
  | model =>
    rw [hmodel]
    exact .model
  | input =>
    rw [hmodel]
    exact .input
  | workers => exact absurd rfl hkey

/-- What can be put in has a key without a brace. -/
theorem Binding.Puts.brace_notMem (h : b.Puts key v) : '\x7b' ∉ key := by
  cases h with
  | model => decide
  | input => decide
  | workers => decide

/-- A template expands if something stands for each of its groups. -/
theorem exists_expand_iff (h : l.source = template.toList) :
    (∃ out, expand b template = .ok out) ↔ ∀ key ∈ l.keys, ∃ v, b.Puts key v := by
  constructor
  · rintro ⟨out, hout⟩ key hkey
    obtain ⟨values, hvalues, -⟩ := ((Layout.tells b h).ok out).1 hout
    obtain ⟨v, -, hv⟩ := exists_mem_right hvalues hkey
    exact ⟨v, hv⟩
  · intro hall
    obtain ⟨values, hvalues⟩ := exists_forall₂ hall
    refine ⟨String.ofList (l.filled values), ((Layout.tells b h).ok _).2 ⟨values, hvalues, ?_⟩⟩
    exact String.toList_ofList

/-- A template that expands is plain. -/
theorem plain_of_expand (h : l.source = template.toList) (hout : expand b template = .ok out) :
    l.Plain := by
  intro key hkey
  obtain ⟨v, hv⟩ := (exists_expand_iff h).1 ⟨out, hout⟩ key hkey
  exact hv.brace_notMem

/-- A template that does not name the count comes to the same with any. -/
theorem expand_eq_of_notMem (hmodel : b.model = b'.model) (h : l.source = template.toList)
    (hkeys : "workers".toList ∉ l.keys) (hout : expand b template = .ok out) :
    expand b' template = .ok out := by
  obtain ⟨values, hvalues, hfilled⟩ := ((Layout.tells b h).ok out).1 hout
  have hother : ∀ key ∈ l.keys, key ≠ "workers".toList := fun key hkey heq => hkeys (heq ▸ hkey)
  have hboth := (List.forall₂_and_left l.keys values).2 ⟨hother, hvalues⟩
  exact ((Layout.tells b' h).ok out).2
    ⟨values, hboth.imp fun key v hkv => hkv.2.other hmodel hkv.1, hfilled⟩

/-- A template that names the count comes to two texts with two counts, wherever and
    however often it names it. -/
theorem workers_eq_of_expand_eq (hmodel : b.model = b'.model) (hw : b.workers = some w)
    (hw' : b'.workers = some w') (h : l.source = template.toList)
    (hkeys : "workers".toList ∈ l.keys) (hout : expand b template = .ok out)
    (hout' : expand b' template = .ok out) : w = w' := by
  -- It is enough to look at counts of which the second is written no shorter.
  wlog hle : (toString w).toList.length ≤ (toString w').toList.length generalizing b b' w w'
  · exact (this hmodel.symm hw' hw hout' hout (Nat.le_of_not_le hle)).symm
  obtain ⟨values, hvalues, hfilled⟩ := ((Layout.tells b h).ok out).1 hout
  obtain ⟨values', hvalues', hfilled'⟩ := ((Layout.tells b' h).ok out).1 hout'
  have hlengths : ∀ key v v', b.Puts key v → b'.Puts key v' → v.length ≤ v'.length := by
    intro key v v' hv hv'
    by_cases hkey : key = "workers".toList
    · subst hkey
      rw [hv.unique (.workers hw), hv'.unique (.workers hw')]
      exact hle
    · exact Nat.le_of_eq (congrArg List.length ((hv.other hmodel hkey).unique hv'))
  obtain rfl := l.eq_of_filled_eq (forall₂_partners hlengths hvalues hvalues')
    hvalues.length_eq.symm (hfilled.symm.trans hfilled')
  have hboth := List.Forall₂.mp (fun _ _ => And.intro) hvalues hvalues'
  obtain ⟨v, -, hv, hv'⟩ := exists_mem_right hboth hkeys
  exact Decimal.toString_inj ((hv.unique (.workers hw)).symm.trans (hv'.unique (.workers hw')))

end Template

/-! ## Section 4: Labels -/

section Labels

variable {v : Variant} {b b' : Template.Binding} {name name' column : String}
  {w w' : Nat} {l : Template.Layout}

/-- The group of the count stands in a template exactly if its text occurs there. -/
theorem occursIn_workers_iff (hplain : l.Plain) :
    occursIn "\x7bworkers\x7d".toList l.source = true ↔ "workers".toList ∈ l.keys := by
  rw [occursIn_iff, hplain.mem_keys_iff (by decide)]
  have htext : ∀ before after : List Char, before ++ "\x7bworkers\x7d".toList ++ after
      = before ++ '\x7b' :: ("workers".toList ++ '\x7d' :: after) := by simp
  simp only [htext]

/-- The template of a derived label has the groups of the template of the names, up to
    those of the model. -/
theorem exists_derived_layout (hplain : l.Plain) (hsource : l.source = v.name.toList) :
    ∃ l' : Template.Layout,
      l'.source = (String.ofList (removeFirst "\x7bmodel\x7d-".toList v.name.toList)).toList ∧
      (∀ key ∈ l'.keys, key ∈ l.keys) ∧ ∀ key ∈ l.keys, key ≠ "model".toList → key ∈ l'.keys := by
  obtain ⟨l', hl', hkeys⟩ :=
    hplain.exists_removed "model".toList (by decide) '-' (by decide)
  rw [hsource] at hl'
  exact ⟨l', hl'.trans String.toList_ofList.symm, hkeys⟩

/-- A derived label is there whenever a name is. -/
theorem exists_columnLabel (hlabel : v.label = none)
    (hname : Template.expand b v.name = .ok name) : ∃ column, columnLabel v b = .ok column := by
  obtain ⟨l, hl⟩ := Template.exists_layout v.name.toList
  obtain ⟨l', hl', hkeys, -⟩ := exists_derived_layout (Template.plain_of_expand hl hname) hl
  have hputs := (Template.exists_expand_iff hl).1 ⟨name, hname⟩
  rw [columnLabel, hlabel]
  exact (Template.exists_expand_iff hl').2 fun key hkey => hputs key (hkeys key hkey)

/-- A label that does not name the count gets it behind, where there are several. -/
theorem columnLabel_ok_of_label {label : String} (hlabel : v.label = some label)
    (hw : b.workers = some w) (hseveral : 1 < v.workers.length)
    (h : columnLabel v b = .ok column) :
    ∃ text, Template.expand b label = .ok text ∧
      column = if occursIn "\x7bworkers\x7d".toList label.toList then text
        else text ++ "_" ++ toString w := by
  unfold columnLabel at h
  rw [hlabel] at h
  obtain ⟨text, htext, h⟩ := bind_eq_ok.1 h
  refine ⟨text, htext, ?_⟩
  rw [hw] at h
  cases hoccurs : occursIn "\x7bworkers\x7d".toList label.toList with
  | true =>
    simp only [hoccurs] at h
    exact (Except.ok.inj h).symm
  | false =>
    simp only [hoccurs, hseveral] at h
    exact (Except.ok.inj h).symm

/-- Two counts of a variant have two labels, if they have two names. -/
theorem workers_eq_of_columnLabel_eq (hmodel : b.model = b'.model) (hw : b.workers = some w)
    (hw' : b'.workers = some w') (hseveral : 1 < v.workers.length)
    (hname : Template.expand b v.name = .ok name) (hname' : Template.expand b' v.name = .ok name')
    (hne : name ≠ name') (hcolumn : columnLabel v b = .ok column)
    (hcolumn' : columnLabel v b' = .ok column) : w = w' := by
  cases hlabel : v.label with
  | none =>
    -- The names differ, so their template names the count, and so does what is left of it.
    obtain ⟨l, hl⟩ := Template.exists_layout v.name.toList
    have hkeys : "workers".toList ∈ l.keys := by
      by_contra hkeys
      have hsame := Template.expand_eq_of_notMem hmodel hl hkeys hname
      exact hne (Except.ok.inj (hsame.symm.trans hname'))
    obtain ⟨l', hl', -, hrest⟩ := exists_derived_layout (Template.plain_of_expand hl hname) hl
    rw [columnLabel, hlabel] at hcolumn hcolumn'
    exact Template.workers_eq_of_expand_eq hmodel hw hw' hl' (hrest _ hkeys (by decide))
      hcolumn hcolumn'
  | some label =>
    obtain ⟨l, hl⟩ := Template.exists_layout label.toList
    obtain ⟨text, htext, hshape⟩ := columnLabel_ok_of_label hlabel hw hseveral hcolumn
    obtain ⟨text', htext', hshape'⟩ := columnLabel_ok_of_label hlabel hw' hseveral hcolumn'
    have hoccurs := occursIn_workers_iff (Template.plain_of_expand hl htext)
    rw [hl] at hoccurs
    by_cases hkeys : "workers".toList ∈ l.keys
    · rw [if_pos (hoccurs.2 hkeys)] at hshape hshape'
      subst hshape hshape'
      exact Template.workers_eq_of_expand_eq hmodel hw hw' hl hkeys htext htext'
    · -- What stands before the two counts is the same.
      have hsame := Template.expand_eq_of_notMem hmodel hl hkeys htext
      obtain rfl := Except.ok.inj (hsame.symm.trans htext')
      rw [if_neg (fun h => hkeys (hoccurs.1 h))] at hshape hshape'
      have hcounts := congrArg String.toList (hshape.symm.trans hshape')
      simp only [String.toList_append] at hcounts
      exact Decimal.toString_inj (List.append_cancel_left hcounts)

end Labels

/-! ## Section 5: Accepted catalogs -/

variable {env : Shell.Environment} {c : Catalog} {v : Variant} {x x' : Descriptor}
  {ds : List Descriptor}

/-- Of what an accepted catalog crosses, no two come to the same name. -/
theorem Catalog.Accepted.name_ne {groups : List (List Descriptor)} (h : c.Accepted env groups ds)
    {t t' : Family × Variant × Option Nat × Model} (ht : t ∈ c.trials) (ht' : t' ∈ c.trials)
    (hne : t ≠ t') (hx : Expands env t.1 t.2 x) (hx' : Expands env t'.1 t'.2 x') :
    x.name ≠ x'.name := by
  have hdistinct := (pairwise_partners_iff h.forall₂ fun _ _ _ => Expands.eq).1
    (List.pairwise_map.1 h.distinct)
  have : Std.Symm fun t t' : Family × Variant × Option Nat × Model =>
      ∀ y y', Expands env t.1 t.2 y → Expands env t'.1 t'.2 y' → y.name ≠ y'.name :=
    ⟨fun _ _ hapart y y' hy hy' => (hapart y' y hy' hy).symm⟩
  exact hdistinct.forall ht ht' hne x x' hx hx'

/-- Two entries of a variant's axis are two counts out of several. -/
theorem Variant.counts_of_ne {w w' : Option Nat} (hw : w ∈ v.workerAxis) (hw' : w' ∈ v.workerAxis)
    (hne : w ≠ w') : ∃ n n', w = some n ∧ w' = some n' ∧ 1 < v.workers.length := by
  unfold workerAxis at hw hw'
  cases hworkers : v.workers with
  | nil =>
    rw [hworkers, if_pos rfl] at hw hw'
    exact absurd ((List.mem_singleton.1 hw).trans (List.mem_singleton.1 hw').symm) hne
  | cons n ns =>
    rw [hworkers, if_neg (List.cons_ne_nil n ns)] at hw hw'
    obtain ⟨k, hk, rfl⟩ := List.mem_map.1 hw
    obtain ⟨k', hk', rfl⟩ := List.mem_map.1 hw'
    refine ⟨k, k', rfl, rfl, ?_⟩
    cases ns with
    | nil => exact absurd (by rw [List.mem_singleton.1 hk, List.mem_singleton.1 hk']) hne
    | cons => simp

/-- **Columns tell worker counts.**  In an accepted catalog, any two worker counts of a
    variant stand for two experiments on each model entry that the variant does not
    skip, and these have two labels, however the labels are made.  A derived label is
    there for every template of which a name is. -/
theorem columns_tell_workers (env : Shell.Environment) (c : Catalog) :
    (∀ ds, c.descriptors env = .ok ds →
      ∀ f ∈ c.families, ∀ v ∈ f.variants, ∀ m ∈ f.models, m.name ∉ v.exclude →
      ∀ w ∈ v.workerAxis, ∀ w' ∈ v.workerAxis, w ≠ w' →
      ∃ x ∈ ds, ∃ x' ∈ ds, expandTrial env f v m w = .ok x ∧ expandTrial env f v m w' = .ok x' ∧
        ∃ column column', x.origin = some { family := f.name, model := m.name, column } ∧
          x'.origin = some { family := f.name, model := m.name, column := column' } ∧
          column ≠ column') ∧
    ∀ (v : Variant) (b : Template.Binding) (name : String), v.label = none →
      Template.expand b v.name = .ok name → ∃ column, columnLabel v b = .ok column := by
  refine ⟨?_, fun v b name hlabel hname => exists_columnLabel hlabel hname⟩
  intro ds h f hf v hv m hm hexclude w hw w' hw' hne
  obtain ⟨groups, haccepted⟩ := Catalog.accepted h
  have htrial : ∀ n ∈ v.workerAxis, (f, v, n, m) ∈ c.trials := fun n hn =>
    List.mem_flatMap.2 ⟨f, hf, List.mem_map_of_mem (Family.mem_trials.2 ⟨hv, hn, hm, hexclude⟩)⟩
  obtain ⟨x, hx, hexpands⟩ := exists_mem_right haccepted.forall₂ (htrial w hw)
  obtain ⟨x', hx', hexpands'⟩ := exists_mem_right haccepted.forall₂ (htrial w' hw')
  obtain ⟨column, hcolumn, horigin⟩ := hexpands.origin
  obtain ⟨column', hcolumn', horigin'⟩ := hexpands'.origin
  refine ⟨x, hx, x', hx', expandTrial_eq_ok_iff.2 hexpands, expandTrial_eq_ok_iff.2 hexpands',
    column, column', horigin, horigin', ?_⟩
  -- The names are the only thing that an accepted catalog keeps apart.
  have hnames : x.name ≠ x'.name :=
    haccepted.name_ne (htrial w hw) (htrial w' hw') (by simpa using hne) hexpands hexpands'
  obtain ⟨n, n', rfl, rfl, hseveral⟩ := Variant.counts_of_ne hw hw' hne
  rintro rfl
  have hmodel : (trialBinding (v, some n, m)).model = (trialBinding (v, some n', m)).model := rfl
  exact hne (congrArg some (workers_eq_of_columnLabel_eq hmodel rfl rfl hseveral hexpands.name
    hexpands'.name hnames hcolumn hcolumn'))

/-- A variant with two worker counts of which one is written within the other. -/
def Variant.ofCounts (name : String) (label : Option String) : Variant where
  name := name
  command := "tool"
  format := .gmp
  label := label
  workers := [1, 11]
  exclude := []

/-- A family with a label of each kind: derived with digits between two counts, without
    the count, and with it behind a digit. -/
def Family.ofCounts : Family where
  name := "f"
  models := [⟨"m", [], none, none⟩]
  variants := [
    .ofCounts "\x7bmodel\x7d-\x7bworkers\x7d1\x7bworkers\x7d" none,
    .ofCounts "\x7bmodel\x7d-t\x7bworkers\x7d" (some "t"),
    .ofCounts "\x7bmodel\x7d-u\x7bworkers\x7d" (some "1\x7bworkers\x7d")]
  speedups := []
  phases := []
  metrics := []

/-- The catalog of that family alone. -/
def Catalog.ofCounts : Catalog :=
  { Catalog.default with families := [.ofCounts] }

theorem columns_tell_workers_counted :
    ∃ ds, Catalog.ofCounts.descriptors {} = .ok ds ∧
      ds.map (fun x => x.origin.map Origin.column)
        = ["111", "11111", "t_1", "t_11", "11", "111"].map some ∧
      (∀ v ∈ Family.ofCounts.variants, ∃ x ∈ ds, ∃ x' ∈ ds,
        expandTrial {} .ofCounts v ⟨"m", [], none, none⟩ (some 1) = .ok x ∧
        expandTrial {} .ofCounts v ⟨"m", [], none, none⟩ (some 11) = .ok x' ∧
        ∃ column column', x.origin = some { family := "f", model := "m", column } ∧
          x'.origin = some { family := "f", model := "m", column := column' } ∧
          column ≠ column') ∧
      ∃ column, columnLabel (.ofCounts "\x7bworkers\x7d\x7bmodel\x7d-\x7bmodel\x7d-" none)
        ⟨"v", ⟨"m", [], none, none⟩, some 1⟩ = .ok column := by
  have hcolumns : (Catalog.ofCounts.descriptors {}).map
      (fun ds => ds.map fun x => x.origin.map Origin.column)
      = .ok (["111", "11111", "t_1", "t_11", "11", "111"].map some) := by
    decide +kernel
  obtain ⟨hdiffer, hderived⟩ := columns_tell_workers {} .ofCounts
  generalize Catalog.ofCounts.descriptors {} = outcome at hcolumns hdiffer ⊢
  cases outcome with
  | error e => cases hcolumns
  | ok ds =>
    have hname := hderived (.ofCounts "\x7bworkers\x7d\x7bmodel\x7d-\x7bmodel\x7d-" none)
      ⟨"v", ⟨"m", [], none, none⟩, some 1⟩ "1m-m-" rfl (by decide +kernel)
    refine ⟨ds, rfl, Except.ok.inj hcolumns, fun v hv => ?_, hname⟩
    have hplain : v.workers = [1, 11] ∧ v.exclude = [] := by
      simp only [Family.ofCounts, List.mem_cons, List.not_mem_nil, or_false] at hv
      rcases hv with rfl | rfl | rfl <;> exact ⟨rfl, rfl⟩
    have haxis : v.workerAxis = [some 1, some 11] := by
      rw [Variant.workerAxis, hplain.1]
      rfl
    exact hdiffer ds rfl .ofCounts List.mem_cons_self v hv ⟨"m", [], none, none⟩ List.mem_cons_self
      (by simp [hplain.2]) (some 1) (by simp [haxis]) (some 11) (by simp [haxis]) (by decide)

end BenchSweep
