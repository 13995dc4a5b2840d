import Mathlib.Data.List.Nodup
import Mathlib.Data.List.Perm.Basic
import Mathlib.Data.String.Basic
import BenchSweep.Keyed

/-! # Collections in Order

    A collection that is built by insertions lists its names in increasing order,
    so each of them once, and then what is found under the names is all there is to
    it: two collections in which the same is found are equal. -/

namespace BenchSweep.Keyed

variable {α β : Type} {m n : Keyed α} {j k : String} {v : α}

/-- The names increase. -/
def Ordered (m : Keyed α) : Prop :=
  m.keys.Pairwise (· < ·)

/-- The values under a name, in the order of the list. -/
def under (k : String) (m : List (String × α)) : List α :=
  (m.filter fun e => e.1 = k).map Prod.snd

/-! ## Section 1: Names -/

theorem keys_cons (e : String × α) (m : Keyed α) : keys (e :: m) = e.1 :: keys m := rfl

theorem find?_eq_none {m : Keyed α} {k : String} : m.find? k = none ↔ k ∉ m.keys := by
  induction m with
  | nil => simp [keys]
  | cons e m ih =>
    rw [find?_cons, keys_cons, List.mem_cons, not_or, ← ih]
    by_cases hk : k = e.1 <;> simp [hk]

theorem exists_find?_iff : (∃ v, m.find? k = some v) ↔ k ∈ m.keys := by
  rw [← not_iff_not, ← find?_eq_none, Option.eq_none_iff_forall_ne_some, not_exists]

theorem keys_revalue (k : String) (v : α) (m : Keyed α) : (revalue k v m).keys = m.keys := by
  rw [keys, keys, revalue, List.map_map]
  refine List.map_congr_left fun e _ => ?_
  rw [Function.comp_apply]
  split <;> rfl

theorem perm_place (k : String) (v : α) (m : Keyed α) : (place k v m).Perm ((k, v) :: m) := by
  induction m with
  | nil => exact .refl _
  | cons e m ih =>
    rw [place]
    split
    · exact (ih.cons e).trans (.swap _ _ _)
    · exact .refl _

theorem mem_keys_place : j ∈ (place k v m).keys ↔ j = k ∨ j ∈ m.keys := by
  have hperm : (place k v m).keys.Perm (k :: m.keys) := (perm_place k v m).map Prod.fst
  rw [hperm.mem_iff, List.mem_cons]

/-- An inserted name is present, and so are those that were. -/
theorem mem_keys_insert {m : Keyed α} {j k : String} {v : α} :
    j ∈ (m.insert k v).keys ↔ j = k ∨ j ∈ m.keys := by
  unfold insert contains
  cases hfind : m.find? k with
  | some w =>
    rw [Option.isSome_some, if_pos rfl, keys_revalue]
    have hk : k ∈ m.keys := exists_find?_iff.1 ⟨w, hfind⟩
    constructor
    · exact Or.inr
    · intro hj
      rcases hj with rfl | hj
      · exact hk
      · exact hj
  | none =>
    rw [Option.isSome_none, if_neg Bool.false_ne_true]
    exact mem_keys_place

theorem keys_mapValues (f : α → β) (m : Keyed α) : (m.mapValues f).keys = m.keys := by
  rw [keys, keys, mapValues, List.map_map]
  rfl

/-! ## Section 2: Order -/

@[simp] theorem ordered_nil : Ordered ([] : Keyed α) := List.Pairwise.nil

theorem Ordered.nodup (h : m.Ordered) : m.keys.Nodup :=
  h.imp fun hlt => ne_of_lt hlt

theorem Ordered.mapValues (h : m.Ordered) (f : α → β) : (m.mapValues f).Ordered := by
  rw [Ordered, keys_mapValues]
  exact h

/-- A new name is placed where it belongs. -/
theorem Ordered.place (h : m.Ordered) (hk : k ∉ m.keys) (v : α) : (place k v m).Ordered := by
  induction m with
  | nil => exact List.pairwise_singleton _ _
  | cons e m ih =>
    rw [keys_cons, List.mem_cons, not_or] at hk
    obtain ⟨hfirst, hrest⟩ := List.pairwise_cons.1 h
    rw [Keyed.place]
    split
    · rename_i hlt
      refine List.pairwise_cons.2 ⟨fun j hj => ?_, ih hrest hk.2⟩
      rcases mem_keys_place.1 hj with rfl | hj
      · exact hlt
      · exact hfirst j hj
    · rename_i hlt
      have hle : k < e.1 := lt_of_le_of_ne (not_lt.1 hlt) hk.1
      refine List.pairwise_cons.2 ⟨fun j hj => ?_, h⟩
      rcases List.mem_cons.1 hj with rfl | hj
      · exact hle
      · exact hle.trans (hfirst j hj)

theorem Ordered.insert (h : m.Ordered) (k : String) (v : α) : (m.insert k v).Ordered := by
  unfold Keyed.insert contains
  cases hfind : m.find? k with
  | some w =>
    rw [Option.isSome_some, if_pos rfl, Ordered, keys_revalue]
    exact h
  | none =>
    rw [Option.isSome_none, if_neg Bool.false_ne_true]
    exact h.place (find?_eq_none.1 hfind) v

/-- Updates of some names, one after the other, add just these names. -/
theorem keys_foldl_update {γ : Type} (name : γ → String) (f : γ → Option α → α) (items : List γ)
    (m : Keyed α) (h : m.Ordered) :
    (items.foldl (fun m c => m.update (name c) (f c)) m).Ordered ∧
      ∀ j, j ∈ (items.foldl (fun m c => m.update (name c) (f c)) m).keys ↔
        j ∈ m.keys ∨ j ∈ items.map name := by
  induction items generalizing m with
  | nil =>
    refine ⟨h, fun j => ?_⟩
    rw [List.foldl_nil, List.map_nil]
    simp
  | cons c items ih =>
    obtain ⟨hordered, hmem⟩ := ih (m.update (name c) (f c)) (h.insert _ _)
    refine ⟨hordered, fun j => ?_⟩
    rw [List.foldl_cons, hmem, update, mem_keys_insert, List.map_cons, List.mem_cons]
    tauto

/-! ## Section 3: What is found is all there is -/

/-- Where names differ, the entries are what is found. -/
theorem mem_iff_find? (h : m.keys.Nodup) : (k, v) ∈ m ↔ m.find? k = some v := by
  induction m with
  | nil => simp
  | cons e m ih =>
    obtain ⟨hnew, hrest⟩ := List.nodup_cons.1 h
    rw [List.mem_cons, ih hrest, find?_cons]
    by_cases hk : k = e.1
    · -- The first entry has the name, so no later one does.
      have hnone : find? m k = none := find?_eq_none.2 (hk ▸ hnew)
      rw [if_pos hk, hnone, Option.some.injEq]
      simp [Prod.ext_iff, hk, eq_comm]
    · rw [if_neg hk]
      simp [Prod.ext_iff, hk]

theorem Ordered.ext (hm : m.Ordered) (hn : n.Ordered) (h : ∀ k, m.find? k = n.find? k) :
    m = n := by
  have hperm : m.Perm n := by
    refine (List.perm_ext_iff_of_nodup (List.Nodup.of_map _ hm.nodup)
      (List.Nodup.of_map _ hn.nodup)).2 fun e => ?_
    rw [mem_iff_find? hm.nodup, mem_iff_find? hn.nodup, h]
  refine hperm.eq_of_pairwise (fun a b _ _ hab hba => ?_) (List.pairwise_map.1 hm)
    (List.pairwise_map.1 hn)
  exact absurd hab (lt_asymm hba)

/-! ## Section 4: What stands under a name -/

theorem under_cons (k : String) (e : String × α) (m : List (String × α)) :
    under k (e :: m) = if e.1 = k then e.2 :: under k m else under k m := by
  unfold under
  rw [List.filter_cons]
  by_cases hk : e.1 = k <;> simp [hk]

theorem mem_under {m : List (String × α)} : v ∈ under k m ↔ (k, v) ∈ m := by
  unfold under
  simp

/-- Under distinct names stands at most one value each. -/
theorem under_eq_find? (h : m.keys.Nodup) (k : String) : under k m = (m.find? k).toList := by
  induction m with
  | nil => rfl
  | cons e m ih =>
    obtain ⟨hnew, hrest⟩ := List.nodup_cons.1 h
    rw [under_cons, find?_cons, ih hrest]
    by_cases hk : k = e.1
    · have hnone : find? m k = none := find?_eq_none.2 (hk ▸ hnew)
      rw [if_pos hk.symm, if_pos hk, hnone]
      rfl
    · rw [if_neg (Ne.symm hk), if_neg hk]

end BenchSweep.Keyed
