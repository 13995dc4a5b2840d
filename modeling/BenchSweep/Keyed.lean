/-! # Keyed Collections

    Finite maps from names to values, listed in the order of their names.
    Reports are written in this order, so it belongs to the collection.  The
    view is `find?`; every operation says what it does to it. -/

namespace BenchSweep

/-- Values under distinct names, in the order of the names. -/
abbrev Keyed (α : Type) := List (String × α)

namespace Keyed

variable {α β : Type}

/-- The value under a name. -/
def find? (m : Keyed α) (k : String) : Option α :=
  List.lookup k m

/-- Whether a name is present. -/
def contains (m : Keyed α) (k : String) : Bool :=
  (m.find? k).isSome

/-- The names, in order. -/
def keys (m : Keyed α) : List String :=
  List.map Prod.fst m

/-- Places a new name behind all smaller ones. -/
def place (k : String) (v : α) : Keyed α → Keyed α
  | [] => [(k, v)]
  | e :: rest => if e.1 < k then e :: place k v rest else (k, v) :: e :: rest

/-- Replaces the value under a name that is present. -/
def revalue (k : String) (v : α) (m : Keyed α) : Keyed α :=
  List.map (fun e => if e.1 = k then (e.1, v) else e) m

/-- The collection with `v` under `k`. -/
def insert (m : Keyed α) (k : String) (v : α) : Keyed α :=
  if m.contains k then revalue k v m else place k v m

/-- Changes the value under `k`, which may be absent so far. -/
def update (m : Keyed α) (k : String) (f : Option α → α) : Keyed α :=
  m.insert k (f (m.find? k))

/-- Applies a function to every value. -/
def mapValues (f : α → β) (m : Keyed α) : Keyed β :=
  List.map (fun e => (e.1, f e.2)) m

/-- A collection from a list of entries; a later entry replaces an earlier one. -/
def ofList (entries : List (String × α)) : Keyed α :=
  entries.foldl (fun m e => m.insert e.1 e.2) []

/-! ## Section 1: What the operations do to the view -/

@[simp] theorem find?_nil (k : String) : find? ([] : Keyed α) k = none := rfl

theorem find?_cons (e : String × α) (m : Keyed α) (k : String) :
    find? (e :: m) k = if k = e.1 then some e.2 else find? m k := by
  obtain ⟨a, b⟩ := e
  by_cases h : k = a
  · simp [find?, h]
  · simp [find?, List.lookup_cons, h, beq_eq_false_iff_ne.2 h]

theorem find?_place_self (m : Keyed α) (k : String) (v : α) (h : find? m k = none) :
    find? (place k v m) k = some v := by
  induction m with
  | nil => simp [place, find?_cons]
  | cons e m ih =>
    rw [find?_cons] at h
    split at h
    · cases h
    · rename_i hk
      rw [place]
      split
      · rw [find?_cons, if_neg hk, ih h]
      · simp [find?_cons]

theorem find?_place_ne (m : Keyed α) (k j : String) (v : α) (h : j ≠ k) :
    find? (place k v m) j = find? m j := by
  induction m with
  | nil => simp [place, find?_cons, h]
  | cons e m ih =>
    rw [place]
    split
    · simp only [find?_cons, ih]
    · rw [find?_cons, if_neg h]

theorem find?_revalue (m : Keyed α) (k j : String) (v : α) :
    find? (revalue k v m) j = if j = k then (find? m j).map fun _ => v else find? m j := by
  induction m with
  | nil => simp [revalue]
  | cons e m ih =>
    have hcons : revalue k v (e :: m) =
        (if e.1 = k then (e.1, v) else e) :: revalue k v m := rfl
    rw [hcons, find?_cons, ih, find?_cons]
    by_cases hj : j = k <;> by_cases he : e.1 = k <;> by_cases hje : j = e.1 <;>
      simp_all

@[simp] theorem find?_insert_self (m : Keyed α) (k : String) (v : α) :
    find? (m.insert k v) k = some v := by
  unfold insert contains
  cases h : m.find? k with
  | none => simpa using find?_place_self m k v h
  | some w => simp [find?_revalue, h]

@[simp] theorem find?_insert_ne (m : Keyed α) (k j : String) (v : α) (h : j ≠ k) :
    find? (m.insert k v) j = find? m j := by
  unfold insert
  split
  · simp [find?_revalue, h]
  · exact find?_place_ne m k j v h

@[simp] theorem find?_update_self (m : Keyed α) (k : String) (f : Option α → α) :
    find? (m.update k f) k = some (f (m.find? k)) :=
  find?_insert_self ..

@[simp] theorem find?_update_ne (m : Keyed α) (k j : String) (f : Option α → α) (h : j ≠ k) :
    find? (m.update k f) j = find? m j :=
  find?_insert_ne _ _ _ _ h

@[simp] theorem find?_mapValues (f : α → β) (m : Keyed α) (k : String) :
    find? (m.mapValues f) k = (find? m k).map f := by
  induction m with
  | nil => rfl
  | cons e m ih =>
    have hcons : mapValues f (e :: m) = (e.1, f e.2) :: mapValues f m := rfl
    rw [hcons, find?_cons, ih, find?_cons]
    split <;> simp

end Keyed

end BenchSweep
