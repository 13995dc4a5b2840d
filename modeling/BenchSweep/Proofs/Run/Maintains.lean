import BenchSweep.Run.World

/-! # What Holds Throughout an Action

    An action passes through disks, one for each of its steps.  It maintains a
    property if the property holds of all of them whenever it holds where the
    action begins.  Every combinator has one rule, so a program maintains what
    each of its steps preserves. -/

namespace BenchSweep.Act

variable {ε ε' α β : Type} {I J : Disk → Prop} {T : World → World → Prop} {w : World}

/-! ## Section 1: Relations that last -/

/-- The relation of a world to one that comes after it goes on from action to
    action, and is about nothing but the disks. -/
structure Lasting (T : World → World → Prop) : Prop where
  still : ∀ {w w' : World}, w'.disks = w.disks → T w w'
  trans : ∀ {w w' w'' : World}, T w w' → T w' w'' → T w w''

/-- The action leads from every world to one that is related to it. -/
def Respects (T : World → World → Prop) (a : Act ε α) : Prop :=
  ∀ w : World, T w (a.perform w).2

/-- First one action and then, if it ends well, another one. -/
theorem Lasting.bind (h : Lasting T) {a : Act ε α} {f : α → Act ε β} (ha : T w (a.perform w).2)
    (hf : ∀ x, (a.perform w).1 = .ok x → T (a.perform w).2 ((f x).perform (a.perform w).2).2) :
    T w ((a >>= f).perform w).2 := by
  rw [perform_bind]
  cases hrun : a.perform w with
  | mk r w' =>
    rw [hrun] at ha hf
    cases r with
    | error e => exact ha
    | ok x => exact h.trans ha (hf x rfl)

theorem respects_bind (h : Lasting T) {a : Act ε α} {f : α → Act ε β} (ha : a.Respects T)
    (hf : ∀ x, (f x).Respects T) : (a >>= f).Respects T :=
  fun w => h.bind (ha w) fun x _ => hf x _

theorem respects_pure (h : Lasting T) (x : α) : (pure x : Act ε α).Respects T :=
  fun _ => h.still rfl

theorem respects_print (h : Lasting T) (s : String) : (print s : Act ε Unit).Respects T :=
  fun _ => h.still rfl

theorem respects_ask (h : Lasting T) (f : Nat → α) : (ask f : Act ε α).Respects T :=
  fun _ => h.still rfl

theorem respects_fail (h : Lasting T) (e : ε) : (fail e : Act ε α).Respects T :=
  fun _ => h.still rfl

/-! ## Section 2: Passing through disks -/

/-- From a world the action goes on through disks with a property, the latest
    first. -/
def Passes (I : Disk → Prop) (a : Act ε α) (w : World) : Prop :=
  ∃ later, (a.perform w).2.disks = later ++ w.disks ∧ ∀ d ∈ later, I d

/-- The action passes through disks with the property wherever it begins with it. -/
def Maintains (I : Disk → Prop) (a : Act ε α) : Prop :=
  ∀ w : World, I w.disk → a.Passes I w

/-- If the disk of a world has the property, so have those that came after it. -/
def Continues (I : Disk → Prop) (w w' : World) : Prop :=
  I w.disk → ∃ later, w'.disks = later ++ w.disks ∧ ∀ d ∈ later, I d

/-- The disks of a world that comes after another one. -/
theorem disk_of_disks {w w' : World} {later : List Disk} (h : w'.disks = later ++ w.disks) :
    w'.disk = w.disk ∨ w'.disk ∈ later := by
  cases later with
  | nil => exact Or.inl (List.cons.inj h).1
  | cons d later =>
    have hd : w'.disk = d := (List.cons.inj h).1
    exact Or.inr (by rw [hd]; exact List.mem_cons_self)

/-- A property of all the disks that are passed holds at the end. -/
theorem disk_of_passed {w w' : World} {later : List Disk} (h : w'.disks = later ++ w.disks)
    (hw : I w.disk) (hall : ∀ d ∈ later, I d) : I w'.disk := by
  rcases disk_of_disks h with hd | hd
  · rw [hd]
    exact hw
  · exact hall _ hd

theorem Passes.disk {a : Act ε α} (h : a.Passes I w) (hw : I w.disk) : I (a.perform w).2.disk := by
  obtain ⟨later, heq, hall⟩ := h
  exact disk_of_passed heq hw hall

theorem Passes.mono {a : Act ε α} (h : a.Passes I w) (hIJ : ∀ d, I d → J d) : a.Passes J w := by
  obtain ⟨later, heq, hall⟩ := h
  exact ⟨later, heq, fun d hd => hIJ d (hall d hd)⟩

/-- An action that leaves the disk and its past alone. -/
theorem passes_of_still {a : Act ε α} (hdisk : (a.perform w).2.disk = w.disk)
    (hpast : (a.perform w).2.past = w.past) : a.Passes I w := by
  refine ⟨[], ?_, nofun⟩
  rw [World.disks, hdisk, hpast]
  rfl

theorem lasting_passes (I : Disk → Prop) :
    Lasting fun w w' => ∃ later, w'.disks = later ++ w.disks ∧ ∀ d ∈ later, I d where
  still h := ⟨[], h, nofun⟩
  trans := by
    rintro w w' w'' ⟨first, hfirst, hI⟩ ⟨second, hsecond, hI'⟩
    refine ⟨second ++ first, ?_, ?_⟩
    · rw [hsecond, hfirst, List.append_assoc]
    · intro d hd
      exact (List.mem_append.1 hd).elim (hI' d) (hI d)

theorem lasting_continues (I : Disk → Prop) : Lasting (Continues I) where
  still h _ := (lasting_passes I).still h
  trans := by
    intro w w' w'' h h' hw
    obtain ⟨first, hfirst, hI⟩ := h hw
    exact (lasting_passes I).trans ⟨first, hfirst, hI⟩ (h' (disk_of_passed hfirst hw hI))

theorem passes_bind {a : Act ε α} {f : α → Act ε β} (ha : a.Passes I w)
    (hf : ∀ x, (a.perform w).1 = .ok x → (f x).Passes I (a.perform w).2) :
    (a >>= f).Passes I w :=
  (lasting_passes I).bind ha hf

/-! ## Section 3: One rule for each combinator -/

theorem Maintains.disk {a : Act ε α} (h : a.Maintains I) (hw : I w.disk) :
    I (a.perform w).2.disk :=
  (h w hw).disk hw

theorem maintains_pure (x : α) : (pure x : Act ε α).Maintains I :=
  fun _ _ => passes_of_still rfl rfl

theorem maintains_look (f : Disk → Except ε α) : (look f).Maintains I :=
  fun _ _ => passes_of_still rfl rfl

theorem maintains_print (s : String) : (print s : Act ε Unit).Maintains I :=
  fun _ _ => passes_of_still rfl rfl

theorem maintains_ask (f : Nat → α) : (ask f : Act ε α).Maintains I :=
  fun _ _ => passes_of_still rfl rfl

theorem maintains_fail (e : ε) : (fail e : Act ε α).Maintains I :=
  fun _ _ => passes_of_still rfl rfl

theorem maintains_change {f : Disk → Except ε Disk}
    (hf : ∀ d d', I d → f d = .ok d' → I d') : (change f).Maintains I := by
  intro w hw
  unfold Passes
  rw [perform_change]
  cases hrun : f w.disk with
  | error e => exact ⟨[], rfl, nofun⟩
  | ok d =>
    refine ⟨[d], rfl, ?_⟩
    intro d' hd'
    rw [List.mem_singleton.1 hd']
    exact hf _ _ hw hrun

theorem maintains_bind {a : Act ε α} {f : α → Act ε β} (ha : a.Maintains I)
    (hf : ∀ x, (f x).Maintains I) : (a >>= f).Maintains I :=
  fun w hw => passes_bind (ha w hw) fun x _ => hf x _ (ha.disk hw)

theorem maintains_outcome {a : Act ε α} (ha : a.Maintains I) :
    (outcome a : Act ε' (Except ε α)).Maintains I :=
  ha

theorem maintains_blame {a : Act ε α} (f : ε → ε') (ha : a.Maintains I) :
    (blame f a).Maintains I :=
  ha

/-! ## Section 4: What an action came to -/

/-- A sequence of actions ended well: so did each of them. -/
theorem perform_bind_ok {a : Act ε α} {f : α → Act ε β} {y : β}
    (h : ((a >>= f).perform w).1 = .ok y) :
    ∃ x, (a.perform w).1 = .ok x ∧ ((f x).perform (a.perform w).2).1 = .ok y ∧
      ((a >>= f).perform w).2 = ((f x).perform (a.perform w).2).2 := by
  rw [perform_bind] at h ⊢
  cases hrun : a.perform w with
  | mk r w' =>
    rw [hrun] at h
    cases r with
    | error e => cases h
    | ok x => exact ⟨x, rfl, h, rfl⟩

end BenchSweep.Act
