import BenchSweep.Proofs.Run.Maintains

/-! # Actions with a History

    What may be said of a step can depend on the steps before it.  An action
    conducts a property of histories if every step of it adds a disk with which
    the history still has the property; what is known of the history from step to
    step is handed on like a postcondition. -/

namespace BenchSweep.Act

variable {ε ε' α β : Type} {S P : List Disk → Prop} {Q : α → List Disk → Prop}
  {R : β → List Disk → Prop}

/-- From a history with `S` and `P`, the latest disk first, the action goes on to one
    with `S`, and with `Q` if it ends well. -/
def Conducts (S P : List Disk → Prop) (a : Act ε α) (Q : α → List Disk → Prop) : Prop :=
  ∀ w : World, S w.disks → P w.disks →
    S (a.perform w).2.disks ∧ ∀ x, (a.perform w).1 = .ok x → Q x (a.perform w).2.disks

/-- If the history of the first world has the property, so has that of the second. -/
def Extends (S : List Disk → Prop) (w w' : World) : Prop :=
  S w.disks → S w'.disks

theorem lasting_extends (S : List Disk → Prop) : Lasting (Extends S) where
  still heq hw := by
    rw [heq]
    exact hw
  trans h h' hw := h' (h hw)

/-- What is conducted from every history is kept. -/
theorem Conducts.respects {a : Act ε α} (h : Conducts S (fun _ => True) a Q) :
    a.Respects (Extends S) :=
  fun w hw => (h w hw trivial).1

theorem Conducts.mono {a : Act ε α} {P' : List Disk → Prop} {Q' : α → List Disk → Prop}
    (h : Conducts S P a Q) (hP : ∀ s, P' s → P s) (hQ : ∀ x s, Q x s → Q' x s) :
    Conducts S P' a Q' := by
  intro w hS hw
  obtain ⟨hS', hpost⟩ := h w hS (hP _ hw)
  exact ⟨hS', fun x hx => hQ x _ (hpost x hx)⟩

theorem conducts_pure {x : α} (h : ∀ s, P s → Q x s) : Conducts S P (pure x : Act ε α) Q := by
  intro w hS hw
  refine ⟨hS, fun y hy => ?_⟩
  rw [← Except.ok.inj hy]
  exact h _ hw

theorem conducts_fail (e : ε) : Conducts S P (fail e : Act ε α) Q :=
  fun _ hS _ => ⟨hS, nofun⟩

theorem conducts_look (f : Disk → Except ε α) : Conducts S P (look f) fun _ => P :=
  fun _ hS hw => ⟨hS, fun _ _ => hw⟩

theorem conducts_print (s : String) : Conducts S P (print s : Act ε Unit) fun _ => P :=
  fun _ hS hw => ⟨hS, fun _ _ => hw⟩

theorem conducts_ask (f : Nat → α) : Conducts S P (ask f : Act ε α) fun _ => P :=
  fun _ hS hw => ⟨hS, fun _ _ => hw⟩

theorem conducts_change {Q : List Disk → Prop} {f : Disk → Except ε Disk}
    (h : ∀ d older d', S (d :: older) → P (d :: older) → f d = .ok d' →
      S (d' :: d :: older) ∧ Q (d' :: d :: older)) :
    Conducts S P (change f) fun _ => Q := by
  intro w hS hw
  rw [perform_change]
  cases hrun : f w.disk with
  | error e => exact ⟨hS, nofun⟩
  | ok d =>
    obtain ⟨hS', hQ⟩ := h w.disk w.past d hS hw hrun
    exact ⟨hS', fun _ _ => hQ⟩

theorem conducts_bind {a : Act ε α} {f : α → Act ε β} (ha : Conducts S P a Q)
    (hf : ∀ x, Conducts S (Q x) (f x) R) : Conducts S P (a >>= f) R := by
  intro w hS hw
  obtain ⟨hS', hpost⟩ := ha w hS hw
  rw [perform_bind]
  cases hrun : a.perform w with
  | mk result w' =>
    rw [hrun] at hS' hpost
    cases result with
    | error e => exact ⟨hS', nofun⟩
    | ok x => exact hf x w' hS' (hpost x rfl)

/-- How an action ended is known only if it ended well. -/
theorem conducts_outcome {a : Act ε α} (ha : Conducts S P a Q) :
    Conducts S P (outcome a : Act ε' (Except ε α)) fun result s => ∀ x, result = .ok x → Q x s := by
  intro w hS hw
  obtain ⟨hS', hpost⟩ := ha w hS hw
  refine ⟨hS', fun result hresult x hx => ?_⟩
  rw [← Except.ok.inj hresult] at hx
  exact hpost x hx

theorem conducts_blame {a : Act ε α} (g : ε → ε') (ha : Conducts S P a Q) :
    Conducts S P (blame g a) Q := by
  intro w hS hw
  obtain ⟨hS', hpost⟩ := ha w hS hw
  refine ⟨hS', fun x hx => hpost x ?_⟩
  rw [perform_blame] at hx
  cases hrun : (a.perform w).1 with
  | error e =>
    rw [hrun] at hx
    cases hx
  | ok y =>
    rw [hrun] at hx
    exact congrArg Except.ok (Except.ok.inj hx)

end BenchSweep.Act
