import BenchSweep.Run.World

/-! # What an Action Comes To

    From every disk with some property an action ends well on a disk with
    another one, or fails on a disk with a third.  Every combinator has one
    rule; the text shown and the number of questions do not matter. -/

namespace BenchSweep.Act

variable {ε ε' α β : Type} {P : Disk → Prop} {Q : α → Disk → Prop} {R : β → Disk → Prop}
  {E : ε → Disk → Prop}

/-- What holds of a result and the disk that comes with it. -/
def Post (Q : α → Disk → Prop) (E : ε → Disk → Prop) : Except ε α → Disk → Prop
  | .ok x, d => Q x d
  | .error e, d => E e d

/-- From a disk with `P` the action ends with `Q`, or with `E` if it fails. -/
def Meets (P : Disk → Prop) (a : Act ε α) (Q : α → Disk → Prop) (E : ε → Disk → Prop) : Prop :=
  ∀ w : World, P w.disk → Post Q E (a.perform w).1 (a.perform w).2.disk

theorem Meets.ok {a : Act ε α} (h : Meets P a Q E) {w : World} (hw : P w.disk) {x : α}
    (hx : (a.perform w).1 = .ok x) : Q x (a.perform w).2.disk := by
  have hpost := h w hw
  rw [hx] at hpost
  exact hpost

theorem Meets.error {a : Act ε α} (h : Meets P a Q E) {w : World} (hw : P w.disk) {e : ε}
    (he : (a.perform w).1 = .error e) : E e (a.perform w).2.disk := by
  have hpost := h w hw
  rw [he] at hpost
  exact hpost

theorem Meets.mono {a : Act ε α} {P' : Disk → Prop} {Q' : α → Disk → Prop} {E' : ε → Disk → Prop}
    (h : Meets P a Q E) (hP : ∀ d, P' d → P d) (hQ : ∀ x d, Q x d → Q' x d)
    (hE : ∀ e d, E e d → E' e d) : Meets P' a Q' E' := by
  intro w hw
  have hpost := h w (hP _ hw)
  cases hresult : (a.perform w).1 with
  | ok x =>
    rw [hresult] at hpost
    exact hQ x _ hpost
  | error e =>
    rw [hresult] at hpost
    exact hE e _ hpost

/-- A fact that does not depend on the disk may be used. -/
theorem Meets.given {a : Act ε α} {φ : Prop} (h : φ → Meets P a Q E) :
    Meets (fun d => P d ∧ φ) a Q E :=
  fun w hw => h hw.2 w hw.1

/-- The disk at the beginning may be named. -/
theorem Meets.pointwise {a : Act ε α} (h : ∀ d, P d → Meets (· = d) a Q E) : Meets P a Q E :=
  fun w hw => h w.disk hw w rfl

theorem meets_pure {x : α} (h : ∀ d, P d → Q x d) : Meets P (pure x : Act ε α) Q E :=
  fun w hw => h w.disk hw

theorem meets_fail {e : ε} (h : ∀ d, P d → E e d) : Meets P (fail e : Act ε α) Q E :=
  fun w hw => h w.disk hw

theorem meets_print {Q : Unit → Disk → Prop} {s : String} (h : ∀ d, P d → Q () d) :
    Meets P (print s : Act ε Unit) Q E :=
  fun w hw => h w.disk hw

theorem meets_ask {f : Nat → α} (h : ∀ n d, P d → Q (f n) d) :
    Meets P (ask f : Act ε α) Q E :=
  fun w hw => h w.asked w.disk hw

theorem meets_look {f : Disk → Except ε α} (h : ∀ d, P d → Post Q E (f d) d) :
    Meets P (look f) Q E :=
  fun w hw => h w.disk hw

theorem meets_change {Q : Unit → Disk → Prop} {f : Disk → Except ε Disk}
    (h : ∀ d, P d → match f d with
      | .ok d' => Q () d'
      | .error e => E e d) : Meets P (change f) Q E := by
  intro w hw
  have hpost := h w.disk hw
  rw [perform_change]
  cases hrun : f w.disk with
  | ok d =>
    rw [hrun] at hpost
    exact hpost
  | error e =>
    rw [hrun] at hpost
    exact hpost

theorem meets_bind {a : Act ε α} {f : α → Act ε β} (ha : Meets P a Q E)
    (hf : ∀ x, Meets (Q x) (f x) R E) : Meets P (a >>= f) R E := by
  intro w hw
  have hpost := ha w hw
  rw [perform_bind]
  cases hrun : a.perform w with
  | mk result w' =>
    rw [hrun] at hpost
    cases result with
    | ok x => exact hf x w' hpost
    | error e => exact hpost

theorem meets_outcome {a : Act ε α} {Q : Except ε α → Disk → Prop} {E' : ε' → Disk → Prop}
    (ha : Meets P a (fun x => Q (.ok x)) fun e => Q (.error e)) :
    Meets P (outcome a : Act ε' (Except ε α)) Q E' := by
  intro w hw
  have hpost := ha w hw
  rw [perform_outcome]
  cases hrun : (a.perform w).1 with
  | ok x =>
    rw [hrun] at hpost
    exact hpost
  | error e =>
    rw [hrun] at hpost
    exact hpost

theorem meets_blame {a : Act ε α} {g : ε → ε'} {E' : ε' → Disk → Prop}
    (ha : Meets P a Q fun e => E' (g e)) : Meets P (blame g a) Q E' := by
  intro w hw
  have hpost := ha w hw
  rw [perform_blame]
  cases hrun : (a.perform w).1 with
  | ok x =>
    rw [hrun] at hpost
    exact hpost
  | error e =>
    rw [hrun] at hpost
    exact hpost

end BenchSweep.Act
