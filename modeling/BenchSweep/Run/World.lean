import BenchSweep.Disk.Access

/-! # Worlds and Actions

    What a sweep acts on: the disk, with every disk it has been through, and
    the text shown to the operator.  An action changes the disk in single
    steps, and each step happens as a whole or not at all; so the disks in a
    world are exactly those that a crash could leave behind. -/

namespace BenchSweep

/-- The state that actions change. -/
structure World where
  disk : Disk
  /-- The disks before this one, the latest first. -/
  past : List Disk
  /-- The text shown to the operator. -/
  shown : String
  /-- How often the surroundings were asked for something. -/
  asked : Nat

namespace World

/-- A world in which nothing has happened. -/
def fresh (d : Disk) : World where
  disk := d
  past := []
  shown := ""
  asked := 0

/-- One step of the disk. -/
def advance (w : World) (d : Disk) : World :=
  { w with disk := d, past := w.disk :: w.past }

/-- Every disk so far, the latest first. -/
def disks (w : World) : List Disk :=
  w.disk :: w.past

@[simp] theorem advance_disk (w : World) (d : Disk) : (w.advance d).disk = d := rfl

@[simp] theorem disks_advance (w : World) (d : Disk) :
    (w.advance d).disks = d :: w.disks := rfl

end World

/-- What changes a world and ends with a result or an error. -/
abbrev Act (ε α : Type) := ExceptT ε (StateM World) α

namespace Act

variable {ε ε' α : Type}

/-- Runs an action in a world. -/
def perform (a : Act ε α) (w : World) : Except ε α × World :=
  (ExceptT.run a).run w

/-! ## Section 1: Actions -/

/-- Looks at the disk. -/
def look (f : Disk → Except ε α) : Act ε α :=
  ExceptT.mk fun w => (f w.disk, w)

/-- Changes the disk in one step, unless it is refused. -/
def change (f : Disk → Except ε Disk) : Act ε Unit :=
  ExceptT.mk fun w =>
    match f w.disk with
    | .ok d => (.ok (), w.advance d)
    | .error e => (.error e, w)

/-- Shows a text to the operator. -/
def print (s : String) : Act ε Unit :=
  ExceptT.mk fun w => (.ok (), { w with shown := w.shown ++ s })

/-- Shows a text on a line of its own. -/
def printLine (s : String) : Act ε Unit :=
  print (s ++ "\n")

/-- Asks the surroundings, whose answer may depend on how often they were asked. -/
def ask (f : Nat → α) : Act ε α :=
  ExceptT.mk fun w => (.ok (f w.asked), { w with asked := w.asked + 1 })

/-- Ends with an error. -/
def fail (e : ε) : Act ε α :=
  ExceptT.mk fun w => (.error e, w)

/-- Runs an action and hands over how it ended, error or not. -/
def outcome (a : Act ε α) : Act ε' (Except ε α) :=
  ExceptT.mk fun w => let (r, w') := a.perform w; (.ok r, w')

/-- Runs an action, with its error in other terms. -/
def blame (f : ε → ε') (a : Act ε α) : Act ε' α :=
  ExceptT.mk fun w => let (r, w') := a.perform w; (r.mapError f, w')

/-! ## Section 2: What actions do -/

@[simp] theorem perform_look (f : Disk → Except ε α) (w : World) :
    (look f).perform w = (f w.disk, w) := rfl

@[simp] theorem perform_print (s : String) (w : World) :
    (print s : Act ε Unit).perform w = (.ok (), { w with shown := w.shown ++ s }) := rfl

@[simp] theorem perform_ask (f : Nat → α) (w : World) :
    (ask f : Act ε α).perform w = (.ok (f w.asked), { w with asked := w.asked + 1 }) := rfl

@[simp] theorem perform_fail (e : ε) (w : World) :
    (fail e : Act ε α).perform w = (.error e, w) := rfl

theorem perform_change (f : Disk → Except ε Disk) (w : World) :
    (change f).perform w =
      match f w.disk with
      | .ok d => (.ok (), w.advance d)
      | .error e => (.error e, w) := rfl

@[simp] theorem perform_pure (a : α) (w : World) :
    (pure a : Act ε α).perform w = (.ok a, w) := rfl

theorem perform_bind {β : Type} (a : Act ε α) (f : α → Act ε β) (w : World) :
    (a >>= f).perform w =
      match a.perform w with
      | (.ok x, w') => (f x).perform w'
      | (.error e, w') => (.error e, w') := by
  show (ExceptT.run (a >>= f)).run w = _
  unfold perform
  cases h : (ExceptT.run a).run w with
  | mk r w' =>
    have h' : a w = (r, w') := h
    cases r <;> simp [bind, ExceptT.bind, ExceptT.bindCont, ExceptT.run, ExceptT.mk, StateT.bind,
      StateT.run, h']
    all_goals rfl

@[simp] theorem perform_outcome (a : Act ε α) (w : World) :
    (outcome a : Act ε' (Except ε α)).perform w = (.ok (a.perform w).1, (a.perform w).2) := rfl

@[simp] theorem perform_blame (f : ε → ε') (a : Act ε α) (w : World) :
    (blame f a).perform w = ((a.perform w).1.mapError f, (a.perform w).2) := rfl

end Act

end BenchSweep
