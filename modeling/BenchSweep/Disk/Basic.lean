import BenchSweep.Disk.Path

/-! # Disks

    A disk is a finite collection of files and directories at their places.
    The view is `node?`; every operation says what it does to it. -/

namespace BenchSweep

/-- What stands at a place. -/
inductive FileNode where
  | file (content : ByteArray)
  | dir

/-- Files are the same if their bytes are. -/
instance : DecidableEq FileNode
  | .dir, .dir => isTrue rfl
  | .dir, .file _ => isFalse nofun
  | .file _, .dir => isFalse nofun
  | .file a, .file b =>
    match decEq a.data b.data with
    | isTrue h => isTrue (congrArg FileNode.file (ByteArray.ext h))
    | isFalse h => isFalse fun e => h (congrArg ByteArray.data (FileNode.file.inj e))

/-- Files and directories, and the place where relative paths begin. -/
structure Disk where
  here : Location
  nodes : List (Location × FileNode)

namespace Disk

/-- What stands at a place.  The root is always a directory. -/
def node? (d : Disk) (l : Location) : Option FileNode :=
  if l = [] then some .dir else d.nodes.lookup l

/-- The disk without what stands at a place. -/
def erase (d : Disk) (l : Location) : Disk :=
  { d with nodes := d.nodes.filter fun e => e.1 ≠ l }

/-- The disk with a node at a place. -/
def put (d : Disk) (l : Location) (n : FileNode) : Disk :=
  { d with nodes := (l, n) :: (d.erase l).nodes }

/-- The disk without what stands at a place and below it. -/
def prune (d : Disk) (l : Location) : Disk :=
  { d with nodes := d.nodes.filter fun e => !l.isSuffixOf e.1 }

/-- The names of what stands directly below a place. -/
def namesIn (d : Disk) (l : Location) : List String :=
  d.nodes.filterMap fun e =>
    match e.1 with
    | name :: above => if above = l then some name else none
    | [] => none

/-- How many nodes the disk has. -/
def size (d : Disk) : Nat :=
  d.nodes.length

/-- The directories on the way to a place, and at it. -/
def wayTo : Location → List (Location × FileNode)
  | [] => []
  | s :: l => (s :: l, .dir) :: wayTo l

/-- A disk with nothing but the directories on the way to `here`. -/
def emptyAt (here : Location) : Disk where
  here
  nodes := wayTo here

/-! ## Section 1: What the operations do to the view -/

@[simp] theorem put_here (d : Disk) (l : Location) (n : FileNode) : (d.put l n).here = d.here := rfl

@[simp] theorem erase_here (d : Disk) (l : Location) : (d.erase l).here = d.here := rfl

theorem node?_eq (d : Disk) {l : Location} (h : l ≠ []) : d.node? l = d.nodes.lookup l :=
  if_neg h

@[simp] theorem node?_root (d : Disk) : d.node? [] = some .dir := rfl

theorem lookup_filter_self (nodes : List (Location × FileNode)) (l : Location) :
    (nodes.filter fun e => e.1 ≠ l).lookup l = none := by
  rw [List.lookup_eq_none_iff]
  intro e he
  have := (List.mem_filter.1 he).2
  simp only [ne_eq, decide_not, Bool.not_eq_true', decide_eq_false_iff_not] at this
  exact bne_iff_ne.2 fun h => this h.symm

theorem lookup_filter_ne (nodes : List (Location × FileNode)) {l m : Location} (h : m ≠ l) :
    (nodes.filter fun e => e.1 ≠ l).lookup m = nodes.lookup m := by
  induction nodes with
  | nil => rfl
  | cons e nodes ih =>
    obtain ⟨a, n⟩ := e
    rw [List.filter_cons]
    by_cases hm : m = a
    · subst hm
      rw [if_pos (by simpa using h)]
      simp
    · have hm' : (m == a) = false := beq_eq_false_iff_ne.2 hm
      split <;> simp only [List.lookup_cons, hm', ih]

@[simp] theorem node?_erase_self (d : Disk) {l : Location} (h : l ≠ []) :
    (d.erase l).node? l = none := by
  rw [node?_eq _ h]
  exact lookup_filter_self d.nodes l

@[simp] theorem node?_erase_ne (d : Disk) {l m : Location} (h : m ≠ l) :
    (d.erase l).node? m = d.node? m := by
  unfold node?
  split
  · rfl
  · exact lookup_filter_ne d.nodes h

@[simp] theorem node?_prune_self (d : Disk) {l : Location} (h : l ≠ []) :
    (d.prune l).node? l = none := by
  rw [node?_eq _ h, List.lookup_eq_none_iff]
  intro e he
  have hs := (List.mem_filter.1 he).2
  refine bne_iff_ne.2 fun hl => ?_
  rw [hl, Bool.not_eq_true', List.isSuffixOf_iff_suffix.2 (List.suffix_refl _)] at hs
  exact Bool.noConfusion hs

@[simp] theorem node?_put_self (d : Disk) {l : Location} (n : FileNode) (h : l ≠ []) :
    (d.put l n).node? l = some n := by
  simp [node?_eq _ h, put]

@[simp] theorem node?_put_ne (d : Disk) {l m : Location} (n : FileNode) (h : m ≠ l) :
    (d.put l n).node? m = d.node? m := by
  unfold node?
  split
  · rfl
  · have hm : (m == l) = false := beq_eq_false_iff_ne.2 h
    simp only [put, List.lookup_cons, hm]
    exact lookup_filter_ne d.nodes h

end Disk

end BenchSweep
