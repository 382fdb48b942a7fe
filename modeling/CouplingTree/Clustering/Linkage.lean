import CouplingTree.Clustering.Basic

/-!
# Linkage rows

A clustering that ended in one tree has a linkage: one row for each merge, with the two clusters joined, their distance
`1 - coupling` and the size of the result. Row `k` stands for cluster `n + k` of a tree over `n` classes.

`LinkageRow.leaves` reads a tree back from rows, which may also show no tree at all, and `leafOrder` lists the leaves of
a clustering from left to right.
-/

namespace CouplingTree

structure LinkageRow (α : Type) where
  /-- The clusters joined; a result that was not joined from others has none. -/
  left : Option Int
  right : Option Int
  distance : α
  size : Nat

/-- The merges do not make one tree. -/
structure NoSingleTree where
  classes : Nat
  merges : Nat
deriving DecidableEq, Repr

def NoSingleTree.message (e : NoSingleTree) : String :=
  s!"Linkage needs a single tree over {e.classes} classes; run stopped after {e.merges} merges"

/-- Why linkage rows cannot be laid out as a tree. -/
inductive LayoutError
  /-- A number of a cluster has no double. -/
  | numberTooLarge
  | unnamedLeaf
  | negativeIndex
  | negativeDistance
  | excessiveSize
  | usedBeforeFormed
  | usedTwice
  /-- The number that stands for no tree. -/
  | noTree
  /-- A number below all leaves. -/
  | belowLeaves
  | absent
  /-- There are so many rows, and none at this place. -/
  | noRow (place rows : Nat)
  | endless
deriving DecidableEq, Repr

def LayoutError.message : LayoutError → String
  | numberTooLarge => "int too large to convert to float"
  | unnamedLeaf => "list index out of range"
  | negativeIndex => "Linkage 'Z' contains negative indices."
  | negativeDistance => "Linkage 'Z' contains negative distances."
  | excessiveSize => "Linkage 'Z' contains excessive observations in a cluster"
  | usedBeforeFormed => "Linkage 'Z' uses non-singleton cluster before it is formed."
  | usedTwice => "Linkage 'Z' uses the same cluster more than once."
  | noTree => "Invalid root cluster index i."
  | belowLeaves => "list index out of range"
  | absent => "cannot fit 'int' into an index-sized integer"
  | noRow place rows => s!"index {place} is out of bounds for axis 0 with size {rows}"
  | endless => "maximum recursion depth exceeded"

namespace LinkageRow

variable {α : Type}

/-- Bounds the numbers of clusters that can be followed, of either sign. -/
def numberBound : Nat := 0x8000000000000000

/-- The clusters that a row joins. -/
def ids (row : LinkageRow α) : List Int := row.left.toList ++ row.right.toList

/-- Whether a row joins only clusters below `next`. A row that lacks one of them is not looked at. -/
def joinsBelow (next : Int) (row : LinkageRow α) : Bool :=
  match row.left, row.right with
  | some left, some right => decide (left < next ∧ right < next)
  | _, _ => true

/-- Whether each row joins only leaves and results of rows before it, the first row standing for cluster `next`. -/
def formedInOrder : Nat → List (LinkageRow α) → Bool
  | _, [] => true
  | next, row :: rest => row.joinsBelow next && formedInOrder (next + 1) rest

/-- Whether all numbers of a list differ. -/
def allDifferent : List Int → Bool
  | [] => true
  | x :: rest => !rest.contains x && allDifferent rest

/-- The number of a cluster, if there is one and it fits into 64 bits with a sign. -/
def fitting (id : Option Int) : Option Int :=
  id.filter fun id => decide (-(numberBound : Int) < id ∧ id < numberBound)

/-- The leaves below a cluster from left to right, in a tree with one more leaf than there are rows. Both parts of a
cluster are looked up before either is followed. -/
def leavesBelow (rows : List (LinkageRow α)) : Nat → Option Int → Except LayoutError (List Nat)
  | _, none => .error .absent
  | 0, some _ => .error .endless
  | fuel + 1, some id =>
    if id = -1 then .error .noTree
    else if id < 0 then .error .belowLeaves
    else if id ≤ rows.length then .ok [id.toNat]
    else do
      let row ← rowOf id.toNat
      checkRow (fitting row.left)
      checkRow (fitting row.right)
      let ls ← leavesBelow rows fuel (fitting row.left)
      let rs ← leavesBelow rows fuel (fitting row.right)
      .ok (ls ++ rs)
where
  /-- The row of a cluster that is no leaf. -/
  rowOf (id : Nat) : Except LayoutError (LinkageRow α) :=
    match rows[id - (rows.length + 1)]? with
    | some row => .ok row
    | none => .error (.noRow (id - (rows.length + 1)) rows.length)
  checkRow : Option Int → Except LayoutError Unit
    | some id => if id ≤ rows.length then .ok () else (rowOf id.toNat).map fun _ => ()
    | none => .ok ()

variable [Scalar α]

/-- What is wrong with rows before they are followed. A single row is not looked at. -/
def fault? (rows : List (LinkageRow α)) : Option LayoutError :=
  if rows.length ≤ 1 then none
  else if rows.any fun row => row.ids.any fun id => decide (id < 0) then some .negativeIndex
  else if rows.any fun row => decide (row.distance < 0) then some .negativeDistance
  else if rows.any fun row => decide (rows.length + 1 < row.size) then some .excessiveSize
  else if !formedInOrder (rows.length + 1) rows then some .usedBeforeFormed
  else if !allDifferent (rows.flatMap ids) then some .usedTwice
  else none

/-- The leaves of the tree of some rows from left to right. On no way down a tree are there more clusters than rows and a
leaf. -/
def leaves (rows : List (LinkageRow α)) : Except LayoutError (List Nat) :=
  match fault? rows with
  | some e => .error e
  | none => leavesBelow rows (rows.length + 1) (some (2 * rows.length))

end LinkageRow

/-- The row of a merge. -/
def Merge.row {α : Type} [Scalar α] (m : Merge α) : LinkageRow α where
  left := m.result.children.map fun p => p.1
  right := m.result.children.map fun p => p.2
  distance := 1 - m.coupling
  size := m.result.size

namespace Clustering

variable {α : Type} [Scalar α]

/-- The linkage, if the merges make one tree. -/
def linkage (c : Clustering α) : Except NoSingleTree (List (LinkageRow α)) :=
  let n := c.leafCount
  if n < 2 ∨ c.history.length + 1 ≠ n then .error ⟨n, c.history.length⟩
  else .ok (c.history.map Merge.row)

/-- The least names of the first clusters of the arena, which are the leaves. -/
def leafNames (c : Clustering α) : Except LayoutError (List String) :=
  (c.arena.take c.leafCount).mapM fun k =>
    match k.names with
    | [] => .error .unnamedLeaf
    | name :: _ => .ok name

/-- The classes in the order of the leaves of rows. -/
def layOut (c : Clustering α) (rows : List (LinkageRow α)) : Except LayoutError (List String) := do
  let names ← c.leafNames
  let places ← LinkageRow.leaves rows
  .ok (places.filterMap fun i => names[i]?)

/-- The classes in the order of the leaves; none, when there is no single tree. -/
def leafOrder (c : Clustering α) : Except LayoutError (List String) :=
  match c.linkage with
  | .error _ => .ok []
  | .ok rows => c.layOut rows

end Clustering

end CouplingTree
