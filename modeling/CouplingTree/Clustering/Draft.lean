import CouplingTree.Clustering.Linkage
import CouplingTree.Clustering.Reference
import CouplingTree.Clustering.Walk
import CouplingTree.Modules

/-!
# Drafts of clusterings

A draft is a clustering written down by hand. It has references to clusters, and nothing says that one leads anywhere.
`Draft.clustering` is the clustering that is meant. A question about it can be answered unless a reference on the way to
the answer leads nowhere, which `Draft.fault?` tells.

The linkage of a draft holds its numbers as doubles, so they may be rounded, and there is none if one is too large.

`placeOf_lt_iff` : a reference leads to a cluster exactly if nothing is wrong with it.
-/

namespace CouplingTree

structure DraftCluster (α : Type) where
  members : NameSet
  left : Option Int
  right : Option Int
  mergeCoupling : α

structure DraftMerge (α : Type) where
  first : Int
  second : Int
  coupling : α
  result : Int

structure Draft (α : Type) where
  coupling : CouplingMap α
  arena : List (DraftCluster α)
  active : List Int
  history : List (DraftMerge α)

namespace Draft

variable {α : Type}

/-! ## The clustering that is meant -/

/-- The place in the arena that a number leads to. -/
def place (d : Draft α) (i : Int) : Except ReferenceError Nat := Reference.place d.arena.length i

/-- The place that a reference leads to; one that leads nowhere is given a place after the arena. -/
def placeOf (d : Draft α) (i : Option Int) : Nat := (i.bind fun i => (d.place i).toOption).getD d.arena.length

/-- The cluster at a place; it has parts if it refers to a left one. -/
def clusterAt (d : Draft α) (id : Nat) (k : DraftCluster α) : Cluster α where
  id := id
  members := k.members
  children := k.left.map fun left => (d.placeOf (some left), d.placeOf k.right)
  mergeCoupling := k.mergeCoupling

def clusters (d : Draft α) : List (Cluster α) := d.arena.mapIdx d.clusterAt

/-- The merge that is meant, if all its references lead to clusters. -/
def merge? (d : Draft α) (m : DraftMerge α) : Option (Merge α) := do
  let first ← d.clusters[d.placeOf (some m.first)]?
  let second ← d.clusters[d.placeOf (some m.second)]?
  let result ← d.clusters[d.placeOf (some m.result)]?
  some ⟨first, second, m.coupling, result⟩

def clustering (d : Draft α) : Clustering α where
  coupling := d.coupling
  arena := d.clusters
  active := d.active.map fun i => d.placeOf (some i)
  history := d.history.filterMap d.merge?

/-! ## References that lead nowhere -/

def referenceFault? (d : Draft α) : Option Int → Option ReferenceError
  | none => some .leftOut
  | some i =>
    match d.place i with
    | .ok _ => none
    | .error e => some e

theorem placeOf_lt_iff {d : Draft α} {i : Option Int} :
    d.placeOf i < d.arena.length ↔ d.referenceFault? i = none := by
  cases i with
  | none => simp [placeOf, referenceFault?]
  | some i =>
    cases h : d.place i with
    | error e => simp [placeOf, referenceFault?, h, Except.toOption]
    | ok n => simpa [placeOf, referenceFault?, h, Except.toOption] using Reference.place_lt h

def activeFault? (d : Draft α) : Option ReferenceError := d.active.findSome? fun i => d.referenceFault? (some i)

def historyFault? (d : Draft α) : Option ReferenceError :=
  d.history.findSome? fun m => [m.first, m.second, m.result].findSome? fun i => d.referenceFault? (some i)

/-- What is wrong with the parts of a cluster, of which the left one is looked up first. -/
def partsFault? (d : Draft α) (k : Cluster α) : Option ReferenceError :=
  match d.arena[k.id]? with
  | none => none
  | some draft => if draft.left.isNone then none else (d.referenceFault? draft.left).or (d.referenceFault? draft.right)

/-- What may be asked about the clustering. -/
inductive Question (α : Type)
  | root
  | clusters
  | cluster (id : Int)
  | parts (id : Int)
  | modules (threshold : α)
  | summaries
  | treeBelow (id : Int)
  | trees

/-- The first reference that leads nowhere on the way to an answer. -/
def fault? [Scalar α] (d : Draft α) (q : Question α) : Option ReferenceError :=
  let c := d.clustering
  let start (id : Int) : List (Cluster α) := (c.clusterAt id).toOption.toList
  match q with
  | .root => if d.active.length = 1 then d.activeFault? else none
  | .clusters => d.activeFault?
  | .cluster id => d.referenceFault? (some id)
  | .parts id => (d.referenceFault? (some id)).or ((start id).findSome? d.partsFault?)
  | .modules threshold =>
    d.activeFault?.or ((c.clusters.filter fun k => !decide (threshold ≤ c.cohesion k)).findSome? d.partsFault?)
  | .summaries => d.activeFault?.or (c.clusters.findSome? d.partsFault?)
  | .treeBelow id => (d.referenceFault? (some id)).or ((c.below (start id)).findSome? d.partsFault?)
  | .trees => d.activeFault?.or ((c.below c.clusters).findSome? d.partsFault?)

/-! ## Linkage -/

/-- Why a draft has no linkage. -/
inductive LinkageError
  | noSingleTree (e : NoSingleTree)
  | numberTooLarge
deriving DecidableEq, Repr

namespace LinkageError

def message : LinkageError → String
  | noSingleTree e => e.message
  | numberTooLarge => LayoutError.numberTooLarge.message

end LinkageError

/-- The integer that the double nearest to another one stands for. -/
def roundedNumber (i : Int) : Except LinkageError Int :=
  match (Binary64.ratio? i 1).bind Binary64.toRat? with
  | some q => .ok q.num
  | none => .error .numberTooLarge

/-- A number, if there is one, as a double holds it. -/
def rounded : Option Int → Except LinkageError (Option Int)
  | none => .ok none
  | some i => (roundedNumber i).map some

/-- The row of a merge, with the numbers by which its result refers to its parts. -/
def row [Scalar α] (draft : DraftCluster α) (m : DraftMerge α) : Except LinkageError (LinkageRow α) := do
  let left ← rounded draft.left
  let right ← rounded draft.right
  .ok ⟨left, right, 1 - m.coupling, draft.members.size⟩

/-- The rows of the merges whose results there are. -/
def rows [Scalar α] (d : Draft α) : Except LinkageError (List (LinkageRow α)) :=
  (d.history.filterMap fun m => (d.arena[d.placeOf (some m.result)]?).map fun draft => (draft, m)).mapM fun p =>
    row p.1 p.2

def linkage [Scalar α] (d : Draft α) : Except LinkageError (List (LinkageRow α)) :=
  match d.clustering.linkage with
  | .error e => .error (.noSingleTree e)
  | .ok _ => d.rows

def leafOrder [Scalar α] (d : Draft α) : Except LayoutError (List String) :=
  match d.linkage with
  | .error (.noSingleTree _) => .ok []
  | .error .numberTooLarge => .error .numberTooLarge
  | .ok rows => d.clustering.layOut rows

end Draft

end CouplingTree
