import CouplingTree.CallGraph

/-!
# Relations between classes

A relation from one class to another is a name that the first calls and the second declares. `relationCount` counts
the relations of a pair, `totalRelations` those of all ordered pairs of distinct classes, and `relationMatrix` keeps the
counts that are not zero.
-/

namespace CouplingTree

/-- Relation counts by caller and callee. -/
abbrev RelationMatrix := OrderedMap String (OrderedMap String Int)

namespace CallGraph

/-- How many names `caller` calls and `callee` declares. -/
def relationCount (g : CallGraph) (caller callee : String) : Nat := (g.called caller).sharedCount (g.declared callee)

/-- The classes other than `c`, in order. -/
def others (g : CallGraph) (c : String) : List String := g.names.filter fun d => decide (c ≠ d)

def totalRelations (g : CallGraph) : Nat :=
  g.names.foldr (fun a n => (g.others a).foldr (fun b m => g.relationCount a b + m) 0 + n) 0

/-- The counts of the callees of a class that are not zero. -/
def relationRow (g : CallGraph) (caller : String) : OrderedMap String Int :=
  .ofList (((g.others caller).filter fun b => decide (g.relationCount caller b ≠ 0)).map fun b =>
    (b, (g.relationCount caller b : Int)))

def relationMatrix (g : CallGraph) : RelationMatrix :=
  .ofList ((g.names.map fun a => (a, g.relationRow a)).filter fun row => decide (row.2.size ≠ 0))

end CallGraph

end CouplingTree
