import CouplingTree.Sql.Simplify.Constants
import CouplingTree.Sql.Simplify.Merging

/-!
# Conditions that move inward

A condition about the rows of a query in brackets may be one of this query, which has fewer rows then. A condition about
groups may be one about rows, if it looks at nothing but what the rows are grouped by. Different rows in their order are
groups.

`movable_nil` : without conditions nothing moves.
-/

namespace CouplingTree.Sql

namespace Term

/-- Whether two terms are alike but for collations around them. -/
def alike (a b : Term) : Bool := a.uncollated.same b.uncollated

/-- Whether a term looks at nothing but some others, which are compared byte by byte. -/
def isOf (known : List Term) (t : Term) : Bool :=
  t.isConstantFor (fun u => known.any fun k => k.collation == .binary && u.alike k) []

end Term

namespace Input

/-- The conditions that are only about the rows of an input, the last one first. -/
def movable (i : Input) (conditions : List Term) : List Term :=
  (conditions.filter fun t =>
    (if i.join.left then t.on? == some (i.cursor, true) else !t.on?.any Prod.snd) &&
      t.withoutOn.isConstantFor (fun _ => false) [i.cursor]).reverse.map Term.withoutOn

theorem movable_nil (i : Input) : i.movable [] = [] := rfl

end Input

namespace Branch

/-- Whether all functions of rows see rows in the same parts. -/
def hasCommonParts (b : Branch) : Bool :=
  match b.windows with
  | [] => true
  | w :: rest => rest.all fun v => Term.same.areSame v.parts w.parts

/-- Whether a condition may be added: functions of rows have to see the same rows then. -/
def takes (b : Branch) (t : Term) : Bool :=
  match b.windows with
  | [] => true
  | w :: _ => t.isOf w.parts

/-- A selection with one more condition. -/
def narrowed (b : Branch) (t : Term) : Branch :=
  if b.isAggregate then { b with having := Term.and? b.having (some t) }
  else { b with filter := Term.and? b.filter (some t) }

end Branch

namespace Block

/-- Whether conditions may be added to a query. -/
def isNarrowable (b : Block) : Bool :=
  !b.last.isRecursive && b.limit.isNone && b.last.hasCommonParts &&
    (if b.isCompound then b.branches.all fun br => br.windows.isEmpty
     else b.first.windows.head?.all fun w => !w.parts.isEmpty)

/-- A query with conditions about its rows, as those of an input. -/
def narrowed (b : Block) (cursor : Nat) (conditions : List Term) : Block :=
  let collations := b.first.results.map fun r => r.term.collation?
  let add (br : Branch) : Branch :=
    let σ : Substitution :=
      { cursor, place := cursor, mayMiss := false, results := br.results.map Result.term, collations }
    ((conditions.map σ.term).filter br.takes).foldl Branch.narrowed br
  { b with first := add b.first, rest := b.rest.map fun c => (c.1, add c.2) }

end Block

namespace Statement

/-- Whether conditions about the rows of an input may move into its query. -/
def mayNarrow (s : Statement) (i : Input) : Bool :=
  !i.isStored && i.named.all (fun u => decide (s.uses.count u.id < 2)) && !i.isKept && !i.join.right

/-- Moves conditions of a selection into the queries that it takes rows from. -/
def narrow (s : Statement) (b : Branch) : Statement :=
  let conditions := (b.filter.map Term.conjuncts).getD []
  b.inputs.foldl (fun s i =>
    match i.block?, i.block?.bind fun id => s.blocks[id]? with
    | some id, some sub =>
      if s.mayNarrow i && sub.isNarrowable then
        { s with blocks := s.blocks.put id (sub.narrowed i.cursor (i.movable conditions)) }
      else s
    | _, _ => s) s

end Statement

namespace Branch

/-- Different rows as groups, if they are in the order of all results. -/
def distinctAsGroups (b : Branch) (order : List SortTerm) : Branch :=
  let results := b.results.map Result.term
  let isOrdered := SortTerm.areSame order (results.map fun t => { term := t })
  if b.isDistinct && !b.isAggregate && b.windows.isEmpty && isOrdered then
    { b with isDistinct := false, isAggregate := true, groups := results, hasDistinctGroups := true }
  else b

/-- A selection whose conditions about groups are conditions about rows where this is the same. -/
def groupConditionsInward (b : Branch) : Branch :=
  if b.groups.isEmpty then b
  else
    let isFalse (t : Term) : Bool := match t with | .value v => v.truth? == some false | _ => false
    let (moved, left) := ((b.having.map Term.conjuncts).getD []).partition fun t => t.isOf b.groups && !isFalse t
    { b with filter := Term.all (b.filter.toList ++ moved), having := Term.all left }

end Branch

end CouplingTree.Sql
