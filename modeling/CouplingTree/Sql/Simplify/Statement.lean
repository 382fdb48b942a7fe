import CouplingTree.Sql.Simplify.Inward
import CouplingTree.Sql.Simplify.Windows

/-!
# Simpler statements

A statement is simplified from the outside: queries in brackets are merged into those around them, conditions move inward,
and then the queries that are left, and those in terms, are simplified in the same way. Of a query in a term only so many
rows are asked for as its use needs.

`limited_member` : all rows are asked for where a value is looked for among them.
-/

namespace CouplingTree.Sql

namespace Compound

/-- Whether rows that are the same count once. -/
def isOfSets : Compound → Bool
  | union | intersect | except => true
  | unionAll | values => false

end Compound

namespace Block

/-- A limit of one row, unless there is none by the limit before. -/
def oneRow (limit : Option Term) : Term :=
  match limit with
  | none => .value (.integer 1)
  | some t => .compare .unequal t (.apply (.cast .numeric) [.value (.integer 0)])

/-- A query as it is used in a term. -/
def limited (b : Block) : QueryUse → Block
  | .exists => { b with order := [], limit := some (oneRow b.limit) }
  | .single _ => { b with limit := some (oneRow b.limit) }
  | .member => b

theorem limited_member (b : Block) : b.limited .member = b := rfl

/-- The selections of a query, each with what is around it. Nobody asks for the order of selections that make up sets. -/
def singles (b : Block) (isFree : Bool) : List (Compound × Single) :=
  let free (p : Single) : Single := { p with isFree := true, branch := { p.branch with isDistinct := false } }
  if b.isCompound then
    let ops := b.rest.map Prod.fst
    ((.unionAll, b.first) :: b.rest).zipIdx.map fun c =>
      let p : Single := {
        branch := c.1.2, order := if b.queue.isSome then [] else b.order, isPart := true
        isWhole := c.1.1.isOfSets }
      let isOfSet := b.order.isEmpty && (ops.drop (c.2 - 1)).any Compound.isOfSets
      (c.1.1, if isFree || isOfSet then free p else p)
  else
    let p : Single := {
      branch := b.first, order := b.order, limit := b.limit, offset := b.offset, isOrderNeeded := b.isOrderNeeded }
    [(.unionAll, if isFree then free p else p)]

end Block

namespace Statement

/-- How many queries may be merged into one at most. -/
def mostMerged : Nat := 500

/-- Simplifies a selection into one or several ones. -/
def simplifySingle (s : Statement) (p : Single) : Statement × List Single :=
  let (s, branch, order) := Windows.separated s p.branch p.order
  Single.simplified mostMerged s { p with branch, order }

/-- Merges queries into the selections of a block. -/
def mergeInto (s : Statement) (b : Block) (isFree : Bool) : Statement × Block :=
  let start : Statement × List (Compound × Single) := (s, [])
  let (s, found) := (b.singles isFree).foldl (fun acc c =>
    let (s, qs) := simplifySingle acc.1 c.2
    (s, acc.2 ++ qs.zipIdx.map fun q => (if q.2 = 0 then c.1 else .unionAll, q.1))) start
  match found with
  | [] => (s, b)
  | (_, first) :: rest =>
    let all := { b with first := first.branch, rest := rest.map fun c => (c.1, c.2.branch) }
    (s, if b.isCompound then all else { all with order := first.order, limit := first.limit, offset := first.offset })

/-- Changes a selection of a block. -/
def setBranch (s : Statement) (id place : Nat) (b : Branch) : Statement :=
  { s with blocks := s.blocks.modify id fun block =>
      if place = 0 then { block with first := b }
      else { block with rest := block.rest.modify (place - 1) fun c => (c.1, b) } }

/-- A statement on the way, with the queries in terms that are simplified. -/
abbrev Progress := Statement × List Nat

/-- Simplifies a block and those inside it, so deeply at most. -/
def simplifyBlock : Nat → Nat → Bool → Progress → Progress
  | 0, _, _, p => p
  | depth + 1, id, isFree, (s, done) =>
    match s.blocks[id]? with
    | none => (s, done)
    | some b =>
      let (s, b) := s.mergeInto b isFree
      let s := { s with blocks := s.blocks.put id b }
      let p := b.branches.zipIdx.foldl (fun (p : Progress) c =>
        let (s, br) := c.1.withConstants p.1
        let s := s.narrow br
        let (s, done) := (br.inputs.filterMap Input.block?).foldl (fun p i => simplifyBlock depth i false p) (s, p.2)
        let order := if b.isCompound then [] else b.order
        (s.setBranch id c.2 (br.distinctAsGroups order).groupConditionsInward, done)) (s, done)
      match p.1.blocks[id]? with
      | none => p
      | some b => (b.terms.flatMap Term.queryUses).foldl (fun (p : Progress) q =>
          if p.2.contains q.1 then p
          else
            let s := { p.1 with blocks := p.1.blocks.modify q.1 fun inner => inner.limited q.2 }
            simplifyBlock depth q.1 (q.2 == .exists) (s, q.1 :: p.2)) p

/-- How deeply blocks are inside each other at most, when functions of rows have queries of their own. -/
def mostNested (s : Statement) : Nat :=
  s.blocks.foldl (fun n b => n + b.branches.foldl (fun n br => n + br.windows.length) 1) 1

/-- The statement in a simpler form. -/
def simplified (s : Statement) : Statement := (simplifyBlock s.mostNested s.root false (s, [])).1

end Statement

end CouplingTree.Sql
