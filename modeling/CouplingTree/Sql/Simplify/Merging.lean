import CouplingTree.Sql.Simplify.Substitution

/-!
# Queries that are merged into others

The rows of a query in brackets need not be had on their own: its inputs, its conditions and its order may take its place
in the selection around it. If it puts together all rows of several selections, the selection around it is copied for each
of them. `Single.simplified` does this wherever it is allowed.

`merged_length` : a query with one input takes the place of one input.
-/

namespace CouplingTree.Sql

/-- One selection with what is around it in its block. -/
structure Single where
  branch : Branch
  order : List SortTerm := []
  limit : Option Term := none
  offset : Option Term := none
  /-- Whether it is one of several. -/
  isPart : Bool := false
  /-- Whether it must not become several ones. -/
  isWhole : Bool := false
  /-- Whether nobody asks for its order. -/
  isFree : Bool := false
  /-- Whether the order of the rows that it takes matters. -/
  isOrderNeeded : Bool := false

namespace Branch

/-- Whether the results are aggregates for which the order of rows matters. -/
def hasOrderedAggregate (b : Branch) : Bool :=
  b.results.any fun r => r.term.mentions fun
    | .place i (some j) _ => decide (i = b.aggregateCursor) && b.aggregates[j]?.any fun c => c.function.isOrdered
    | _ => false

/-- Whether the rows of its first input are kept because of an input behind it. -/
def keepsFirst (b : Branch) : Bool := b.inputs.head?.any Input.isKept

/-- Whether it may be one of several selections whose rows are all taken by another one. -/
def isPlain (b : Branch) : Bool := !b.isDistinct && !b.isAggregate && !b.inputs.isEmpty && b.windows.isEmpty

end Branch

/-- The last branch. -/
def Block.last (b : Block) : Branch := (b.rest.getLast?.map Prod.snd).getD b.first

namespace Single

/-! ## What is allowed -/

/-- Whether a limit of a query in brackets may become that of the selection around it. -/
def mayTakeLimit (p : Single) (sub : Block) : Bool :=
  sub.limit.isNone ||
    (p.limit.isNone && sub.offset.isNone && !p.isPart && decide (p.branch.inputs.length = 1) && !p.branch.isAggregate &&
      p.branch.filter.isNone && !p.branch.isDistinct)

/-- Whether a query in brackets may stand where rows are missing or kept. -/
def mayMiss (p : Single) (i : Input) (sub : Branch) : Bool :=
  !(i.isOuter || i.isKept) ||
    (decide (sub.inputs.length = 1) && !sub.inputs.any Input.isMade && !p.branch.isDistinct && !i.join.right)

/-- Whether several selections may take the place of an input. -/
def maySpread (p : Single) (place : Nat) (i : Input) (sub : Block) : Bool :=
  sub.order.isEmpty && !p.branch.isAggregate && !p.branch.isDistinct && !(i.isOuter || i.isKept) &&
    sub.branches.all (fun b => b.isPlain && (decide (place = 0) || !b.keepsFirst)) &&
    sub.rest.all (fun c => decide (c.1 = .unionAll)) && !p.isWhole && p.order.all (fun o => o.result.isSome) && !p.branch.isRecursive

/-- Whether a query may take the place of the input at a place. -/
def mayMerge (p : Single) (place : Nat) (i : Input) (sub : Block) : Bool :=
  let last := sub.last
  p.branch.windows.isEmpty && last.windows.isEmpty && p.mayTakeLimit sub && !last.inputs.isEmpty && !last.isDistinct &&
    (sub.order.isEmpty || (p.order.isEmpty && !p.branch.isAggregate && (!p.isPart || p.isFree))) && !last.isRecursive && p.mayMiss i last &&
    (decide (place = 0) || !last.keepsFirst) && (!sub.isCompound || p.maySpread place i sub)

/-- Whether the results should be computed only of the rows that stay in an order inside. -/
def waitsForOrder (p : Single) (place : Nat) (sub : Block) : Bool :=
  !sub.order.isEmpty && decide (place = 0) && p.branch.isComplex &&
    (p.branch.inputs[1]?).all fun j => j.isOuter || j.join.cross

/-- Whether the order of a query in brackets is of no use. -/
def ignoresOrder (p : Single) (sub : Block) : Bool :=
  (!p.order.isEmpty || decide (1 < p.branch.inputs.length)) && sub.limit.isNone && !sub.isOrderNeeded &&
    !p.isOrderNeeded && !p.branch.hasOrderedAggregate

/-! ## Merging -/

/-- The inputs of a selection in the place of one input. -/
def mergedInputs (i : Input) (join : JoinOperator) (inputs : List Input) : List Input :=
  let own := inputs.map fun j => { j with isKept := j.isKept || i.isKept }
  match own with
  | [] => []
  | first :: rest => { first with join } :: rest

theorem merged_length (i j : Input) (join : JoinOperator) : (mergedInputs i join [j]).length = 1 := rfl

/-- The substitution of the results of a selection for the columns of an input. -/
def substitution (i : Input) (sub : Branch) (collations : List (Option Collation)) : Substitution :=
  { cursor := i.cursor, place := (sub.inputs.getLast?.map Input.cursor).getD i.cursor, mayMiss := i.isOuter || i.isKept
    results := sub.results.map Result.term, collations }

/-- A selection with another one in the place of an input, whose columns it still looks at. -/
def merged (p : Single) (place : Nat) (i : Input) (join : JoinOperator) (sub : Branch) (order : List SortTerm) :
    Single :=
  let b := p.branch
  let newPlace := (sub.inputs.getLast?.map Input.cursor).getD i.cursor
  let filter := if i.isOuter || i.isKept then sub.filter.map (Term.markedOn newPlace true) else sub.filter
  { p with
    branch := { b with
      inputs := b.inputs.take place ++ mergedInputs i join sub.inputs ++ b.inputs.drop (place + 1)
      filter := Term.and? filter b.filter }
    order := if order.isEmpty || p.isFree then p.order else order.map fun o => { o with result := none } }

def map (f : Term → Term) (p : Single) : Single :=
  { p with branch := p.branch.map f, order := p.order.map (SortTerm.map f) }

/-- Replaces the columns of an input in a selection and in everything inside it. -/
def substituted (s : Statement) (p : Single) (σ : Substitution) : Statement × Single :=
  ({ s with blocks := σ.blocks s.blocks }, p.map σ.term)

/-- Puts selections in the place of an input, one of them in a copy of the selection around it each, but for the last. -/
def spread (collations : List (Option Collation)) (place : Nat) (i : Input) (id : Nat) (p : Single) :
    List Branch → Statement → Statement × List Single
  | [], s => (s, [])
  | [sub], s =>
    let (s, q) := substituted s (p.merged place i i.join sub []) (substitution i sub collations)
    (s, [q])
  | sub :: rest, s =>
    let (s, b) := s.copied p.branch id
    let copy : Single := { p with branch := b }
    match b.inputs[place]? with
    | none => (s, [])
    | some j =>
      let (s, q) := substituted s (copy.merged place j {} sub []) (substitution j sub collations)
      let (s, qs) := spread collations place i id p rest s
      (s, q :: qs)

/-- The order of several selections that take the place of one. -/
def spreadOrder (order : List SortTerm) (branches : List Branch) : List SortTerm :=
  order.map fun o =>
    let i := o.result.getD 0
    let collation := if o.term.isCollated then o.term.collation else Branch.commonCollation branches i
    { o with term := .place 0 (some i) { name := "", collation } }

/-- A selection with a query in the place of an input. If this makes several selections of it, the last one keeps the
order and the limit. -/
def mergeAll (s : Statement) (p : Single) (place : Nat) (i : Input) (id : Nat) (sub : Block) :
    Statement × List Single :=
  let collations := sub.first.results.map fun r => r.term.collation?
  let p := if sub.limit.isSome then { p with limit := sub.limit } else p
  if sub.isCompound then
    let (s, qs) := spread collations place i id { p with order := [] } sub.branches s
    let order := spreadOrder p.order (qs.map Single.branch)
    (s, qs.map fun q => { q with order, isPart := true, limit := p.limit, offset := p.offset })
  else
    let (s, q) := substituted s (p.merged place i i.join sub.first sub.order) (substitution i sub.first collations)
    (s, [q])

/-! ## Going through the inputs -/

/-- The inputs whose columns modules make. -/
def isMadeAt (s : Statement) (cursor : Nat) : Bool :=
  s.blocks.any fun b => b.branches.any fun br => br.inputs.any fun i => decide (i.cursor = cursor) && i.isMade

/-- A selection in which an input need not keep rows, because a condition leaves none of them. -/
def strengthened (s : Statement) (p : Single) (place : Nat) (i : Input) : Single :=
  if i.join.left && !i.join.right && p.branch.filter.any (Term.impliesRow (isMadeAt s) i.cursor) then
    let unmarked : Term → Term
      | .apply (.on c true) [t] => if c = i.cursor then .apply (.on c false) [t] else .apply (.on c true) [t]
      | t => t
    let filter := p.branch.filter.bind fun t => Term.all (t.conjuncts.map unmarked)
    { p with branch := { p.branch with
        filter, inputs := p.branch.inputs.set place { i with join := { i.join with left := false } } } }
  else p

/-- Looks for the first input from one on which a query may be merged, and merges it. -/
def mergeFirst (s : Statement) (p : Single) : List Nat → Statement × Single × Option (List Single)
  | [] => (s, p, none)
  | place :: rest =>
    match p.branch.inputs[place]? with
    | none => (s, p, none)
    | some i =>
      let p := strengthened s p place i
      let i := p.branch.inputs[place]?.getD i
      match i.block?, i.block?.bind fun id => s.blocks[id]? with
      | some id, some sub =>
        if i.isStored || sub.last.isAggregate then mergeFirst s p rest
        else
          let sub := if p.ignoresOrder sub then { sub with order := [] } else sub
          let s := { s with blocks := s.blocks.put id sub }
          if !p.waitsForOrder place sub && p.mayMerge place i sub then
            let (s, qs) := mergeAll s p place i id sub
            (s, p, some qs)
          else mergeFirst s p rest
      | _, _ => mergeFirst s p rest

/-- A selection into which queries are merged, so many at most. It may become several ones. -/
def simplified : Nat → Statement → Single → Statement × List Single
  | 0, s, p => (s, [p])
  | fuel + 1, s, p =>
    match mergeFirst s p (List.range p.branch.inputs.length) with
    | (s, p, none) => (s, [p])
    | (s, _, some qs) => qs.foldl (fun (acc : Statement × List Single) q =>
        let (s, rs) := simplified fuel acc.1 q
        (s, acc.2 ++ rs)) (s, [])

end Single

end CouplingTree.Sql
