import CouplingTree.Sql.Resolve.Star

/-!
# Finding names in selections

First the results of a selection get their meaning, and then its conditions, where the names of results may be used, its
order and its groups. Of the conditions of joins it stays known which join they belong to.

`byName_value` : a value names no result.
-/

namespace CouplingTree.Sql

/-- A selection whose tables are found. -/
structure PendingBranch where
  results : List PendingResult
  /-- Resolves the selection, and with it the terms that it is sorted by. -/
  resolve : Scope → Resolving (Branch × List SortTerm)
  /-- Looks for a term of an order among the results, when these are resolved. -/
  findResult : Branch → PendingTerm → Resolving (Option Nat)

/-- A term of an order whose tables are found. -/
structure PendingSort where
  expression : Expr
  term : PendingTerm
  descending : Bool
  nullsLast : Bool

namespace Resolver

variable (r : Resolver)

/-! ## Conditions of joins -/

/-- A column that two inputs share. Where rows of inputs are kept, the first one may be missing in any of those before. -/
def sharedTerm (before : List ScopeTable) (name : String) : Except Problem Term := do
  let having := before.filter fun t => t.columns.any fun c => sameName c.name name
  let termOf (t : ScopeTable) : Term :=
    ((t.columns.findIdx? fun c => sameName c.name name).map t.columnTerm).getD default
  match having with
  | [] => throw (.missingJoinColumn name)
  | t :: rest =>
    if (before.head?.any ScopeTable.isKept) && !rest.isEmpty then
      if rest.any fun t => !t.shares name then throw (.ambiguousShared name)
      return .apply .coalesce (having.map termOf)
    else return termOf t

/-- What the rows of an input have to meet. -/
def joinConditions (tables : List ScopeTable) (place : Nat) (on : Option PendingTerm) (scope : Scope) :
    Resolving (List Term) := do
  match tables[place]? with
  | none => return []
  | some t =>
    let isOuter := t.join.left || t.join.right
    let equalities ← (t.shared.getD []).mapM fun n => do
      let left ← sharedTerm (tables.take place) n
      let right := ((t.columns.findIdx? fun c => sameName c.name n).map t.columnTerm).getD default
      return Term.compare .equal left right
    let on ← on.mapM fun p => p.resolve scope
    return (equalities ++ on.toList).map (Term.markedOn t.cursor isOuter)

/-! ## Orders and groups -/

/-- The result that a term names by its given name. -/
def byName (results : List PendingResult) (e : Expr) : Option Nat :=
  match e.bare with
  | .column none none n _ => results.findIdx? fun r => r.label.any (sameName n)
  | _ => none

theorem byName_value (results : List PendingResult) (v : Value) : byName results (.value v) = none := by
  simp [byName, Expr.bare]

/-- A result in the place of a term, with the collation around the term. -/
def ofResult (results : List Result) (i : Nat) (e : Expr) : Term :=
  let t := (results[i]?.map Result.term).getD default
  match e with
  | .collate _ c => .apply (.collate (.ofName c) true) [t]
  | _ => t

/-- A term of an order or a grouping, and the result that it is. -/
def placedTerm (outOfRange : Nat → Nat → Problem) (results : List Result) (named : Option Nat) (place : Nat)
    (e : Expr) (p : PendingTerm) (scope : Scope) : Resolving (Term × Option Nat) := do
  match named, e.bare.integer? with
  | some i, _ => return (ofResult results i e, some i)
  | none, some n =>
    if 1 ≤ n ∧ n ≤ results.length then return (ofResult results (n.toNat - 1) e, some (n.toNat - 1))
    else throw (outOfRange place results.length)
  | none, none => do
    let t ← p.resolve scope
    let same := (List.range results.length).filter fun i => results[i]?.any fun r => r.term.same t
    return (t, same.getLast?)

def sortTerms (pending : List PendingResult) (results : List Result) (order : List PendingSort) (scope : Scope) :
    Resolving (List SortTerm) :=
  order.zipIdx.mapM fun s => do
    let (t, i) ←
      placedTerm .sortingColumn results (byName pending s.1.expression) (s.2 + 1) s.1.expression s.1.term scope
    return { term := t, descending := s.1.descending, nullsLast := s.1.nullsLast, result := i }

def groupTerms (results : List Result) (groups : List (Expr × PendingTerm)) (scope : Scope) :
    Resolving (List Term) :=
  groups.zipIdx.mapM fun g => do
    return (← placedTerm .groupingColumn results none (g.2 + 1) g.1.1 g.1.2 scope).1

/-! ## Selections -/

/-- The parts of a selection whose tables are found. -/
structure PendingParts where
  inputs : List PendingInput
  results : List PendingResult
  filter : Option PendingTerm
  on : List (Option PendingTerm)
  groups : List (Expr × PendingTerm)
  having : Option PendingTerm
  order : List PendingSort
  isDistinct : Bool

/-- Whether a term has a value of groups in it. -/
def isOf (cursor : Nat) (t : Term) : Bool := t.mentions fun | .place i _ _ => decide (i = cursor) | _ => false

/-- Whether a term has a function or a query in it, where values of groups and of rows around have these cursors. -/
def isComplex (aggregateCursor windowCursor : Nat) (t : Term) : Bool :=
  t.mentions fun
    | .apply (.function _) _ | .apply .coalesce _ | .apply .choose _ | .apply (.likely _) _ | .query _ _ _ _ => true
    | .place i _ _ => decide (i = aggregateCursor ∨ i = windowCursor)
    | _ => false

/-- Notes that a condition looks at groups, or that a query without groups has aggregates. -/
def noteMisplaced (isAggregate : Bool) (cursor : Nat) (conditions : List Term) : Resolving Unit := do
  let calls := (← get).aggregatesOf cursor
  match calls.head? with
  | none => return ()
  | some c => if !isAggregate || conditions.any (isOf cursor) then Draft.noteLate (.misplacedAggregate c.name)

/-- Finds the names in a selection. -/
def resolveParts (p : PendingParts) (outer : Scope) : Resolving (Branch × List SortTerm) := do
  let found ← p.inputs.mapM fun i => do
    let (columns, rows) ← i.resolve outer
    return (i, columns, rows)
  let tables := found.map fun f => f.1.table f.2.1
  let aggregateCursor ← Draft.newCursor
  let windowCursor ← Draft.newCursor
  let level : Level := { tables, aggregateCursor, windowCursor, mayAggregate := true, mayWindow := true }
  let results ← p.results.mapM fun r => do
    let t ← r.term.resolve (level :: outer)
    return ({ term := t, name := r.resolvedName t } : Result)
  let isAggregate := !p.groups.isEmpty || !((← get).aggregatesOf aggregateCursor).isEmpty
  let names : List ScopeResult := (p.results.zip results).map fun r => ⟨r.1.label, r.2.term⟩
  let level := { level with results := some names, mayWindow := false, mayAggregate := isAggregate }
  if p.having.isSome && !isAggregate then throw .havingWithoutGroups
  let having ← p.having.mapM fun t => t.resolve (level :: outer)
  let filter ← p.filter.mapM fun t => t.resolve (level :: outer)
  let conditions ← p.on.zipIdx.mapM fun o => joinConditions tables o.2 o.1 (level :: outer)
  let inputs ← found.mapM fun f => do
    let arguments ← f.1.arguments.mapM fun a => a.resolve (level :: outer)
    return f.1.input f.2.1 (match f.2.2 with
      | .function t _ => .function t arguments
      | rows => rows)
  let order ← sortTerms p.results results p.order [{ level with mayAggregate := true, mayWindow := true }]
  let groups ← groupTerms results p.groups [{ level with mayAggregate := true }]
  if groups.any (isOf aggregateCursor) then throw .aggregateInGroups
  let filter := conditions.flatten.foldl (fun all t => Term.and? all (some t)) filter
  noteMisplaced isAggregate aggregateCursor filter.toList
  let draft ← get
  return ({
    results, isComplex := results.any fun r => isComplex aggregateCursor windowCursor r.term
    isDistinct := p.isDistinct, inputs, filter, groups, having, isAggregate
    aggregateCursor, aggregates := draft.aggregatesOf aggregateCursor
    windowCursor, windows := draft.windowsOf windowCursor }, order)

/-- The result that a term of the order of a compound is, by its name or by what it is. -/
def findSorted (p : PendingParts) (b : Branch) (t : PendingTerm) : Resolving (Option Nat) := do
  let found := b.inputs.zip p.inputs
  let level : Level := {
    tables := found.map fun f => f.2.table f.1.columns
    results := some ((p.results.zip b.results).map fun r => ⟨r.1.label, r.2.term⟩)
    aggregateCursor := b.aggregateCursor, windowCursor := b.windowCursor, mayAggregate := true }
  match (t.resolve [level]).run (← get) with
  | .error _ => return none
  | .ok (t, _) => return b.results.findIdx? fun r => r.term.uncollated.same t.uncollated

/-- The first step for an order. -/
def pendingOrder (ctx : Context) (order : List Sorting) : Resolving (List PendingSort) :=
  order.mapM fun | .mk e descending nullsLast => do
    return ⟨e, ← r.expression ctx e, descending, nullsLast.getD descending⟩

/-- The first step for a selection, perhaps one of joined tables in brackets. -/
def branch (ctx : Context) (repetition : Option Repetition) (isNested : Bool) (order : List Sorting) :
    Selection → Resolving PendingBranch
  | .mk distinct items joins filter groups having windows => do
    let found ← r.inputs ctx repetition joins
    let is := found.map Prod.fst
    let ctx := { ctx with windows := ← WindowShape.ofDefinitions windows }
    let results := (← items.mapM (r.ofItem ctx is isNested)).flatten
    let filter ← filter.mapM (r.expression ctx)
    let on ← found.mapM fun f => f.2.mapM (r.expression ctx)
    let groups ← groups.mapM fun e => do return (e, ← r.expression ctx e)
    let having ← having.mapM (r.expression ctx)
    let order ← r.pendingOrder ctx order
    let parts : PendingParts := ⟨is, results, filter, on, groups, having, order, distinct⟩
    return ⟨results, resolveParts parts, findSorted parts⟩

end Resolver

end CouplingTree.Sql
