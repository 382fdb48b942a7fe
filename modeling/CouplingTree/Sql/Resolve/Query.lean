import CouplingTree.Sql.Resolve.Branch

/-!
# Finding names in queries

The selections of a query are gone through from the last one to the first. The order of several selections is one of
their results. A query may be named in front of itself, and then repeats its last selections until no row is left.

`splitRepeated_nil` : one selection alone repeats nothing.
-/

namespace CouplingTree.Sql

/-- What is wrong with two sides of different widths. -/
def Compound.widthProblem : Compound → Problem
  | values => .valuesWidth
  | c => .compoundWidth c.name

namespace Resolver

variable (r : Resolver)

/-! ## Repetition -/

/-- How often a selection takes rows from a table of a name. -/
def references (name : String) : Selection → Nat
  | .mk _ _ joins _ _ _ _ => (joins.filter fun
    | .mk _ (.table none n _ _) _ _ => sameName n name
    | _ => false).length

/-- The selections at the end that take rows from the query itself, behind those that do not. -/
def splitRepeated (name : String) (rest : List (Compound × Selection)) :
    List (Compound × Selection) × List (Compound × Selection) :=
  match rest.getLast? with
  | none => ([], [])
  | some (op, _) =>
    if op = .union || op = .unionAll then
      let repeated := (rest.reverse.takeWhile fun c => c.1 = op && 0 < references name c.2).reverse
      (rest.take (rest.length - repeated.length), repeated)
    else (rest, [])

theorem splitRepeated_nil (name : String) : splitRepeated name [] = ([], []) := rfl

/-- The named queries with another reason why one may not be used. -/
def withFault (named : List (List NamedEntry)) (id : Nat) (p : Problem) : List (List NamedEntry) :=
  named.map fun es => es.map fun e => if e.id = id then { e with fault := some p } else e

/-! ## Several selections -/

/-- A query whose tables are found. -/
structure PendingBlock where
  first : PendingBranch
  rest : List (Compound × PendingBranch)
  order : List PendingSort
  limit : Option PendingTerm
  offset : Option PendingTerm
  repetition : Option Repetition
  /-- How many of the selections at the end are repeated. -/
  repeated : Nat

/-- The result that a term sorts several selections by: its number, or what it is in the first selection that has it. -/
def compoundPlace (branches : List (PendingBranch × Branch)) (place : Nat) (s : PendingSort) : Resolving Nat := do
  let count : Nat := (branches.head?.map fun b => b.2.results.length).getD 0
  match s.expression.bare.integer? with
  | some n => if 1 ≤ n ∧ n ≤ count then return n.toNat - 1 else throw (.sortingColumn place count)
  | none => do
    let found ← branches.mapM fun b =>
      match byName b.1.results s.expression with
      | some i => return some i
      | none => b.1.findResult b.2 s.term
    match found.findSome? id with
    | some i => return i
    | none => throw (.sortingTerm place)

def compoundOrder (branches : List (PendingBranch × Branch)) (order : List PendingSort) : Resolving (List SortTerm) :=
  order.zipIdx.mapM fun s => do
    let i ← compoundPlace branches (s.2 + 1) s.1
    let collation :=
      match s.1.expression with
      | .collate _ c => .ofName c
      | _ => Branch.commonCollation (branches.map Prod.snd) i
    return {
      term := .place 0 (some i) { name := "", collation }, descending := s.1.descending, nullsLast := s.1.nullsLast
      result := some i }

/-- Resolves the selections from the last one on, each of which has to be as wide as the one behind it. -/
def resolveBranches (bs : List (Compound × PendingBranch)) (scope : Scope) :
    Resolving (List (Compound × PendingBranch × Branch × List SortTerm)) :=
  bs.reverse.foldlM (fun done b => do
    let (branch, order) ← b.2.resolve scope
    if let (op, _, next, _) :: _ := done then
      if branch.results.length ≠ next.results.length then throw op.widthProblem
    return (b.1, b.2, branch, order) :: done) []

/-- Marks the selections at the end that are repeated, and gives the columns inside them those of the first selection. -/
def closeRepetition (cursor : Nat) (names : List String) (first : Branch) : Resolving (Term → Term) := do
  let types := ({ first } : Block).columns
  let typed (i : Nat) (c : Column) : Column := { types[i]?.getD c with name := names[i]?.getD c.name }
  let f := Term.replace fun i j c =>
    if i = cursor then j.map fun j => .place i (some j) (typed j c) else none
  Draft.mapTerms f
  return f

def checkRepeated (b : Branch) : Resolving Unit := do
  if b.isAggregate then Draft.noteLate .recursiveAggregate
  if !b.windows.isEmpty then Draft.noteLate .recursiveWindow

/-- Finds the names in a query. -/
def resolveQuery (p : PendingBlock) (scope : Scope) : Resolving Nat := do
  let limit ← p.limit.mapM fun t => t.resolve []
  let offset ← p.offset.mapM fun t => t.resolve []
  let done ← resolveBranches ((.values, p.first) :: p.rest) scope
  let order ←
    if p.rest.isEmpty then pure ((done.head?.map fun d => d.2.2.2).getD [])
    else compoundOrder (done.map fun d => (d.2.1, d.2.2.1)) p.order
  match done with
  | [] => throw .refused
  | (_, _, first, _) :: others => do
    let branches := others.zipIdx.map fun d =>
      (d.1.1, { d.1.2.2.1 with isRecursive := decide (others.length - p.repeated ≤ d.2) })
    match p.repetition with
    | none => Draft.addBlock { first, rest := branches, order, limit, offset }
    | some rep => do
      (branches.filter fun b => b.2.isRecursive).forM fun b => checkRepeated b.2
      let f ← closeRepetition rep.cursor (rep.columns.map Column.name) first
      Draft.addBlock {
        first, rest := branches.map fun b => (b.1, b.2.map f), order, limit, offset, queue := some rep.cursor }

/-! ## The first step -/

/-- The names of the columns of a selection before names are found. -/
def namesOf (results : List PendingResult) : List String := uniqueNames (results.map PendingResult.name)

/-- The first step for some selections, from the last one on. -/
def branches (ctx : Context) (repetition : Option Repetition) (order : List Sorting)
    (ss : List (Compound × Selection)) : Resolving (List (Compound × PendingBranch)) :=
  ss.reverse.foldlM (fun done s => do return (s.1, ← r.branch ctx repetition false order s.2) :: done) []

/-- The first step for a query. -/
def queryHere (ctx : Context) : Query → Resolving PendingQuery
  | .mk named first rest order limit offset => do
    let entries ← named.mapM fun | .mk name columns kept q => do
      return ({ id := ← Draft.newCursor, name, columns, kept, query := q } : NamedEntry)
    let self := ctx.self
    let ctx := { ctx with named := if entries.isEmpty then ctx.named else entries :: ctx.named, self := none }
    let (start, again) := (self.map fun e => splitRepeated e.name rest).getD (rest, [])
    if let some e := self then
      if again.any fun c => 1 < references e.name c.2 then throw (.multipleReferences e.name)
    let ownOrder := if rest.isEmpty then order else []
    let starts ← r.branches ctx none ownOrder ((.values, first) :: start)
    let results := (starts.head?.map fun b => b.2.results).getD []
    let names ←
      match self with
      | some e =>
        if e.columns.isEmpty || e.columns.length = results.length then
          pure (if e.columns.isEmpty then namesOf results else uniqueNames (e.columns.map some))
        else throw (.namedWidth e.name results.length e.columns.length)
      | none => pure (namesOf results)
    let repetition ←
      match self with
      | some e =>
        if again.isEmpty then pure none
        else pure (some { name := e.name, cursor := ← Draft.newCursor, columns := names.map fun n => { name := n } })
      | none => pure none
    let inside :=
      match self with
      | some e => { ctx with named := withFault ctx.named e.id (.multipleRecursion e.name) }
      | none => ctx
    let repeats ← r.branches inside repetition [] again
    let order ← if rest.isEmpty then pure [] else r.pendingOrder ctx order
    let limit ← limit.mapM (r.expression ctx)
    let offset ← offset.mapM (r.expression ctx)
    match starts ++ repeats with
    | [] => throw .refused
    | (_, first) :: rest =>
      return { names, resolve := resolveQuery ⟨first, rest, order, limit, offset, repetition, again.length⟩ }

/-- The full names of columns, where one that is named like a shared one before it is hidden. -/
def nestedNames (results : List PendingResult) : List NestedName :=
  let names := results.filterMap PendingResult.full
  names.zipIdx.map fun n =>
    { n.1 with isHidden := n.1.isHidden ||
        (!n.1.isShared && (names.take n.2).any fun m => m.isShared && sameName m.column n.1.column) }

/-- The first step for joined tables in brackets. -/
def joinedHere (ctx : Context) (joins : List Join) : Resolving PendingQuery := do
  let b ← r.branch { ctx with self := none } none true [] (.mk false [.all] joins none [] none [])
  return {
    names := namesOf b.results, nested := some (nestedNames b.results)
    resolve := resolveQuery ⟨b, [], [], none, none, none, 0⟩ }

/-! ## Nesting -/

/-- The first steps one level further out. -/
def wider : Resolver :=
  { r with expression := r.expressionHere, query := r.queryHere, joined := r.joinedHere }

/-- The first steps for what is nested so deeply at most. -/
def ofDepth (catalog : Catalog) : Nat → Resolver
  | 0 => ⟨catalog, fun _ _ => throw .unsupported, fun _ _ => throw .unsupported, fun _ _ => throw .unsupported⟩
  | depth + 1 => (ofDepth catalog depth).wider

end Resolver

/-- The statement of a query that is nested so deeply at most. -/
def Query.resolve (catalog : Catalog) (depth : Nat) (q : Query) : Except Problem Statement := do
  let r := Resolver.ofDepth catalog depth
  let steps : Resolving Nat := do
    let p ← r.query {} q
    p.resolve []
  let (root, draft) ← steps.run {}
  match draft.late with
  | some problem => throw problem
  | none => return ({ blocks := draft.blocks, root, uses := draft.uses, cursors := draft.cursors } : Statement).settled

end CouplingTree.Sql
