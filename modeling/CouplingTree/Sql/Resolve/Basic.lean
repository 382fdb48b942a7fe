import CouplingTree.Sql.Definition
import CouplingTree.Sql.Resolve.Scope

/-!
# Finding names

Names are found in two steps. First all tables, views and queries that a statement takes rows from are found, and then,
in the scopes that this gives, its columns and functions. The first step of an expression or a query gives the second one
as a function of the scope. `Draft` holds what is made on the way.

`Draft.newCursor_cursors` : a new cursor is counted.
-/

namespace CouplingTree.Sql

/-! ## What names of tables mean -/

/-- What rows can be taken from. -/
inductive Supply
  | table (r : Relation)
  | view (v : ViewDefinition)
  | function (f : TableFunction)
  | unavailable (p : Problem)

/-- What is there: tables, views and functions by their names, in letters of either case. -/
structure Catalog where
  find? : String → Option Supply

/-- A query that is named in front of another one. Where it may not be used, there is a reason. -/
structure NamedEntry where
  id : Nat
  name : String
  columns : List String
  kept : Option Bool
  query : Query
  fault : Option Problem := none

/-- A window with all that it takes from others. -/
structure WindowShape where
  parts : List Expr
  order : List Sorting
  frame : Option Frame

/-- A query that repeats itself, as it is seen from inside. -/
structure Repetition where
  name : String
  cursor : Nat
  columns : List Column

/-- Where an expression or a query stands. -/
structure Context where
  /-- The named queries, those of the innermost query first. -/
  named : List (List NamedEntry) := []
  /-- The views that are being looked into. -/
  views : List String := []
  /-- The windows of the selection. -/
  windows : List (String × WindowShape) := []
  /-- The named query that a query is itself, with the names given to its columns. -/
  self : Option NamedEntry := none

/-! ## Drafts -/

/-- What is made of a statement so far. -/
structure Draft where
  /-- The next cursor. Cursor zero is that of rows in indexes. -/
  cursors : Nat := 1
  blocks : Blocks := #[]
  /-- The aggregates, each with the cursor that it is a column of. -/
  aggregates : List (Nat × AggregateCall) := []
  windows : List (Nat × WindowCall) := []
  /-- The named queries that are used, once for each use. -/
  uses : List Nat := []
  /-- What is wrong, but only found when all names are. -/
  late : Option Problem := none

abbrev Resolving (α : Type) := StateT Draft (Except Problem) α

namespace Draft

def newCursor : Resolving Nat := do
  let d ← get
  set { d with cursors := d.cursors + 1 }
  return d.cursors

theorem newCursor_cursors (d : Draft) : newCursor.run d = .ok (d.cursors, { d with cursors := d.cursors + 1 }) := rfl

def addBlock (b : Block) : Resolving Nat := do
  let d ← get
  set { d with blocks := d.blocks.push b }
  return d.blocks.size

/-- Notes a problem for later; the first one counts. -/
def noteLate (p : Problem) : Resolving Unit := modify fun d => { d with late := d.late.or (some p) }

def blockColumns (id : Nat) : Resolving (List Column) := do
  return ((← get).blocks[id]?.map Block.columns).getD []

def aggregatesOf (d : Draft) (cursor : Nat) : List AggregateCall :=
  (d.aggregates.filter fun a => a.1 = cursor).map Prod.snd

def windowsOf (d : Draft) (cursor : Nat) : List WindowCall :=
  (d.windows.filter fun w => w.1 = cursor).map Prod.snd

/-- The place of an aggregate among those of its cursor, where it is put unless it is there. -/
def addAggregate (cursor : Nat) (call : AggregateCall) : Resolving Nat := do
  let d ← get
  let calls := d.aggregatesOf cursor
  match calls.findIdx? call.same with
  | some i => return i
  | none =>
    set { d with aggregates := d.aggregates ++ [(cursor, call)] }
    return calls.length

def addWindow (cursor : Nat) (call : WindowCall) : Resolving Nat := do
  let d ← get
  set { d with windows := d.windows ++ [(cursor, call)] }
  return (d.windowsOf cursor).length

/-- Changes all terms that are made so far. -/
def mapTerms (f : Term → Term) : Resolving Unit :=
  modify fun d => { d with
    blocks := d.blocks.mapTerms f
    aggregates := d.aggregates.map fun a => (a.1, a.2.map f)
    windows := d.windows.map fun w => (w.1, w.2.map f) }

end Draft

/-! ## Second steps -/

/-- An expression whose tables are found. -/
structure PendingTerm where
  /-- How many values are side by side in it. -/
  width : Nat
  resolve : Scope → Resolving Term

/-- A query whose tables are found. -/
structure PendingQuery where
  /-- The names of its columns. -/
  names : List String
  /-- The full names of its columns, if it stands for joined tables in brackets. -/
  nested : Option (List NestedName) := none
  resolve : Scope → Resolving Nat

/-- The first step for expressions and queries inside others. -/
structure Resolver where
  catalog : Catalog
  expression : Context → Expr → Resolving PendingTerm
  query : Context → Query → Resolving PendingQuery
  /-- Joined tables in brackets. -/
  joined : Context → List Join → Resolving PendingQuery

end CouplingTree.Sql
