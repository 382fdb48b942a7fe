import CouplingTree.Sql.Resolve.Expression
import CouplingTree.Sql.Query

/-!
# Finding tables

The inputs of a query are tables, views, named queries, functions, and queries in brackets. A join says which columns an
input shares with those before it, and which conditions its rows have to meet.

The columns of a query have different names. One without a name is named by its place, and of two with the same name the
second one gets a number.

`length_uniqueNames` : every column has a name; `keptFlags_length` : it is known of every input whether its rows are kept.
-/

namespace CouplingTree.Sql

/-! ## Names of columns -/

/-- A name without the colon and the digits at its end. -/
def withoutCount (name : String) : String :=
  match name.toList.reverse.dropWhile Char.isDigit with
  | ':' :: rest => String.ofList rest.reverse
  | _ => name

/-- The name, or one with a number behind it that is not taken. -/
def freshName (taken : List String) : Nat → Nat → String → String
  | 0, _, name => name
  | fuel + 1, count, name =>
    if taken.any (sameName name) then
      freshName taken fuel (count + 1) (withoutCount name ++ ":" ++ toString (count + 1))
    else name

/-- The name of a column at a place, from one on. One without a name, or named like a truth value, is counted. -/
def columnName (place : Nat) (name : Option String) : String :=
  match name with
  | some n => if sameName n "true" || sameName n "false" then "column" ++ toString place else n
  | none => "column" ++ toString place

/-- Names of columns that differ from each other and from those taken before, from a place on. -/
def uniqueNamesFrom (place : Nat) (taken : List String) : List (Option String) → List String
  | [] => []
  | n :: rest =>
    let name := freshName taken (taken.length + 1) 0 (columnName place n)
    name :: uniqueNamesFrom (place + 1) (name :: taken) rest

def uniqueNames (names : List (Option String)) : List String := uniqueNamesFrom 1 [] names

theorem length_uniqueNames (names : List (Option String)) : (uniqueNames names).length = names.length := by
  have h : ∀ (names : List (Option String)) (place : Nat) (taken : List String),
      (uniqueNamesFrom place taken names).length = names.length := by
    intro names
    induction names with
    | nil => intros; rfl
    | cons n rest ih => intro place taken; simp [uniqueNamesFrom, ih]
  exact h names 1 []

/-! ## Inputs -/

/-- An input of a query that is found. -/
structure PendingInput where
  name : String
  isStored : Bool := true
  cursor : Nat
  /-- The names of its columns. -/
  names : List String
  /-- How many of the columns are shown. -/
  shown : Nat := names.length
  counter : Option Nat := none
  hasRowIds : Bool := true
  nested : Option (List NestedName) := none
  hint : IndexHint := .free
  named : Option NamedUse := none
  isView : Bool := false
  join : JoinOperator := {}
  isKept : Bool := false
  shared : Option (List String) := none
  /-- The values for a function. -/
  arguments : List PendingTerm := []
  /-- The columns and the rows, in the scope of the queries around. -/
  resolve : Scope → Resolving (List Column × InputRows)

namespace PendingInput

def shares (i : PendingInput) (name : String) : Bool := i.shared.any fun names => names.any (sameName name)

def hasColumn (i : PendingInput) (name : String) : Bool := i.names.any (sameName name)

/-- The input as a table of a scope. -/
def table (i : PendingInput) (columns : List Column) : ScopeTable :=
  ⟨i.name, i.isStored, i.cursor, columns, i.counter, i.hasRowIds, i.join, i.isKept, i.shared, i.nested⟩

def input (i : PendingInput) (columns : List Column) (rows : InputRows) : Input :=
  { cursor := i.cursor, columns, rows, join := i.join, isKept := i.isKept, hint := i.hint, named := i.named
    isView := i.isView }

end PendingInput

namespace Resolver

variable (r : Resolver)

/-! ## Inputs by their names -/

/-- The named query of a name, with the named queries that it sees. -/
def findNamed (name : String) : List (List NamedEntry) → Option (NamedEntry × List (List NamedEntry))
  | [] => none
  | es :: outer =>
    match es.find? fun e => sameName e.name name with
    | some e => some (e, es :: outer)
    | none => findNamed name outer

/-- The name of a missing table. Views name the database too. -/
def missingName (ctx : Context) (schema : Option String) (name : String) : String :=
  match schema with
  | some s => s ++ "." ++ name
  | none => if ctx.views.isEmpty then name else "main." ++ name

def checkHint (hint : IndexHint) (indexes : List String) : Except Problem Unit :=
  match hint with
  | .indexed name => if indexes.any (sameName name) then .ok () else .error (.noSuchIndex name)
  | _ => .ok ()

/-- The columns of a view under the names given to them. -/
def viewNames (v : ViewDefinition) (names : List (Option String)) : Except Problem (List String) :=
  if v.columns.isEmpty then .ok (uniqueNames names)
  else if v.columns.length = names.length then .ok (uniqueNames (v.columns.map some))
  else .error (.viewWidth v.name v.columns.length names.length)

/-- What is wrong with the columns of an input: how their values are compared has to be known. The last problem counts. -/
def columnsProblem? (columns : List Column) : Option Problem :=
  (columns.filterMap fun c => c.collation.problem?).getLast?

/-- A view; its query is found and resolved at once. -/
def viewInput (ctx : Context) (v : ViewDefinition) (label : Option String) (hint : IndexHint) : Resolving PendingInput := do
  if ctx.views.any (sameName v.name) then throw (.circularView v.name)
  let q ← r.query { named := [], views := v.name :: ctx.views } v.query
  let id ← q.resolve []
  let results := ((← get).blocks[id]?.map fun b => b.first.results).getD []
  let names ← viewNames v (results.map Result.name)
  checkHint hint []
  let columns := (← Draft.blockColumns id).zip names |>.map fun c => { c.1 with name := c.2 }
  if let some p := columnsProblem? columns then throw p
  return {
    name := label.getD v.name, cursor := ← Draft.newCursor, names, isView := true
    resolve := fun _ => return (columns, .block id) }

/-- A query in brackets. -/
def queryInput (q : PendingQuery) (label : Option String) : Resolving PendingInput := do
  let cursor ← Draft.newCursor
  return {
    name := label.getD ("(subquery-" ++ toString cursor ++ ")"), isStored := false, cursor, names := q.names
    nested := q.nested
    resolve := fun scope => do
      let id ← q.resolve scope
      let columns := (← Draft.blockColumns id).zip q.names |>.map fun c => { c.1 with name := c.2 }
      (columnsProblem? columns).forM Draft.noteLate
      return (columns, .block id) }

/-- A named query, which is found anew for each use. -/
def namedInput (ctx : Context) (e : NamedEntry) (seen : List (List NamedEntry)) (label : Option String)
    (hint : IndexHint) : Resolving PendingInput := do
  if let some p := e.fault then throw p
  if let .indexed name := hint then throw (.noSuchNamedIndex name)
  modify fun d => { d with uses := e.id :: d.uses }
  let closed := seen.map fun es => es.map fun f =>
    if f.id = e.id then { f with fault := some (.circularReference e.name) } else f
  let q ← r.query { ctx with named := closed, windows := [], self := some e } e.query
  if !e.columns.isEmpty && e.columns.length ≠ q.names.length then
    throw (.namedWidth e.name q.names.length e.columns.length)
  let names := if e.columns.isEmpty then q.names else uniqueNames (e.columns.map some)
  let i ← queryInput { q with names, nested := none } (some (label.getD e.name))
  return { i with hasRowIds := false, named := some ⟨e.id, e.kept⟩ }

def functionInput (f : TableFunction) (label : Option String) (arguments : List PendingTerm) : Resolving PendingInput := do
  if f.hidden.length < arguments.length then Draft.noteLate (.tooManyArguments f.name f.hidden.length)
  return {
    name := label.getD f.name, cursor := ← Draft.newCursor
    names := (f.columns ++ f.hidden).map Column.name, shown := f.columns.length, hasRowIds := f.hasRowIds, arguments
    resolve := fun _ => return (f.columns ++ f.hidden, .function f []) }

def relationInput (name : String) (t : Relation) (label : Option String) (hint : IndexHint) : Resolving PendingInput := do
  checkHint hint (t.indexes.map Index.name)
  return {
    name := label.getD name, cursor := ← Draft.newCursor, names := t.columns.map Column.name, counter := t.counter
    hasRowIds := t.hasRowIds, hint
    resolve := fun _ => return (t.columns, .table t) }

/-- The query that is being repeated, in one of its own branches. -/
def repeatedInput (rep : Repetition) (label : Option String) : PendingInput :=
  { name := label.getD rep.name, isStored := false, cursor := rep.cursor, names := rep.columns.map Column.name
    hasRowIds := false
    resolve := fun _ => return (rep.columns, .queue rep.cursor) }

/-- The first step for an input. -/
def source (ctx : Context) (repetition : Option Repetition) : Source → Resolving PendingInput
  | .query q label => do queryInput (← r.query ctx q) label
  | .joined joins label => do queryInput (← r.joined ctx joins) label
  | .table schema name label hint => do
    if schema.isNone then
      if let some rep := repetition then
        if sameName rep.name name then return repeatedInput rep label
      if let some (e, seen) := findNamed name ctx.named then return ← r.namedInput ctx e seen label hint
    match r.catalog.find? name with
    | none => throw (.noSuchTable (missingName ctx schema name))
    | some (.unavailable p) => throw p
    | some (.table t) => relationInput name t label hint
    | some (.view v) => r.viewInput ctx v label hint
    | some (.function f) => functionInput f label []
  | .function schema name arguments label => do
    if schema.isNone && (findNamed name ctx.named).isSome then throw (.notAFunction name)
    match r.catalog.find? name with
    | none => throw (.noSuchTable (missingName ctx schema name))
    | some (.unavailable p) => throw p
    | some (.function f) => functionInput f label (← arguments.mapM (r.expression ctx))
    | some _ => throw (.notAFunction name)

/-! ## Joins -/

/-- Of which inputs the rows are kept because of an input behind them. -/
def keptFlags : List JoinOperator → List Bool
  | [] => []
  | _ :: rest => rest.any JoinOperator.right :: keptFlags rest

theorem keptFlags_length : ∀ joins : List JoinOperator, (keptFlags joins).length = joins.length
  | [] => rfl
  | _ :: rest => by simp [keptFlags, keptFlags_length rest]

/-- The columns that an input shares with those before it, which all have to be there. -/
def share (before : List PendingInput) (i : PendingInput) (hasCondition : Bool) : Except Problem PendingInput := do
  let i ←
    if i.join.natural && !before.isEmpty then do
      if i.shared.isSome || hasCondition then throw .constrainedNaturalJoin
      let common := i.names.filter fun n => before.any fun b => b.hasColumn n
      pure { i with shared := if common.isEmpty then none else some common }
    else pure i
  match (i.shared.getD []).find? fun n => !(i.hasColumn n && before.any fun b => b.hasColumn n) with
  | some n => throw (.missingJoinColumn n)
  | none => return i

/-- The inputs of a query one after the other, with the conditions of their joins. -/
def inputs (ctx : Context) (repetition : Option Repetition) (joins : List Join) :
    Resolving (List (PendingInput × Option Expr)) := do
  let kept := keptFlags (joins.map fun | .mk op _ _ _ => op)
  let found ← (joins.zip kept).mapM fun
    | (.mk op s on shared, isKept) => do
      let i ← r.source ctx repetition s
      return (({ i with join := op, isKept, shared } : PendingInput), on)
  found.foldlM (fun before i => do
    return before ++ [(← share (before.map Prod.fst) i.1 i.2.isSome, i.2)]) []

end Resolver

end CouplingTree.Sql
