import CouplingTree.Sql.Block

/-!
# Scopes

A scope says which columns the names in an expression may belong to: those of the query that it is in, and then those of
the queries around that one. Columns that two tables share stand for the first one, for the second one where only its
rows are kept, and for the first value of them where the rows of both are kept.

`Level.find_nil` : without tables there are no columns.
-/

namespace CouplingTree.Sql

/-! ## Levels -/

/-- The full name of a column of joined tables in brackets. -/
structure NestedName where
  schema : String
  table : String
  column : String
  /-- Whether it stands for columns that are shared. -/
  isShared : Bool := false
  /-- Whether a star does not mean it. -/
  isHidden : Bool := false

def NestedName.matches (n : NestedName) (schema table : Option String) (name : String) : Bool :=
  schema.all (sameName n.schema) && table.all (sameName n.table) && sameName n.column name

/-- A table of a query. -/
structure ScopeTable where
  name : String
  /-- Whether it is one of the database, and no query. -/
  isStored : Bool
  cursor : Nat
  columns : List Column
  /-- The column that stands for the number of the row. -/
  counter : Option Nat
  hasRowIds : Bool
  join : JoinOperator
  isKept : Bool
  /-- The columns that it shares with the tables before it. -/
  shared : Option (List String)
  nested : Option (List NestedName)

/-- A result under its name. -/
structure ScopeResult where
  /-- The name that is given to it. -/
  name : Option String
  term : Term

/-- What names may mean in a query. -/
structure Level where
  tables : List ScopeTable := []
  /-- The results, where their names mean something. -/
  results : Option (List ScopeResult) := none
  aggregateCursor : Nat := 0
  windowCursor : Nat := 0
  mayAggregate : Bool := false
  mayWindow : Bool := false

/-- The levels from the innermost one on. -/
abbrev Scope := List Level

namespace ScopeTable

def shares (t : ScopeTable) (name : String) : Bool := t.shared.any fun names => names.any (sameName name)

/-- The place of a column. One that stands for the number of the row is this number. -/
def columnTerm (t : ScopeTable) (i : Nat) : Term :=
  let mayMiss := t.join.left || t.isKept
  let c := t.columns[i]?.getD default
  if t.counter = some i then .place t.cursor none { Column.rowId with name := c.name, isPresent := !mayMiss }
  else .place t.cursor (some i) { c with isPresent := c.isPresent && !mayMiss }

def rowIdTerm (t : ScopeTable) : Term :=
  .place t.cursor none { Column.rowId with isPresent := !(t.join.left || t.isKept) }

end ScopeTable

/-! ## Finding columns -/

/-- What is found so far. -/
structure ColumnSearch where
  count : Nat := 0
  /-- How many tables have rows with numbers. -/
  numbered : Nat := 0
  found : Option (ScopeTable × Option Nat) := none
  /-- The columns before the last one of which the first value counts. -/
  alternatives : List Term := []
  /-- Whether all columns found are alternatives. -/
  isFull : Bool := false

namespace ColumnSearch

def lastTerm (s : ColumnSearch) : Term :=
  match s.found with
  | some (t, some i) => t.columnTerm i
  | some (t, none) => t.rowIdTerm
  | none => default

/-- One more column of the name. -/
def add (s : ColumnSearch) (t : ScopeTable) (i : Nat) (isShared : Bool) : ColumnSearch :=
  let taken (s : ColumnSearch) : ColumnSearch := { s with count := s.count + 1, found := some (t, some i) }
  if s.count = 0 then taken s
  else if !isShared then taken { s with alternatives := [], isFull := false }
  else if !t.join.right then s
  else if !t.join.left then taken { s with count := 0, alternatives := [], isFull := false }
  else taken { s with alternatives := s.alternatives ++ [s.lastTerm], isFull := true }

/-- Looks for a column among the names of joined tables. -/
def addNested (t : ScopeTable) (schema table : Option String) (name : String) (names : List NestedName)
    (s : ColumnSearch) : ColumnSearch × Bool :=
  let step (acc : ColumnSearch × Bool × Bool) (n : NestedName × Nat) : ColumnSearch × Bool × Bool :=
    let (s, isHit, isDone) := acc
    if isDone || !n.1.matches schema table name then acc
    else
      let s' := s.add t n.2 (t.shares name)
      if s'.count = s.count && s.count > 0 && !t.join.right && t.shares name then (s', isHit, false)
      else ({ s' with numbered := 2 }, true, n.1.isShared)
  let (s, isHit, _) := names.zipIdx.foldl step (s, false, false)
  (s, isHit)

/-- Looks for a column of a table. -/
def visit (schema table : Option String) (name : String) (s : ColumnSearch) (t : ScopeTable) : ColumnSearch :=
  let (s, isDone) :=
    match t.nested with
    | some names =>
      let (s, isHit) := addNested t schema table name names s
      (s, isHit || table.isNone)
    | none => (s, false)
  if isDone then s
  else if schema.any fun n => !(sameName n (if t.isStored then "main" else "*")) then s
  else if table.any fun n => !(sameName n t.name) then s
  else
    match t.columns.findIdx? fun c => sameName c.name name with
    | some i => s.add t i (t.shares name)
    | none => if s.count = 0 && t.hasRowIds then { s with numbered := s.numbered + 1, found := some (t, none) } else s

end ColumnSearch

/-- What a name means. -/
inductive NameMeaning
  | term (t : Term)
  | missing
  | ambiguous

namespace Level

/-- The columns of a name in the tables of a level. -/
def find (l : Level) (schema table : Option String) (name : String) (isRowId : Bool) : NameMeaning :=
  let s := l.tables.foldl (ColumnSearch.visit schema table name) {}
  if s.count = 1 then .term s.lastTerm
  else if s.count = 0 then
    if s.numbered = 1 && isRowId then .term s.lastTerm else .missing
  else if s.isFull && decide (s.alternatives.length = s.count - 1) then
    .term (.apply .coalesce (s.alternatives ++ [s.lastTerm]))
  else .ambiguous

theorem find_nil (l : Level) (h : l.tables = []) (schema table : Option String) (name : String) (isRowId : Bool) :
    l.find schema table name isRowId = .missing := by
  simp [find, h]

end Level

end CouplingTree.Sql
