import CouplingTree.DatabaseImage.Tables
import CouplingTree.Sql.Estimate

/-!
# The indexes of a database image

An index is a tree whose entries are in the order of its terms. Behind the values of the terms, an entry has what the row
is found by: its number, or the columns of the key. `relation` gives a table together with its indexes.

`length_estimates` : an index has an estimate for each number of its first terms.
-/

namespace CouplingTree

open Sql (Column Evaluator Index IndexTerm OwnIndex Problem Relation Row Stream TableDefinition Term Value)

namespace DatabaseImage

/-! ## Estimates -/

/-- About how many rows a table has, as a logarithm. -/
def tableEstimate : Int := 200

/-- About how many rows have the same values in the first terms of an index, for so many terms. -/
def estimates (keyCount : Nat) (isUnique isPartial : Bool) : List Int :=
  let first := if isPartial then tableEstimate - 10 else tableEstimate
  let others := (List.range keyCount).map fun i =>
    if isUnique && i + 1 == keyCount then 0 else ([33, 32, 30, 28, 26][i]?).getD 23
  first :: others

theorem length_estimates (keyCount : Nat) (isUnique isPartial : Bool) :
    (estimates keyCount isUnique isPartial).length = keyCount + 1 := by
  simp [estimates]

def sizeOf (t : TableDefinition) (place : Option Nat) : Nat :=
  ((place.bind fun i => t.columns[i]?).map Sql.ColumnDefinition.estimatedSize).getD 1

def sumSizes (sizes : List Nat) : Nat := sizes.foldl (· + ·) 0

/-- The size of a row, as a logarithm. -/
def tableWidth (t : TableDefinition) : Int :=
  let sizes := (List.range t.columns.length).map fun i => sizeOf t (some i)
  Sql.Estimate.ofNat (4 * (sumSizes sizes + if t.counter?.isNone then 1 else 0))

/-! ## Terms -/

/-- A column as a term of an index. -/
def columnTerm (t : TableDefinition) (place : Nat) (collation : String) (descending : Bool) : IndexTerm :=
  let c := (plainColumns t)[place]?.getD default
  let column : Option Nat := if t.counter? = some place then none else some place
  ⟨.place 0 column c, .ofName collation, descending⟩

/-- The number of the row as a term of an index. -/
def numberTerm : IndexTerm := ⟨.place 0 none Column.rowId, .binary, false⟩

/-- The column that a term of an index is. -/
def columnOf (t : TableDefinition) (i : IndexTerm) : Option Nat :=
  match i.term with
  | .place _ none _ => t.counter?
  | .place _ column _ => column
  | _ => none

/-- The terms that the rows of a table are found by. -/
def findingTerms (t : TableDefinition) : List IndexTerm :=
  if t.withoutRowIds then
    t.keyColumns.filterMap fun k => (t.place? k.1).map fun i => columnTerm t i k.2.1 k.2.2
  else [numberTerm]

def sameTerm (a b : IndexTerm) : Bool := a.term.same b.term && decide (a.collation = b.collation)

/-- The terms of an index with those that its rows are found by. -/
def completeTerms (t : TableDefinition) (terms : List IndexTerm) : List IndexTerm :=
  if t.withoutRowIds then terms ++ (findingTerms t).filter fun k => !terms.any (sameTerm k) else terms ++ [numberTerm]

def ofOwn (t : TableDefinition) (i : OwnIndex) : List IndexTerm :=
  i.columns.filterMap fun c => (t.place? c.1).map fun place => columnTerm t place c.2.1 c.2.2

/-- A term as it is written in the definition of an index. -/
def ofKeyTerm (t : TableDefinition) (k : Sql.KeyTerm) : Except Problem IndexTerm := do
  let term ← termOf t k.expression
  return ⟨term, (k.collation.map Sql.Collation.ofName).getD term.collation, k.descending⟩

/-! ## Entries -/

/-- The rows of a table by the values that they are found by. -/
abbrev RowsByKey (cs : List Sql.Collation) := Std.TreeMap (List Value) Row (Sql.compareRows cs)

/-- What a row is found by. -/
def findingValues (keys : List Evaluator) (r : Row) : List Value :=
  keys.map fun e => match e [(0, some r)] with | .ok d => d.value | .error _ => .null

def rowsByKey (keys : List IndexTerm) (rows : Stream Row) : RowsByKey (keys.map IndexTerm.collation) :=
  let evaluators := keys.map fun k => evaluatorOf k.term
  rows.items.foldl (fun found r => found.insert (findingValues evaluators r) r) ∅

/-- The row that an entry of an index is for. -/
def rowOfEntry (d : DatabaseImage) (places : List Nat) {cs : List Sql.Collation} (rows : RowsByKey cs) (e : RowEntry) :
    Stream Row :=
  match places.mapM fun i => e.stored d i with
  | .error p => ⟨[], some p⟩
  | .ok vs =>
    match rows.get? (vs.map fun v => v.getD .null) with
    | some r => ⟨[r], none⟩
    | none => ⟨[], some .malformed⟩

/-- The rows of a table in the order of an index whose tree starts at a page. -/
def rowsInOrder (d : DatabaseImage) (t : TableDefinition) (terms : List IndexTerm) (root : Nat) (rows : Stream Row) :
    Stream Row :=
  let keys := findingTerms t
  let places := keys.filterMap fun k => terms.findIdx? (sameTerm k)
  let found := rowsByKey keys rows
  (d.entries .index root).flatMap (rowOfEntry d places found)

/-! ## Indexes -/

/-- The columns whose values are in an index. -/
def coveredColumns (t : TableDefinition) (terms : List IndexTerm) : List (Option Nat) :=
  (terms.filterMap fun i =>
    match i.term with
    | .place _ none _ => some none
    | .place _ (some j) _ => if t.columns[j]?.any Sql.ColumnDefinition.isStored then some (some j) else none
    | _ => none) ++ [none]

def indexOf (t : TableDefinition) (name : String) (terms : List IndexTerm) (isUnique isKey : Bool) (filter : Option Term)
    (rows : List IndexTerm → Stream Row) : Index :=
  let all := if isKey then terms else completeTerms t terms
  let stored := if isKey then (storedColumns t).map some else all.map (columnOf t)
  { name, terms := all, keyCount := terms.length, isUnique, isKey, filter
    estimates := estimates terms.length isUnique filter.isSome
    width := Sql.Estimate.ofNat (4 * sumSizes (stored.map (sizeOf t)))
    columns := if isKey then none :: (List.range t.columns.length).map some else coveredColumns t all
    rows := fun _ => rows all }

/-- The indexes that a table has by itself. -/
def ownIndexes (d : DatabaseImage) (s : SchemaItem.Schema) (t : TableDefinition) (rows : Stream Row) : List Index :=
  t.ownIndexes.zipIdx.map fun i =>
    let name := t.ownIndexName (i.2 + 1)
    let isKey := t.withoutRowIds && i.1.isKey
    let terms := if isKey then findingTerms t else ofOwn t i.1
    let root := ((s.ownRoots.find? fun r => sameName r.1 name).map Prod.snd).getD 0
    indexOf t name terms true isKey none fun all => if isKey then rows else rowsInOrder d t all root rows

/-- The indexes that are made for a table. -/
def madeIndexes (d : DatabaseImage) (s : SchemaItem.Schema) (t : TableDefinition) (rows : Stream Row) : List Index :=
  s.items.filterMap fun item =>
    match item.definition with
    | .index i =>
      if sameName i.table t.name then
        match i.terms.mapM (ofKeyTerm t), i.filter.mapM (termOf t) with
        | .ok terms, .ok filter =>
          some (indexOf t i.name terms i.isUnique false filter fun all => rowsInOrder d t all item.root rows)
        | _, _ => none
      else none
    | _ => none

/-- A table whose tree starts at a page. -/
def relation (d : DatabaseImage) (s : SchemaItem.Schema) (t : TableDefinition) (root : Nat) : Relation :=
  let rows := rowsOf d t root
  { columns := columnsOf t, hasRowIds := !t.withoutRowIds, counter := t.counter?, estimate := tableEstimate
    width := tableWidth t, indexes := (ownIndexes d s t rows ++ madeIndexes d s t rows).reverse, rows }

end DatabaseImage

end CouplingTree
