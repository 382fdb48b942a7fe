import CouplingTree.DatabaseImage.Schema
import Std.Data.TreeMap

/-!
# The tables of a database image

A table with row numbers is a tree whose rows come in the order of these numbers, and a table without them is an index
whose rows begin with the columns of the key. A value that is missing at the end of a row is the one that is given for
its column, and a generated column that is not kept is computed from the others.

`storedColumns_of_hasRowIds` : with row numbers, the values in a row are in the order of the columns.
-/

namespace CouplingTree

open Sql (Column ColumnDefinition Evaluator Problem Row Stream TableDefinition Term Value)

namespace DatabaseImage

/-! ## Columns in rows -/

def placesOf (t : TableDefinition) (names : List String) : List Nat := names.filterMap t.place?

/-- The columns whose values are in rows. -/
def keptColumns (t : TableDefinition) : List Nat :=
  (List.range t.columns.length).filter fun i => t.columns[i]?.any ColumnDefinition.isStored

/-- The columns of the key by which rows are kept. -/
def keyPlaces (t : TableDefinition) : List Nat := placesOf t (t.keyColumns.map Prod.fst)

/-- The columns of a table whose values are in its rows, in the order in which they are there. -/
def storedColumns (t : TableDefinition) : List Nat :=
  if t.withoutRowIds then keyPlaces t ++ (keptColumns t).filter (· ∉ keyPlaces t) else keptColumns t

theorem storedColumns_of_hasRowIds {t : TableDefinition} (h : t.withoutRowIds = false) :
    storedColumns t = keptColumns t := by
  simp [storedColumns, h]

/-- What a column makes of an integer that is kept in place of a double. -/
def asKept (a : Sql.Affinity) (v : Value) : Value :=
  match a, v with
  | .real, .integer i => .real (Sql.doubleOfInt i)
  | _, v => v

/-- The value of a column that is in the rows. -/
def storedValue (d : DatabaseImage) (t : TableDefinition) (places : List Nat) (e : RowEntry) (i : Nat)
    (c : ColumnDefinition) : Except Problem Sql.Datum :=
  match places.findIdx? (· = i) with
  | none => .ok Sql.Document.nothing
  | some place =>
    (e.stored d place).map fun v => ⟨asKept (c.affinity t.strict) (v.getD (c.missingValue t.strict)), false⟩

/-- A row without the values that are computed. The number of a row that has none is its place. -/
def storedRow (d : DatabaseImage) (t : TableDefinition) (places : List Nat) (e : RowEntry) (place : Nat) : Row :=
  let number : Except Problem Sql.Datum := .ok ⟨.integer (if t.withoutRowIds then place else e.id), false⟩
  number :: t.columns.zipIdx.map fun c =>
    if t.counter? = some c.2 then number else storedValue d t places e c.2 c.1

/-! ## Expressions about rows -/

/-- The columns of a table, when it is not known how they are computed. -/
def plainColumns (t : TableDefinition) : List Column :=
  t.columns.map fun c =>
    { name := c.name, affinity := some (c.affinity t.strict), collation := c.collationOrBinary, isPresent := c.isPresent }

/-- The names in expressions about the rows of a table, which cursor zero is at. -/
def scopeOf (t : TableDefinition) : Sql.Scope :=
  [{ tables := [{
      name := t.name, isStored := true, cursor := 0, columns := plainColumns t, counter := t.counter?
      hasRowIds := !t.withoutRowIds, join := {}, isKept := false, shared := none, nested := none }] }]

/-- A function that was not known when the expression was written may be missing. -/
def missingFunction : Problem → Problem
  | .noSuchFunction name => .unknownFunction name
  | p => p

/-- The term of an expression about the rows of a table. -/
def termOf (t : TableDefinition) (e : Sql.Expr) : Except Problem Term :=
  let r := Sql.Resolver.ofDepth ⟨fun _ => none⟩ (e.depth + 1)
  let steps : Sql.Resolving Term := do
    let p ← r.expression {} e
    p.resolve (scopeOf t)
  ((steps.run {}).map Prod.fst).mapError missingFunction

def evaluatorOf (t : Term) : Evaluator := t.evaluator fun _ _ => ⟨[], none⟩

/-! ## Generated columns -/

/-- A column that is computed from others. -/
structure ComputedColumn where
  place : Nat
  name : String
  affinity : Sql.Affinity
  term : Except Problem Term

def computedColumns (t : TableDefinition) : List ComputedColumn :=
  t.columns.zipIdx.filterMap fun c =>
    match c.1.generated with
    | some (e, false) => some ⟨c.2, c.1.name, c.1.affinity t.strict, termOf t e⟩
    | _ => none

/-- What is wrong with the computation of a column while some others are being computed; the last problem counts. -/
def faultOf (computed : List ComputedColumn) : Nat → List Nat → Nat → Option Problem
  | 0, _, _ => none
  | depth + 1, busy, place =>
    match computed.find? fun c => c.place = place with
    | none => none
    | some c =>
      if place ∈ busy then some (.generatedLoop c.name)
      else
        match c.term with
        | .error p => some p
        | .ok t => t.places.foldl (fun found p => (p.2.1.bind (faultOf computed depth (place :: busy))).or found) none

def columnsOf (t : TableDefinition) : List Column :=
  let computed := computedColumns t
  (plainColumns t).zipIdx.map fun c => { c.1 with fault := faultOf computed (computed.length + 1) [] c.2 }

/-- Computes columns from the others, one after the other. -/
def computeOnce (computed : List (Nat × Evaluator)) (r : Row) : Row :=
  computed.foldl (fun r c => r.set (c.1 + 1) (c.2 [(0, some r)])) r

/-- Computes columns so often that those computed from computed ones have their values too. -/
def compute (computed : List (Nat × Evaluator)) (r : Row) : Row :=
  computed.foldl (fun r _ => computeOnce computed r) r

/-- The functions that compute columns. -/
def evaluatorsOf (t : TableDefinition) : List (Nat × Evaluator) :=
  (computedColumns t).map fun c =>
    (c.place, match c.term with
      | .ok term =>
        let e := evaluatorOf term
        fun env => (e env).map fun d => ⟨c.affinity.apply d.value, false⟩
      | .error p => fun _ => .error p)

/-! ## Rows -/

/-- The rows of a table whose tree starts at a page. -/
def rowsOf (d : DatabaseImage) (t : TableDefinition) (root : Nat) : Stream Row :=
  let entries := d.entries (if t.withoutRowIds then .index else .table) root
  let places := storedColumns t
  let computed := evaluatorsOf t
  ⟨entries.items.zipIdx.map fun e => compute computed (storedRow d t places e.1 e.2), entries.fault⟩

end DatabaseImage

end CouplingTree
