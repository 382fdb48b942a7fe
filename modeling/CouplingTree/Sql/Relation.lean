import CouplingTree.Sql.Stream
import CouplingTree.Sql.Term

/-!
# Relations

A relation has columns and rows. A value that cannot be had is a problem only where it is needed. Its indexes give the
rows in other orders.

`datum_none` : the first value of a row is its number.
-/

namespace CouplingTree.Sql

/-- The number of a row, followed by a value for each column. -/
abbrev Row := List (Except Problem Datum)

namespace Row

/-- The value of a column, or the number of the row. -/
def datum (r : Row) (column : Option Nat) : Except Problem Datum :=
  (match column with
  | none => r.head?
  | some i => r[i + 1]?).getD (.ok Document.nothing)

theorem datum_none (d : Except Problem Datum) (r : Row) : Row.datum (d :: r) none = d := rfl

/-- A row of values. -/
def ofValues (id : Value) (vs : List Value) : Row := .ok ⟨id, false⟩ :: vs.map fun v => .ok ⟨v, false⟩

/-- The values of the columns. -/
def values (r : Row) : Except Problem (List Value) := r.tail.mapM fun d => d.map Datum.value

/-- A row that is kept: its documents become texts. -/
def kept (r : Row) : Row := r.map fun d => d.map fun d => { d with isDocument := false }

end Row

/-- What an index keeps the rows in the order of. -/
structure IndexTerm where
  /-- A term about the row of cursor zero. -/
  term : Term
  collation : Collation
  descending : Bool

structure Index where
  name : String
  /-- All terms, the last of which tell the rows apart. -/
  terms : List IndexTerm
  /-- How many of the terms are written in its definition. -/
  keyCount : Nat
  isUnique : Bool
  /-- Whether it is the key by which the rows themselves are kept. -/
  isKey : Bool
  /-- The condition of the rows in it. -/
  filter : Option Term
  /-- About how many rows there are for the same first values: for none of them, for one, and so on, as logarithms. -/
  estimates : List Int
  /-- The size of an entry, as a logarithm. -/
  width : Int
  /-- Whether it gives all values of a row that a query asks for; expressions are not among them. -/
  columns : List (Option Nat)
  rows : Unit → Stream Row

structure Relation where
  columns : List Column
  /-- Whether the number of a row can be asked for. -/
  hasRowIds : Bool
  /-- The column that stands for the number of a row. -/
  counter : Option Nat := none
  /-- Whether its rows are made by a module. -/
  isMade : Bool := false
  /-- About how many rows there are, as a logarithm. -/
  estimate : Int := 200
  /-- The size of a row, as a logarithm. -/
  width : Int := 0
  /-- The indexes, the one that is made last first. -/
  indexes : List Index := []
  rows : Stream Row

namespace Relation

/-- The place of a column. -/
def column? (r : Relation) (name : String) : Option Nat := r.columns.findIdx? fun c => sameName c.name name

end Relation

/-! ## Order -/

/-- Items with keys, in the order of the keys; items of which neither comes before the other stay in place. -/
def sortByKeys {κ α : Type} (before : κ → κ → Bool) (items : List (κ × α)) : List (κ × α) :=
  items.mergeSort fun a b => !before b.1 a.1

/-- The first difference of two lists of values. -/
def compareRows : List Collation → List Value → List Value → Ordering
  | c :: cs, v :: vs, w :: ws => (v.compare c w).then (compareRows cs vs ws)
  | _, _, _ => .eq

/-- Items in the order of their keys, those with the same keys together. -/
def groupByKeys {α : Type} (cs : List Collation) (key : α → List Value) (items : List α) : List (List α) :=
  let inOrder := sortByKeys (fun v w => compareRows cs v w = .lt) (items.map fun a => (key a, a))
  (inOrder.splitBy fun a b => compareRows cs a.1 b.1 = .eq).map (·.map Prod.snd)

/-- The different rows in order. Of rows that are the same the last one stays. -/
def sortDistinct (cs : List Collation) (rows : List (List Value)) : List (List Value) :=
  (groupByKeys cs id rows).filterMap List.getLast?

/-- The first of each of the items with the same keys. -/
def firstOfEach {α : Type} (cs : List Collation) (key : α → List Value) (items : List α) : List α :=
  let firsts := (groupByKeys cs (fun a => key a.1) items.zipIdx).filterMap List.head?
  (sortByKeys (fun i j : Nat => decide (i < j)) (firsts.map fun a => (a.2, a.1))).map Prod.snd

end CouplingTree.Sql
