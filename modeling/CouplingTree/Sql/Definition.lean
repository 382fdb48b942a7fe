import CouplingTree.Sql.Query

/-!
# Definitions

The schema of a database is made of definitions. A table is defined by its columns, its key and what has to hold of its
rows; a view by a query; an index by the terms that it keeps the rows in the order of.

`counter?_withoutRowIds` : without row numbers, no column stands for them.
-/

namespace CouplingTree.Sql

/-- A column of a table as it is defined. -/
structure ColumnDefinition where
  name : String
  type : String := ""
  collation : Option String := none
  default : Option Expr := none
  /-- How the default is written. -/
  defaultText : Option String := none
  /-- What the column is computed from, and whether the result is kept. -/
  generated : Option (Expr × Bool) := none
  /-- Whether there is always a value. -/
  isPresent : Bool := false
deriving Inhabited

/-- What rows are put in order by. -/
structure KeyTerm where
  expression : Expr
  collation : Option String := none
  descending : Bool := false

/-- The columns that a row is found by. -/
structure TableKey where
  columns : List String
  /-- Whether the key may stand for the number of the row, if it is one integer. -/
  mayCount : Bool
  automatic : Bool
deriving DecidableEq, Repr

/-- An index that a table has by itself, because some columns have to be different in all rows. -/
structure OwnIndex where
  /-- The columns with their collations, and whether each is descending. -/
  columns : List (String × String × Bool)
  /-- Whether it is the key of the table. -/
  isKey : Bool := false
deriving DecidableEq, Repr

structure TableDefinition where
  name : String
  columns : List ColumnDefinition
  key : Option TableKey
  /-- The indexes that the table has by itself, in the order of their numbers. -/
  ownIndexes : List OwnIndex
  /-- Whether the rows are kept by the key and have no numbers. -/
  withoutRowIds : Bool
  /-- Whether every column has one of a few types. -/
  strict : Bool

structure ViewDefinition where
  name : String
  /-- The names given to its columns. -/
  columns : List String
  query : Query
  /-- How deeply the expressions in it are inside each other at most. -/
  depth : Nat

structure IndexDefinition where
  name : String
  table : String
  isUnique : Bool
  terms : List KeyTerm
  /-- The condition of the rows in it. -/
  filter : Option Expr

inductive Definition
  | table (t : TableDefinition)
  | view (v : ViewDefinition)
  | index (i : IndexDefinition)
  | trigger (name table : String)
  /-- A table that a module keeps. -/
  | moduleTable (name module : String) (arguments : List String)

namespace ColumnDefinition

/-- The types of columns in strict tables. -/
def strictTypes : List String := ["any", "blob", "int", "integer", "real", "text"]

def lowerType (c : ColumnDefinition) : String := lowerAscii c.type

def affinity (c : ColumnDefinition) (strict : Bool) : Affinity :=
  if strict && c.lowerType = "any" then .blob else .ofType c.type

def collationName (c : ColumnDefinition) : String := c.collation.getD "BINARY"

def collationOrBinary (c : ColumnDefinition) : Collation := .ofName c.collationName

/-- Whether the values are kept in the rows. -/
def isStored (c : ColumnDefinition) : Bool :=
  match c.generated with
  | some (_, stored) => stored
  | none => true

/-- The first number in some characters. -/
def firstNumber (cs : List Char) : Nat :=
  ((cs.dropWhile fun c => !c.isDigit).takeWhile Char.isDigit).foldl (fun n c => n * 10 + (c.toNat - 0x30)) 0

/-- What follows a word in a text. -/
def after? (word : List Char) : List Char → Option (List Char)
  | [] => none
  | c :: cs => if word.isPrefixOf (c :: cs) then some ((c :: cs).drop word.length) else after? word cs

/-- How large the values are supposed to be, where an integer counts one. -/
def estimatedSize (c : ColumnDefinition) : Nat :=
  let cs := c.lowerType.toList
  let sizeOf (n : Nat) : Nat := min 255 (n / 4 + 1)
  if cs.isEmpty then 1
  else
    match Affinity.ofType c.type with
    | .text => ((after? "char".toList cs).map fun rest => sizeOf (firstNumber rest)).getD 5
    | .blob => ((after? "blob(".toList cs).map fun rest => sizeOf (firstNumber rest)).getD 5
    | _ => 1

/-- What is kept for a column of an affinity if nothing is given, for the expressions whose value is plain. -/
def plainValue (a : Affinity) : Expr → Value
  | .value v => a.apply v
  | .unary .plus e => plainValue a e
  | .unary .negate e =>
    match (plainValue a e).cast .numeric with
    | .integer i => a.apply (if i = leastInteger then .real (-doubleOfInt i) else .integer (-i))
    | .real x => a.apply (.real (-x))
    | v => v
  | .column none none name quoting =>
    if quoting = .bare ∧ sameName name "true" then .ofBool true
    else if quoting = .bare ∧ sameName name "false" then .ofBool false
    else .null
  | .cast e type => a.apply ((plainValue (.ofType type) e).cast (.ofType type))
  | _ => .null

/-- The value where a row ends before the column. -/
def missingValue (c : ColumnDefinition) (strict : Bool) : Value :=
  (c.default.map (plainValue (c.affinity strict))).getD .null

end ColumnDefinition

namespace TableDefinition

/-- The place of a column. -/
def place? (t : TableDefinition) (name : String) : Option Nat := t.columns.findIdx? fun c => sameName c.name name

/-- The column that stands for the number of the row. -/
def counter? (t : TableDefinition) : Option Nat :=
  match t.withoutRowIds, t.key with
  | false, some ⟨[name], true, _⟩ =>
    t.columns.findIdx? fun c => sameName c.name name && decide (c.lowerType = "integer")
  | _, _ => none

theorem counter?_withoutRowIds {t : TableDefinition} (h : t.withoutRowIds = true) : t.counter? = none := by
  simp [counter?, h]

/-- The name of an index that the table has by itself, by its number from one on. -/
def ownIndexName (t : TableDefinition) (number : Nat) : String :=
  "sqlite_autoindex_" ++ t.name ++ "_" ++ toString number

/-- The key of a table that is kept by it, with its collations. -/
def keyColumns (t : TableDefinition) : List (String × String × Bool) :=
  let columns := ((t.ownIndexes.find? OwnIndex.isKey).map OwnIndex.columns).getD []
  columns.foldl (fun kept c =>
    if kept.any fun k => sameName k.1 c.1 && sameName k.2.1 c.2.1 then kept else kept ++ [c]) []

end TableDefinition

end CouplingTree.Sql
