import CouplingTree.DatabaseImage.Descriptions

/-!
# Tables of modules

A module keeps the values of its tables in other tables, and shows them in its own way.

`Database.ofBytes_empty` : a file without bytes holds a database without tables.
-/

namespace CouplingTree

open Sql (Column Problem Relation Row Stream Supply Value)

namespace DatabaseImage

/-! ## Arguments -/

/-- The words of an argument, the first of which is the name of a column. -/
def firstName (argument : String) : String := ((Sql.tokens argument.toList).head?.map Sql.Token.content).getD ""

/-- Whether an argument is an option and no column. -/
def isOption (argument : String) : Bool := '=' ∈ argument.toList

def columnNames (arguments : List String) : List String := (arguments.filter fun a => !isOption a).map firstName

/-- The value of an option. -/
def option? (arguments : List String) (name : String) : Option String :=
  arguments.findSome? fun a =>
    match Sql.tokens a.toList with
    | n :: sign :: value =>
      if sameName n.content name && sign.isSign "=" then some ((value.head?.map Sql.Token.content).getD "") else none
    | _ => none

/-! ## Texts that are searched -/

/-- Where the values of a table of a module are: in the columns of another table, under their names there, or nowhere. -/
structure Contents where
  table : String
  columns : List (String × Option String)
  /-- The column that numbers the rows, if it is not their own number. -/
  number : Option String := none
  /-- What is wrong if there is no such table. -/
  noTable : Problem := .malformed
  /-- What is wrong if it has no such column. -/
  noColumn : String → Problem := fun _ => .malformed

/-- The contents of a table of texts that are searched. They may be those of any table. -/
def textContents? (name module : String) (arguments : List String) : Option Contents :=
  let names := columnNames arguments
  match lowerAscii module, option? arguments "content" with
  | "fts5", none => some { table := name ++ "_content", columns := names.mapIdx fun i n => (n, some ("c" ++ toString i)) }
  | "fts5", some "" => some { table := name ++ "_docsize", columns := names.map fun n => (n, none) }
  | "fts5", some table => some {
      table, columns := names.map fun n => (n, some n), number := option? arguments "content_rowid"
      noTable := .noSuchTable (Database.schemaName ++ "." ++ table), noColumn := fun n => .noSuchColumn ("T." ++ n) }
  | "fts4", some table => some {
      table, columns := names.map fun n => (n, some n), noTable := .moduleFailure, noColumn := fun _ => .moduleFailure }
  | "fts3", _ | "fts4", none => some {
      table := name ++ "_content", columns := names.mapIdx fun i n => (n, some ("c" ++ toString i ++ n)) }
  | _, _ => none

/-- The rows that a column numbers, in the order of these numbers. -/
def numberedBy (place : Option Nat) (rows : Stream Row) : Stream Row :=
  match place with
  | none => rows
  | some i =>
    let numbered : Stream (Int × Row) := rows.flatMap fun row =>
      match row.datum (some i) with
      | .ok ⟨.integer n, _⟩ => ⟨[(n, .ok ⟨.integer n, false⟩ :: row.tail)], none⟩
      | .ok _ => ⟨[], none⟩
      | .error p => ⟨[], some p⟩
    ⟨(Sql.sortByKeys (fun m n => decide (m < n)) numbered.items).map Prod.snd, numbered.fault⟩

/-- Some columns of a relation under other names. -/
def renamed (r : Relation) (columns : List (String × Option String)) (number : Option String) : Relation :=
  let places := columns.map fun c => (c.2.bind r.column?).getD r.columns.length
  let key := (number.bind r.column?).filter fun i => r.counter ≠ some i
  { columns := columns.map fun c => { name := c.1 }, hasRowIds := true, isMade := true
    rows := (numberedBy key r.rows).map fun row => row.datum none :: places.map fun i => row.datum (some i) }

/-- The relation of a name. -/
def relationOf? (tables : List Table) (name : String) : Option Relation :=
  (tables.find? fun t => sameName t.name name).bind Table.relation?

/-- A table whose values are in another one; without columns of its own it has those of the other one. -/
def Contents.supply (c : Contents) (tables : List Table) : Supply :=
  match relationOf? tables c.table with
  | none => .unavailable c.noTable
  | some r =>
    let columns := if c.columns.isEmpty then r.columns.map fun k => (k.name, some k.name) else c.columns
    match (columns.filterMap Prod.snd).find? fun n => (r.column? n).isNone with
    | some n => .unavailable (c.noColumn n)
    | none => .table (renamed r columns c.number)

/-! ## Boxes -/

/-- A node of a tree of boxes: its depth, and its cells, each with a number and its bounds. -/
structure BoxNode where
  depth : Nat
  cells : List (Int × List Nat)

/-- The node in some bytes, where a box has so many bounds. -/
def BoxNode.ofBytes (bounds : Nat) (bytes : Sql.Bytes) : BoxNode :=
  let a := bytes.toArray
  let size := 8 + 4 * bounds
  { depth := numberAt a 0 2
    cells := (List.range (numberAt a 2 2)).map fun i =>
      (signed 64 (numberAt a (4 + size * i) 8), (List.range bounds).map fun j => numberAt a (4 + size * i + 8 + 4 * j) 4) }

/-- The cells of the leaves below a node, which is so far from them. -/
def cellsBelow (nodes : List (Int × BoxNode)) : Nat → Int → List (Int × List Nat)
  | 0, i => ((nodes.lookup i).map BoxNode.cells).getD []
  | depth + 1, i => (((nodes.lookup i).map BoxNode.cells).getD []).flatMap fun c => cellsBelow nodes depth c.1

/-- The number of the node from which all others are found. -/
def rootNode : Int := 1

/-- A bound, as a double or as an integer. -/
def boundOf (isInteger : Bool) (n : Nat) : Value :=
  if isInteger then .integer (signed 32 n) else .ofDouble (Float32.ofBits (UInt32.ofNat n)).toFloat

/-- The values of some columns of the row of a number. -/
def valuesOf (r : Relation) (names : List String) (id : Int) : List (Except Problem Sql.Datum) :=
  let row := r.rows.items.find? fun row =>
    match row.datum none with
    | .ok d => d.value.same .binary (.integer id)
    | .error _ => false
  names.map fun n => ((row.bind fun row => (r.column? n).map fun i => row.datum (some i)).getD (.ok Sql.Document.nothing))

/-- A table of boxes. Its first column is the number of a row, and columns that are no bounds are kept apart. -/
def boxSupply (tables : List Table) (name : String) (isInteger : Bool) (arguments : List String) : Supply :=
  let isKept (a : String) : Bool := a.startsWith "+"
  let bounds := (arguments.drop 1).filter fun a => !isKept a
  let kept := (arguments.drop 1).filter isKept
  match relationOf? tables (name ++ "_node"), relationOf? tables (name ++ "_rowid") with
  | some nodes, some numbers =>
    let found := nodes.rows.items.filterMap fun row =>
      match row.datum none, row.datum (some 1) with
      | .ok ⟨.integer i, _⟩, .ok ⟨.blob bytes, _⟩ => some (i, BoxNode.ofBytes bounds.length bytes)
      | _, _ => none
    let depth := ((found.lookup rootNode).map BoxNode.depth).getD 0
    let names := (List.range kept.length).map fun i => "a" ++ toString i
    .table {
      columns := (arguments.take 1 ++ bounds ++ kept.map fun a => String.ofList (a.toList.drop 1)).map fun a =>
        { name := firstName a }
      hasRowIds := true, isMade := true
      rows := ⟨(Sql.sortByKeys (fun m n => decide (m < n)) (cellsBelow found (min depth maxDepth) rootNode)).map fun c =>
        .ok ⟨.integer c.1, false⟩ :: .ok ⟨.integer c.1, false⟩ ::
          c.2.map (fun n => .ok ⟨boundOf isInteger n, false⟩) ++ valuesOf numbers names c.1, none⟩ }
  | _, _ => .unavailable .malformed

/-! ## All modules -/

/-- The rows of a table of a module. -/
def moduleSupply (tables : List Table) (name module : String) (arguments : List String) : Supply :=
  match lowerAscii module, textContents? name module arguments with
  | "rtree", _ => boxSupply tables name false arguments
  | "rtree_i32", _ => boxSupply tables name true arguments
  | _, some c => c.supply tables
  | _, none => .unavailable (.noSuchModule module)

/-! ## Databases -/

/-- The schema as a table. -/
def schemaTable (d : DatabaseImage) (name : String) : Table :=
  let entries := d.entries .table 1
  let columns := SchemaItem.columns.map fun n =>
    ({ name := n, affinity := some (if n = "rootpage" then .integer else .text) } : Column)
  ⟨name, .table {
    columns, hasRowIds := true, width := Sql.Estimate.ofNat 88
    rows := entries.map fun e =>
      .ok ⟨.integer e.id, false⟩ :: (List.range columns.length).map fun i =>
        (e.stored d i).map fun v => ⟨v.getD .null, false⟩ }⟩

/-- The table or the view that a row of the schema makes. Modules take their values from the other tables. -/
def tableOf? (d : DatabaseImage) (s : SchemaItem.Schema) (i : DefinedItem) : Option Table :=
  match i.definition with
  | .table t => some ⟨i.name, .table (relation d s t i.root)⟩
  | .view v => some ⟨i.name, .view v⟩
  | _ => none

def moduleTable? (tables : List Table) (i : DefinedItem) : Option Table :=
  match i.definition with
  | .moduleTable name module arguments => some ⟨i.name, moduleSupply tables name module arguments⟩
  | _ => none

end DatabaseImage

/-- The database in an image. -/
def Database.ofImage (bytes : Array UInt8) : Except DatabaseError Database := do
  let d ← DatabaseImage.ofBytes bytes
  let schema ← SchemaItem.read d
  let tables := schema.items.filterMap (d.tableOf? schema)
  let modules := schema.items.filterMap (DatabaseImage.moduleTable? tables)
  return {
    tables := tables ++ modules ++ SchemaItem.Schema.ownNames.map d.schemaTable
    functions := DatabaseImage.Description.functions ⟨d, schema⟩ }

/-- The database in the bytes of a file. A file of at most one byte holds one without tables. -/
def Database.ofBytes (bytes : Array UInt8) : Except DatabaseError Database :=
  if bytes.size ≤ 1 then .ok .empty else ofImage bytes

theorem Database.ofBytes_empty : Database.ofBytes #[] = .ok .empty := rfl

end CouplingTree
