import CouplingTree.Sql.Answer
import CouplingTree.Sql.Function.Parts
import CouplingTree.Text.Utf8

/-!
# Databases

A database has tables and views; a view is a query. Names are found without regard to the case of ASCII letters.
`Database.select` gives some columns of all rows in the order of the row numbers, or of a column that is named like these.
Of tables the rows are taken as they are, and everything else is asked for by a query. Texts are kept as bytes and decoded
when they are selected.

`sortRows_eq_self` : rows that are in the order of their numbers stay in it.
-/

namespace CouplingTree

open Sql (Column Problem Query Relation Row Stream Supply Value)

/-! ## Errors -/

/-- What is wrong with a value in the address of a database. -/
inductive AddressProblem
  | unknownAccess
  | refusedAccess
  | unknownCache
  | unknownSystem
deriving DecidableEq, Repr

def AddressProblem.message : AddressProblem → String
  | unknownAccess => "no such access mode: "
  | refusedAccess => "access mode not allowed: "
  | unknownCache => "no such cache mode: "
  | unknownSystem => "no such vfs: "

inductive DatabaseError
  | nullCharacter
  | cannotOpen
  | unreadable
  | readOnly
  | address (problem : AddressProblem) (value : String)
  /-- The value that a message would show is no text. -/
  | undecodableAddress (fault : Utf8.Fault)
  | notADatabase
  | unsupportedFormat
  | malformed
  | malformedEntry (name reason : String)
  | query (problem : Problem)
  | undecodableCell (column : String) (bytes : List UInt8)
deriving DecidableEq, Repr

namespace DatabaseError

def ofProblem : Problem → DatabaseError
  | .malformed => malformed
  | p => query p

/-- The most bytes of a message about a cell. -/
def maxCellMessage : Nat := 198

/-- Bytes as characters of ASCII, up to a zero byte. -/
def shownBytes (bytes : List UInt8) : List Char :=
  (bytes.takeWhile (· ≠ 0)).map fun b => if b.toNat < 0x80 then Char.ofNat b.toNat else Utf8.replacement

def cellMessage (column : String) (bytes : List UInt8) : String :=
  let start := Utf8.encode ("Could not decode to UTF-8 column '" ++ column ++ "' with text '")
  String.ofList ((shownBytes start ++ shownBytes bytes ++ ['\x27']).take maxCellMessage)

def message : DatabaseError → String
  | nullCharacter => "embedded null byte"
  | cannotOpen => "unable to open database file"
  | unreadable => "disk I/O error"
  | readOnly => "attempt to write a readonly database"
  | address problem value => problem.message ++ value
  | undecodableAddress fault => fault.message
  | notADatabase => "file is not a database"
  | unsupportedFormat => "unsupported file format"
  | malformed => "database disk image is malformed"
  | malformedEntry name reason =>
    "malformed database schema (" ++ name ++ ")" ++ if reason = "" then "" else " - " ++ reason
  | query problem => problem.message
  | undecodableCell column bytes => cellMessage column bytes

end DatabaseError

/-! ## Cells -/

/-- A value that is selected. -/
inductive Cell
  | nothing
  | integer (i : Int)
  | real (x : Float)
  | text (s : String)
  | blob (bytes : List UInt8)

/-- A value of a column, whose text has to be in order. -/
def Cell.ofValue (column : String) : Value → Except DatabaseError Cell
  | .null => .ok nothing
  | .integer i => .ok (integer i)
  | .real x => .ok (real x)
  | .blob bytes => .ok (blob bytes)
  | .text bytes =>
    match Utf8.decode bytes with
    | .ok cs => .ok (text (String.ofList cs))
    | .error _ => .error (.undecodableCell column bytes)

/-! ## Tables -/

structure Table where
  name : String
  supply : Supply

namespace Table

def isView (t : Table) : Bool :=
  match t.supply with
  | .view _ => true
  | _ => false

/-- A row of a plain table with its number. -/
structure NumberedRow where
  id : Int
  values : List Value

def NumberedRow.toRow (r : NumberedRow) : Row := .ofValues (.integer r.id) r.values

/-- Puts a row before the first one that has a greater number. -/
def insertRow (r : NumberedRow) : List NumberedRow → List NumberedRow
  | [] => [r]
  | s :: rest => if s.id ≤ r.id then s :: insertRow r rest else r :: s :: rest

def sortRows (rows : List NumberedRow) : List NumberedRow := rows.foldl (fun sorted r => insertRow r sorted) []

/-- A plain table with columns for texts. -/
def ofRows (name : String) (columns : List String) (rows : List NumberedRow) : Table :=
  ⟨name, .table {
    columns := columns.map fun n => { name := n, affinity := some .text }
    hasRowIds := true
    rows := ⟨(sortRows rows).map NumberedRow.toRow, none⟩ }⟩

theorem insertRow_append {r : NumberedRow} : ∀ {rows : List NumberedRow}, (∀ s ∈ rows, s.id ≤ r.id) →
    insertRow r rows = rows ++ [r]
  | [], _ => rfl
  | s :: rest, h => by
    rw [insertRow, if_pos (h s (List.mem_cons_self ..)), insertRow_append fun t ht => h t (List.mem_cons_of_mem _ ht),
      List.cons_append]

theorem foldl_insertRow {rows : List NumberedRow} : ∀ {l : List NumberedRow},
    (l ++ rows).Pairwise (fun r s => r.id ≤ s.id) → rows.foldl (fun sorted r => insertRow r sorted) l = l ++ rows := by
  induction rows with
  | nil => intro l _; simp
  | cons r rest ih =>
    intro l h
    have hr : ∀ s ∈ l, s.id ≤ r.id := fun s hs =>
      (List.pairwise_append.1 h).2.2 s hs r (List.mem_cons_self ..)
    have h' : ((l ++ [r]) ++ rest).Pairwise fun r s => r.id ≤ s.id := by simpa using h
    rw [List.foldl_cons, insertRow_append hr, ih h', List.append_assoc, List.singleton_append]

/-- Rows that are in order stay as they are. -/
theorem sortRows_eq_self {rows : List NumberedRow} (h : rows.Pairwise fun r s => r.id ≤ s.id) :
    sortRows rows = rows := by
  simpa [sortRows] using foldl_insertRow (l := []) (by simpa using h)

/-- A view that has one row of constants. -/
def ofConstants (name : String) (columns : List (String × Value)) : Table :=
  ⟨name, .view ⟨name, [], .ofValues columns, 3⟩⟩

/-- The name for the number of a row. -/
def orderName : String := "rowid"

/-- The rows of a table that is no view. -/
def relation? (t : Table) : Option Relation :=
  match t.supply with
  | .table r => some r
  | _ => none

end Table

structure Database where
  tables : List Table
  /-- The functions that tell about the tables. -/
  functions : List Sql.TableFunction := []

namespace Database

def empty : Database := { tables := [] }

def find? (d : Database) (name : String) : Option Table := d.tables.find? fun t => sameName t.name name

/-- Whether there is a table, and not a view, of exactly this name. -/
def hasTable (d : Database) (name : String) : Bool := d.tables.any fun t => decide (t.name = name) && !t.isView

/-! ## Queries -/

/-- The name of the database that all tables are in. -/
def schemaName : String := "main"

/-- What the names of tables mean. -/
def catalog (d : Database) : Sql.Catalog :=
  ⟨fun name =>
    match d.find? name with
    | some t => some t.supply
    | none =>
      ((d.functions ++ Sql.Document.tableFunctions).find? fun f => sameName f.name name).map Supply.function⟩

/-- How deeply expressions are nested at most, in a query that is not nested itself. -/
def depth (d : Database) : Nat :=
  d.tables.foldl (fun n t => match t.supply with | .view v => n + v.depth | _ => n) 16

/-- The columns and the rows of a query. -/
def answer (d : Database) (q : Query) : Except Problem (List Column × Stream Row) := q.answer d.catalog d.depth

def tableSource (name : String) : Sql.Source := .table none name none .free

def columnItem (name : String) : Sql.Item := .expr (.column none none name .bare) none ""

/-- Some items of all rows of a table in the order of the row numbers. -/
def orderedQuery (table : String) (items : List Sql.Item) : Query :=
  .ofSource items (tableSource table) [.mk (.column none none Table.orderName .bare) false none]

/-- The number of rows of a source. -/
def countQuery (s : Sql.Source) : Query :=
  .ofSource [.expr (.call "count" false true [] none none) none ""] s []

/-- The different values of two columns of tables. -/
def unionQuery (a b : String × String) : Query :=
  let selection (c : String × String) : Sql.Selection :=
    .mk false [columnItem c.2] [.mk {} (tableSource c.1) none none] none [] none []
  .mk [] (selection a) [(.union, selection b)] [] none none

/-! ## Selecting -/

/-- The cells of a row under the names of their columns. -/
def cellsOf (columns : List String) (row : Row) : Except DatabaseError (List Cell) := do
  let values ← row.values.mapError .ofProblem
  (columns.zip values).mapM fun c => Cell.ofValue c.1 c.2

/-- The cells of all rows. What is wrong with a row is met before what is wrong behind it. -/
def decoded (columns : List String) (rows : Stream Row) : Except DatabaseError (List (List Cell)) := do
  let cells ← rows.items.mapM (cellsOf columns)
  match rows.fault with
  | none => return cells
  | some p => throw (.ofProblem p)

/-- The rows of a table that is no view. -/
def relation? (d : Database) (table : String) : Option Relation := (d.find? table).bind Table.relation?

/-- The places of some columns of a table. -/
def placesOf (r : Relation) (columns : List String) : Except Problem (List Nat) :=
  columns.mapM fun c => (r.column? c).elim (.error (.noSuchColumn c)) .ok

/-- Columns of a table can be computed; of several problems the last one counts. -/
def checkColumns (r : Relation) (places : List Nat) : Except Problem Unit :=
  (places.reverse.findSome? fun i => r.columns[i]?.bind Column.fault).elim (.ok ()) .error

/-- The name that a relation has for the column at a place. -/
def nameAt (r : Relation) (place : Nat) : String := (r.columns[place]?.map Column.name).getD ""

/-- Some columns of a row. -/
def chosen (places : List Nat) (row : Row) : Row := row.datum none :: places.map fun i => row.datum (some i)

/-- Some columns of all rows, in the order of a column that is named like the numbers of rows. -/
def sortedBy (r : Relation) (key : Nat) (places : List Nat) : Except Problem (Stream Row) := do
  let c := r.columns[key]?.getD default
  if let .unknown name := c.collation then throw (.noSuchCollation name)
  checkColumns r (places ++ [key])
  return Sql.sortedRows [{ term := .place 0 (some key) c }]
    (r.rows.map fun row => ([(row.datum (some key)).map Sql.Datum.value], chosen places row))

/-- Some columns of all rows, in the order that their numbers mean. -/
def inOrder (r : Relation) (places : List Nat) : Except Problem (Stream Row) :=
  match r.column? Table.orderName with
  | some key => sortedBy r key places
  | none => do
    if !r.hasRowIds then throw (.noSuchColumn Table.orderName)
    checkColumns r places
    return r.rows.map (chosen places)

/-- The rows of a query with the names of their columns. -/
def named (d : Database) (q : Query) : Except Problem (List String × Stream Row) := do
  let (columns, rows) ← d.answer q
  return (columns.map Column.name, rows)

/-- The cells of some columns, row by row. -/
def select (d : Database) (table : String) (columns : List String) : Except DatabaseError (List (List Cell)) :=
  match d.relation? table with
  | some r => do
    let places ← (placesOf r columns).mapError .ofProblem
    let rows ← (inOrder r places).mapError .ofProblem
    decoded (places.map (nameAt r)) rows
  | none => do
    let (names, rows) ← (d.named (orderedQuery table (columns.map columnItem))).mapError .ofProblem
    decoded names rows

/-- All rows, each cell under the name of its column. -/
def selectAll (d : Database) (table : String) : Except DatabaseError (List (List (String × Cell))) := do
  let (names, rows) ← (d.named (orderedQuery table [.all])).mapError .ofProblem
  return (← decoded names rows).map names.zip

/-! ## Counting -/

/-- The number that is the one value of a query. -/
def numberOf (d : Database) (q : Query) : Except DatabaseError Nat := do
  let (names, rows) ← (d.named q).mapError .ofProblem
  match ← decoded names rows with
  | [.integer i] :: _ => return i.toNat
  | _ => return 0

/-- How many rows there are. -/
def count (d : Database) (table : String) : Except DatabaseError Nat :=
  match d.relation? table with
  | some r => (r.rows.all.map List.length).mapError .ofProblem
  | none => d.numberOf (countQuery (tableSource table))

/-- The values of a column of a table, and how they are compared. The numbers of rows leave this open. -/
def column? (d : Database) (table name : String) : Option (Option Sql.Collation × Except Problem (List Value)) := do
  let r ← d.relation? table
  let i ← r.column? name
  let collation := if r.counter = some i then none else r.columns[i]?.map Column.collation
  return (collation, do
    checkColumns r [i]
    (← r.rows.all).mapM fun row => (row.datum (some i)).map Sql.Datum.value)

/-- How many different values there are. -/
def distinctCount (c : Sql.Collation) (values : List Value) : Nat :=
  (Sql.firstOfEach [c] (fun v => [v]) values).length

/-- How many different values two columns have together, if they are compared in a way that is known. -/
def countValues (c : Sql.Collation) (vs ws : Except Problem (List Value)) : Except Problem Nat :=
  match c with
  | .unknown name => .error (.noSuchCollation name)
  | c => do return distinctCount c ((← vs) ++ (← ws))

/-- How many different values two columns of tables have. They are compared as the first one is, or else as the second. -/
def countTogether (d : Database) (a b : String × String) : Except DatabaseError Nat :=
  match d.column? a.1 a.2, d.column? b.1 b.2 with
  | some (c, vs), some (c', ws) => (countValues ((c.or c').getD .binary) vs ws).mapError .ofProblem
  | _, _ => d.numberOf (countQuery (.query (unionQuery a b) none))

end Database

end CouplingTree
