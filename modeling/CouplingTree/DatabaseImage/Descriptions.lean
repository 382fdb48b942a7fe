import CouplingTree.DatabaseImage.Indexes

/-!
# Functions that tell about tables

The columns of a table, its indexes and their terms can be asked for as rows, and so can the numbers in the header of the
image.

`rowsOf_nil` : about nothing there are no rows.
-/

namespace CouplingTree

open Sql (ColumnDefinition Datum Problem Row Stream TableDefinition TableFunction Value)

namespace DatabaseImage.Description

/-- What tells about the tables of an image. -/
structure Subject where
  image : DatabaseImage
  schema : SchemaItem.Schema

variable (s : Subject)

/-! ## Rows -/

def number (n : Nat) : Value := .integer n

def flag (b : Bool) : Value := .ofBool b

/-- Rows with what they have been asked for behind them. -/
def rowsOf (arguments : List Datum) (rows : List (List Value)) : Stream Row :=
  let asked := arguments.map Datum.value ++ List.replicate (2 - arguments.length) .null
  ⟨rows.zipIdx.map fun r => .ofValues (number (r.2 + 1)) (r.1 ++ asked), none⟩

theorem rowsOf_nil (arguments : List Datum) : rowsOf arguments [] = ⟨[], none⟩ := rfl

/-- The text that is asked for, if it is in a database that is known. -/
def asked (arguments : List Datum) : Except Problem String :=
  let textOf (v : Value) : String := String.ofList (Utf8.decodeLossy (Sql.beforeZero v.bytes))
  match arguments with
  | [] => .ok ""
  | [d] => .ok (textOf d.value)
  | d :: schema :: _ =>
    if schema.value.isNull || sameName (textOf schema.value) Database.schemaName then .ok (textOf d.value)
    else .error (.unknownDatabase (textOf schema.value))

/-! ## Tables -/

def table? (name : String) : Option TableDefinition :=
  match (s.schema.find? name).map DefinedItem.definition with
  | some (.table t) => some t
  | _ => none

/-- How the type of a column is shown. -/
def shownType (c : ColumnDefinition) : String :=
  if c.lowerType ∈ ColumnDefinition.strictTypes then c.type.map Char.toUpper else c.type

/-- The place of a column in the key, from one on, or zero. -/
def keyPlace (t : TableDefinition) (c : ColumnDefinition) : Nat :=
  match (t.key.map Sql.TableKey.columns).bind fun names => names.findIdx? (sameName c.name) with
  | some i => i + 1
  | none => 0

/-- Whether a column is computed, and whether the result is kept. -/
def generation (c : ColumnDefinition) : Nat :=
  match c.generated with
  | none => 0
  | some (_, false) => 2
  | some (_, true) => 3

def columnRow (t : TableDefinition) (place : Nat) (c : ColumnDefinition) : List Value :=
  [number place, .ofString c.name, .ofString (shownType c), flag c.isPresent,
    (c.defaultText.map Value.ofString).getD .null, number (keyPlace t c)]

/-- The columns of a table; those that are computed only if all are asked for. -/
def columnRows (all : Bool) (name : String) : List (List Value) :=
  match table? s name with
  | none => []
  | some t =>
    if all then t.columns.zipIdx.map fun c => columnRow t c.2 c.1 ++ [number (generation c.1)]
    else (t.columns.filter fun c => c.generated.isNone).zipIdx.map fun c => columnRow t c.2 c.1

/-! ## Indexes -/

def indexesOf (t : TableDefinition) : List Sql.Index :=
  (ownIndexes s.image s.schema t ⟨[], none⟩ ++ madeIndexes s.image s.schema t ⟨[], none⟩).reverse

/-- Why there is an index: it has been made, or because of a key, or because some columns have to be different. -/
def origin (t : TableDefinition) (i : Sql.Index) : String :=
  match t.ownIndexes.zipIdx.find? fun o => sameName (t.ownIndexName (o.2 + 1)) i.name with
  | some (o, _) => if o.isKey then "pk" else "u"
  | none => "c"

def indexRows (name : String) : List (List Value) :=
  match table? s name with
  | none => []
  | some t => (indexesOf s t).zipIdx.map fun i =>
    [number i.2, .ofString i.1.name, flag i.1.isUnique, .ofString (origin t i.1), flag i.1.filter.isSome]

/-- An index with its table; the name of a table that is kept by its key stands for the key. -/
def index? (name : String) : Option (TableDefinition × Sql.Index) :=
  let tables := s.schema.items.filterMap fun i => match i.definition with | .table t => some t | _ => none
  let named := tables.findSome? fun t => ((indexesOf s t).find? fun i => sameName i.name name).map fun i => (t, i)
  named.or ((table? s name).bind fun t => ((indexesOf s t).find? fun i => i.isKey).map fun i => (t, i))

def collationName : Sql.Collation → String
  | .binary => "BINARY"
  | .noCase => "NOCASE"
  | .rightTrim => "RTRIM"
  | .unknown name => name

/-- The number and the name of the column that a term of an index is. -/
def termValues (t : TableDefinition) (i : Sql.IndexTerm) : List Value :=
  match columnOf t i, i.term with
  | some c, _ => [number c, .ofString ((t.columns[c]?.map ColumnDefinition.name).getD "")]
  | none, .place _ none _ => [.integer (-1), .null]
  | none, _ => [.integer (-2), .null]

/-- The terms of an index, and if all are asked for, those behind them too. -/
def termRows (all : Bool) (name : String) : List (List Value) :=
  match index? s name with
  | none => []
  | some (t, i) =>
    let others := if i.isKey then (keptColumns t).filter fun c => !(keyPlaces t).contains c else []
    let terms := i.terms ++ others.map fun c => columnTerm t c "BINARY" false
    let row (k : Sql.IndexTerm × Nat) : List Value := number k.2 :: termValues t k.1
    if all then
      terms.zipIdx.map fun k =>
        row k ++ [flag k.1.descending, .ofString (collationName k.1.collation), flag (decide (k.2 < i.keyCount))]
    else (terms.take i.keyCount).zipIdx.map row

/-! ## Functions -/

def columnOfName (n : String) : Sql.Column := { name := n, affinity := some .blob }

/-- A function of a name that tells about something. -/
def asking (name : String) (columns : List String) (rows : String → List (List Value)) : TableFunction :=
  { name := "pragma_" ++ name, columns := columns.map columnOfName, hidden := ["arg", "schema"].map columnOfName
    least := 1, cost := 43, estimate := 43
    rows := fun arguments =>
      match arguments, asked arguments with
      | [], _ => ⟨[], none⟩
      | arguments, .ok n => rowsOf arguments (rows n)
      | _, .error p => ⟨[], some p⟩ }

/-- A function without arguments that has one value. -/
def telling (name : String) (v : Value) : TableFunction :=
  { name := "pragma_" ++ name, columns := [columnOfName name], hidden := [], least := 0, cost := 0, estimate := 46
    rows := fun _ => ⟨[.ofValues (number 1) [v]], none⟩ }

/-- The names of the ways in which texts are kept. -/
def encodingName : TextEncoding → String
  | .utf8 => "UTF-8"
  | .utf16 .lowFirst => "UTF-16le"
  | .utf16 .highFirst => "UTF-16be"

def functions : List TableFunction :=
  let columns := ["cid", "name", "type", "notnull", "dflt_value", "pk"]
  let terms := ["seqno", "cid", "name"]
  let header (start : Nat) : Value := .integer (signed 32 (numberAt s.image.bytes start 4))
  [asking "table_info" columns (columnRows s false),
   asking "table_xinfo" (columns ++ ["hidden"]) (columnRows s true),
   asking "index_list" ["seq", "name", "unique", "origin", "partial"] (indexRows s),
   asking "index_info" terms (termRows s false),
   asking "index_xinfo" (terms ++ ["desc", "coll", "key"]) (termRows s true),
   telling "user_version" (header 60), telling "application_id" (header 68), telling "schema_version" (header 40),
   telling "freelist_count" (header 36), telling "page_size" (number s.image.pageSize),
   telling "page_count" (number s.image.pageCount), telling "encoding" (.ofString (encodingName s.image.encoding))]

end DatabaseImage.Description

end CouplingTree
