import CouplingTree.DatabaseImage.Record
import CouplingTree.Sql.DatabaseNames
import CouplingTree.Sql.Grammar.Definition
import CouplingTree.Text.Numeral

/-!
# The schema of a database image

The first page of an image is the root of the schema, a table with a row for each table, view, index and trigger. A row
has the statement that makes what it is for; those of an index that belongs to a table have none.

`SchemaItem.read` takes the rows one by one and refuses the first one that is not in order.
-/

namespace CouplingTree

open Sql (Definition Problem Value)

/-- A row of the schema. -/
structure SchemaItem where
  kind : Option String
  name : Option String
  table : Option String
  root : Value
  statement : Option String

/-- A row of the schema with the definition in it. -/
structure DefinedItem where
  name : String
  /-- The root page that it names, or zero. -/
  root : Nat
  definition : Definition

/-- Whether it has a name of its own among indexes, and not among tables. -/
def DefinedItem.isIndex (i : DefinedItem) : Bool :=
  match i.definition with
  | .index _ => true
  | _ => false

namespace SchemaItem

/-- The columns of the schema. -/
def columns : List String := ["type", "name", "tbl_name", "rootpage", "sql"]

/-- What a value says as a text. -/
def textOf : Value → Option String
  | .null => none
  | v => some (String.ofList (Utf8.decodeLossy (Sql.beforeZero v.bytes)))

def ofValues (values : List Value) : SchemaItem :=
  let value (i : Nat) : Value := values[i]?.getD .null
  ⟨textOf (value 0), textOf (value 1), textOf (value 2), value 3, textOf (value 4)⟩

/-- The root page, if it is written in digits and there is such a page; zero is none of them, but allowed. -/
def root? (pageCount : Nat) (e : SchemaItem) : Option Nat :=
  match textOf e.root with
  | none => none
  | some s =>
    if s ≠ "" ∧ s.toList.all Char.isDigit ∧ Numeral.number s.toList ≤ pageCount then some (Numeral.number s.toList)
    else none

/-- Whether a statement begins like one that makes something. -/
def makesSomething (statement : String) : Bool := "cr".toList.isPrefixOf (lowerAscii statement).toList

/-- The refusal of the row. -/
def refused {α : Type} (e : SchemaItem) (reason : String) : Except DatabaseError α :=
  .error (.malformedEntry (e.name.getD "?") reason)

/-- Whether the row is for something of a kind, with these names. -/
def isFor (e : SchemaItem) (kind name table : String) : Bool :=
  e.kind.any (sameName kind) && e.name.any (sameName name) && e.table.any (sameName table)

/-! ## Definitions -/

/-- What the rows so far have made. -/
structure Schema where
  items : List DefinedItem := []
  /-- The root pages of the indexes that tables have by themselves. -/
  ownRoots : List (String × Nat) := []

namespace Schema

/-- Names of tables that are always there. -/
def ownNames : List String := ["sqlite_master", "sqlite_schema"]

def find? (s : Schema) (name : String) : Option DefinedItem :=
  s.items.find? fun i => !i.isIndex && sameName i.name name

/-- The names of the indexes that a table has by itself. -/
def ownIndexes (t : Sql.TableDefinition) : List String :=
  (List.range t.ownIndexes.length).map fun i => t.ownIndexName (i + 1)

def hasIndex (s : Schema) (name : String) : Bool :=
  s.items.any fun i =>
    match i.definition with
    | .table t => (ownIndexes t).any (sameName name)
    | .index d => sameName d.name name
    | _ => false

/-- The root pages of the indexes of the table that an index belongs to. -/
def rootsBeside (s : Schema) (index : String) : List Nat :=
  let ofTable (t : Sql.TableDefinition) : List Nat :=
    ((s.ownRoots.filter fun r => (ownIndexes t).any (sameName r.1)).map Prod.snd) ++ s.items.filterMap fun i =>
      match i.definition with
      | .index d => if sameName d.table t.name then some i.root else none
      | _ => none
  let owners := s.items.filterMap fun i =>
    match i.definition with
    | .table t => if (ownIndexes t).any (sameName index) then some t else none
    | _ => none
  owners.flatMap ofTable

end Schema

/-! ## Indexes -/

/-- What is wrong with an index of a table. -/
def checkIndex (t : Sql.TableDefinition) (i : Sql.IndexDefinition) : Except Problem Unit := do
  let subject (use : Sql.RowUse) : Sql.SelfReference.Subject :=
    ⟨t.name, t.columns.map Sql.ColumnDefinition.name, !t.withoutRowIds, use⟩
  i.filter.forM fun e => e.checkSelf (subject .filter)
  i.terms.forM fun k => k.expression.checkSelf (subject .index)

/-- What is wrong with the table of an index. -/
def checkIndexed (s : Schema) (i : Sql.IndexDefinition) : Except Problem Unit :=
  if Schema.ownNames.any (sameName i.table) then .ok ()
  else
    match (s.find? i.table).map DefinedItem.definition with
    | some (.table t) => checkIndex t i
    | some (.view _) => .error (.notIndexable "views")
    | some _ => .error (.notIndexable "virtual tables")
    | none => .error (.noSuchTable (Database.schemaName ++ "." ++ i.table))

/-- What is wrong with where a view takes its rows from. -/
def checkView (v : Sql.ViewDefinition) : Except Problem Unit :=
  match (v.query.databases v.depth).find? fun n => !sameName n Database.schemaName with
  | some n => .error (.foreignObject "view" v.name n)
  | none => .ok ()

/-- Adds what a definition makes. -/
def addDefinition (s : Schema) (e : SchemaItem) (root : Nat) (definition : Definition) : Except DatabaseError Schema :=
  let taken (name : String) : Option Problem :=
    if Schema.ownNames.any (sameName name) then some (.tableExists name)
    else (s.find? name).map fun i => match i.definition with | .view _ => .viewExists name | _ => .tableExists name
  let added : Schema := { s with items := s.items ++ [⟨e.name.getD "", root, definition⟩] }
  let newTable (kind name : String) (problem : Except Problem Unit) (hasRoot : Bool) : Except DatabaseError Schema :=
    if !e.isFor kind name name then e.refused ""
    else
      match taken name, problem with
      | some p, _ | none, .error p => e.refused p.message
      | none, .ok () => if !hasRoot && root ≠ 0 then e.refused "" else .ok added
  match definition with
  | .table t => newTable "table" t.name (.ok ()) true
  | .moduleTable name _ _ => newTable "table" name (.ok ()) false
  | .view v => newTable "view" v.name (checkView v) false
  | .trigger name table =>
    if !e.isFor "trigger" name table then e.refused ""
    else if !(Schema.ownNames.any (sameName table)) && (s.find? table).isNone then
      e.refused (Problem.noSuchTable (Database.schemaName ++ "." ++ table)).message
    else .ok s
  | .index i =>
    match checkIndexed s i with
    | .error p => e.refused p.message
    | .ok () =>
      if !e.isFor "index" i.name i.table then e.refused ""
      else if s.hasIndex i.name then e.refused (Problem.indexExists i.name).message
      else if (s.items.any fun j => j.isIndex && j.root == root && match j.definition with
          | .index d => sameName d.table i.table
          | _ => false) then e.refused "invalid rootpage"
      else .ok added

/-- Adds what a row makes. -/
def add (pageCount : Nat) (s : Schema) (e : SchemaItem) : Except DatabaseError Schema :=
  match e.root, e.statement.getD "" with
  | .null, _ => e.refused ""
  | _, statement =>
    if makesSomething statement then
      match e.root? pageCount with
      | none => e.refused "invalid rootpage"
      | some root =>
        match Definition.ofStatement statement.toList with
        | .error p => e.refused p.message
        | .ok definition => addDefinition s e root definition
    else
      match e.name with
      | none => e.refused ""
      | some name =>
        if statement ≠ "" then e.refused ""
        else if !s.hasIndex name then e.refused "orphan index"
        else
          match e.root? pageCount with
          | some root =>
            if root < 2 ∨ root ∈ s.rootsBeside name then e.refused "invalid rootpage"
            else .ok { s with ownRoots := s.ownRoots ++ [(name, root)] }
          | none => e.refused "invalid rootpage"

/-- The values in the columns of the schema. -/
def valuesOf (d : DatabaseImage) (e : RowEntry) : Except DatabaseError (List Value) :=
  ((List.range columns.length).mapM fun i => (e.stored d i).map (Option.getD · .null)).mapError DatabaseError.ofProblem

/-- Adds what the rows of the schema make, up to the first one that is refused or cannot be read. -/
def addRows (d : DatabaseImage) (s : Schema) : List RowEntry → Except DatabaseError Schema
  | [] => .ok s
  | r :: rest => do
    let values ← valuesOf d r
    let s ← add d.pageCount s (ofValues values)
    addRows d s rest

/-- What the schema of an image makes. -/
def read (d : DatabaseImage) : Except DatabaseError Schema := do
  let rows := d.entries .table 1
  let s ← addRows d {} rows.items
  match rows.fault with
  | none => return s
  | some p => throw (.ofProblem p)

end SchemaItem

end CouplingTree
