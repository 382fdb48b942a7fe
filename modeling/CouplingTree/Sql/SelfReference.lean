import CouplingTree.Sql.Definition
import CouplingTree.Sql.Function.Catalog

/-!
# Expressions about one row

What has to hold of the rows of a table, what a column is computed from, and what an index is made of, are expressions of
the columns of one row. They have neither queries nor parameters in them, and mostly no functions that make different
values of the same ones.

`SelfReference.check_value` : there is nothing wrong with a value.
-/

namespace CouplingTree.Sql

/-- What an expression about one row is for. -/
inductive RowUse
  | constraint
  | generated
  | index
  | filter
deriving DecidableEq, Repr

namespace RowUse

def place : RowUse → String
  | constraint => "CHECK constraints"
  | generated => "generated columns"
  | index => "index expressions"
  | filter => "partial index WHERE clauses"

end RowUse

/-- Names for the number of a row. -/
def rowIdNames : List String := ["rowid", "_rowid_", "oid"]

def isRowIdName (name : String) : Bool := rowIdNames.any (sameName name)

def isTruthName (name : String) : Bool := sameName name "true" || sameName name "false"

/-- A name with those in front of it. -/
def fullName (schema table : Option String) (name : String) : String :=
  ".".intercalate (schema.toList ++ table.toList ++ [name])

namespace SelfReference

/-- The table whose rows an expression is about. -/
structure Subject where
  table : String
  columns : List String
  hasRowIds : Bool
  use : RowUse

def Subject.checkColumn (s : Subject) (schema table : Option String) (name : String) (quoting : Quoting) :
    Except Problem Unit :=
  let isOwn := (table.all (sameName s.table)) && schema.all (sameName "main")
  let isPlain := schema.isNone && table.isNone
  if isOwn && s.columns.any (sameName name) then .ok ()
  else if isOwn && s.hasRowIds && isRowIdName name && (s.use = .constraint || s.use = .filter) then .ok ()
  else if isPlain && (quoting = .doubleQuoted || quoting = .bare && isTruthName name) then .ok ()
  else .error (.noSuchColumn (fullName schema table name))

/-- What is wrong with a function and so many values. A function that is not known may come to be. -/
def Subject.checkFunction (s : Subject) (name : String) (count : Nat) (hasWindow : Bool) : Except Problem Unit :=
  match functionOf name count with
  | .error (.noSuchFunction _) => .ok ()
  | .error p => .error p
  | .ok (.aggregate _) => .error (.misusedFunction (if hasWindow then "window" else "aggregate") name)
  | .ok (.window _) => .error (.misusedFunction "window" name)
  | .ok (.scalar f) =>
    if !f.isFixed && s.use ≠ .constraint then .error (.prohibited "non-deterministic functions" s.use.place) else .ok ()
  | .ok _ => .ok ()

/-- Whether two sides of a comparison have the same number of values. -/
def checkWidths : Expr → Except Problem Unit
  | .binary (.compare _) a b => if a.width = b.width then .ok () else .error .misusedRow
  | .between e low high => if e.width = low.width ∧ e.width = high.width then .ok () else .error .misusedRow
  | _ => .ok ()

/-- What is wrong with an expression that is nested so deeply at most. -/
def check (s : Subject) : Nat → Expr → Except Problem Unit
  | 0, _ => .ok ()
  | depth + 1, e => do
    match e with
    | .column schema table name quoting => do
      if table.isSome && (s.use = .index || s.use = .generated) then throw (.prohibited "the \".\" operator" s.use.place)
      s.checkColumn schema table name quoting
    | .parameter => throw (.prohibited "parameters" s.use.place)
    | .exists _ | .single _ | .memberOf _ _ => throw (.prohibited "subqueries" s.use.place)
    | .call name _ _ arguments _ overWindow => do
      e.parts.forM (check s depth)
      s.checkFunction name arguments.length overWindow.isSome
    | e => do
      checkWidths e
      e.parts.forM (check s depth)

theorem check_value (s : Subject) (depth : Nat) (v : Value) : check s depth (.value v) = .ok () := by
  cases depth <;> rfl

end SelfReference

/-- What is wrong with an expression about one row. -/
def Expr.checkSelf (s : SelfReference.Subject) (e : Expr) : Except Problem Unit := SelfReference.check s e.depth e

end CouplingTree.Sql
