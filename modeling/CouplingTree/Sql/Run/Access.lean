import CouplingTree.Sql.Block
import CouplingTree.Sql.Evaluation

/-!
# Going through the rows of an input

The rows of an input are gone through in their own order, in that of an index, or in that of an index which is made on
the way. `Access.rows` gives all rows that may be asked for in this order; which of them belong to the result is decided
by the conditions.

`given_scan` : the rows of a table come in their own order.
-/

namespace CouplingTree.Sql

/-- A column of rows that are put in order, with the collation and the direction. -/
structure ColumnOrder where
  column : Option Nat
  collation : Collation
  descending : Bool := false
deriving DecidableEq, Repr

/-- The order in which the rows of an input are gone through. -/
inductive Access
  /-- The rows in their own order, or the other way around. -/
  | scan (reversed : Bool)
  /-- The rows in the order of an index, after the columns whose values are looked for one after the other. -/
  | index (i : Index) (reversed : Bool) (first : List ColumnOrder)
  /-- The rows in the order of some of their columns. -/
  | automatic (columns : List ColumnOrder)
  /-- The rows that meet one condition, and then those that meet another one. -/
  | union (branches : List (Term × Access))

/-- The rows of an input, which may depend on those of others. -/
inductive RowSupply
  | fixed (rows : Thunk (Stream Row))
  | varying (rows : Env → Stream Row)

namespace RowSupply

def given (s : RowSupply) (env : Env) : Stream Row :=
  match s with
  | fixed rows => rows.get
  | varying rows => rows env

def map (f : Stream Row → Stream Row) : RowSupply → RowSupply
  | fixed rows => fixed (Thunk.mk fun _ => f rows.get)
  | varying rows => varying fun env => f (rows env)

end RowSupply

namespace Access

/-- The values by which rows are put in order, each row with them. -/
def keyed (columns : List ColumnOrder) (rows : Stream Row) : Stream (List Value × Row) :=
  rows.flatMap fun r =>
    match columns.mapM fun c => (r.datum c.column).map Datum.value with
    | .ok vs => ⟨[(vs, r)], none⟩
    | .error p => ⟨[], some p⟩

/-- Whether some values come before others in the order of columns. -/
def before : List ColumnOrder → List Value → List Value → Bool
  | c :: cs, v :: vs, w :: ws =>
    match v.compare c.collation w with
    | .lt => !c.descending
    | .gt => c.descending
    | .eq => before cs vs ws
  | _, _, _ => false

/-- Rows in the order of columns. -/
def sorted (columns : List ColumnOrder) (rows : Stream Row) : Stream Row :=
  if columns.isEmpty then rows
  else
    let all := keyed columns rows
    ⟨(sortByKeys (before columns) all.items).map Prod.snd, all.fault⟩

def directed (reversed : Bool) (rows : Stream Row) : Stream Row :=
  if reversed then ⟨rows.items.reverse, rows.fault⟩ else rows

/-- Whether a row is one of some rows, by its number. -/
def isAmong (rows : List Row) (r : Row) : Bool :=
  let numberOf (r : Row) : Value := match r.datum none with | .ok d => d.value | .error _ => .null
  rows.any fun s => (numberOf s).same .binary (numberOf r)

/-- The rows of the branches one after the other, each row once. -/
def distinctly (branches : List (Stream Row)) : Stream Row :=
  branches.foldl (fun found rows =>
    match found.fault with
    | some _ => found
    | none => ⟨found.items ++ rows.items.filter fun r => !isAmong found.items r, rows.fault⟩) ⟨[], none⟩

/-- The rows of an input, where it is known which of them meet a condition. -/
def rows (test : Term → Env → Except Problem Bool) (cursor : Nat) (own : RowSupply) : Access → RowSupply
  | scan reversed => own.map (directed reversed)
  | index i reversed first => .fixed (Thunk.mk fun _ => sorted first (directed reversed (i.rows ())))
  | automatic columns => own.map (sorted columns)
  | union branches =>
    let parts := partsOf test cursor own branches
    .varying fun env => distinctly (parts.map fun p => p env)
where
  partsOf (test : Term → Env → Except Problem Bool) (cursor : Nat) (own : RowSupply) :
      List (Term × Access) → List (Env → Stream Row)
    | [] => []
    | (condition, access) :: rest =>
      let all := access.rows test cursor own
      let holds := test condition
      (fun env => (all.given env).flatMap fun r =>
        match holds ((cursor, some r) :: env) with
        | .ok true => ⟨[r], none⟩
        | .ok false => ⟨[], none⟩
        | .error p => ⟨[], some p⟩) :: partsOf test cursor own rest

theorem given_scan (test : Term → Env → Except Problem Bool) (cursor : Nat) (own : RowSupply) (env : Env) :
    ((scan false).rows test cursor own).given env = own.given env := by
  cases own <;> rfl

end Access

end CouplingTree.Sql
