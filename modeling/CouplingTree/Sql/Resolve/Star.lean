import CouplingTree.Sql.Resolve.Input

/-!
# Stars

A star stands for the columns of all tables, or of one of them. Columns that are shared appear once.

`token?_collate` : a collation does not change the name that an expression is.
-/

namespace CouplingTree.Sql

/-- A result of a query that is found. -/
structure PendingResult where
  term : PendingTerm
  /-- The name that is given to it. -/
  label : Option String
  /-- Its name if it is a mere name. -/
  token : Option String := none
  /-- How it is written. -/
  written : Option String := none
  /-- Its full name, if the query stands for joined tables. -/
  full : Option NestedName := none

namespace PendingResult

/-- The name before names are found. -/
def name (r : PendingResult) : Option String := r.label.or (r.token.or r.written)

/-- The name when names are found: that of the column that it is, or how it is written. -/
def resolvedName (r : PendingResult) (t : Term) : Option String :=
  r.label.or (match t.bare with
    | .place _ _ c => if c.name = "" then r.written else some c.name
    | _ => r.written)

end PendingResult

namespace Resolver

variable (r : Resolver)

/-- A column by its full name. -/
def namedColumn (schema table : Option String) (name : String) : PendingTerm :=
  ⟨1, fun scope => columnTerm schema table name .quoted scope⟩

/-- The columns of an input that a star stands for. -/
def starColumns (i : PendingInput) (behind : List PendingInput) (isFirst isOnly : Bool) (table : Option String)
    (isNested : Bool) : List PendingResult :=
  let schema := if i.isStored then "main" else "*"
  let nextShared := if isNested then ((behind.head?.bind PendingInput.shared).getD []) else []
  let shared : List PendingResult := nextShared.map fun n =>
    { term := namedColumn none none n, label := none, token := some n
      full := some { schema := "", table := "", column := n, isShared := true } }
  let ofColumn (c : String × Nat) : Option PendingResult :=
    let (n, j) := c
    let inner : Option NestedName := i.nested.bind fun names => names[j]?
    let isNamed := inner.all fun f => f.matches none table f.column
    let isHidden := inner.any NestedName.isHidden
    if !isNamed || i.shown ≤ j || (isHidden && table.isNone && !isNested) then none
    else if !isFirst && table.isNone && !isNested && i.shares n then none
    else
      let isQualified := !isOnly && (!i.isKept || isNested || !behind.any fun b => b.shares n)
      let full : Option NestedName :=
        if isNested then
          some { (inner.getD { schema, table := i.name, column := n }) with
            isShared := false, isHidden := i.shares n || nextShared.any (sameName n) || isHidden }
        else none
      some {
        term := if isQualified then namedColumn (some schema) (some i.name) n else namedColumn none none n
        label := if isNested then none else some n, token := some n, full }
  shared ++ i.names.zipIdx.filterMap ofColumn

/-- The results that a star stands for. -/
def star (is : List PendingInput) (table : Option String) (isNested : Bool) : Except Problem (List PendingResult) := do
  let isOf (i : PendingInput) : Bool :=
    match i.nested with
    | some names => names.any fun f => f.matches none table f.column
    | none => table.all (sameName i.name)
  if !is.any isOf then
    match table with
    | some n => throw (.noSuchTable n)
    | none => throw .noTables
  let columns := is.zipIdx.map fun i =>
    if isOf i.1 then
      starColumns i.1 (is.drop (i.2 + 1)) (decide (i.2 = 0)) (decide (is.length = 1)) table isNested
    else []
  return columns.flatten

/-- The name that an expression is. -/
def token? (e : Expr) : Option String :=
  match e.bare with
  | .column _ _ n _ => some n
  | _ => none

theorem token?_collate (e : Expr) (c : String) : token? (.collate e c) = token? e := by
  simp [token?, Expr.bare]

/-- The results of an item. -/
def ofItem (ctx : Context) (is : List PendingInput) (isNested : Bool) : Item → Resolving (List PendingResult)
  | .all => star is none isNested
  | .allOf table => star is (some table) isNested
  | .expr e name written => do
    return [{ term := ← r.expression ctx e, label := name, token := token? e
              written := if written = "" then none else some written }]

end Resolver

end CouplingTree.Sql
