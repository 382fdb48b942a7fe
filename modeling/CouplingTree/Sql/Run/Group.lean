import CouplingTree.Sql.Run.Join

/-!
# Groups

Rows with the same values of some terms make up a group. An aggregate has one value for a group, and every other term is
computed from one of its rows: the first one, or one where the value of `min` or `max` was found.

`groups_nil` : without terms to group by, all rows are one group.
-/

namespace CouplingTree.Sql

/-! ## Sorting -/

/-- Whether some values come before others. -/
def sortsBefore : List SortTerm → List Value → List Value → Bool
  | s :: ss, v :: vs, w :: ws =>
    if v.isNull != w.isNull then v.isNull != s.nullsLast
    else
      match v.compare s.term.collation w with
      | .lt => !s.descending
      | .gt => s.descending
      | .eq => sortsBefore ss vs ws
  | _, _, _ => false

namespace Group

/-- The values of some terms in an environment. -/
def valuesOf (test : Term → Evaluator) (ts : List Term) : Env → Except Problem (List Value) :=
  let es := ts.map test
  Operation.valuesAt es

/-! ## The row that stands for a group -/

/-- An aggregate with its parts as functions of rows. -/
structure Caller where
  call : AggregateCall
  arguments : List Evaluator
  filter : Env → Except Problem Bool

/-- How far the row that stands for a group is found. -/
structure Choice where
  chosen : Option Env := none
  isFirst : Bool := true
  skips : Bool := false
  /-- The best value of each aggregate so far. -/
  best : List (Option Value)

/-- The collation in which the values of an aggregate are compared. -/
def collationOf (c : AggregateCall) : Collation := (c.arguments.findSome? Term.collation?).getD .binary

/-- Whether a row is passed over, as one aggregate sees it, and its best value then. -/
def judge (hasFlag : Bool) (env : Env) (isFirst skips : Bool) (c : Caller) (best : Option Value) :
    Except Problem (Bool × Option Value) := do
  match c.call.function.extreme with
  | none => return (skips, best)
  | some order =>
    let skips := if c.call.filter.isSome && hasFlag then !isFirst else skips
    if !(← c.filter env) then return (skips, best)
    let v := ((← c.arguments.mapM fun e => e env).head?.map Datum.value).getD .null
    match best with
    | none => return (false, if v.isNull then none else some v)
    | some b =>
      if !v.isNull && v.compare (collationOf c.call) b = order then return (false, some v) else return (true, some b)

/-- One more row of a group. -/
def choose (callers : List Caller) (hasFlag : Bool) (s : Choice) (env : Env) : Except Problem Choice := do
  let start : Bool × List (Option Value) := (s.skips, [])
  let (skips, best) ← (callers.zip s.best).foldlM (fun acc c => do
    let (skips, b) ← judge hasFlag env s.isFirst acc.1 c.1 c.2
    return (skips, acc.2 ++ [b])) start
  let skips := if callers.any fun c => c.call.function.extreme.isSome then skips else !s.isFirst
  return { chosen := if skips then s.chosen else some env, isFirst := false, skips, best }

/-- The row that stands for a group. -/
def representative (callers : List Caller) (isGrouped : Bool) (rows : List Env) : Except Problem (Option Env) := do
  let isFree (c : Caller) : Bool := c.call.function.extreme.isSome && c.call.filter.isNone
  let hasFlag := isGrouped || !callers.any isFree
  if callers.any fun c => c.call.function.extreme.isSome then
    let s ← rows.foldlM (choose callers hasFlag) { best := callers.map fun _ => none }
    return s.chosen
  else return rows.head?

/-! ## The values of aggregates -/

/-- The value of an aggregate of a group. -/
def aggregate (c : Caller) (rows : List Env) : Except Problem Datum := do
  let rows ← rows.filterM c.filter
  let visits ← rows.mapM fun env => c.arguments.mapM fun e => e env
  let collations := c.call.arguments.map Term.collation
  let visits := if c.call.distinct then firstOfEach collations (·.map Datum.value) visits else visits
  c.call.function.apply false (collationOf c.call) (visits.map fun r => ⟨r, false⟩)

/-- The environment of a group: the row that stands for it, and the values of the aggregates. -/
def environment (callers : List Caller) (cursor : Nat) (isGrouped : Bool) (missing outer : Env) (rows : List Env) :
    Except Problem Env := do
  let row ← representative callers isGrouped rows
  let values : Row := .ok Document.nothing :: callers.map fun c => aggregate c rows
  return (cursor, some values) :: row.getD (missing ++ outer)

/-! ## Groups of rows -/

/-- Rows in groups of those with the same values, which are sorted unless they come together already. -/
def groups (order : List SortTerm) (isTogether : Bool) (values : Env → Except Problem (List Value)) (rows : List Env) :
    Except Problem (List (List Env)) := do
  if order.isEmpty then return [rows]
  let keyed ← rows.mapM fun env => do return (← values env, env)
  let inOrder := if isTogether then keyed else sortByKeys (sortsBefore order) keyed
  let cs := order.map fun s => s.term.collation
  return (inOrder.splitBy fun a b => compareRows cs a.1 b.1 = .eq).map (·.map Prod.snd)

theorem groups_nil (isTogether : Bool) (values : Env → Except Problem (List Value)) (rows : List Env) :
    groups [] isTogether values rows = .ok [rows] := rfl

end Group

end CouplingTree.Sql
