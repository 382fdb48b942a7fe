import CouplingTree.Sql.Run.Window

/-!
# The rows of selections

A selection goes through its inputs, puts what it finds into groups or windows if it has any use for them, and makes a row
of each. `Surroundings` gives the rows of other blocks.

`limited_none` : without a limit all rows stay.
-/

namespace CouplingTree.Sql

/-- The rows of blocks. -/
structure Surroundings where
  blocks : Blocks
  rows : Nat → RowSupply

namespace Surroundings

variable (s : Surroundings)

def evaluator (t : Term) : Evaluator := t.evaluator fun b => (s.rows b).given

def test (t : Term) : Env → Except Problem Bool := t.test fun b => (s.rows b).given

end Surroundings

/-- A row with the values that it is sorted by. -/
abbrev SortedRow := List (Except Problem Value) × Row

namespace Branch

/-! ## Inputs -/

/-- The rows with their places as numbers. -/
def numbered (rows : Stream Row) : Stream Row :=
  ⟨rows.items.zipIdx.map fun r => .ok ⟨.integer (r.2 + 1), false⟩ :: r.1.tail, rows.fault⟩

/-- The rows of an input. Rows of a query that come one after the other have no numbers. -/
def supply (s : Surroundings) (inputs : List Input) (place : Nat) (i : Input) : RowSupply :=
  match i.rows with
  | .table r => .fixed (Thunk.mk fun _ => r.rows)
  | .block id =>
    let rows := s.rows id
    if Input.isPassing inputs place then rows else rows.map numbered
  | .queue cursor => .varying fun env => ⟨(env.row? cursor).toList, none⟩
  | .function f arguments =>
    let es := arguments.map s.evaluator
    .varying fun env =>
      match es.mapM fun e => e env with
      | .ok ds => f.rows ds
      | .error p => ⟨[], some p⟩

/-- The conditions of a selection with the inputs that they look at. -/
def conditions (s : Surroundings) (b : Branch) : List Join.Condition :=
  let own := b.inputs.map Input.cursor
  ((b.filter.map Term.conjuncts).getD []).map fun t =>
    let looked := (s.blocks.cursorsOf t).filter own.contains
    match t.on? with
    | some (cursor, true) => ⟨t, cursor :: looked⟩
    | _ => ⟨t, looked⟩

/-- The rows of all inputs that meet the conditions. -/
def joined (s : Surroundings) (plan : JoinPlan) (b : Branch) : Env → Stream Env :=
  let all := conditions s b
  let start := Join.tests s.test ((all.filter fun c => c.cursors.isEmpty).map Join.Condition.term)
  let loops := plan.loops.filterMap fun l => b.inputs[l.place]?.map fun i => (l.place, i, l.access)
  let levels := Join.levels [] (all.filter fun c => !c.cursors.isEmpty) (loops.map Prod.snd)
  let runners := (levels.zip loops).map fun l =>
    let own := supply s b.inputs l.2.1 l.1.input
    ({ input := l.1.input, own, supply := l.1.access.rows s.test l.1.input.cursor own
       isPartner := Join.tests s.test l.1.partners, isKept := Join.tests s.test l.1.others } : Join.Runner)
  fun env => Join.guarded (start env) fun _ => Join.runAll runners env

/-! ## Groups and windows -/

/-- The groups as they are sorted: in the direction of the order, if this has as many terms. -/
def groupOrder (b : Branch) (order : List SortTerm) : List SortTerm :=
  b.groups.zipIdx.map fun g =>
    let descending := decide (order.length = b.groups.length) && (order[g.2]?.any SortTerm.descending)
    { term := g.1, descending, nullsLast := descending }

/-- The groups of rows, of which some are kept. -/
def grouped (s : Surroundings) (plan : JoinPlan) (b : Branch) (order : List SortTerm) (rows : Env → Stream Env) :
    Env → Stream Env :=
  let callers : List Group.Caller := b.aggregates.map fun c =>
    ⟨c, c.arguments.map s.evaluator, Join.tests s.test c.filter.toList⟩
  let keys := groupOrder b order
  let values := Group.valuesOf s.evaluator b.groups
  let kept := Join.tests s.test b.having.toList
  let missing : Env := b.inputs.map fun i => (i.cursor, none)
  fun env =>
    let groups := (rows env).ofAll fun envs => do
      let parts ← Group.groups keys plan.isGrouped values envs
      parts.mapM (Group.environment callers b.aggregateCursor (!b.groups.isEmpty) missing env)
    groups.flatMap fun g => Join.guarded (kept g) fun _ => ⟨[g], none⟩

def windowed (s : Surroundings) (b : Branch) (rows : Env → Stream Env) : Env → Stream Env :=
  let callers : List WindowRun.Caller := b.windows.map fun c =>
    ⟨c, c.arguments.map s.evaluator, Join.tests s.test c.filter.toList⟩
  fun env => (rows env).ofAll (WindowRun.run callers b.windowCursor s.evaluator env)

/-! ## Results -/

/-- The first of each of the rows that are the same. -/
def distinctRows (cs : List Collation) (rows : Stream SortedRow) : Stream SortedRow :=
  let valued := rows.flatMap fun r =>
    match r.2.values with
    | .ok vs => ⟨[(vs, r)], none⟩
    | .error problem => ⟨[], some problem⟩
  ⟨(firstOfEach cs Prod.fst valued.items).map Prod.snd, valued.fault⟩

/-- The rows of a selection with the values of terms that they are sorted by. -/
def rows (s : Surroundings) (plan : JoinPlan) (b : Branch) (order : List SortTerm) : Env → Stream SortedRow :=
  let found := joined s plan b
  let found := if b.isAggregate then grouped s plan b order found else found
  let found := if b.windows.isEmpty then found else windowed s b found
  let results := b.results.map fun r => s.evaluator r.term
  let keys := order.map fun o => s.evaluator o.term
  let collations := b.results.map fun r => r.term.collation
  fun env =>
    let rows : Stream SortedRow := (found env).map fun env =>
      (keys.map fun k => (k env).map Datum.value, Row.kept (.ok Document.nothing :: results.map fun r => r env))
    if b.isDistinct then distinctRows collations rows else rows

end Branch

/-! ## Orders and limits -/

/-- Rows in the order of the values that come with them. -/
def sortedRows (order : List SortTerm) (rows : Stream SortedRow) : Stream Row :=
  if order.isEmpty then rows.map Prod.snd
  else rows.ofAll fun rs => do
    let keyed ← rs.mapM fun r => do return (← r.1.mapM id, ← (do return (← r.2.mapM id).map .ok))
    return (sortByKeys (sortsBefore order) keyed).map Prod.snd

/-- The number of rows that a value asks for. -/
def rowCount (v : Value) : Except Problem Int :=
  match v.numeric with
  | .integer i => .ok i
  | .real x =>
    match Value.integral x with
    | .integer i => .ok i
    | _ => .error .datatypeMismatch
  | _ => .error .datatypeMismatch

/-- The numbers that a limit and an offset are. -/
def limitsOf (limit offset : Option Evaluator) (env : Env) : Except Problem (Option Int × Int) := do
  let n ← limit.mapM fun e => do rowCount (← e env).value
  let m ← offset.mapM fun e => do rowCount (← e env).value
  return (n, m.getD 0)

/-- Takes the rows that a limit and an offset leave. A negative limit is none. -/
def limited (limit offset : Option Evaluator) (env : Env) (rows : Stream Row) : Stream Row :=
  match limitsOf limit offset env with
  | .error problem => ⟨[], some problem⟩
  | .ok (n, m) => rows.slice m.toNat (n.bind fun n => if n < 0 then none else some n.toNat)

theorem limited_none (env : Env) (rows : Stream Row) : limited none none env rows = rows := by
  simp [limited, limitsOf, Stream.slice, pure, Except.pure, bind, Except.bind]

end CouplingTree.Sql
