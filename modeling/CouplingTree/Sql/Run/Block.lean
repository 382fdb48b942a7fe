import CouplingTree.Sql.Run.Branch
import Std.Data.TreeMap
import Std.Data.TreeSet

/-!
# The rows of blocks

The rows of several branches are put together from the first branch on. A block that repeats itself keeps rows in a queue:
each row that leaves the queue is one of the result, and what its last branches make of this row goes into the queue.

`combined_all` : all rows of both sides come one side after the other.
-/

namespace CouplingTree.Sql

/-! ## Several branches -/

/-- Of rows that are the same, those on the left and those on the right, the one that stays. -/
def Compound.chosen {α : Type} (op : Compound) (isOrdered : Bool) (left right : List α) : Option α :=
  let one (rows : List α) : Option α := if isOrdered then rows.head? else rows.getLast?
  match op with
  | union => (one right).or (one left)
  | except => if right.isEmpty then one left else none
  | intersect => if right.isEmpty then none else one left
  | unionAll | .values => none

namespace Block

/-- The results from a place on as terms of an order. -/
def resultKeys (branches : List Branch) : List SortTerm :=
  (List.range ((branches.head?.map fun b => b.results.length).getD 0)).map fun i =>
    { term := .place 0 (some i) { name := "", collation := Branch.commonCollation branches i }, result := some i }

/-- An order with all results that are not in it behind it. -/
def fullOrder (branches : List Branch) (order : List SortTerm) : List SortTerm :=
  order ++ (resultKeys branches).filter fun k => !order.any fun o => o.result == k.result

/-- The values by which rows of values are sorted. -/
def keysOf (order : List SortTerm) (vs : List Value) : List Value :=
  order.map fun o => (o.result.bind fun i => vs[i]?).getD .null

/-- Rows in the order of their values. -/
def ordered (order : List SortTerm) (rows : Stream Row) : Stream Row :=
  if order.isEmpty then rows
  else rows.ofAll fun rs => do
    let keyed ← rs.mapM fun r => do return (keysOf order (← r.values), r)
    return (sortByKeys (sortsBefore order) keyed).map Prod.snd

/-- The rows of two sides that stay when they are put together in an order of all results. -/
def chosenRows (op : Compound) (isOrdered : Bool) (keys : List SortTerm) (left right : List Row) :
    Except Problem (List Row) := do
  let keyed ← (left.map fun r => (false, r)).append (right.map fun r => (true, r)) |>.mapM fun r => do
    return (keysOf keys (← r.2.values), r)
  let cs := keys.map fun k => k.term.collation
  let groups := (sortByKeys (sortsBefore keys) keyed).splitBy fun a b => compareRows cs a.1 b.1 = .eq
  return groups.filterMap fun g =>
    let rows := g.map Prod.snd
    op.chosen isOrdered ((rows.filter fun r => !r.1).map Prod.snd) ((rows.filter Prod.fst).map Prod.snd)

/-- The rows of two sides. -/
def combined (op : Compound) (order keys : List SortTerm) (left right : Stream Row) : Stream Row :=
  match op with
  | .unionAll | .values => ordered order (left.append right)
  | op =>
    match left.all, right.all with
    | .ok ls, .ok rs =>
      match chosenRows op (!order.isEmpty) keys ls rs with
      | .ok rows => ⟨rows, none⟩
      | .error problem => ⟨[], some problem⟩
    | .error problem, _ | _, .error problem => ⟨[], some problem⟩

theorem combined_all (keys : List SortTerm) (left right : Stream Row) :
    combined .unionAll [] keys left right = left.append right := by
  simp [combined, ordered]

/-- A branch with the way in which its rows are had. -/
structure PlannedBranch where
  operator : Compound
  branch : Branch
  plan : JoinPlan

/-- The rows of some branches that are put together. -/
def compoundRows (s : Surroundings) (keys order : List SortTerm) : List PlannedBranch → Env → Stream Row
  | [] => fun _ => ⟨[], none⟩
  | first :: rest =>
    let start := first.branch.rows s first.plan []
    let others := rest.map fun b => (b.operator, b.branch.rows s b.plan [])
    fun env => others.foldl (fun rows b => combined b.1 order keys rows ((b.2 env).map Prod.snd))
      (ordered order ((start env).map Prod.snd))

/-! ## Repetition -/

namespace Repeated

/-- Rows that wait, by the values that they are sorted by and then by the time when they came. -/
abbrev Key := List Value × Nat

def compareKeys (order : List SortTerm) (a b : Key) : Ordering :=
  if sortsBefore order a.1 b.1 then .lt else if sortsBefore order b.1 a.1 then .gt else Ord.compare a.2 b.2

structure State (order : List SortTerm) (cs : List Collation) where
  queue : Std.TreeMap Key Row (compareKeys order) := ∅
  /-- The rows that have been in the queue, if each one comes there only once. -/
  seen : Std.TreeSet (List Value) (compareRows cs) := ∅
  count : Nat := 0
  fault : Option Problem := none

variable {order : List SortTerm} {cs : List Collation}

def push (isDistinct : Bool) (s : State order cs) (r : Row) : State order cs :=
  match r.values with
  | .error problem => { s with fault := s.fault.or (some problem) }
  | .ok vs =>
    if isDistinct && s.seen.contains vs then s
    else
      { s with
        queue := s.queue.insert (keysOf order vs, s.count) r
        seen := if isDistinct then s.seen.insert vs else s.seen
        count := s.count + 1 }

def pushAll (isDistinct : Bool) (s : State order cs) (rows : Stream Row) : State order cs :=
  let s := rows.items.foldl (push isDistinct) s
  { s with fault := s.fault.or rows.fault }

/-- Takes rows from the queue until it is empty or there are enough. -/
def run (isDistinct : Bool) (next : Row → Stream Row) (most : Option Nat) : Nat → State order cs → Array Row → Stream Row
  | 0, _, done => ⟨done.toList, none⟩
  | fuel + 1, s, done =>
    if most.any (· ≤ done.size) then ⟨done.toList, none⟩
    else
      match s.fault, s.queue.minEntry? with
      | some problem, _ => ⟨done.toList, some problem⟩
      | none, none => ⟨done.toList, none⟩
      | none, some (key, row) =>
        let done := done.push row
        if most.any (· ≤ done.size) then ⟨done.toList, none⟩
        else run isDistinct next most fuel (pushAll isDistinct { s with queue := s.queue.erase key } (next row)) done

/-- So many rows may come out of a query that repeats itself. -/
def mostRows : Nat := 0x1000000

end Repeated

/-- The rows of a query that repeats itself. -/
def repeatedRows (s : Surroundings) (b : Block) (cursor : Nat) (branches : List PlannedBranch) :
    Env → Option Nat → Stream Row :=
  let isOwn (p : PlannedBranch) : Bool := p.branch.isRecursive
  let keys := resultKeys b.branches
  let isDistinct := (branches.find? isOwn).any fun p => decide (p.operator = .union)
  let start := compoundRows s keys [] (branches.filter fun p => !isOwn p)
  let again := compoundRows s keys [] (branches.filter isOwn)
  fun env most =>
    let next (row : Row) : Stream Row := again ((cursor, some row) :: env)
    let state : Repeated.State b.order (keys.map fun k => k.term.collation) := {}
    Repeated.run isDistinct next most Repeated.mostRows (Repeated.pushAll isDistinct state (start env)) #[]

/-! ## Blocks -/

/-- The number of rows after which no more are needed. -/
def mostNeeded (limit offset : Option Evaluator) (env : Env) : Option Nat :=
  match limitsOf limit offset env with
  | .ok (some n, m) => if n < 0 then none else some (n.toNat + m.toNat)
  | _ => none

/-- The rows of a block. -/
def rows (s : Surroundings) (plans : Nat → JoinPlan) (b : Block) : Env → Stream Row :=
  let branches := ((.unionAll, b.first) :: b.rest).zipIdx.map fun c => (⟨c.1.1, c.1.2, plans c.2⟩ : PlannedBranch)
  let limit := b.limit.map s.evaluator
  let offset := b.offset.map s.evaluator
  match b.queue, b.rest with
  | some cursor, _ =>
    let all := repeatedRows s b cursor branches
    fun env => limited limit offset env (all env (mostNeeded limit offset env))
  | none, [] =>
    let all := b.first.rows s (plans 0) b.order
    fun env => limited limit offset env (sortedRows b.order (all env))
  | none, _ =>
    let all := compoundRows s (fullOrder b.branches b.order) b.order branches
    fun env => limited limit offset env (all env)

end Block

end CouplingTree.Sql
