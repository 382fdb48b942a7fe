import CouplingTree.Sql.Function.Document
import CouplingTree.Text.Character

/-!
# Aggregates

An aggregate makes one value of the rows of values in a group. In a window the rows come and go: those that came first go
first. Sums of doubles depend on the order in which this happens, so an aggregate takes all arrivals and departures.

`Visit.staying_arrivals` : all rows stay if none goes.
-/

namespace CouplingTree.Sql

/-- A row of values that comes to a group or goes. -/
structure Visit where
  row : List Datum
  leaves : Bool := false

namespace Visit

/-- The rows that have come and not gone. -/
def staying (vs : List Visit) : List (List Datum) :=
  ((vs.filter fun v => !v.leaves).map Visit.row).drop (vs.filter Visit.leaves).length

theorem staying_arrivals (rows : List (List Datum)) : staying (rows.map fun r => ⟨r, false⟩) = rows := by
  have h : (rows.map fun r => (⟨r, false⟩ : Visit)).filter Visit.leaves = [] := by
    simp [List.filter_eq_nil_iff]
  have h2 : (rows.map fun r => (⟨r, false⟩ : Visit)).filter (fun v => !v.leaves) = rows.map fun r => ⟨r, false⟩ := by
    simp [List.filter_eq_self]
  simp [staying, h, h2, Function.comp_def]

def first (v : Visit) : Value := (v.row.head?.map Datum.value).getD .null

end Visit

/-- A function of the rows of values in a group. -/
structure Aggregate where
  name : String
  least : Nat
  most : Nat
  apply : (inWindow : Bool) → Collation → List Visit → Except Problem Datum
  /-- Which value is taken, if it is one of the values. -/
  extreme : Option Ordering := none
  /-- Whether the order of the rows matters. -/
  isOrdered : Bool := true

namespace Aggregate

/-! ## Sums -/

/-- A sum so far: exact while there are only integers. -/
structure Sum where
  count : Int := 0
  whole : Int := 0
  double : Float := 0
  isExact : Bool := true
  hasOverflow : Bool := false

namespace Sum

/-- A number that comes or goes, where a text that is no number counts as the one that it starts with. -/
def visit (s : Sum) (v : Visit) : Sum :=
  let x := v.first
  if x.isNull then s
  else
    let count := if v.leaves then s.count - 1 else s.count + 1
    match x.numeric with
    | .integer i =>
      let double := if v.leaves then s.double - doubleOfInt i else s.double + doubleOfInt i
      let whole := if v.leaves then s.whole - i else s.whole + i
      if v.leaves then { s with count, double, whole }
      else if !s.isExact || s.hasOverflow then { s with count, double }
      else if fits whole then { s with count, double, whole }
      else { s with count, double, isExact := false, hasOverflow := true }
    | x =>
      let double := if v.leaves then s.double - x.toDouble else s.double + x.toDouble
      { s with count, double, isExact := if v.leaves then s.isExact else false }

def ofVisits (vs : List Visit) : Sum := vs.foldl visit {}

def value (s : Sum) : Outcome :=
  if s.count ≤ 0 then .ok .null
  else if s.hasOverflow then .error .integerOverflow
  else .ok (if s.isExact then .integer s.whole else .ofDouble s.double)

def average (s : Sum) : Value := if s.count ≤ 0 then .null else .ofDouble (s.double / doubleOfInt s.count)

end Sum

/-! ## Choices and texts -/

/-- The value that comes before all others in an order of two, or the first of them. -/
def extremeOf (order : Ordering) (c : Collation) : List Value → Value
  | [] => .null
  | v :: vs => vs.foldl (fun best v => if v.compare c best = order then v else best) v

/-- The first values of the rows, without nothing. -/
def present (rows : List (List Datum)) : List Value :=
  (rows.filterMap fun r => r.head?.map Datum.value).filter fun v => !v.isNull

/-- Texts one after the other, each after the first one behind its separator. -/
def concat : List (List Datum) → Option Bytes
  | [] => none
  | first :: rest =>
    let text (row : List Datum) : Bytes := (row.head?.getD default).value.bytes
    let separator (row : List Datum) : Bytes := (row[1]?.map fun d => d.value.bytes).getD [0x2C]
    some (text first ++ rest.flatMap fun row => separator row ++ text row)

/-! ## Documents -/

def list (rows : List (List Datum)) : Except Problem Datum := do
  let items ← rows.mapM fun r => Document.writtenDatum (r.head?.getD default)
  return ⟨.text (0x5B :: Document.commas items ++ [0x5D]), true⟩

def object (rows : List (List Datum)) : Except Problem Datum := do
  let members ← rows.mapM fun r =>
    match r with
    | [name, v] => do
      let value ← Document.writtenDatum v
      return (if name.value.isNull then [] else Document.writtenText name.value.bytes) ++ 0x3A :: value
    | _ => .ok []
  return ⟨.text (0x7B :: Document.commas members ++ [0x7D]), true⟩

/-! ## The aggregates by their names -/

def ofSum (name : String) (f : Sum → Outcome) : Aggregate :=
  { name, least := 1, most := 1, apply := fun _ _ vs => (f (Sum.ofVisits vs)).map (⟨·, false⟩) }

def extremes (name : String) (order : Ordering) : Aggregate :=
  { name, least := 1, most := 1, extreme := some order, isOrdered := false
    apply := fun _ c vs => .ok ⟨extremeOf order c (present (Visit.staying vs)), false⟩ }

def all : List Aggregate := [
  { name := "count", least := 0, most := 1, isOrdered := false
    apply := fun _ _ vs =>
      let rows := (Visit.staying vs).filter fun r => !(r.head?.any fun d => d.value.isNull)
      .ok ⟨.integer rows.length, false⟩ },
  ofSum "sum" Sum.value,
  ofSum "total" fun s => .ok (.ofDouble s.double),
  ofSum "avg" fun s => .ok s.average,
  extremes "min" .lt, extremes "max" .gt,
  { name := "group_concat", least := 1, most := 2
    apply := fun inWindow _ vs =>
      let rows := (Visit.staying vs).filter fun r => !(r.head?.any fun d => d.value.isNull)
      .ok ⟨match concat rows with
        | none => .null
        | some bs => if inWindow && bs.isEmpty then .null else .text bs, false⟩ },
  { name := "json_group_array", least := 1, most := 1, apply := fun _ _ vs => list (Visit.staying vs) },
  { name := "json_group_object", least := 2, most := 2, apply := fun _ _ vs => object (Visit.staying vs) }]

end Aggregate

/-- A function of the rows around one. -/
inductive WindowFunction
  | rowNumber
  | rank
  | denseRank
  | percentRank
  | cumulativeShare
  | tile
  | lead
  | lag
  | firstValue
  | lastValue
  | nthValue
deriving DecidableEq, Repr

namespace WindowFunction

/-- The functions by their names, with the fewest and the most values that they take. -/
def all : List (String × Nat × Nat × WindowFunction) := [
  ("row_number", 0, 0, rowNumber), ("rank", 0, 0, rank), ("dense_rank", 0, 0, denseRank),
  ("percent_rank", 0, 0, percentRank), ("cume_dist", 0, 0, cumulativeShare), ("ntile", 1, 1, tile),
  ("lead", 1, 3, lead), ("lag", 1, 3, lag), ("first_value", 1, 1, firstValue), ("last_value", 1, 1, lastValue),
  ("nth_value", 2, 2, nthValue)]

end WindowFunction

end CouplingTree.Sql
