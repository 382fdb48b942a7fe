import CouplingTree.Sql.Run.Group

/-!
# Windows

The rows come in parts, each part in its order. From each row of a part a function sees the rows of its frame. The frames
of later rows neither begin nor end before those of earlier ones, so that rows come into the frame and leave it again.

`span_slice` : a span has no more rows than there are between its ends.
-/

namespace CouplingTree.Sql

namespace WindowRun

/-! ## Parts -/

/-- A row with the values that it is parted and ordered by. -/
structure Place where
  env : Env
  parts : List Value
  order : List Value

/-- The rows of a part with what is the same for all of them. -/
structure Part where
  rows : Array Place
  order : List SortTerm
  frame : WindowFrame

namespace Part

def size (p : Part) : Nat := p.rows.size

def orderAt (p : Part) (i : Nat) : List Value := (p.rows[i]?.map Place.order).getD []

/-- Whether two rows have the same place in the order. -/
def arePeers (p : Part) (i j : Nat) : Bool :=
  compareRows (p.order.map fun s => s.term.collation) (p.orderAt i) (p.orderAt j) = .eq

/-- For each row, the number of its group of peers. -/
def groupNumbers (p : Part) : Array Nat :=
  (List.range p.size).foldl (fun (acc : Array Nat) i =>
    match i with
    | 0 => acc.push 0
    | k + 1 => acc.push (acc[k]?.getD 0 + if p.arePeers k (k + 1) then 0 else 1)) #[]

end Part

/-! ## Ends of frames -/

/-- The rows from one on and before another one. -/
structure Span where
  start : Nat
  stop : Nat

def Span.list (s : Span) : List Nat := (List.range s.stop).drop s.start

theorem span_slice (s : Span) : s.list.length = s.stop - s.start := by
  simp [Span.list]

/-- A distance in rows or groups. -/
def wholeDistance (isStart : Bool) (v : Value) : Except Problem Nat :=
  match v.numeric with
  | .integer i => if 0 ≤ i then .ok i.toNat else .error (.frameOffset isStart false)
  | .real x =>
    match Value.integral x with
    | .integer i => if 0 ≤ i then .ok i.toNat else .error (.frameOffset isStart false)
    | _ => .error (.frameOffset isStart false)
  | _ => .error (.frameOffset isStart false)

/-- A distance in values of the order. -/
def numericDistance (isStart : Bool) (v : Value) : Except Problem Value :=
  match v.numeric with
  | .integer i => if 0 ≤ i then .ok (.integer i) else .error (.frameOffset isStart true)
  | .real x => if 0 ≤ x then .ok (.real x) else .error (.frameOffset isStart true)
  | _ => .error (.frameOffset isStart true)

/-- An end of a frame, with its distance as a value. -/
inductive Edge
  | first
  | before (distance : Value)
  | here
  | after (distance : Value)
  | last

def edgeOf (unit : FrameUnit) (isStart : Bool) (value : Term → Except Problem Value) : FrameEdge → Except Problem Edge
  | .first => .ok .first
  | .here => .ok .here
  | .last => .ok .last
  | .before d => do return .before (← checked (← value d))
  | .after d => do return .after (← checked (← value d))
where
  checked (v : Value) : Except Problem Value :=
    if unit = .range then numericDistance isStart v else do return .integer (← wholeDistance isStart v)

/-- The value that lies so far away from another one in the order. Texts and blobs have no distance. -/
def moved (away descending : Bool) (v d : Value) : Value :=
  match v with
  | .text _ | .blob _ => v
  | v => (if away != descending then Arithmetic.add else Arithmetic.subtract).eval v d

/-- The first row whose value does not come before one. -/
def firstFrom (p : Part) (v : Value) : Nat :=
  ((List.range p.size).find? fun j => !sortsBefore p.order (p.orderAt j) [v]).getD p.size

/-- The number of rows whose value does not come behind one. -/
def countTo (p : Part) (v : Value) : Nat :=
  ((List.range p.size).find? fun j => sortsBefore p.order [v] (p.orderAt j)).getD p.size

def isDescending (p : Part) : Bool := p.order.head?.any SortTerm.descending

def distanceOf : Value → Nat
  | .integer i => i.toNat
  | _ => 0

/-- The place where a frame starts. -/
def startAt (p : Part) (groups : Array Nat) (i : Nat) (e : Edge) : Nat :=
  let group := groups[i]?.getD 0
  let ofGroup (g : Nat) : Nat := (groups.findIdx? fun h => g ≤ h).getD p.size
  let v := (p.orderAt i).head?.getD .null
  match p.frame.unit, e with
  | _, .first => 0
  | _, .last => p.size
  | .rows, .before d => i - distanceOf d
  | .rows, .here => i
  | .rows, .after d => min (i + distanceOf d) p.size
  | .groups, .before d => ofGroup (group - distanceOf d)
  | .groups, .after d => ofGroup (group + distanceOf d)
  | .range, .before d => firstFrom p (moved false (isDescending p) v d)
  | .range, .after d => firstFrom p (moved true (isDescending p) v d)
  | .groups, .here | .range, .here => ofGroup group

/-- The place before which a frame stops. -/
def stopAt (p : Part) (groups : Array Nat) (i : Nat) (e : Edge) : Nat :=
  let group := groups[i]?.getD 0
  let afterGroup (g : Nat) : Nat := (groups.findIdx? fun h => g < h).getD p.size
  let v := (p.orderAt i).head?.getD .null
  match p.frame.unit, e with
  | _, .first => 0
  | _, .last => p.size
  | .rows, .before d => i + 1 - distanceOf d
  | .rows, .here => i + 1
  | .rows, .after d => min (i + 1 + distanceOf d) p.size
  | .groups, .before d => if group < distanceOf d then 0 else afterGroup (group - distanceOf d)
  | .groups, .after d => afterGroup (group + distanceOf d)
  | .range, .before d => countTo p (moved false (isDescending p) v d)
  | .range, .after d => countTo p (moved true (isDescending p) v d)
  | .groups, .here | .range, .here => afterGroup group

/-- The rows of a frame that are left out. -/
def isExcluded (p : Part) (groups : Array Nat) (i j : Nat) : Bool :=
  match p.frame.exclusion with
  | .nobody => false
  | .current => i = j
  | .group => groups[i]? = groups[j]?
  | .ties => i ≠ j && groups[i]? = groups[j]?

/-! ## Coming and going -/

/-- The rows that have come and gone when the value for a row is asked for. -/
structure Flow where
  entered : Nat := 0
  left : Nat := 0
  /-- The last one comes first. -/
  visits : List (Nat × Bool) := []

def Flow.enter (f : Flow) (stop : Nat) : Flow :=
  let rows := (List.range stop).drop f.entered
  { f with entered := max f.entered stop, visits := (rows.map fun j => (j, false)).reverse ++ f.visits }

def Flow.leave (f : Flow) (start : Nat) : Flow :=
  let rows := (List.range (min start f.entered)).drop f.left
  { f with left := max f.left (min start f.entered), visits := (rows.map fun j => (j, true)).reverse ++ f.visits }

/-- For each row, the rows that have come and gone before its value is asked for. A frame of rows that lies behind its row
is filled and emptied in turn. -/
def flows (p : Part) (spans : List Span) (start stop : Edge) : List (List (Nat × Bool)) :=
  let first : Flow :=
    match p.frame.unit, start, stop, spans with
    | .rows, .after a, .after b, s :: _ =>
      (List.range s.stop).foldl (fun f k =>
        let f := f.enter (k + 1)
        if distanceOf b ≤ k + distanceOf a then f.leave (min (k + 1 + distanceOf a - distanceOf b) s.start) else f) {}
    | _, _, _, _ => {}
  (spans.foldl (fun (acc : Flow × List (List (Nat × Bool))) s =>
    let f := (acc.1.leave s.start).enter s.stop |>.leave s.start
    (f, f.visits.reverse :: acc.2)) (first, [])).2.reverse

/-! ## Functions -/

/-- A function with its parts as functions of rows. -/
structure Caller where
  call : WindowCall
  arguments : List Evaluator
  filter : Env → Except Problem Bool

def argumentAt (p : Part) (c : Caller) (place row : Nat) : Except Problem Datum :=
  match c.arguments[place]?, p.rows[row]? with
  | some e, some r => e r.env
  | _, _ => .ok Document.nothing

/-- The value of an aggregate for the rows that have come and gone. -/
def ofVisits (p : Part) (c : Caller) (a : Aggregate) (visits : List (Nat × Bool)) : Except Problem Datum := do
  let seen ← visits.filterM fun v =>
    match p.rows[v.1]? with
    | some r => c.filter r.env
    | none => .ok false
  let rows ← seen.mapM fun v => do
    let row ← (List.range c.arguments.length).mapM fun k => argumentAt p c k v.1
    return ({ row, leaves := v.2 } : Visit)
  a.apply true ((c.call.arguments.findSome? Term.collation?).getD .binary) rows

/-- The number of the part of almost equal size that a row is in. -/
def tile (count parts row : Nat) : Nat :=
  let size := count / parts
  if size = 0 then row + 1
  else
    let large := count - parts * size
    if row < large * (size + 1) then 1 + row / (size + 1) else 1 + large + (row - large * (size + 1)) / size

/-- The row that is so far away, if the distance is an integer. -/
def rowAway (ahead : Bool) (i : Nat) (distance : Value) : Option Nat :=
  let target := (if ahead then Arithmetic.add else Arithmetic.subtract).eval (.integer i) distance
  match target.numeric with
  | .integer k => if 0 ≤ k then some k.toNat else none
  | .real x =>
    match Value.integral x with
    | .integer k => if 0 ≤ k then some k.toNat else none
    | _ => none
  | _ => none

def shifted (p : Part) (c : Caller) (ahead : Bool) (i : Nat) : Except Problem Datum := do
  let distance ← if c.arguments.length < 2 then pure (.integer 1) else do
    let d ← argumentAt p c 1 i
    pure d.value
  match (rowAway ahead i distance).filter (· < p.size) with
  | some j => argumentAt p c 0 j
  | none => argumentAt p c 2 i

def nth (p : Part) (c : Caller) (i : Nat) (rows : List Nat) : Except Problem Datum := do
  match (← argumentAt p c 1 i).value.numeric with
  | .integer n => if 0 < n then ofRow (rows[n.toNat - 1]?) else throw .nthArgument
  | .real x =>
    match Value.integral x with
    | .integer n => if 0 < n then ofRow (rows[n.toNat - 1]?) else throw .nthArgument
    | _ => throw .nthArgument
  | _ => throw .nthArgument
where
  ofRow (row : Option Nat) : Except Problem Datum :=
    match row with
    | some j => argumentAt p c 0 j
    | none => .ok Document.nothing

/-- The value of a function for a row, when the rows of its frame are known. -/
def ofWindow (p : Part) (groups : Array Nat) (c : Caller) (w : WindowFunction) (i : Nat) (rows : List Nat) :
    Except Problem Datum := do
  let group := groups[i]?.getD 0
  let before := (groups.findIdx? fun h => group ≤ h).getD 0
  let upTo := (groups.findIdx? fun h => group < h).getD p.size
  let whole (n : Nat) : Datum := ⟨.integer n, false⟩
  let share (n d : Nat) : Datum := ⟨.ofDouble (doubleOfInt n / doubleOfInt d), false⟩
  match w with
  | .rowNumber => return whole (i + 1)
  | .rank => return whole (before + 1)
  | .denseRank => return whole (group + 1)
  | .percentRank => return if p.size ≤ 1 then ⟨.real 0, false⟩ else share before (p.size - 1)
  | .cumulativeShare => return share upTo p.size
  | .tile => do
    let parts := (← argumentAt p c 0 0).value.toInt
    if parts ≤ 0 then throw .tileArgument
    return whole (tile p.size parts.toNat i)
  | .lead => shifted p c true i
  | .lag => shifted p c false i
  | .firstValue =>
    match rows.head? with
    | some j => argumentAt p c 0 j
    | none => return Document.nothing
  | .lastValue =>
    match rows.getLast? with
    | some j => argumentAt p c 0 j
    | none => return Document.nothing
  | .nthValue => nth p c i rows

/-- The rows of a part with the values of the functions. -/
def ofPart (callers : List Caller) (cursor : Nat) (value : Term → Except Problem Value) (p : Part) :
    Except Problem (List Env) := do
  let start ← edgeOf p.frame.unit true value p.frame.start
  let stop ← edgeOf p.frame.unit false value p.frame.stop
  let groups := p.groupNumbers
  let spans := (List.range p.size).map fun i => (⟨startAt p groups i start, stopAt p groups i stop⟩ : Span)
  let kept (i : Nat) (s : Span) : List Nat := s.list.filter fun j => !isExcluded p groups i j
  let visits :=
    if p.frame.exclusion = .nobody then flows p spans start stop
    else spans.zipIdx.map fun s => (kept s.2 s.1).map fun j => (j, false)
  return (p.rows.toList.zip (spans.zip visits)).zipIdx.map fun r =>
    let ((row, span, seen), i) := r
    let values : Row := .ok Document.nothing :: callers.map fun c =>
      match c.call.function with
      | .aggregate a => ofVisits p c a seen
      | .window w => ofWindow p groups c w i (kept i span)
    (cursor, some values) :: row.env

/-- The rows with the values of functions that see the same rows. They come in parts, each part in its order. -/
def run (callers : List Caller) (cursor : Nat) (evaluator : Term → Evaluator) (outer : Env) (rows : List Env) :
    Except Problem (List Env) := do
  match callers with
  | [] => return rows
  | c :: _ =>
    let partValues := Group.valuesOf evaluator c.call.parts
    let orderValues := Group.valuesOf evaluator (c.call.order.map SortTerm.term)
    let places ← rows.mapM fun env => do return (⟨env, ← partValues env, ← orderValues env⟩ : Place)
    let cs := c.call.parts.map Term.collation
    let parts := places.splitBy fun a b => compareRows cs a.parts b.parts = .eq
    let value (t : Term) : Except Problem Value := (evaluator t outer).map Datum.value
    return (← parts.mapM fun ps => ofPart callers cursor value ⟨ps.toArray, c.call.order, c.call.frame⟩).flatten

end WindowRun

end CouplingTree.Sql
