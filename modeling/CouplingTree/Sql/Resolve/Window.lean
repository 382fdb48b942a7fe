import CouplingTree.Sql.Resolve.Basic

/-!
# Finding names in windows

A window may take its parts and its order from another one, and some functions have frames of their own.

`WindowShape.ofWindow_named` : a name stands for the window of that name.
-/

namespace CouplingTree.Sql

namespace WindowShape

/-- The window of a name. -/
def find (windows : List (String × WindowShape)) (name : String) : Except Problem WindowShape :=
  match windows.find? fun w => sameName w.1 name with
  | some w => .ok w.2
  | none => .error (.noSuchWindow name)

/-- A window with what it takes from others. -/
def ofWindow (windows : List (String × WindowShape)) : Window → Except Problem WindowShape
  | .named name => find windows name
  | .mk none parts order frame => .ok ⟨parts, order, frame⟩
  | .mk (some base) parts order frame => do
    let w ← find windows base
    if !parts.isEmpty then throw (.windowOverride "PARTITION clause" base)
    if !w.order.isEmpty && !order.isEmpty then throw (.windowOverride "ORDER BY clause" base)
    if w.frame.isSome then throw (.windowOverride "frame specification" base)
    return ⟨w.parts, if w.order.isEmpty then order else w.order, frame⟩

theorem ofWindow_named (windows : List (String × WindowShape)) (name : String) :
    ofWindow windows (.named name) = find windows name := by
  simp [ofWindow]

/-- The windows that are defined behind a selection, the last one first. -/
def ofDefinitions (windows : List (String × Window)) : Except Problem (List (String × WindowShape)) :=
  windows.foldlM (fun known w => do return (w.1, ← ofWindow known w.2) :: known) []

end WindowShape

/-- A window whose tables are found. -/
structure PendingWindow where
  parts : List PendingTerm
  order : List (PendingTerm × Bool × Bool)
  frame : WindowFrame

/-- The frames that belong to functions. -/
def WindowFunction.frame? : WindowFunction → Option WindowFrame
  | rowNumber => some ⟨.rows, .first, .here, .nobody⟩
  | rank | denseRank => some ⟨.range, .first, .here, .nobody⟩
  | percentRank => some ⟨.groups, .here, .last, .nobody⟩
  | cumulativeShare => some ⟨.groups, .after (.value (.integer 1)), .last, .nobody⟩
  | tile => some ⟨.rows, .here, .last, .nobody⟩
  | lead => some ⟨.rows, .first, .last, .nobody⟩
  | lag => some ⟨.rows, .first, .here, .nobody⟩
  | firstValue | lastValue | nthValue => none

namespace Resolver

variable (r : Resolver)

def edge : Bound → Resolving FrameEdge
  | .first => return .first
  | .here => return .here
  | .last => return .last
  | .before e => do
    let p ← r.expression {} e
    return .before (← p.resolve [])
  | .after e => do
    let p ← r.expression {} e
    return .after (← p.resolve [])

def frame : Option Frame → Resolving WindowFrame
  | none => return .implicit
  | some (.mk unit start stop exclusion) => do return ⟨unit, ← r.edge start, ← r.edge stop, exclusion⟩

def sorting (ctx : Context) : Sorting → Resolving (PendingTerm × Bool × Bool)
  | .mk e descending nullsLast => do return (← r.expression ctx e, descending, nullsLast.getD descending)

/-- The first step for a window. -/
def window (ctx : Context) (w : WindowShape) : Resolving PendingWindow := do
  let parts ← w.parts.mapM (r.expression ctx)
  let order ← w.order.mapM (r.sorting ctx)
  return ⟨parts, order, ← r.frame w.frame⟩

/-- Whether a frame has a distance. -/
def hasDistance (f : WindowFrame) : Bool :=
  match f.start, f.stop with
  | .before _, _ | .after _, _ | _, .before _ | _, .after _ => true
  | _, _ => false

/-- The frame of a function in a window. -/
def frameOf (w : PendingWindow) (f : RowFunction) (isFiltered : Bool) : Except Problem WindowFrame := do
  if w.frame.unit = .range && hasDistance w.frame && w.order.length ≠ 1 then throw .rangeOrder
  match f with
  | .aggregate _ => return w.frame
  | .window v =>
    if isFiltered then throw .filteredWindow
    return v.frame?.getD w.frame

end Resolver

end CouplingTree.Sql
