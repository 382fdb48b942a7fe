import CouplingTree.Sql.Block

/-!
# Windows in queries of their own

Functions of rows see the rows in an order. The rows are had from a query inside, which gives them in this order, together
with all values that are asked for. Functions that see other rows than the first one are left to the query inside.

`leaves_value` : a value is not asked of the query inside.
-/

namespace CouplingTree.Sql.Windows

/-- Whether a function of rows sees the same rows as the first one of a selection. -/
def isFirst (b : Branch) (i : Nat) : Bool :=
  match b.windows with
  | [] => false
  | w :: _ => b.windows[i]?.any fun v => decide (i = 0) || w.seesSame v

/-- The functions that see other rows than the first one, with their places. -/
def others (b : Branch) : List (WindowCall × Nat) := b.windows.zipIdx.filter fun w => !isFirst b w.2

/-- The functions that see the same rows as the first one, with their places. -/
def firsts (b : Branch) : List (WindowCall × Nat) := b.windows.zipIdx.filter fun w => isFirst b w.2

/-- The columns and the values of groups and of other rows that a term is made of. -/
def leaves (b : Branch) : Term → List Term
  | .value _ => []
  | .place i j c => if i = b.windowCursor && j.any (isFirst b) then [] else [.place i j c]
  | .apply op ps =>
    match op with
    | .orNull _ => [.apply op ps]
    | _ => leavesOf b ps
  | .query _ _ _ ps => leavesOf b ps
where
  leavesOf (b : Branch) : List Term → List Term
    | [] => []
    | t :: rest => leaves b t ++ leavesOf b rest

theorem leaves_value (b : Branch) (v : Value) : leaves b (.value v) = [] := by
  simp [leaves]

/-- Whether the values of a function keep what is known of the documents among them. -/
def keepsDocuments (w : WindowCall) : Bool :=
  match w.function with
  | .aggregate a => a.name == "json_group_array" || a.name == "json_group_object"
  | .window _ => false

/-- The terms in a list, each once. -/
def different (ts : List Term) : List Term :=
  ts.foldl (fun found t => if found.any t.same then found else found ++ [t]) []

/-- The blocks inside some terms, at any depth. -/
def blocksInside (s : Statement) (ts : List Term) : List Nat :=
  s.blocks.within (s.blocks.size + 1) (ts.flatMap Term.queries)

/-- What is asked of the query inside. -/
def asked (s : Statement) (b : Branch) (shown : List Term) : List Term :=
  let own := b.inputs.map Input.cursor
  let nested := (blocksInside s shown).flatMap fun id =>
    ((s.blocks[id]?.map Block.terms).getD []).flatMap fun t =>
      t.places.filterMap fun p => if own.contains p.1 then some (Term.place p.1 p.2.1 p.2.2) else none
  let ofFunctions := (firsts b).flatMap fun w =>
    w.1.parts ++ w.1.order.map SortTerm.term ++ w.1.filter.toList ++
      if keepsDocuments w.1 then w.1.arguments.flatMap (leaves b) else w.1.arguments
  let all := different (shown.flatMap (leaves b) ++ nested ++ ofFunctions)
  if all.isEmpty then [.value (.integer 0)] else all

/-- The order in which the functions see the rows. -/
def orderOf (w : WindowCall) : List SortTerm := w.parts.map (fun t => { term := t }) ++ w.order

/-- A selection that takes the rows for its functions of rows from a query inside, and the order that is left for it. -/
def separated (s : Statement) (b : Branch) (order : List SortTerm) : Statement × Branch × List SortTerm :=
  match b.windows with
  | [] => (s, b, order)
  | main :: _ =>
    let inner := orderOf main
    let order := if SortTerm.areSame order (inner.take order.length) then [] else order
    let shown := b.results.map Result.term ++ order.map SortTerm.term
    let terms := asked s b shown
    let id := s.blocks.size
    let cursor := s.cursors
    let innerWindows := s.cursors + 1
    let left := others b
    let place (t : Term) : Option Term :=
      (terms.findIdx? t.same).map fun k =>
        .place cursor (some k) { name := "", affinity := t.affinity, collation := t.collation }
    let leaf (t : Term) : Option Term :=
      match t with
      | .place i (some j) c =>
        if i = b.windowCursor && isFirst b j then
          ((firsts b).findIdx? fun w => w.2 == j).map fun k => .place i (some k) c
        else place t
      | .place _ none _ | .apply (.orNull _) _ => place t
      | _ => none
    let ofOthers := Term.replace fun i j c =>
      if i = b.windowCursor then
        j.bind fun j => (left.findIdx? fun w => w.2 == j).map fun k => .place innerWindows (some k) c
      else none
    let branch : Branch := { b with
      results := terms.map fun t => ⟨ofOthers t, none⟩, isComplex := false, isDistinct := false
      windowCursor := innerWindows, windows := left.map Prod.fst }
    let whole (t : Term) : Term := (place t).getD t
    let calls := (firsts b).map fun w =>
      { w.1 with
        arguments := if keepsDocuments w.1 then w.1.arguments.map (Term.substitute leaf) else w.1.arguments.map whole
        filter := w.1.filter.map whole, parts := w.1.parts.map whole
        order := w.1.order.map (SortTerm.map whole) }
    let input : Input := { cursor, columns := branch.results.map Result.column, rows := .block id }
    let outer : Branch := { b with
      results := b.results.map fun r => { r with term := r.term.substitute leaf }
      inputs := [input], filter := none, groups := [], having := none, isAggregate := false, aggregates := []
      aggregateCursor := s.cursors + 2, windows := calls }
    let own := b.inputs.map Input.cursor
    let nested := blocksInside s shown
    let inOuter := Term.replace fun i j c => if own.contains i then place (.place i j c) else none
    let blocks := (s.blocks.mapIdx fun k inside => if nested.contains k then inside.map inOuter else inside).push
      { first := branch, order := inner, isOrderNeeded := true }
    ({ s with blocks, cursors := s.cursors + 3 }, outer, order.map (SortTerm.map (Term.substitute leaf)))

end CouplingTree.Sql.Windows
