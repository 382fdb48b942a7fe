import CouplingTree.Sql.Resolve.Query
import CouplingTree.Sql.Simplify.Statement
import CouplingTree.Sql.Run.Block

/-!
# Answers

A statement is refused if one of its terms has several values where one is due, or compares texts in a way that is not
known. Blocks are inside each other, and their rows are had from the outside. The rows of a block that looks at no rows
around it are had only once. `Query.answer` gives the columns and the rows of a query.

`problems_place` : a column that can be computed is no problem; `supply_zero` : nothing is inside itself.
-/

namespace CouplingTree.Sql

/-! ## What is wrong with terms -/

namespace Term

/-- The terms that an operation compares. -/
def compared (op : Operation) (ps : List Term) : List (Term × Term) :=
  match op, ps with
  | .compare _, [a, b] => [(a, b)]
  | .between, [e, low, high] => [(e, low), (e, high)]
  | .member, e :: _ => [(e, .value .null)]
  | .choice true _, base :: body => (Operation.pairs body).map fun p => (base, p.1)
  | _, _ => []

/-- Whether several values may be side by side in the parts of an operation. -/
def takesRows : Operation → Bool
  | .compare _ | .between | .choice true _ => true
  | _ => false

/-- What is wrong with a comparison of two terms. -/
def comparisonProblems (a b : Term) : List Problem :=
  if a.fields.length ≠ b.fields.length then [.misusedRow]
  else (a.fields.zip b.fields).filterMap fun p => (commonCollation p.1 p.2).problem?

/-- What is wrong with the comparisons that an operation makes. -/
def operationProblems (op : Operation) (ps : List Term) : List Problem :=
  match op with
  | .function name =>
    if name ∈ ["min", "max", "nullif"] then ((ps.findSome? collation?).bind Collation.problem?).toList else []
  | _ => (compared op ps).flatMap fun p => comparisonProblems p.1 p.2

/-- What is wrong with a term, in the order in which it is found, perhaps where only one value is due. -/
def problems (isSingle : Bool) : Term → List Problem
  | value _ => []
  | place _ _ c => c.fault.toList
  | apply .row ps => if isSingle then [.misusedRow] else problemsOf true ps
  | apply (.collate _ _) ps => problemsOf isSingle ps
  | apply op ps => problemsOf (!takesRows op) ps ++ operationProblems op ps
  | query .exists _ _ _ => []
  | query (.single _) _ columns _ =>
    if isSingle && columns.length ≠ 1 then [.subqueryWidth columns.length 1] else []
  | query .member _ columns ps =>
    if columns.length ≠ ps.length then [.subqueryWidth columns.length ps.length]
    else problemsOf false ps ++ ps.filterMap fun p => p.collation.problem?
where
  problemsOf (isSingle : Bool) : List Term → List Problem
    | [] => []
    | t :: rest => t.problems isSingle ++ problemsOf isSingle rest

theorem problems_place (isSingle : Bool) (cursor : Nat) (column : Option Nat) {c : Column} (h : c.fault = none) :
    (place cursor column c).problems isSingle = [] := by
  rw [problems, h, Option.toList_none]

/-- What is wrong with a term by whose values rows are told apart. -/
def keyProblems (t : Term) : List Problem := t.problems true ++ t.collation.problem?.toList

end Term

/-! ## What is wrong with statements -/

namespace AggregateCall

def problems (c : AggregateCall) : List Problem :=
  let compared := if c.distinct then c.arguments.filterMap fun t => t.collation.problem? else []
  let extreme := if c.function.extreme.isSome then (Group.collationOf c).problem?.toList else []
  c.terms.flatMap (Term.problems true) ++ compared ++ extreme

end AggregateCall

namespace WindowCall

def problems (c : WindowCall) : List Problem :=
  (c.arguments ++ c.filter.toList).flatMap (Term.problems true) ++
    (c.parts ++ c.order.map SortTerm.term).flatMap Term.keyProblems

end WindowCall

/-- What is wrong with a selection. Nobody may ask for its results. -/
def Branch.problems (b : Branch) (isAsked : Bool) : List Problem :=
  let results := b.results.map Result.term
  (b.inputs.flatMap Input.arguments ++ b.filter.toList).flatMap (Term.problems true) ++
    b.groups.flatMap Term.keyProblems ++ b.aggregates.flatMap AggregateCall.problems ++
    b.windows.flatMap WindowCall.problems ++ b.having.toList.flatMap (Term.problems true) ++
    if isAsked then results.flatMap (if b.isDistinct then Term.keyProblems else Term.problems true) else []

/-- What is wrong with a query. Of several selections all results are compared, unless all rows stay. -/
def Block.problems (b : Block) (isAsked : Bool) : List Problem :=
  let keys := if b.rest.any fun c => c.1.isOfSets then Block.resultKeys b.branches else []
  (b.limit.toList ++ b.offset.toList).flatMap (Term.problems true) ++
    b.branches.flatMap (fun br => br.problems isAsked) ++ (keys ++ b.order).flatMap fun o => o.term.keyProblems

namespace Statement

/-- What is wrong with a statement: the last problem of the innermost block that has any. -/
def problem? (s : Statement) : Option Problem :=
  let ids := s.blocks.within (s.blocks.size + 1) [s.root]
  let tested := ids.flatMap fun id => ((s.blocks[id]?.map Block.terms).getD []).flatMap fun t =>
    t.queryUses.filterMap fun q => if q.2 = .exists then some q.1 else none
  ids.reverse.findSome? fun id => s.blocks[id]?.bind fun b => (b.problems (!tested.contains id)).getLast?

end Statement

/-! ## Rows -/

/-- How the rows of all branches of all blocks are had. -/
abbrev Plans := Nat → Nat → JoinPlan

namespace Statement

variable (s : Statement) (plans : Plans)

/-- The rows of a block, of which so many are inside each other at most. -/
def supply : Nat → Nat → RowSupply
  | 0, _ => .fixed (Thunk.mk fun _ => ⟨[], some .unsupported⟩)
  | depth + 1, id =>
    match s.blocks[id]? with
    | none => .fixed (Thunk.mk fun _ => ⟨[], some .unsupported⟩)
    | some b =>
      let rows := b.rows ⟨s.blocks, supply depth⟩ (plans id)
      if (s.blocks.outerCursors (s.blocks.size + 1) id).isEmpty then .fixed (Thunk.mk fun _ => rows [])
      else .varying rows

theorem supply_zero (id : Nat) : (s.supply plans 0 id).given [] = ⟨[], some .unsupported⟩ := rfl

/-- The columns of the result. -/
def columns : List Column := ((s.blocks[s.root]?).map Block.columns).getD []

/-- The rows of the result. -/
def rows : Stream Row := (s.supply plans (s.blocks.size + 1) s.root).given []

end Statement

/-- The inputs in the order in which they are written. -/
def JoinPlan.asWritten (b : Branch) : JoinPlan := { loops := (List.range b.inputs.length).map fun i => ⟨i, .scan false⟩ }

def Statement.plansAsWritten (s : Statement) : Plans := fun id place =>
  (((s.blocks[id]?).bind fun b => b.branches[place]?).map JoinPlan.asWritten).getD { loops := [] }

/-- The columns and the rows of a query, the expressions of which are nested so deeply at most. -/
def Query.answer (catalog : Catalog) (depth : Nat) (q : Query) : Except Problem (List Column × Stream Row) := do
  let s := (← q.resolve catalog depth).simplified
  match s.problem? with
  | some p => throw p
  | none => return (s.columns, s.rows s.plansAsWritten)

end CouplingTree.Sql
