import CouplingTree.Sql.Relation

/-!
# Blocks

A block is a query whose names are found. It has one branch, or several ones that are put together, and each branch takes
rows from its inputs. Blocks are kept in a list, and refer to each other by their places in it. Every input has a cursor
of its own, so that terms of one block may be moved into another.

`Block.map_results` : changing the terms changes each result.
-/

namespace CouplingTree.Sql

/-! ## Orders and windows -/

/-- What rows are sorted by. -/
structure SortTerm where
  term : Term
  descending : Bool := false
  nullsLast : Bool := false
  /-- The result that it is. -/
  result : Option Nat := none

namespace SortTerm

def map (f : Term → Term) (s : SortTerm) : SortTerm := { s with term := f s.term }

/-- Whether nothing comes where it does not come by itself. -/
def hasOddNulls (s : SortTerm) : Bool := s.nullsLast != s.descending

/-- Whether two terms sort alike. -/
def same (s t : SortTerm) : Bool := s.term.same t.term && s.descending == t.descending && s.nullsLast == t.nullsLast

def areSame (ss ts : List SortTerm) : Bool := decide (ss.length = ts.length) && (ss.zip ts).all fun p => p.1.same p.2

end SortTerm

/-- Where a frame begins or ends, with a distance that does not depend on rows. -/
inductive FrameEdge
  | first
  | before (distance : Term)
  | here
  | after (distance : Term)
  | last

def FrameEdge.same : FrameEdge → FrameEdge → Bool
  | first, first | here, here | last, last => true
  | before d, before e | after d, after e => d.same e
  | _, _ => false

structure WindowFrame where
  unit : FrameUnit
  start : FrameEdge
  stop : FrameEdge
  exclusion : FrameExclusion

/-- The frame that is meant where none is written. -/
def WindowFrame.implicit : WindowFrame := ⟨.range, .first, .here, .nobody⟩

def WindowFrame.same (f g : WindowFrame) : Bool :=
  decide (f.unit = g.unit ∧ f.exclusion = g.exclusion) && f.start.same g.start && f.stop.same g.stop

/-- A function of rows. -/
inductive RowFunction
  | aggregate (a : Aggregate)
  | window (w : WindowFunction)

namespace RowFunction

def same : RowFunction → RowFunction → Bool
  | aggregate a, aggregate b => decide (a.name = b.name)
  | window v, window w => decide (v = w)
  | _, _ => false

end RowFunction

structure AggregateCall where
  /-- The function as it is written. -/
  name : String
  function : Aggregate
  distinct : Bool
  arguments : List Term
  filter : Option Term

namespace AggregateCall

def map (f : Term → Term) (c : AggregateCall) : AggregateCall :=
  { c with arguments := c.arguments.map f, filter := c.filter.map f }

def terms (c : AggregateCall) : List Term := c.arguments ++ c.filter.toList

def same (a b : AggregateCall) : Bool :=
  decide (a.function.name = b.function.name ∧ a.distinct = b.distinct) && Term.same.areSame a.arguments b.arguments &&
    Term.same.areSame a.filter.toList b.filter.toList

end AggregateCall

structure WindowCall where
  function : RowFunction
  arguments : List Term
  filter : Option Term
  parts : List Term
  order : List SortTerm
  frame : WindowFrame

namespace WindowCall

def map (f : Term → Term) (c : WindowCall) : WindowCall :=
  { c with
    arguments := c.arguments.map f, filter := c.filter.map f
    parts := c.parts.map f, order := c.order.map (SortTerm.map f) }

def terms (c : WindowCall) : List Term :=
  c.arguments ++ c.filter.toList ++ c.parts ++ c.order.map SortTerm.term

/-- Whether two functions see the same rows. -/
def seesSame (a b : WindowCall) : Bool :=
  a.frame.same b.frame && Term.same.areSame a.parts b.parts && SortTerm.areSame a.order b.order

end WindowCall

/-! ## Inputs -/

/-- A function that makes rows of values. The values stand in columns that are not shown. -/
structure TableFunction where
  name : String
  columns : List Column
  hidden : List Column
  /-- How many of the values have to be there. -/
  least : Nat
  /-- What it costs to get the rows, and about how many there are, as logarithms; with or without the values. -/
  cost : Int
  estimate : Int
  hasRowIds : Bool := true
  rows : List Datum → Stream Row

/-- Where the rows of an input come from. -/
inductive InputRows
  | table (r : Relation)
  | block (id : Nat)
  /-- The rows of a query that repeats itself, as they come. -/
  | queue (id : Nat)
  | function (f : TableFunction) (arguments : List Term)

/-- The use of a named query. It may be said whether its rows are kept. -/
structure NamedUse where
  id : Nat
  kept : Option Bool
deriving DecidableEq, Repr

structure Input where
  cursor : Nat
  columns : List Column
  rows : InputRows
  join : JoinOperator := {}
  /-- Whether an input behind it keeps its own rows without a partner. -/
  isKept : Bool := false
  hint : IndexHint := .free
  named : Option NamedUse := none
  isView : Bool := false

namespace Input

/-- An input with other numbers of cursors and blocks. -/
def renumber (cursor block : Nat → Nat) (s : Input) : Input :=
  { s with
    cursor := cursor s.cursor
    rows := match s.rows with
      | .block id => .block (block id)
      | .queue i => .queue (cursor i)
      | rows => rows }

def map (f : Term → Term) (s : Input) : Input :=
  match s.rows with
  | .function t arguments => { s with rows := .function t (arguments.map f) }
  | _ => s

def arguments (s : Input) : List Term :=
  match s.rows with
  | .function _ arguments => arguments
  | _ => []

def block? (s : Input) : Option Nat :=
  match s.rows with
  | .block id => some id
  | _ => none

/-- Whether rows may be missing here. -/
def mayMiss (s : Input) : Bool := s.join.left || s.isKept

def isOuter (s : Input) : Bool := s.join.left || s.join.right

/-- Whether its rows are made by a function or a module. -/
def isMade (s : Input) : Bool :=
  match s.rows with
  | .function _ _ => true
  | .table r => r.isMade
  | .block _ | .queue _ => false

end Input

/-! ## Blocks -/

/-- A column of a result. -/
structure Result where
  term : Term
  name : Option String

/-- The result as a column of rows. -/
def Result.column (r : Result) : Column :=
  { name := r.name.getD "", affinity := r.term.affinity, collation := r.term.collation }

/-- A selection. Its aggregates and its functions of rows are columns of cursors of its own. -/
structure Branch where
  results : List Result
  /-- Whether there is a function or a query in the results as they are written. -/
  isComplex : Bool := false
  isDistinct : Bool := false
  inputs : List Input
  filter : Option Term := none
  groups : List Term := []
  /-- Whether the groups stand for different results. -/
  hasDistinctGroups : Bool := false
  having : Option Term := none
  isAggregate : Bool := false
  aggregateCursor : Nat := 0
  aggregates : List AggregateCall := []
  windowCursor : Nat := 0
  windows : List WindowCall := []
  /-- Whether it takes rows from the query that it is part of. -/
  isRecursive : Bool := false

namespace Branch

def map (f : Term → Term) (b : Branch) : Branch :=
  { b with
    results := b.results.map fun r => { r with term := f r.term }
    inputs := b.inputs.map (Input.map f)
    filter := b.filter.map f
    groups := b.groups.map f
    having := b.having.map f
    aggregates := b.aggregates.map (AggregateCall.map f)
    windows := b.windows.map (WindowCall.map f) }

/-- A selection with other numbers of cursors and blocks. -/
def renumber (cursor block : Nat → Nat) (b : Branch) : Branch :=
  { b.map (Term.renumber cursor block) with
    inputs := (b.inputs.map (Input.map (Term.renumber cursor block))).map (Input.renumber cursor block)
    aggregateCursor := cursor b.aggregateCursor, windowCursor := cursor b.windowCursor }

def terms (b : Branch) : List Term :=
  b.results.map Result.term ++ b.filter.toList ++ b.groups ++ b.having.toList ++
    b.aggregates.flatMap AggregateCall.terms ++ b.windows.flatMap WindowCall.terms ++ b.inputs.flatMap Input.arguments

/-- The cursors that are its own. -/
def cursors (b : Branch) : List Nat := b.aggregateCursor :: b.windowCursor :: b.inputs.map Input.cursor

/-- The blocks that are inside it. -/
def inside (b : Branch) : List Nat := b.terms.flatMap Term.queries ++ b.inputs.filterMap Input.block?

/-- The collation of a result of several branches: that of the first one which has one. -/
def commonCollation (branches : List Branch) (i : Nat) : Collation :=
  (branches.findSome? fun b => (b.results[i]?.bind fun r => r.term.collation?)).getD .binary

/-- The functions of rows that see the same rows as the first one. -/
def firstWindow (b : Branch) : List WindowCall :=
  match b.windows with
  | [] => []
  | w :: rest => w :: rest.filter w.seesSame

end Branch

/-- A query. The order of one with several branches is that of its results. -/
structure Block where
  first : Branch
  rest : List (Compound × Branch) := []
  order : List SortTerm := []
  /-- Whether its order matters to what is made of it. -/
  isOrderNeeded : Bool := false
  limit : Option Term := none
  offset : Option Term := none
  /-- The cursor that it is to itself. -/
  queue : Option Nat := none

namespace Block

def branches (b : Block) : List Branch := b.first :: b.rest.map Prod.snd

def isCompound (b : Block) : Bool := !b.rest.isEmpty

/-- Changes all terms. -/
def map (f : Term → Term) (b : Block) : Block :=
  { b with
    first := b.first.map f
    rest := b.rest.map fun c => (c.1, c.2.map f)
    order := b.order.map (SortTerm.map f) }

theorem map_results (f : Term → Term) (b : Block) :
    (b.map f).first.results.map Result.term = b.first.results.map fun r => f r.term := by
  simp [map, Branch.map, Function.comp_def]

/-- A query with other numbers of cursors and blocks. -/
def renumber (cursor block : Nat → Nat) (b : Block) : Block :=
  { b with
    first := b.first.renumber cursor block
    rest := b.rest.map fun c => (c.1, c.2.renumber cursor block)
    order := b.order.map (SortTerm.map (Term.renumber cursor block))
    queue := b.queue.map cursor }

def terms (b : Block) : List Term := b.branches.flatMap Branch.terms ++ b.order.map SortTerm.term

/-- The cursors that are its own. -/
def cursors (b : Block) : List Nat := b.branches.flatMap Branch.cursors ++ b.queue.toList

/-- The columns of its rows as those of an input. -/
def columns (b : Block) : List Column := b.first.results.map Result.column

/-- Its results as they are seen by an expression: those of the last branch. -/
def lastResults (b : Block) : List Result := ((b.rest.getLast?.map Prod.snd).getD b.first).results

end Block

/-- The blocks of a statement. -/
abbrev Blocks := Array Block

namespace Blocks

/-- Changes the terms of all blocks. -/
def mapTerms (f : Term → Term) (bs : Blocks) : Blocks := Array.map (Block.map f) bs

/-- Puts a block in the place of one. -/
def put (bs : Blocks) (id : Nat) (b : Block) : Blocks := bs.setIfInBounds id b

/-- The blocks that are inside one. -/
def inside (bs : Blocks) (id : Nat) : List Nat :=
  match bs[id]? with
  | none => []
  | some b => b.order.flatMap (fun o => o.term.queries) ++ b.branches.flatMap Branch.inside

/-- Blocks with those inside them, so many of which are inside each other at most. -/
def within (bs : Blocks) : Nat → List Nat → List Nat
  | 0, ids => ids
  | depth + 1, ids => (ids ++ within bs depth (ids.flatMap bs.inside)).eraseDups

/-- The cursors that the terms of a block and of those inside it look at, and that are none of their own; blocks are
inside each other so deeply at most. -/
def outerCursors (bs : Blocks) : Nat → Nat → List Nat
  | 0, _ => []
  | depth + 1, id =>
    match bs[id]? with
    | none => []
    | some b =>
      let own := b.cursors
      let looked := b.terms.flatMap Term.cursors ++ (bs.inside id).flatMap (outerCursors bs depth)
      (looked.filter fun c => !own.contains c).eraseDups

/-- The cursors that a term and the queries in it look at. -/
def cursorsOf (bs : Blocks) (t : Term) : List Nat :=
  (t.cursors ++ t.queries.flatMap (bs.outerCursors (bs.size + 1))).eraseDups

end Blocks

/-! ## Statements -/

/-- A query with all that is inside it. -/
structure Statement where
  blocks : Blocks
  root : Nat
  /-- The named queries that are used, once for each use. -/
  uses : List Nat
  /-- A cursor that is not taken, as are none of those behind it. -/
  cursors : Nat

namespace Statement

/-- Decides for each use of a named query whether its rows are kept: because this is asked for, or because the query is
used again. -/
def settled (s : Statement) : Statement :=
  let settle (i : Input) : Input :=
    { i with named := i.named.map fun u => { u with kept := some (u.kept.getD (decide (2 ≤ s.uses.count u.id))) } }
  let settleAll (b : Branch) : Branch := { b with inputs := b.inputs.map settle }
  { s with
    blocks := s.blocks.map fun b =>
      { b with first := settleAll b.first, rest := b.rest.map fun c => (c.1, settleAll c.2) } }

end Statement

namespace Input

/-- Whether its rows are those of a named query that are kept. -/
def isStored (i : Input) : Bool := i.named.any fun u => u.kept == some true

/-- Whether the rows of an input at a place are had one after the other, and only once. -/
def isPassing (inputs : List Input) (place : Nat) : Bool :=
  match inputs with
  | [] => false
  | i :: rest => decide (place = 0) && !i.isStored && !i.isKept && rest.head?.all fun j => j.isOuter || j.join.cross

end Input

end CouplingTree.Sql
