import CouplingTree.Sql.Conversion

/-!
# Queries

An expression is computed from the columns of a row. A query takes rows from tables, views and other queries, and makes
rows of expressions; several such selections may be put together.
-/

namespace CouplingTree.Sql

/-- How a name is written; a name in double quotes that is missing is a text. -/
inductive Quoting
  | bare
  | quoted
  | doubleQuoted
deriving DecidableEq, Repr

inductive UnaryOp
  | negate
  | plus
  | complement
  | not
  | isNull
  | notNull
deriving DecidableEq, Repr

inductive Comparison
  | equal
  | unequal
  | less
  | atMost
  | greater
  | atLeast
  /-- As `equal`, but nothing is equal to itself. -/
  | is
  | isNot
deriving DecidableEq, Repr

inductive Arithmetic
  | add
  | subtract
  | multiply
  | divide
  | remainder
  | bitAnd
  | bitOr
  | shiftLeft
  | shiftRight
deriving DecidableEq, Repr

inductive BinaryOp
  | and
  | or
  | concat
  | compare (c : Comparison)
  | arithmetic (a : Arithmetic)
deriving DecidableEq, Repr

/-- How two selections are put together. -/
inductive Compound
  | union
  | unionAll
  | intersect
  | except
  /-- The rows of one list of values. -/
  | values
deriving DecidableEq, Repr

def Compound.name : Compound → String
  | union => "UNION"
  | unionAll => "UNION ALL"
  | intersect => "INTERSECT"
  | except => "EXCEPT"
  | values => "VALUES"

/-- How a table is joined to those before it: by equal names or not, and which rows stay without a partner. -/
structure JoinOperator where
  natural : Bool := false
  /-- Whether rows of the tables before it are kept. -/
  left : Bool := false
  /-- Whether its own rows are kept. -/
  right : Bool := false
  /-- Whether the tables are gone through in the order in which they are written. -/
  cross : Bool := false
deriving DecidableEq, Repr

/-- What is said about the index by which a table is gone through. -/
inductive IndexHint
  | free
  | indexed (name : String)
  | notIndexed
deriving DecidableEq, Repr

/-- By what the rows of a frame are counted. -/
inductive FrameUnit
  | rows
  | range
  | groups
deriving DecidableEq, Repr

/-- Which rows are left out of a frame. -/
inductive FrameExclusion
  | nobody
  | current
  | group
  | ties
deriving DecidableEq, Repr

mutual

inductive Expr
  | value (v : Value)
  /-- A value that is not given. -/
  | parameter
  | column (schema table : Option String) (name : String) (quoting : Quoting)
  | unary (op : UnaryOp) (e : Expr)
  | binary (op : BinaryOp) (a b : Expr)
  | between (e low high : Expr)
  | member (e : Expr) (items : List Expr)
  | memberOf (e : Expr) (q : Query)
  | choice (base : Option Expr) (branches : List (Expr × Expr)) (otherwise : Option Expr)
  /-- A function of expressions; `whole` stands for a star in place of them. -/
  | call (name : String) (distinct whole : Bool) (arguments : List Expr) (filter : Option Expr) (overWindow : Option Window)
  | cast (e : Expr) (type : String)
  | collate (e : Expr) (collation : String)
  | exists (q : Query)
  /-- The one row of a query. -/
  | single (q : Query)
  /-- Several values side by side. -/
  | row (es : List Expr)
  /-- What a trigger does in place of going on. -/
  | raise

/-- The rows that a function sees from a row: those of its part in an order, and of them those in a frame. -/
inductive Window
  /-- A window that is defined elsewhere. -/
  | named (name : String)
  | mk (base : Option String) (parts : List Expr) (order : List Sorting) (frame : Option Frame)

inductive Frame
  | mk (unit : FrameUnit) (start stop : Bound) (exclusion : FrameExclusion)

/-- Where a frame begins or ends. -/
inductive Bound
  | first
  | before (e : Expr)
  | here
  | after (e : Expr)
  | last

/-- A column of a result, or several of them. -/
inductive Item
  | all
  | allOf (table : String)
  /-- An expression, the name given to it, and how it is written. -/
  | expr (e : Expr) (name : Option String) (written : String)

/-- Where rows come from. -/
inductive Source
  | table (schema : Option String) (name : String) (label : Option String) (hint : IndexHint)
  /-- A function that makes rows. -/
  | function (schema : Option String) (name : String) (arguments : List Expr) (label : Option String)
  | query (q : Query) (label : Option String)
  /-- Joined tables in brackets. -/
  | joined (joins : List Join) (label : Option String)

inductive Join
  | mk (operator : JoinOperator) (source : Source) (on : Option Expr) (shared : Option (List String))

inductive Selection
  | mk (distinct : Bool) (items : List Item) (joins : List Join) (filter : Option Expr) (groups : List Expr)
      (having : Option Expr) (windows : List (String × Window))

inductive Sorting
  | mk (e : Expr) (descending : Bool) (nullsLast : Option Bool)

/-- A query that is named in front of another one. It may be said whether its rows are kept. -/
inductive NamedQuery
  | mk (name : String) (columns : List String) (kept : Option Bool) (q : Query)

inductive Query
  | mk (named : List NamedQuery) (first : Selection) (rest : List (Compound × Selection)) (order : List Sorting)
      (limit offset : Option Expr)

end

instance inhabitedExpr : Inhabited Expr := ⟨.value .null⟩

namespace Expr

/-- What a negated condition is. -/
def negatedIf (negated : Bool) (e : Expr) : Expr := if negated then unary .not e else e

/-- An expression without the collations around it. -/
def bare : Expr → Expr
  | collate e _ => e.bare
  | e => e

/-- Whether an expression is made of literals alone, without functions. -/
def isLiteral : Expr → Bool
  | value _ => true
  | column none none name quoting => decide (quoting = .bare) && (sameName name "true" || sameName name "false")
  | unary _ e | cast e _ | collate e _ => e.isLiteral
  | binary _ a b => a.isLiteral && b.isLiteral
  | between e low high => e.isLiteral && low.isLiteral && high.isLiteral
  | member e items => e.isLiteral && areLiterals items
  | row es => areLiterals es
  | choice base branches otherwise => isLiteral? base && arePairsLiterals branches && isLiteral? otherwise
  | _ => false
where
  areLiterals : List Expr → Bool
    | [] => true
    | e :: rest => e.isLiteral && areLiterals rest
  isLiteral? : Option Expr → Bool
    | some e => e.isLiteral
    | none => true
  arePairsLiterals : List (Expr × Expr) → Bool
    | [] => true
    | (a, b) :: rest => a.isLiteral && b.isLiteral && arePairsLiterals rest

/-- The expressions that an expression is made of, but for those of windows and queries. -/
def parts : Expr → List Expr
  | unary _ e | cast e _ | collate e _ | memberOf e _ => [e]
  | binary _ a b => [a, b]
  | between e low high => [e, low, high]
  | member e items => e :: items
  | choice base branches otherwise => base.toList ++ (branches.flatMap fun b => [b.1, b.2] : List Expr) ++ otherwise.toList
  | call _ _ _ arguments filter _ => arguments ++ filter.toList
  | row es => es
  | .value _ | .parameter | .column _ _ _ _ | .exists _ | .single _ | .raise => []

/-- How deeply expressions are inside each other. -/
def depth : Expr → Nat
  | unary _ e | cast e _ | collate e _ | memberOf e _ => e.depth + 1
  | binary _ a b => max a.depth b.depth + 1
  | between e low high => max e.depth (max low.depth high.depth) + 1
  | member e items => max e.depth (depthOfAll items) + 1
  | choice base branches otherwise =>
    max (depthOfOption base) (max (depthOfPairs branches) (depthOfOption otherwise)) + 1
  | call _ _ _ arguments filter _ => max (depthOfAll arguments) (depthOfOption filter) + 1
  | row es => depthOfAll es + 1
  | .value _ | .parameter | .column _ _ _ _ | .exists _ | .single _ | .raise => 1
where
  depthOfAll : List Expr → Nat
    | [] => 0
    | e :: rest => max e.depth (depthOfAll rest)
  depthOfOption : Option Expr → Nat
    | some e => e.depth
    | none => 0
  depthOfPairs : List (Expr × Expr) → Nat
    | [] => 0
    | (a, b) :: rest => max (max a.depth b.depth) (depthOfPairs rest)

/-- The integer that an expression is, perhaps behind signs. -/
def integer? : Expr → Option Int
  | value (.integer i) => if i.natAbs < 0x80000000 then some i else none
  | unary .plus e => e.integer?
  | unary .negate e => e.integer?.map (- ·)
  | _ => none

/-- How many values are side by side in an expression. -/
def width : Expr → Nat
  | row es => es.length
  | _ => 1

/-- A function of expressions as it is mostly written. -/
def ofCall (name : String) (arguments : List Expr) : Expr := call name false false arguments none none

end Expr

namespace Query

/-- The rows of one selection. -/
def ofSelection (s : Selection) : Query := mk [] s [] [] none none

/-- Some items of each row of a source. -/
def ofSource (items : List Item) (s : Source) (order : List Sorting) : Query :=
  mk [] (.mk false items [.mk {} s none none] none [] none []) [] order none none

/-- Rows of expressions. -/
def ofRows (rows : List (List Expr)) : Query :=
  let selection (es : List Expr) : Selection := .mk false (es.map fun e => .expr e none "") [] none [] none []
  match rows with
  | [] => ofSelection (selection [])
  | first :: rest => mk [] (selection first) (rest.map fun es => (.values, selection es)) [] none none

/-- One row of named values. -/
def ofValues (columns : List (String × Value)) : Query :=
  ofSelection (.mk false (columns.map fun c => .expr (.value c.2) (some c.1) "") [] none [] none [])

end Query

end CouplingTree.Sql
