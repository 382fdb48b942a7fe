import CouplingTree.Sql.Function.Catalog
import CouplingTree.Sql.Operator

/-!
# Terms

A term is an expression whose names are found: each name has become a place in the rows that a cursor is at. Queries
inside a term are given by their numbers. A term has an affinity and a collation, which decide how its value is compared.

`Term.affinity_collate` : a collation does not change the affinity.
`Term.markedOn_and` : all parts of a condition belong to the same join.
-/

namespace CouplingTree.Sql

/-- What is wrong with comparing by a collation. -/
def Collation.problem? : Collation → Option Problem
  | unknown name => some (.noSuchCollation name)
  | _ => none

/-- The columns of tables have an affinity; those of other relations may have none. -/
structure Column where
  name : String
  affinity : Option Affinity := none
  collation : Collation := .binary
  /-- Whether there is always a value. -/
  isPresent : Bool := false
  /-- What is wrong with its computation from other columns. -/
  fault : Option Problem := none
deriving DecidableEq, Repr, Inhabited

/-- The number of a row as a column. -/
def Column.rowId : Column := { name := "rowid", affinity := some .integer, isPresent := true }

/-- What a term makes of its parts. -/
inductive Operation
  | plus
  | negate
  | complement
  | not
  | isNull
  | notNull
  | and
  | or
  | concat
  | compare (c : Comparison)
  | arithmetic (a : Arithmetic)
  | between
  /-- Whether the first part is one of the others. -/
  | member
  /-- Conditions and results in turn, perhaps behind a value that is compared, and perhaps before another result. -/
  | choice (hasBase hasOther : Bool)
  | cast (type : Affinity)
  /-- A collation that is asked for, or that a column has had. -/
  | collate (c : Collation) (isExplicit : Bool)
  | function (name : String)
  | coalesce
  | choose
  /-- The first part, which is true so often among 2^27 times. -/
  | likely (chance : Nat)
  /-- Whether the truth of a value is one, or is not. -/
  | truth (word negated : Bool)
  | row
  /-- The part, or nothing where the row of a cursor is missing. -/
  | orNull (cursor : Nat)
  /-- A condition of a join, perhaps of one that keeps rows without a partner. -/
  | on (cursor : Nat) (isOuter : Bool)
  /-- A column in the row of a cursor that always has the value of the part, as the column keeps it. -/
  | fixed (cursor : Nat) (column : Option Nat) (c : Column)
deriving DecidableEq, Repr

/-- What is asked about a query inside a term. -/
inductive QueryUse
  /-- Whether it has a row. -/
  | exists
  /-- A value of its first row. -/
  | single (field : Nat)
  /-- Whether the parts are one of its rows. -/
  | member
deriving DecidableEq, Repr

inductive Term
  | value (v : Value)
  /-- A column in the row of a cursor, or the number of the row. -/
  | place (cursor : Nat) (column : Option Nat) (c : Column)
  | apply (op : Operation) (parts : List Term)
  | query (use : QueryUse) (block : Nat) (columns : List Column) (parts : List Term)

instance inhabitedTerm : Inhabited Term := ⟨.value .null⟩

/-- Whether two values cannot be told apart. -/
def Value.identical : Value → Value → Bool
  | .null, .null => true
  | .integer i, .integer j => decide (i = j)
  | .real x, .real y => decide (x.toBits = y.toBits)
  | .text a, .text b | .blob a, .blob b => decide (a = b)
  | _, _ => false

namespace Term

/-! ## Making terms -/

def ofBool (b : Bool) : Term := value (.ofBool b)

def compare (c : Comparison) (a b : Term) : Term := apply (.compare c) [a, b]

/-- Both of two conditions, of which there may be only one. -/
def and? : Option Term → Option Term → Option Term
  | some a, some b => some (apply .and [a, b])
  | a, b => a.or b

/-- All of several conditions. -/
def all (ts : List Term) : Option Term := ts.foldl (fun a t => and? a (some t)) none

/-! ## Parts -/

def parts : Term → List Term
  | apply _ ps | query _ _ _ ps => ps
  | .value _ | .place _ _ _ => []

/-- The conditions that have to be true together. -/
def conjuncts : Term → List Term
  | apply .and [a, b] => a.conjuncts ++ b.conjuncts
  | t => [t]

/-- The alternatives of a condition. -/
def disjuncts : Term → List Term
  | apply .or [a, b] => a.disjuncts ++ b.disjuncts
  | t => [t]

/-- A condition as one of a join. -/
def markedOn (cursor : Nat) (isOuter : Bool) : Term → Term
  | apply .and [a, b] => apply .and [a.markedOn cursor isOuter, b.markedOn cursor isOuter]
  | apply (.on _ _) [t] => apply (.on cursor isOuter) [t]
  | t => apply (.on cursor isOuter) [t]

theorem markedOn_and (cursor : Nat) (isOuter : Bool) (a b : Term) :
    markedOn cursor isOuter (apply .and [a, b]) =
      apply .and [a.markedOn cursor isOuter, b.markedOn cursor isOuter] := by
  simp [markedOn]

/-- A condition without the join that it belongs to. -/
def withoutOn : Term → Term
  | apply (.on _ _) [t] => t
  | t => t

/-- The join that a condition belongs to, and whether it keeps rows. -/
def on? : Term → Option (Nat × Bool)
  | apply (.on cursor isOuter) [_] => some (cursor, isOuter)
  | _ => none

/-- A term without the collations and likelihoods around it. -/
def bare : Term → Term
  | apply (.collate _ _) [t] | apply (.likely _) (t :: _) => t.bare
  | t => t

/-- A term without the collations around it. -/
def uncollated : Term → Term
  | apply (.collate _ _) [t] => t.uncollated
  | t => t

/-- The values that are side by side in a term. -/
def fields : Term → List Term
  | apply .row ps => ps
  | query (.single _) block columns ps =>
    if columns.length ≤ 1 then [query (.single 0) block columns ps]
    else (List.range columns.length).map fun i => query (.single i) block columns ps
  | t => [t]

/-! ## How values are compared -/

def affinity : Term → Option Affinity
  | place _ _ c => c.affinity
  | apply (.cast a) _ => some a
  | apply (.fixed _ _ c) _ => c.affinity
  | apply op ps =>
    match op, ps with
    | .collate _ _, [t] | .orNull _, [t] | .on _ _, [t] => t.affinity
    | .row, t :: _ => t.affinity
    | _, _ => none
  | query (.single i) _ columns _ => columns[i]?.bind Column.affinity
  | _ => none

theorem affinity_collate (c : Collation) (b : Bool) (t : Term) : (apply (.collate c b) [t]).affinity = t.affinity := by
  simp [affinity]

/-- Whether a collation is asked for in a term. -/
def isCollated : Term → Bool
  | apply (.collate _ isExplicit) _ => isExplicit
  | apply (.fixed _ _ _) _ => false
  | apply _ ps => anyCollated ps
  | query .member _ _ ps => anyCollated ps
  | _ => false
where
  anyCollated : List Term → Bool
    | [] => false
    | t :: rest => t.isCollated || anyCollated rest

/-- The collation of a term, if it has one. -/
def collation? : Term → Option Collation
  | place _ (some _) c => some c.collation
  | apply (.collate c _) _ => some c
  | apply (.fixed _ column c) _ => column.map fun _ => c.collation
  | apply .plus [t] | apply (.cast _) [t] | apply (.on _ _) [t] => t.collation?
  | apply .row (t :: _) => t.collation?
  | apply _ ps => firstCollation ps
  | query .member _ _ ps => firstCollation ps
  | _ => none
where
  /-- The collation of the first part that asks for one. -/
  firstCollation : List Term → Option Collation
    | [] => none
    | t :: rest => if t.isCollated then t.collation? else firstCollation rest

def collation (t : Term) : Collation := t.collation?.getD .binary

/-- The collation in which two terms are compared: one that is asked for, and otherwise the first one that there is. -/
def commonCollation? (a b : Term) : Option Collation :=
  if a.isCollated then a.collation? else if b.isCollated then b.collation? else a.collation?.or b.collation?

def commonCollation (a b : Term) : Collation := (commonCollation? a b).getD .binary

/-- Whether a term may have no value. -/
def mayBeNull : Term → Bool
  | value v => v.isNull
  | place _ _ c => !c.isPresent
  | apply .plus [t] | apply .negate [t] | apply (.on _ _) [t] => t.mayBeNull
  | _ => true

/-! ## Comparing terms -/

/-- Whether two terms are written alike. A query is only like itself. -/
def same : Term → Term → Bool
  | value v, value w => v.identical w
  | place i j _, place k l _ => decide (i = k ∧ j = l)
  | apply f ps, apply g qs => decide (f = g) && areSame ps qs
  | query f i _ ps, query g j _ qs => decide (f = g ∧ i = j) && areSame ps qs
  | _, _ => false
where
  areSame : List Term → List Term → Bool
    | [], [] => true
    | t :: ts, u :: us => t.same u && areSame ts us
    | _, _ => false

/-! ## Going through terms -/

/-- The cursors whose rows a term looks at, without those that the queries in it look at. -/
def cursors : Term → List Nat
  | place i _ _ => [i]
  | apply (.orNull i) ps => i :: cursorsOf ps
  | apply _ ps | query _ _ _ ps => cursorsOf ps
  | .value _ => []
where
  cursorsOf : List Term → List Nat
    | [] => []
    | t :: rest => t.cursors ++ cursorsOf rest

/-- The places that a term looks at. -/
def places : Term → List (Nat × Option Nat × Column)
  | place i j c => [(i, j, c)]
  | apply _ ps | query _ _ _ ps => placesOf ps
  | .value _ => []
where
  placesOf : List Term → List (Nat × Option Nat × Column)
    | [] => []
    | t :: rest => t.places ++ placesOf rest

/-- The queries in a term, each with what is asked about it. -/
def queryUses : Term → List (Nat × QueryUse)
  | query use b _ ps => (b, use) :: queriesOf ps
  | apply _ ps => queriesOf ps
  | .value _ | .place _ _ _ => []
where
  queriesOf : List Term → List (Nat × QueryUse)
    | [] => []
    | t :: rest => t.queryUses ++ queriesOf rest

/-- The queries in a term. -/
def queries (t : Term) : List Nat := t.queryUses.map Prod.fst

/-- A term with others in the place of some of its places. -/
def replace (f : Nat → Option Nat → Column → Option Term) : Term → Term
  | value v => value v
  | place i j c => (f i j c).getD (place i j c)
  | apply op ps => apply op (replaceIn f ps)
  | query use b columns ps => query use b columns (replaceIn f ps)
where
  replaceIn (f : Nat → Option Nat → Column → Option Term) : List Term → List Term
    | [] => []
    | t :: rest => t.replace f :: replaceIn f rest

/-- A term with others in the place of some of its parts, the largest ones. -/
def substitute (f : Term → Option Term) (t : Term) : Term :=
  match f t with
  | some u => u
  | none =>
    match t with
    | apply op ps => apply op (substituteIn f ps)
    | query use b columns ps => query use b columns (substituteIn f ps)
    | t => t
where
  substituteIn (f : Term → Option Term) : List Term → List Term
    | [] => []
    | t :: rest => t.substitute f :: substituteIn f rest

/-- What an operation is about, by other numbers of cursors. -/
def renumberOperation (cursor : Nat → Nat) : Operation → Operation
  | .orNull i => .orNull (cursor i)
  | .on i isOuter => .on (cursor i) isOuter
  | .fixed i j c => .fixed (cursor i) j c
  | op => op

/-- A term with other numbers of cursors and blocks. -/
def renumber (cursor block : Nat → Nat) : Term → Term
  | value v => value v
  | place i j c => place (cursor i) j c
  | apply op ps => apply (renumberOperation cursor op) (renumberIn cursor block ps)
  | query use b columns ps => query use (block b) columns (renumberIn cursor block ps)
where
  renumberIn (cursor block : Nat → Nat) : List Term → List Term
    | [] => []
    | t :: rest => t.renumber cursor block :: renumberIn cursor block rest

/-- Whether something holds of a part of a term, or of the term itself. -/
def mentions (p : Term → Bool) : Term → Bool
  | value v => p (value v)
  | place i j c => p (place i j c)
  | apply op ps => p (apply op ps) || mentionsIn p ps
  | query use b columns ps => p (query use b columns ps) || mentionsIn p ps
where
  mentionsIn (p : Term → Bool) : List Term → Bool
    | [] => false
    | t :: rest => t.mentions p || mentionsIn p rest

end Term

end CouplingTree.Sql
