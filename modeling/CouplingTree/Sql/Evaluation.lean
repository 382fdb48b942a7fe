import CouplingTree.Sql.Relation

/-!
# The values of terms

A term has a value in an environment, which has the rows that cursors are at. `Term.evaluator` goes through a term once
and gives the function from environments to values; the rows of the queries in it are had in the same way.

`datum_cons` : a cursor is at the row that it has been put at last.
-/

namespace CouplingTree.Sql

/-! ## Environments -/

/-- The rows that cursors are at, the last ones first. A row may be missing. -/
abbrev Env := List (Nat × Option Row)

namespace Env

/-- The row of a cursor, unless it is missing. -/
def row? (env : Env) (cursor : Nat) : Option Row := (env.lookup cursor).bind id

/-- A column in the row of a cursor. -/
def datum (env : Env) (cursor : Nat) (column : Option Nat) : Except Problem Datum :=
  match env.row? cursor with
  | some row => row.datum column
  | none => .ok Document.nothing

theorem datum_cons (env : Env) (cursor : Nat) (row : Row) (column : Option Nat) :
    datum ((cursor, some row) :: env) cursor column = row.datum column := by
  simp [datum, row?]

end Env

abbrev Evaluator := Env → Except Problem Datum

/-! ## Operations -/

namespace Operation

def plain (v : Value) : Datum := ⟨v, false⟩

def truthOf (t : Option Bool) : Datum := plain (.ofTruth t)

def unary (f : Value → Value) (e : Evaluator) : Evaluator := fun env => (e env).map fun d => plain (f d.value)

def binary (f : Value → Value → Value) (a b : Evaluator) : Evaluator := fun env => do
  let v ← a env
  let w ← b env
  return plain (f v.value w.value)

/-- A condition made of two others; the second one does not matter if the first one decides. -/
def connective (decisive : Bool) (op : Option Bool → Option Bool → Option Bool) (a b : Evaluator) : Evaluator :=
  fun env => do
    let v ← a env
    if v.value.truth? = some decisive then return plain (.ofBool decisive)
    else
      let w ← b env
      return truthOf (op v.value.truth? w.value.truth?)

/-- How two terms are compared. -/
structure Measure where
  adjust : Adjustment
  collation : Collation

def Measure.of (a b : Term) : Measure := ⟨.of a.affinity b.affinity, Term.commonCollation a b⟩

def Measure.truth (m : Measure) (c : Comparison) (v w : Value) : Option Bool :=
  c.compareTruth m.adjust m.collation v w

/-- The truth of a comparison of values side by side: the first difference decides. -/
def rowTruth (c : Comparison) : List (Measure × Value × Value) → Option Bool
  | [] => some (c.accepts .eq)
  | [(m, v, w)] => m.truth c v w
  | (m, v, w) :: rest =>
    match c with
    | .equal | .is => andTruth (m.truth c v w) (rowTruth c rest)
    | .unequal | .isNot => orTruth (m.truth c v w) (rowTruth c rest)
    | .less | .atMost => orTruth (m.truth .less v w) (andTruth (m.truth .equal v w) (rowTruth c rest))
    | .greater | .atLeast => orTruth (m.truth .greater v w) (andTruth (m.truth .equal v w) (rowTruth c rest))

def valuesAt (es : List Evaluator) (env : Env) : Except Problem (List Value) := es.mapM fun e => (e env).map Datum.value

/-- A comparison of terms whose fields have evaluators. -/
def comparison (c : Comparison) (a b : Term) (es fs : List Evaluator) : Env → Except Problem (Option Bool) :=
  let measures := (a.fields.zip b.fields).map fun p => Measure.of p.1 p.2
  fun env => do
    let vs ← valuesAt es env
    let ws ← valuesAt fs env
    return rowTruth c (measures.zip (vs.zip ws))

/-- The first result whose condition is true. -/
def firstOf : List ((Env → Except Problem Bool) × Evaluator) → Evaluator → Evaluator
  | [], otherwise, env => otherwise env
  | (condition, result) :: rest, otherwise, env => do
    if ← condition env then result env else firstOf rest otherwise env

def isTrue (d : Datum) : Bool := d.value.truth? == some true

/-- Conditions and results that stand in turn. -/
def pairs {α : Type} : List α → List (α × α)
  | a :: b :: rest => (a, b) :: pairs rest
  | _ => []

/-- The first value that there is. -/
def firstPresent : List Evaluator → Evaluator
  | [], _ => .ok Document.nothing
  | e :: rest, env => do
    let d ← e env
    if d.value.isNull then firstPresent rest env else return d

def ofScalar (name : String) (ps : List Term) (es : List Evaluator) : Evaluator :=
  match functionOf name ps.length with
  | .ok (.scalar f) =>
    let collation := (ps.findSome? Term.collation?).getD .binary
    fun env => do f.apply collation (← es.mapM fun e => e env)
  | _ => fun _ => .error (.noSuchFunction name)

/-- A part with the evaluators of its fields. -/
structure Part where
  term : Term
  fields : List Evaluator

/-- The evaluator of the one value that is due: of a query with several columns it may be any of them. -/
def Part.evaluator (p : Part) : Evaluator :=
  let place := match p.term with | .query (.single i) _ _ _ => i | _ => 0
  p.fields[place]?.getD fun _ => .ok Document.nothing

/-- The truth of whether a value lies between two others. -/
def betweenTruth (e low high : Part) (env : Env) : Except Problem (Option Bool) := do
  let a ← comparison .atLeast e.term low.term e.fields low.fields env
  let b ← comparison .atMost e.term high.term e.fields high.fields env
  return andTruth a b

/-- A choice; where a value is compared, the conditions are those of being equal to it. -/
def choiceOf (hasBase hasOther : Bool) (ps : List Part) : Evaluator :=
  let base := if hasBase then ps.head? else none
  let body := if hasBase then ps.drop 1 else ps
  let otherwise := if hasOther then body.getLast?.map Part.evaluator else none
  let branches := (pairs body).map fun p =>
    let condition : Env → Except Problem Bool :=
      match base with
      | some b =>
        let equal := comparison .equal b.term p.1.term b.fields p.1.fields
        fun env => do return (← equal env) == some true
      | none => fun env => do return isTrue (← p.1.evaluator env)
    (condition, p.2.evaluator)
  firstOf branches (otherwise.getD fun _ => .ok Document.nothing)

/-- The evaluator of an operation on parts. -/
def evaluator (op : Operation) (ps : List Part) : Evaluator :=
  match op, ps with
  | .plus, [p] | .collate _ _, [p] | .on _ _, [p] | .likely _, p :: _ => p.evaluator
  | .negate, [p] =>
    match p.term with
    | .value (.real x) => fun _ => .ok (plain (.real (-x)))
    | _ => unary Value.negated p.evaluator
  | .complement, [p] => unary Value.complement p.evaluator
  | .not, [p] => unary (fun v => .ofTruth (v.truth?.map Bool.not)) p.evaluator
  | .isNull, [p] => unary (fun v => .ofBool v.isNull) p.evaluator
  | .notNull, [p] => unary (fun v => .ofBool !v.isNull) p.evaluator
  | .and, [p, q] => connective false andTruth p.evaluator q.evaluator
  | .or, [p, q] => connective true orTruth p.evaluator q.evaluator
  | .concat, [p, q] => binary Value.concat p.evaluator q.evaluator
  | .arithmetic a, [p, q] => binary a.eval p.evaluator q.evaluator
  | .compare c, [p, q] =>
    let truth := comparison c p.term q.term p.fields q.fields
    fun env => do return truthOf (← truth env)
  | .between, [p, q, s] => fun env => do return truthOf (← betweenTruth p q s env)
  | .member, p :: items =>
    let m : Measure := ⟨.of p.term.affinity none, p.term.collation⟩
    fun env => do
      let v ← p.evaluator env
      let ws ← items.mapM fun q => q.evaluator env
      return truthOf (anyTruth (ws.map fun w => m.truth .equal v.value w.value))
  | .choice hasBase hasOther, ps => choiceOf hasBase hasOther ps
  | .cast a, [p] => fun env => do
    let d ← p.evaluator env
    return { d with value := d.value.cast a }
  | .function name, ps => ofScalar name (ps.map Part.term) (ps.map Part.evaluator)
  | .coalesce, ps => firstPresent (ps.map Part.evaluator)
  | .choose, [p, q, s] => fun env => do if isTrue (← p.evaluator env) then q.evaluator env else s.evaluator env
  | .truth word negated, [p] => unary (fun v => .ofBool (decide (v.truth? = some word) != negated)) p.evaluator
  | .fixed _ _ c, [p] => unary (fun v => (c.affinity.map fun a => a.apply v).getD v) p.evaluator
  | .orNull cursor, [p] => fun env => if (env.row? cursor).isSome then p.evaluator env else .ok Document.nothing
  | _, _ => fun _ => .error .misusedRow

/-! ## Queries -/

/-- Whether values are one of the rows of a query. -/
def memberTruth (measures : List Measure) (vs : List Value) (rows : Stream Row) : Except Problem (Option Bool) := do
  let ws ← rows.all
  let truths ← ws.mapM fun r => do return rowTruth .equal (measures.zip (vs.zip (← r.values)))
  return anyTruth truths

def ofQuery (use : QueryUse) (columns : List Column) (ps : List Term) (es : List Evaluator) (rows : Env → Stream Row) :
    Evaluator :=
  match use with
  | .exists => fun env =>
    match (rows env).items, (rows env).fault with
    | [], some p => .error p
    | items, _ => .ok (plain (.ofBool !items.isEmpty))
  | .single i => fun env =>
    match (rows env).items, (rows env).fault with
    | r :: _, _ => r.datum (some i)
    | [], none => .ok Document.nothing
    | [], some p => .error p
  | .member =>
    let measures : List Measure := (ps.zip columns).map fun p => ⟨.of p.1.affinity p.2.affinity, p.1.collation⟩
    fun env => do return truthOf (← memberTruth measures (← valuesAt es env) (rows env))

end Operation

/-! ## Terms -/

namespace Term

/-- The evaluators of the fields of a term, where the rows of the queries in it are given. -/
def evaluators (rows : Nat → Env → Stream Row) : Term → List Evaluator
  | value v => [fun _ => .ok ⟨v, false⟩]
  | place cursor column _ => [fun env => env.datum cursor column]
  | apply .row ps => (partsOf rows ps).map Operation.Part.evaluator
  | apply op ps => [op.evaluator (partsOf rows ps)]
  | query (.single i) block columns ps =>
    let all := rows block
    if columns.length ≤ 1 then [Operation.ofQuery (.single i) columns ps [] all]
    else (List.range columns.length).map fun i => Operation.ofQuery (.single i) columns ps [] all
  | query use block columns ps =>
    [Operation.ofQuery use columns ps ((partsOf rows ps).map Operation.Part.evaluator) (rows block)]
where
  partsOf (rows : Nat → Env → Stream Row) : List Term → List Operation.Part
    | [] => []
    | t :: rest => ⟨t, t.evaluators rows⟩ :: partsOf rows rest

/-- The evaluator of a term. -/
def evaluator (rows : Nat → Env → Stream Row) (t : Term) : Evaluator :=
  match t.evaluators rows with
  | [e] => e
  | _ => fun _ => .error .misusedRow

/-- Whether a condition is true. -/
def test (rows : Nat → Env → Stream Row) (t : Term) : Env → Except Problem Bool :=
  let e := t.evaluator rows
  fun env => do return Operation.isTrue (← e env)

end Term

end CouplingTree.Sql
