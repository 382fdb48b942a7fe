import CouplingTree.Sql.Block

/-!
# Columns that have one value

Where a column has to be equal to a constant, it is this constant in all other conditions too, as long as it is compared
byte by byte. Conditions of joins that keep rows say nothing about other conditions.

`isConstant_value` : a value is constant.
-/

namespace CouplingTree.Sql

namespace Term

/-- Whether a function makes the same value of the same values every time. -/
def isFixedFunction (name : String) (count : Nat) : Bool :=
  match functionOf name count with
  | .ok (.scalar f) => f.isFixed
  | _ => false

/-- Whether a term has the same value for all rows, but for those of some cursors and for some terms. -/
def isConstantFor (isKnown : Term → Bool) (cursors : List Nat) (t : Term) : Bool :=
  isKnown t ||
    match t with
    | value _ => true
    | place i _ _ => cursors.contains i
    | query _ _ _ _ | apply (.orNull _) _ => false
    | apply (.function name) ps => isFixedFunction name ps.length && areConstant isKnown cursors ps
    | apply _ ps => areConstant isKnown cursors ps
where
  areConstant (isKnown : Term → Bool) (cursors : List Nat) : List Term → Bool
    | [] => true
    | t :: rest => t.isConstantFor isKnown cursors && areConstant isKnown cursors rest

def isConstant (t : Term) : Bool := t.isConstantFor (fun _ => false) []

theorem isConstant_value (v : Value) : isConstant (value v) = true := by
  simp [isConstant, isConstantFor]

end Term

/-- A column that is equal to a constant because of a condition. -/
structure ConstantColumn where
  cursor : Nat
  column : Option Nat
  value : Term
  /-- Whether the column keeps values as they are. -/
  isRaw : Bool
  /-- The place of the condition among all. -/
  origin : Nat

namespace ConstantColumn

/-- The constant columns of a condition. -/
def ofCondition (origin : Nat) (t : Term) : List ConstantColumn :=
  let make (a b : Term) : Option ConstantColumn :=
    match a with
    | .place i j c =>
      if b.isConstant && b.affinity.isNone && (Term.commonCollation a b == .binary) then
        some ⟨i, j, b, c.affinity == some .blob, origin⟩
      else none
    | _ => none
  match t.withoutOn with
  | .apply (.compare .equal) [a, b] => (make b a).toList ++ (make a b).toList
  | _ => []

/-- Whether a condition is left as it is: one of a join that keeps rows, or of any join if rows of the first input are
kept. -/
def isExcluded (keepsFirst : Bool) (t : Term) : Bool := t.on?.any fun o => o.2 || keepsFirst

/-- The constant columns of some conditions. The last condition about a column counts. -/
def ofConditions (keepsFirst : Bool) (ts : List Term) : List ConstantColumn :=
  (ts.zipIdx.reverse.flatMap fun t => if isExcluded keepsFirst t.1 then [] else ofCondition t.2 t.1).foldl
    (fun found c => if found.any fun d => d.cursor = c.cursor && d.column = c.column then found else found ++ [c]) []

/-- A place with its value, if it is one of the columns. -/
def replaced (cs : List ConstantColumn) (keepsRaw : Bool) : Term → Term
  | .place i j c =>
    match cs.find? fun k => k.cursor = i && k.column = j with
    | some k => if keepsRaw && k.isRaw then .place i j c else .apply (.fixed i j c) [k.value]
    | none => .place i j c
  | t => t

/-- A term with the values in place of the columns. A column that keeps values as they are is replaced only where it is
compared itself. -/
def inTerm (cs : List ConstantColumn) (keepsFirst : Bool) : Term → Term
  | .value v => .value v
  | .place i j c => replaced cs (cs.any isRaw) (.place i j c)
  | .query use b columns ps => .query use b columns (inTerms cs keepsFirst ps)
  | .apply op ps =>
    match op with
    | .fixed _ _ _ => .apply op ps
    | .on _ isOuter => if isOuter || keepsFirst then .apply op ps else .apply op (inTerms cs keepsFirst ps)
    | .compare c =>
      if cs.any isRaw && c != .unequal && c != .isNot then
        match inTerms cs keepsFirst ps with
        | [a, b] =>
          let a := replaced cs false a
          .apply op [a, if a.affinity == some .text then b else replaced cs false b]
        | ps => .apply op ps
      else .apply op (inTerms cs keepsFirst ps)
    | _ => .apply op (inTerms cs keepsFirst ps)
where
  inTerms (cs : List ConstantColumn) (keepsFirst : Bool) : List Term → List Term
    | [] => []
    | t :: rest => inTerm cs keepsFirst t :: inTerms cs keepsFirst rest

/-- One round: the conditions with the values of the columns, also in the queries inside them. -/
def round (s : Statement) (keepsFirst : Bool) (ts : List Term) : Statement × List Term :=
  match ofConditions keepsFirst ts with
  | [] => (s, ts)
  | cs =>
    let inside := s.blocks.within (s.blocks.size + 1) (ts.flatMap Term.queries)
    ({ s with blocks := s.blocks.mapIdx fun id b => if inside.contains id then b.map (inTerm cs keepsFirst) else b },
      ts.zipIdx.map fun t => if cs.any fun c => c.origin = t.2 then t.1 else inTerm cs keepsFirst t.1)

def rounds : Nat → Statement → Bool → List Term → Statement × List Term
  | 0, s, _, ts => (s, ts)
  | n + 1, s, keepsFirst, ts =>
    let (s, ts) := round s keepsFirst ts
    rounds n s keepsFirst ts

end ConstantColumn

/-- A selection with the values of constant columns in its conditions. -/
def Branch.withConstants (s : Statement) (b : Branch) : Statement × Branch :=
  match (b.filter.map Term.conjuncts).getD [] with
  | [] | [_] => (s, b)
  | ts =>
    let (s, ts) := ConstantColumn.rounds ts.length s (b.inputs.head?.any Input.isKept) ts
    (s, { b with filter := Term.all ts })

end CouplingTree.Sql
