import CouplingTree.Sql.Resolve.Window
import CouplingTree.Sql.SelfReference

/-!
# Finding names in expressions

A name stands for a column of the nearest query that has one, for a result of that name, or, in double quotes, for a
text. An aggregate belongs to the nearest query that its values come from.

`findName_nil` : outside of all queries, a name has no meaning.
-/

namespace CouplingTree.Sql

namespace Resolver

variable (r : Resolver)

/-! ## Names -/

/-- The result of a name, where it may be used. -/
def findResult (l : Level) (isOuter : Bool) (table : Option String) (name : String) : Except Problem (Option Term) :=
  match if table.isSome then none else (l.results.getD []).find? fun s => s.name.any (sameName name) with
  | none => .ok none
  | some s =>
    let isOf (cursor : Nat) : Bool := s.term.mentions fun | .place i _ _ => decide (i = cursor) | _ => false
    let shown := s.name.getD name
    if !l.mayAggregate && isOf l.aggregateCursor then .error (.misusedResult "aggregate" shown)
    else if (!l.mayWindow || isOuter) && isOf l.windowCursor then .error (.misusedResult "window function" shown)
    else if s.term.fields.length ≠ 1 then .error .misusedRow
    else .ok (some s.term)

/-- What a name means in the nearest level where it means something. -/
def findName (schema table : Option String) (name : String) (isOuter : Bool) : Scope → Except Problem (Option Term)
  | [] => .ok none
  | l :: rest =>
    match l.find schema table name (isRowIdName name) with
    | .term t => .ok (some t)
    | .ambiguous => .error (.ambiguousColumn (fullName schema table name))
    | .missing => do
      match ← findResult l isOuter table name with
      | some t => return some t
      | none => findName schema table name true rest

theorem findName_nil (schema table : Option String) (name : String) (isOuter : Bool) :
    findName schema table name isOuter [] = .ok none := rfl

/-- The truth value that a bare word is where it has no other meaning. -/
def truthWord? (scope : Scope) : Expr → Except Problem (Option Bool)
  | .column none none name .bare => do
    if isTruthName name && (← findName none none name false scope).isNone then return some (sameName name "true")
    else return none
  | _ => return none

def columnTerm (schema table : Option String) (name : String) (quoting : Quoting) (scope : Scope) :
    Except Problem Term := do
  match ← findName schema table name false scope with
  | some t => return t
  | none =>
    if table.isNone && quoting = .doubleQuoted then return .value (.ofString name)
    else if table.isNone && quoting = .bare && isTruthName name then return .ofBool (sameName name "true")
    else throw (.noSuchColumn (fullName schema table name))

/-! ## Operators -/

def constant (t : Term) : PendingTerm := ⟨1, fun _ => return t⟩

/-- An operation on parts that are found one after the other. -/
def operation (op : Operation) (ps : List PendingTerm) : PendingTerm :=
  ⟨1, fun scope => do return .apply op (← ps.mapM fun p => p.resolve scope)⟩

/-- A test for nothing is decided where there is always a value. -/
def nullTest (op : Operation) (isNull : Bool) (p : PendingTerm) : PendingTerm :=
  ⟨1, fun scope => do
    let t ← p.resolve scope
    return if t.mayBeNull then .apply op [t] else .ofBool !isNull⟩

def unary (op : UnaryOp) (p : PendingTerm) : PendingTerm :=
  match op with
  | .plus => operation .plus [p]
  | .negate => operation .negate [p]
  | .complement => operation .complement [p]
  | .not => operation .not [p]
  | .isNull => nullTest .isNull true p
  | .notNull => nullTest .notNull false p

/-- Some parts of the same width. -/
def ofWidths (op : Operation) (ps : List PendingTerm) : PendingTerm :=
  ⟨1, fun scope => do
    if ps.any fun p => p.width ≠ (ps.head?.map PendingTerm.width).getD 1 then throw .misusedRow
    (operation op ps).resolve scope⟩

def comparison (c : Comparison) (b : Expr) (p q : PendingTerm) : PendingTerm :=
  ⟨1, fun scope => do
    match c, ← truthWord? scope b with
    | .is, some word => (operation (.truth word false) [p]).resolve scope
    | .isNot, some word => (operation (.truth word true) [p]).resolve scope
    | _, _ => (ofWidths (.compare c) [p, q]).resolve scope⟩

def binary (op : BinaryOp) (b : Expr) (p q : PendingTerm) : PendingTerm :=
  match op with
  | .compare c => comparison c b p q
  | .and => operation .and [p, q]
  | .or => operation .or [p, q]
  | .concat => operation .concat [p, q]
  | .arithmetic f => operation (.arithmetic f) [p, q]

/-- The affinity that a value is converted to; without a type it is converted to a number. -/
def castAffinity (type : String) : Affinity := if type = "" then .numeric else .ofType type

/-- A part that is looked for among values, with the collation in which it is compared with them. -/
def sought (t u : Term) : Term :=
  match Term.commonCollation? t u with
  | some c => if t.collation? = some c then t else .apply (.collate c true) [t]
  | none => t

/-- A query in an expression. -/
def subquery (use : QueryUse) (q : PendingQuery) (ps : List PendingTerm) : PendingTerm :=
  ⟨if use = .single 0 then q.names.length else 1, fun scope => do
    let id ← q.resolve scope
    let results := ((← get).blocks[id]?.map Block.lastResults).getD []
    let ts := (← ps.mapM fun p => p.resolve scope).flatMap Term.fields
    let parts := if ts.length = results.length then (ts.zip results).map fun p => sought p.1 p.2.term else ts
    return .query use id (results.map Result.column) parts⟩

/-! ## Functions -/

/-- How often something is true among 2^27 times, for a likelihood that is written as a number. -/
def chance? : Option Expr → Option Nat
  | some (.value (.real x)) =>
    if 0 ≤ x && x ≤ 1 then some (truncate (x * 134217728)).toNat else none
  | _ => none

def likelihood (name : String) (known : Option Bool) (second : Option Expr) : Except Problem Operation :=
  match known with
  | some true => .ok (.likely 125829120)
  | some false => .ok (.likely 8388608)
  | none =>
    match chance? second with
    | some n => .ok (.likely n)
    | none => .error (.likelihoodRange name)

/-- The query that the values of an aggregate come from. One without columns belongs to the innermost query. -/
def owner (cursors : List Nat) : Scope → Option Level
  | [] => none
  | l :: rest =>
    let isOwn := cursors.any fun c => l.tables.any fun t => decide (t.cursor = c)
    if isOwn || cursors.isEmpty then some l else owner cursors rest

/-- A value that is computed elsewhere, with the collation that its parts ask for. -/
def computed (cursor i : Nat) (parts : List Term) : Term :=
  let t : Term := .place cursor (some i) { name := "" }
  match parts.find? Term.isCollated with
  | some p => .apply (.collate p.collation true) [t]
  | none => t

def aggregateTerm (name : String) (a : Aggregate) (distinct : Bool) (ts : List Term) (filter : Option Term)
    (scope : Scope) : Resolving Term := do
  if distinct && ts.length ≠ 1 then Draft.noteLate .distinctArguments
  let bs := (← get).blocks
  match owner ((ts ++ filter.toList).flatMap bs.cursorsOf).eraseDups scope with
  | none =>
    Draft.noteLate (.misplacedAggregate name)
    return default
  | some l =>
    let i ← Draft.addAggregate l.aggregateCursor ⟨name, a, distinct, ts, filter⟩
    return computed l.aggregateCursor i ts

def windowTerm (f : RowFunction) (ts : List Term) (w : PendingWindow) (filter : Option PendingTerm)
    (scope inner : Scope) : Resolving Term := do
  let frame ← frameOf w f filter.isSome
  let parts ← w.parts.mapM fun p => p.resolve inner
  let order ← w.order.mapM fun s => do
    return ({ term := ← s.1.resolve inner, descending := s.2.1, nullsLast := s.2.2 } : SortTerm)
  let filter ← filter.mapM fun p => p.resolve inner
  match scope with
  | [] => return default
  | l :: _ =>
    let i ← Draft.addWindow l.windowCursor ⟨f, ts, filter, parts, order, frame⟩
    return computed l.windowCursor i ts

/-- What is wrong with the place of a function of groups or of rows. -/
def misplaced? (name : String) (isWindowOnly hasWindow : Bool) (scope : Scope) : Option Problem :=
  let l := scope.head?.getD {}
  let kind := if isWindowOnly || hasWindow then "window" else "aggregate"
  if !l.mayAggregate || (isWindowOnly && !hasWindow) || (hasWindow && !l.mayWindow) then
    some (.misusedFunction kind name)
  else none

/-- A function of groups or of rows. -/
def groupFunction (name : String) (f : RowFunction) (distinct : Bool) (ps : List PendingTerm)
    (filter : Option PendingTerm) (window : Option (Except Problem PendingWindow)) (scope : Scope) : Resolving Term := do
  let isWindowOnly := match f with | .window _ => true | .aggregate _ => false
  match misplaced? name isWindowOnly window.isSome scope with
  | some p =>
    let _ ← ps.mapM fun p => p.resolve scope
    throw p
  | none =>
    let inner : Scope :=
      match scope with
      | [] => []
      | l :: rest => { l with mayWindow := false, mayAggregate := l.mayAggregate && window.isSome } :: rest
    let ts ← ps.mapM fun p => p.resolve inner
    match window, f with
    | some w, f => windowTerm f ts (← w) filter scope inner
    | none, .aggregate a =>
      let filter ← filter.mapM fun p => p.resolve inner
      aggregateTerm name a distinct ts filter scope
    | none, .window _ => return default

/-- A function of values. -/
def scalarFunction (name : String) (op : Except Problem Operation) (hasWindow hasFilter : Bool)
    (ps : List PendingTerm) (scope : Scope) : Resolving Term := do
  let ts ← ps.mapM fun p => p.resolve scope
  if hasWindow then throw (.notForWindows name)
  if hasFilter then throw (.filteredScalar name)
  return .apply (← op) ts

def call (ctx : Context) (name : String) (distinct whole : Bool) (arguments : List Expr) (filter : Option Expr)
    (overWindow : Option Window) : Resolving PendingTerm := do
  let ps ← arguments.mapM (r.expression ctx)
  let window ← overWindow.mapM fun w =>
    match WindowShape.ofWindow ctx.windows w with
    | .ok shape => return Except.ok (← r.window ctx shape)
    | .error p => return Except.error p
  let filter ← filter.mapM (r.expression ctx)
  let scalar (op : Except Problem Operation) : PendingTerm :=
    ⟨1, scalarFunction name op window.isSome filter.isSome ps⟩
  let ofGroups (f : RowFunction) : PendingTerm := ⟨1, groupFunction name f distinct ps filter window⟩
  match functionOf name (if whole then 0 else arguments.length) with
  | .error p =>
    return ⟨1, fun scope => do
      let _ ← ps.mapM fun p => p.resolve scope
      throw p⟩
  | .ok (.scalar f) => return scalar (.ok (.function f.name))
  | .ok .coalesce => return scalar (.ok .coalesce)
  | .ok .choose => return scalar (.ok .choose)
  | .ok (.likely known) => return scalar (likelihood name known arguments[1]?)
  | .ok (.aggregate a) => return ofGroups (.aggregate a)
  | .ok (.window w) => return ofGroups (.window w)

/-! ## Expressions -/

/-- The first step for an expression. -/
def expressionHere (ctx : Context) : Expr → Resolving PendingTerm
  | .value v => return constant (.value v)
  | .parameter => return constant default
  | .column schema table name quoting => return ⟨1, fun scope => columnTerm schema table name quoting scope⟩
  | .unary op e => do return unary op (← r.expression ctx e)
  | .binary op a b => do
    let p ← r.expression ctx a
    return binary op b p (← r.expression ctx b)
  | .between e low high => do
    let p ← r.expression ctx e
    let q ← r.expression ctx low
    return ofWidths .between [p, q, ← r.expression ctx high]
  | .member e items => do
    let p ← r.expression ctx e
    return operation .member (p :: (← items.mapM (r.expression ctx)))
  | .memberOf e q => do
    let p ← r.expression ctx e
    return subquery .member (← r.query ctx q) [p]
  | .choice base branches otherwise => do
    let base ← base.mapM (r.expression ctx)
    let branches ← branches.mapM fun b => do
      let p ← r.expression ctx b.1
      return [p, ← r.expression ctx b.2]
    let otherwise ← otherwise.mapM (r.expression ctx)
    return operation (.choice base.isSome otherwise.isSome) (base.toList ++ branches.flatten ++ otherwise.toList)
  | .call name distinct whole arguments filter overWindow => r.call ctx name distinct whole arguments filter overWindow
  | .cast e type => do return operation (.cast (castAffinity type)) [← r.expression ctx e]
  | .collate e name => do return operation (.collate (.ofName name) true) [← r.expression ctx e]
  | .exists q => do return subquery .exists (← r.query ctx q) []
  | .single q => do return subquery (.single 0) (← r.query ctx q) []
  | .row es => do
    let ps ← es.mapM (r.expression ctx)
    return { operation .row ps with width := ps.length }
  | .raise => return ⟨1, fun _ => do
      Draft.noteLate .raiseOutsideTrigger
      return default⟩

end Resolver

end CouplingTree.Sql
