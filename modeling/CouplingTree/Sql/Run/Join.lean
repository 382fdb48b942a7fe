import CouplingTree.Sql.Run.Access

/-!
# Joining inputs

The inputs of a selection are gone through inside each other, in an order that is planned. A condition is tested as soon
as the rows that it looks at are there. Where an input keeps rows without a partner, its own conditions decide which rows
are partners, and all others are tested afterwards.

`Level.tests_nil` : without conditions every row is kept.
-/

namespace CouplingTree.Sql

/-- How the inputs of a selection are gone through: which one, and in which order its rows come. -/
structure PlannedLoop where
  place : Nat
  access : Access

/-- How the rows of a selection are had. -/
structure JoinPlan where
  loops : List PlannedLoop
  /-- Whether the rows of a group come together. -/
  isGrouped : Bool := false

namespace Join

/-- A condition with the inputs that it looks at. -/
structure Condition where
  term : Term
  cursors : List Nat

/-- One input in the order in which they are gone through. -/
structure Level where
  input : Input
  access : Access
  /-- Which rows are partners of those before. -/
  partners : List Term
  /-- What has to hold in addition, whether there is a partner or not. -/
  others : List Term

/-- Whether a condition decides about partners at an input, when some inputs are there. -/
def decidesPartner (i : Input) (bound : List Nat) (c : Condition) : Bool :=
  c.cursors.all bound.contains &&
    if i.isOuter || i.isKept then
      match c.term.on? with
      | none => false
      | some (cursor, isOuter) => (!i.join.left || isOuter) && bound.contains cursor
    else true

/-- Gives each condition to the first input where it can be tested. -/
def levels (bound : List Nat) (conditions : List Condition) : List (Input × Access) → List Level
  | [] => []
  | (i, access) :: rest =>
    let bound := i.cursor :: bound
    let partners := conditions.filter (decidesPartner i bound)
    let left := conditions.filter fun c => !decidesPartner i bound c
    let isReady (c : Condition) : Bool := i.isOuter && !i.isKept && c.cursors.all bound.contains
    ⟨i, access, partners.map Condition.term, (left.filter isReady).map Condition.term⟩ ::
      levels bound (left.filter fun c => !isReady c) rest

/-- What happens while inputs are gone through: a row of all inputs, or a row of an input that has a partner. -/
inductive Event
  | found (env : Env)
  | partner (cursor : Nat) (row : Row)

/-- An input with the functions that test its conditions. -/
structure Runner where
  input : Input
  supply : RowSupply
  own : RowSupply
  isPartner : Env → Except Problem Bool
  isKept : Env → Except Problem Bool

/-- Whether all of several conditions are true. -/
def tests (test : Term → Env → Except Problem Bool) (ts : List Term) : Env → Except Problem Bool :=
  let fs := ts.map test
  fun env => fs.allM fun f => f env

theorem tests_nil (test : Term → Env → Except Problem Bool) (env : Env) : tests test [] env = .ok true := rfl

/-- Goes on where a condition is true. -/
def guarded {α : Type} (holds : Except Problem Bool) (next : Unit → Stream α) : Stream α :=
  match holds with
  | .ok true => next ()
  | .ok false => ⟨[], none⟩
  | .error p => ⟨[], some p⟩

/-- Goes through the inputs from one on. -/
def run : List Runner → Env → Stream Event
  | [], env => ⟨[.found env], none⟩
  | r :: rest, env =>
    let cursor := r.input.cursor
    let deeper (env : Env) : Stream Event := guarded (r.isKept env) fun _ => run rest env
    let visited : Stream (Bool × List Event) := (r.supply.given env).flatMap fun row =>
      let env := (cursor, some row) :: env
      guarded (r.isPartner env) fun _ =>
        let more := deeper env
        let seen : List Event := if r.input.join.right then [.partner cursor row] else []
        ⟨[(true, seen ++ more.items)], more.fault⟩
    let events : Stream Event := ⟨visited.items.flatMap Prod.snd, visited.fault⟩
    if r.input.join.left && visited.items.isEmpty && visited.fault.isNone then deeper ((cursor, none) :: env)
    else events

/-- The rows of an input that have had no partner, with those before it missing. -/
def unmatched (before : List Runner) (r : Runner) (rest : List Runner) (env : Env) (matched : List Row) :
    Stream Event :=
  let env := before.foldl (fun env b => (b.input.cursor, none) :: env) env
  (r.own.given env).flatMap fun row =>
    if Access.isAmong matched row then ⟨[], none⟩
    else
      let env := (r.input.cursor, some row) :: env
      guarded (r.isKept env) fun _ => run rest env

/-- The rows of an input that have had a partner. -/
def partnersOf (cursor : Nat) (es : List Event) : List Row :=
  es.filterMap fun | .partner c row => if c = cursor then some row else none | .found _ => none

/-- Goes through all inputs, and then through the rows that have had no partner, input by input. -/
def runAll (rs : List Runner) (env : Env) : Stream Env :=
  let all := rs.zipIdx.foldl (fun found r =>
    if r.1.input.join.right then
      found.append (unmatched (rs.take r.2) r.1 (rs.drop (r.2 + 1)) env (partnersOf r.1.input.cursor found.items))
    else found) (run rs env)
  ⟨all.items.filterMap fun | .found env => some env | .partner _ _ => none, all.fault⟩

end Join

end CouplingTree.Sql
