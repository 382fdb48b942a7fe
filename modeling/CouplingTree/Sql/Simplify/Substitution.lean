import CouplingTree.Sql.Block

/-!
# Selections in other places

* A comparison with nothing is not true. So a condition on the rows of an input may leave no row where this input is
  missing, and then it makes no difference whether such rows are kept.
* A selection is copied with all that is inside it. The copy has cursors and blocks of its own, and takes the same rows
  from outside.
* A column of a query in brackets is one of its results. Where the result takes the place of the column, it is compared
  as the column has been: by the collation of the column, which nobody asks for. If rows of the query may be missing, the
  result is nothing where they are.

`impliesRow_value` : a value needs no row; `size_copied` : a copy adds as many blocks as there are inside the selection;
`term_value` : a value stays as it is.
-/

/-! ## Conditions that need a row -/

namespace CouplingTree.Sql.Term

/-- Whether a part that is compared is a column that is made by a module, for which comparisons may mean something else. -/
def isMadeColumn (isMade : Nat → Bool) : Term → Bool
  | place i _ _ | apply (.fixed i _ _) _ => isMade i
  | _ => false

/-- Whether a term cannot be true, nor another value than nothing, where the row of a cursor is missing. -/
def needsRow (isMade : Nat → Bool) (cursor : Nat) : Term → Bool
  | value _ => false
  | place i _ _ => decide (i = cursor)
  | query _ _ _ _ => false
  | apply op ps =>
    match op, ps with
    | .on _ true, _ | .isNull, _ | .notNull, _ | .row, _ | .function _, _ | .coalesce, _ | .choose, _ | .likely _, _
    | .truth _ _, _ | .choice _ _, _ | .compare .is, _ | .compare .isNot, _ => false
    | .fixed i _ _, _ => decide (i = cursor)
    | .and, [a, b] | .or, [a, b] => a.needsRow isMade cursor && b.needsRow isMade cursor
    | .member, p :: items => !items.isEmpty && p.needsRow isMade cursor
    | .between, [p, low, high] =>
      p.needsRow isMade cursor || (low.needsRow isMade cursor && high.needsRow isMade cursor)
    | .compare _, ps => !ps.any (isMadeColumn isMade) && anyNeedsRow isMade cursor ps
    | _, ps => anyNeedsRow isMade cursor ps
where
  anyNeedsRow (isMade : Nat → Bool) (cursor : Nat) : List Term → Bool
    | [] => false
    | t :: rest => t.needsRow isMade cursor || anyNeedsRow isMade cursor rest

/-- Whether a condition is not true where the row of a cursor is missing. -/
def impliesRow (isMade : Nat → Bool) (cursor : Nat) : Term → Bool
  | apply (.collate _ _) [t] | apply (.on _ false) [t] | apply (.likely _) (t :: _) => t.impliesRow isMade cursor
  | apply .notNull [t] => t.needsRow isMade cursor
  | apply .and [a, b] => a.impliesRow isMade cursor || b.impliesRow isMade cursor
  | t => t.needsRow isMade cursor

theorem impliesRow_value (isMade : Nat → Bool) (cursor : Nat) (v : Value) :
    impliesRow isMade cursor (value v) = false := by
  simp [impliesRow, needsRow]

end CouplingTree.Sql.Term

/-! ## Copies of selections -/

namespace CouplingTree.Sql.Statement

/-- The blocks that are copied with a selection: those inside it at any depth, without one. -/
def copiedBlocks (s : Statement) (b : Branch) (omitted : Nat) : List (Nat × Block) :=
  (s.blocks.within (s.blocks.size + 1) (b.inside.filter (· ≠ omitted))).filterMap fun id =>
    s.blocks[id]?.map fun inner => (id, inner)

/-- What a number is in a copy, if so many numbers are taken. -/
def renumbered (taken : Nat) (copied : List Nat) (i : Nat) : Nat :=
  match copied.findIdx? (· = i) with
  | some k => taken + k
  | none => i

/-- The named queries that the inputs of a selection use. -/
def usesOf (b : Branch) : List Nat := b.inputs.filterMap fun i => i.named.map NamedUse.id

/-- A copy of a selection, without the rows of a block inside it. -/
def copied (s : Statement) (b : Branch) (omitted : Nat) : Statement × Branch :=
  let inner := s.copiedBlocks b omitted
  let cursors := b.cursors ++ inner.flatMap fun i => i.2.cursors
  let cursor := renumbered s.cursors cursors
  let block := renumbered s.blocks.size (inner.map Prod.fst)
  ({ s with
    blocks := s.blocks ++ (inner.map fun i => i.2.renumber cursor block).toArray
    uses := s.uses ++ usesOf b ++ inner.flatMap fun i => i.2.branches.flatMap usesOf
    cursors := s.cursors + cursors.length }, b.renumber cursor block)

theorem size_copied (s : Statement) (b : Branch) (omitted : Nat) :
    (s.copied b omitted).1.blocks.size = s.blocks.size + (s.copiedBlocks b omitted).length := by
  simp [copied]

end CouplingTree.Sql.Statement

/-! ## Results in the place of columns -/

namespace CouplingTree.Sql

/-- How the columns in the row of a cursor are replaced by results. -/
structure Substitution where
  cursor : Nat
  /-- The cursor at whose row the results are. -/
  place : Nat
  /-- Whether this row may be missing. -/
  mayMiss : Bool
  results : List Term
  /-- The collations that the columns have. -/
  collations : List (Option Collation)

namespace Substitution

/-- A term that is compared by a collation, as a column with this collation is. -/
def collated (c : Option Collation) (t : Term) : Term :=
  let other : Term := .apply (.collate (c.getD .binary) false) [t]
  match t with
  | .place _ _ _ => if t.collation? = c then t else other
  | .apply (.collate d _) [u] => if some d = c then .apply (.collate d false) [u] else other
  | _ => other

def isPlace : Term → Bool
  | .place _ _ _ | .apply (.fixed _ _ _) _ => true
  | _ => false

/-- What takes the place of a column. A query has no numbers of rows. -/
def column (s : Substitution) : Option Nat → Term
  | none => .value .null
  | some i =>
    let t := s.results[i]?.getD default
    let t := if s.mayMiss && !isPlace t then .apply (.orNull s.place) [t] else t
    collated (s.collations[i]?.getD none) t

/-- A term with the results in place of the columns. -/
def term (s : Substitution) (t : Term) : Term :=
  (t.replace fun i j _ => if i = s.cursor then some (s.column j) else none).renumber
    (fun i => if i = s.cursor then s.place else i) id

theorem term_value (s : Substitution) (v : Value) : s.term (.value v) = .value v := by
  simp [term, Term.replace, Term.renumber]

/-- Puts the results in place of the columns everywhere. -/
def blocks (s : Substitution) (bs : Blocks) : Blocks := bs.mapTerms s.term

end Substitution

end CouplingTree.Sql
