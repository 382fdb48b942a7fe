import CouplingTree.Sql.Problem

/-!
# Streams

A stream has items and, behind them, perhaps something that is wrong. What is made of a stream item by item has all that
comes before the fault.

`flatMap_pure` : to go through the items and give each back changes nothing.
-/

namespace CouplingTree.Sql

/-- Items one after the other, and what is wrong behind the last one. -/
structure Stream (α : Type) where
  items : List α
  fault : Option Problem := none

namespace Stream

variable {α β : Type}

/-- Some items, and behind them the streams of others, up to the first fault. -/
def concat (f : α → Stream β) (done : Array β) : List α → Option Problem → Stream β
  | [], fault => ⟨done.toList, fault⟩
  | a :: as, fault =>
    match f a with
    | ⟨bs, some p⟩ => ⟨done.toList ++ bs, some p⟩
    | ⟨bs, none⟩ => concat f (bs.foldl Array.push done) as fault

def flatMap (f : α → Stream β) (s : Stream α) : Stream β := concat f #[] s.items s.fault

theorem concat_pure (fault : Option Problem) : ∀ (done : Array α) (as : List α),
    concat (fun a => ⟨[a], none⟩) done as fault = ⟨done.toList ++ as, fault⟩
  | done, [] => by simp [concat]
  | done, a :: as => by simp [concat, concat_pure fault (done.push a) as]

theorem flatMap_pure (s : Stream α) : s.flatMap (fun a => ⟨[a], none⟩) = s := by
  simp [flatMap, concat_pure]

/-- One item, or what is wrong with it. -/
def ofExcept : Except Problem α → Stream α
  | .ok a => ⟨[a], none⟩
  | .error p => ⟨[], some p⟩

def map (f : α → β) (s : Stream α) : Stream β := ⟨s.items.map f, s.fault⟩

/-- All items, if nothing is wrong. -/
def all (s : Stream α) : Except Problem (List α) :=
  match s.fault with
  | none => .ok s.items
  | some p => .error p

/-- What is made of all items at once. -/
def ofAll (f : List α → Except Problem (List β)) (s : Stream α) : Stream β :=
  match s.all >>= f with
  | .ok bs => ⟨bs, none⟩
  | .error p => ⟨[], some p⟩

def append (s t : Stream α) : Stream α :=
  match s.fault with
  | some _ => s
  | none => ⟨s.items ++ t.items, t.fault⟩

/-- So many items behind some others. What is wrong behind them does not matter. -/
def slice (skipped : Nat) (count : Option Nat) (s : Stream α) : Stream α :=
  match count with
  | none => ⟨s.items.drop skipped, s.fault⟩
  | some n => ⟨(s.items.drop skipped).take n, if skipped + n ≤ s.items.length then none else s.fault⟩

end Stream

end CouplingTree.Sql
