import CouplingTree.Relations
import CouplingTree.Numbers.Scalar

/-!
# Afferent and efferent coupling

`classCoupling` books each entry of a relation matrix twice: as efferent with the caller and as afferent with the callee.
The instability of a class is the efferent part of its account.
-/

namespace CouplingTree

/-- The account of one class. There is no instability when both counts add up to zero. -/
structure ClassCoupling (α : Type) where
  afferent : Int
  efferent : Int
  instability : Option α

inductive AccountError
  /-- The quotient of two counts is beyond the numbers in use. -/
  | quotientTooLarge
deriving DecidableEq, Repr

def AccountError.message : AccountError → String
  | quotientTooLarge => "integer division result too large for a float"

namespace RelationMatrix

/-- Adds a count to the account of a class. -/
def post (accounts : OrderedMap String Int) (cls : String) (count : Int) : OrderedMap String Int :=
  accounts.insert cls ((accounts.find? cls).getD 0 + count)

/-- The entries row by row. -/
def cells (matrix : RelationMatrix) : List (String × String × Int) :=
  matrix.entries.flatMap fun row => row.2.entries.map fun cell => (row.1, cell)

def efferents (matrix : RelationMatrix) : OrderedMap String Int :=
  matrix.cells.foldl (fun accounts cell => post accounts cell.1 cell.2.2) .empty

def afferents (matrix : RelationMatrix) : OrderedMap String Int :=
  matrix.cells.foldl (fun accounts cell => post accounts cell.2.1 cell.2.2) .empty

/-- The classes that have an account. -/
def participants (matrix : RelationMatrix) : NameSet := .ofList (matrix.afferents.keys ++ matrix.efferents.keys)

variable {α : Type} [Scalar α] [Rounding α]

/-- The account with the given totals, its instability rounded to three places. -/
def account (afferent efferent : Int) : Except AccountError (ClassCoupling α) :=
  if afferent + efferent = 0 then .ok ⟨afferent, efferent, none⟩
  else
    match (Scalar.ratio? efferent (afferent + efferent) : Option α) with
    | some q => .ok ⟨afferent, efferent, some (Rounding.toPlaces 3 q)⟩
    | none => .error .quotientTooLarge

/-- The accounts of all participants, ascending by name. -/
def classCoupling (matrix : RelationMatrix) : Except AccountError (List (String × ClassCoupling α)) :=
  matrix.participants.toList.mapM fun c => do
    let a ← account ((matrix.afferents.find? c).getD 0) ((matrix.efferents.find? c).getD 0)
    .ok (c, a)

end RelationMatrix

end CouplingTree
