import CouplingTree.Clustering.Basic

/-!
# References

A reference is a number that leads to a place in a list: it counts the places from the start, or from the end if it is
negative. A number that does not fit into 64 bits with a sign is no reference at all.

`place_eq_ok_iff` : which place a number leads to.
-/

namespace CouplingTree

/-- Why a reference leads nowhere. -/
inductive ReferenceError
  | outside
  /-- The number does not fit. -/
  | unfit
  | leftOut
deriving DecidableEq, Repr

def ReferenceError.message : ReferenceError → String
  | outside => "list index out of range"
  | unfit => "cannot fit 'int' into an index-sized integer"
  | leftOut => "list indices must be integers or slices, not NoneType"

namespace Reference

/-- The numbers that fit are below this bound and not below its negative. -/
def bound : Nat := 0x8000000000000000

/-- Whether a number fits. -/
def fits (i : Int) : Bool := decide (-(bound : Int) ≤ i ∧ i < bound)

/-- The place that a number leads to in a list of some length. -/
def place (length : Nat) (i : Int) : Except ReferenceError Nat :=
  if !fits i then .error .unfit
  else if 0 ≤ i ∧ i < length then .ok i.toNat
  else if i < 0 ∧ 0 ≤ length + i then .ok (length + i).toNat
  else .error .outside

theorem place_lt {length : Nat} {i : Int} {n : Nat} (h : place length i = .ok n) : n < length := by
  unfold place at h
  split at h
  · cases h
  · split at h
    · injection h with h; omega
    · split at h
      · injection h with h; omega
      · cases h

theorem place_eq_ok_iff {length : Nat} {i : Int} {n : Nat} :
    place length i = .ok n ↔ fits i = true ∧ n < length ∧ (i = n ∨ i = (n : Int) - length) := by
  constructor
  · intro h
    refine ⟨?_, place_lt h, ?_⟩
    · unfold place at h
      split at h
      · cases h
      · next hf => simpa using hf
    · unfold place at h
      split at h
      · cases h
      · split at h
        · injection h with h; omega
        · split at h
          · injection h with h; omega
          · cases h
  · rintro ⟨hf, hn, h | h⟩
    · subst h
      simp [place, hf, hn]
    · subst h
      have h1 : ¬(0 ≤ (n : Int) - length ∧ (n : Int) - length < length) := by omega
      have h2 : (n : Int) - length < 0 ∧ 0 ≤ (length : Int) + ((n : Int) - length) := by omega
      rw [place, hf, if_neg (by simp), if_neg h1, if_pos h2]
      congr 1
      omega

end Reference

/-- The cluster in the arena that a reference leads to. -/
def Clustering.clusterAt {α : Type} (c : Clustering α) (i : Int) : Except ReferenceError (Cluster α) := do
  let n ← Reference.place c.arena.length i
  match c.arena[n]? with
  | some k => .ok k
  | none => .error .outside

end CouplingTree
