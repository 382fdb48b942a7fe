/-!
# Estimates

How many rows there are, and what it costs to have them, is estimated as ten times the logarithm to base two. Products of
such numbers are sums; the sum of two numbers is near the greater one.

`sum_comm` : the order of what is added does not matter.
-/

namespace CouplingTree.Sql.Estimate

/-- Halves a number until it is less than sixteen; each half counts ten. -/
def ofLarge : Nat → Nat → Nat × Int
  | 0, x => (x, 0)
  | fuel + 1, x =>
    if 255 < x then
      let (y, n) := ofLarge fuel (x / 16)
      (y, n + 40)
    else if 15 < x then
      let (y, n) := ofLarge fuel (x / 2)
      (y, n + 10)
    else (x, 0)

/-- The fractions of the logarithm for eighths. -/
def fractions : List Int := [0, 2, 3, 5, 6, 7, 8, 9]

/-- Ten times the logarithm of a number. -/
def ofNat (x : Nat) : Int :=
  if x < 2 then 0
  else if x < 4 then (fractions[x * 4 % 8]?.getD 0) + 10
  else if x < 8 then (fractions[x * 2 % 8]?.getD 0) + 20
  else
    let (y, n) := ofLarge 64 x
    (fractions[y % 8]?.getD 0) + n + 30

/-- What is added to the greater of two numbers, by how much greater it is. -/
def gain (difference : Nat) : Int :=
  let steps : List Int := [10, 10, 9, 9, 8, 8, 7, 7, 7, 6, 6, 6, 5, 5, 5, 4, 4, 4, 4, 3, 3, 3, 3, 3, 3, 2, 2, 2, 2, 2, 2, 2]
  if 49 < difference then 0 else if 31 < difference then 1 else steps[difference]?.getD 0

/-- The logarithm of the sum of two numbers. -/
def sum (a b : Int) : Int := max a b + gain (a - b).natAbs

theorem sum_comm (a b : Int) : sum a b = sum b a := by
  have h : (a - b).natAbs = (b - a).natAbs := by omega
  have hm : max a b = max b a := by omega
  rw [sum, sum, h, hm]

/-- The logarithm of the logarithm of a number, as the steps of a search. -/
def steps (n : Int) : Int := if n ≤ 10 then 0 else ofNat n.toNat - 33

end CouplingTree.Sql.Estimate
