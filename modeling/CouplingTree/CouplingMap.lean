import CouplingTree.Relations
import CouplingTree.Numbers.Scalar

/-!
# Coupling

A coupling map gives ordered pairs of classes a number. `normalizedCoupling` gives each pair its share of all relations of
a call graph. `CouplingMap.between` is the mean over the recorded pairs across two sets of classes, both directions
pooled, and `CouplingMap.within` the mean over the recorded pairs inside one set.

`rows_find?` : the look-up by rows, which is quicker, finds the same values.
-/

namespace CouplingTree

abbrev CouplingMap (α : Type) := OrderedMap (String × String) α

variable {α : Type} [Scalar α]

/-- The share of each ordered pair of distinct classes in all relations; zero when there are none. -/
def CallGraph.normalizedCoupling (g : CallGraph) : CouplingMap α :=
  let total := g.totalRelations
  .ofList (g.names.flatMap fun a => (g.others a).map fun b =>
    ((a, b), if 0 < total then ((g.relationCount a b : Nat) : α) / ((total : Nat) : α) else 0))

/-! ## Means -/

/-- How the value of a pair is looked up. -/
abbrev Lookup (α : Type) := String × String → Option α

namespace Lookup

/-- The pairs across two sets, both directions of each next to each other. -/
def crossPairs (s t : NameSet) : List (String × String) :=
  s.toList.flatMap fun a => t.toList.flatMap fun b => [(a, b), (b, a)]

/-- The ordered pairs of distinct members. -/
def innerPairs (s : NameSet) : List (String × String) :=
  s.toList.flatMap fun a => (s.toList.filter fun b => decide (a ≠ b)).map fun b => (a, b)

/-- The mean of the values recorded for the pairs across two sets. -/
def between (value? : Lookup α) (s t : NameSet) : α := mean ((crossPairs s t).filterMap value?)

/-- The mean of the values recorded for the pairs inside a set. -/
def within (value? : Lookup α) (s : NameSet) : α := mean ((innerPairs s).filterMap value?)

end Lookup

namespace CouplingMap

/-- The mean coupling across two sets. -/
def between (coupling : CouplingMap α) (s t : NameSet) : α := Lookup.between coupling.find? s t

/-- The mean coupling inside a set. -/
def within (coupling : CouplingMap α) (s : NameSet) : α := Lookup.within coupling.find? s

/-- The coupling inside a set of classes; a class alone coheres fully. -/
def cohesion (coupling : CouplingMap α) (s : NameSet) : α := if s.size ≤ 1 then 1 else coupling.within s

/-- The classes in the order in which the keys name them. -/
def classes (coupling : CouplingMap α) : List String :=
  (OrderedMap.ofList (coupling.keys.flatMap fun k => [(k.1, ()), (k.2, ())])).keys

/-! ## Rows -/

/-- The values of a coupling map by first and second class. -/
abbrev Rows (α : Type) := OrderedMap String (OrderedMap String α)

namespace Rows

omit [Scalar α]

def find? (rows : Rows α) (k : String × String) : Option α := (OrderedMap.find? rows k.1).bind fun row => row.find? k.2

def insert (rows : Rows α) (e : (String × String) × α) : Rows α :=
  OrderedMap.insert rows e.1.1 (((OrderedMap.find? rows e.1.1).getD .empty).insert e.1.2 e.2)

theorem find?_insert (rows : Rows α) (e : (String × String) × α) (k : String × String) :
    (rows.insert e).find? k = if k = e.1 then some e.2 else rows.find? k := by
  obtain ⟨⟨a, b⟩, v⟩ := e
  obtain ⟨c, d⟩ := k
  simp only [find?, insert, OrderedMap.find?_insert, Prod.mk.injEq]
  by_cases hc : c = a
  · subst hc
    by_cases hd : d = b
    · simp [hd, OrderedMap.find?_insert]
    · cases OrderedMap.find? rows c <;> simp [hd, OrderedMap.find?_insert, OrderedMap.find?_empty]
  · simp [hc]

theorem find?_foldl_insert (k : String × String) : ∀ (es : List ((String × String) × α)) (rows : Rows α),
    (es.map Prod.fst).Nodup → (es.foldl insert rows).find? k = (Entries.find? k es).or (rows.find? k)
  | [], rows, _ => by simp [Entries.find?_nil]
  | (l, v) :: es, rows, h => by
    obtain ⟨he, hes⟩ := List.nodup_cons.1 h
    rw [List.foldl_cons, find?_foldl_insert k es _ hes, find?_insert]
    by_cases hk : k = l
    · subst hk
      simp [Entries.find?_eq_none_iff.2 he, Entries.find?_cons]
    · simp [Entries.find?_cons, hk, Ne.symm hk]

end Rows

omit [Scalar α]

def rows (coupling : CouplingMap α) : Rows α := coupling.entries.foldl Rows.insert OrderedMap.empty

theorem rows_find? (coupling : CouplingMap α) : Rows.find? coupling.rows = coupling.find? := by
  funext k
  have h := Rows.find?_foldl_insert k coupling.entries OrderedMap.empty coupling.nodup
  rw [show Rows.find? OrderedMap.empty k = none from rfl, Option.or_none] at h
  exact h

end CouplingMap

end CouplingTree
