import CouplingTree.Sql.Function.Aggregate
import CouplingTree.Sql.Function.Calendar

/-!
# The functions by their names

A name stands for functions of different numbers of values: one that makes a value of values, one that makes a value of
the rows of a group, and one that makes a value of the rows around one.

`functionOf_eq_error` : a name without a meaning is no function.
-/

namespace CouplingTree.Sql

namespace ScalarFunction

/-! ## Choices and constants -/

/-- The last of the values that come before the others in an order of two, or the first one. Nothing makes nothing. -/
def extreme (order : Ordering) (name : String) : ScalarFunction :=
  { name, least := 1, most := unbounded
    apply := fun c ds =>
      match ds with
      | [] => .ok Document.nothing
      | d :: rest =>
        if ds.any fun d => d.value.isNull then .ok Document.nothing
        else .ok (rest.foldl (fun best e =>
          match order, e.value.compare c best.value with
          | .lt, .gt => best
          | .lt, _ => e
          | _, .gt => e
          | _, _ => best) d) }

/-- The most bytes of a text or a blob. -/
def lengthLimit : Int := 1000000000

def zeros (v : Value) : Outcome :=
  if lengthLimit < v.toInt then .error .tooBig else .ok (.blob (List.replicate v.toInt.toNat 0))

/-- The version of the language. -/
def version : Value := .ofString "3.40.1"

def others : List ScalarFunction := [
  { name := "nullif", least := 2, most := 2
    apply := fun c ds => match ds with
      | [d, e] => .ok (if d.value.same c e.value then Document.nothing else d)
      | _ => .ok Document.nothing },
  extreme .lt "min", extreme .gt "max",
  ofValues "zeroblob" 1 1 fun vs => zeros (vs.head?.getD .null),
  nullary "changes" (.integer 0), nullary "total_changes" (.integer 0), nullary "last_insert_rowid" (.integer 0),
  nullary "sqlite_version" version,
  { nullary "random" (.integer 0) with isFixed := false },
  { ofValues "randomblob" 1 1 fun vs => zeros (.integer (max 1 (vs.head?.getD .null).toInt)) with isFixed := false }]

/-- A function that stands for what modules do, and has no meaning elsewhere. -/
def unusable (name : String) (least most : Nat) : ScalarFunction :=
  { ofValues (lowerAscii name) least most fun _ => .error (.unusableFunction name) with isFixed := false }

def ofModules : List ScalarFunction := [
  unusable "MATCH" 2 2, unusable "snippet" 0 unbounded, unusable "offsets" 1 1, unusable "matchinfo" 1 2,
  unusable "optimize" 1 1, unusable "bm25" 0 unbounded, unusable "highlight" 0 unbounded]

def all : List ScalarFunction :=
  ofTexts ++ ofNumbers ++ ofFormats ++ ofDocuments ++ ofMoments ++ others ++ ofModules

end ScalarFunction

/-- What a name of a function means for so many values. -/
inductive FunctionMeaning
  | scalar (f : ScalarFunction)
  | aggregate (a : Aggregate)
  | window (w : WindowFunction)
  /-- The first of the values that is not nothing. -/
  | coalesce
  /-- The second of the values or the third one, according to the first one. -/
  | choose
  /-- The first of the values, with the likelihood of its being true. -/
  | likely (isLikely : Option Bool)

/-- Functions that do not look at all of their values. -/
def lazyFunctions : List (String × Nat × Nat × FunctionMeaning) := [
  ("coalesce", 2, unbounded, .coalesce), ("ifnull", 2, 2, .coalesce), ("iif", 3, 3, .choose),
  ("likely", 1, 1, .likely (some true)), ("unlikely", 1, 1, .likely (some false)), ("likelihood", 2, 2, .likely none)]

/-- The meanings of a name, each with the fewest and the most values. -/
def meanings (key : String) : List (Nat × Nat × FunctionMeaning) :=
  let aggregates := (Aggregate.all.filter fun a => a.name = key).map fun a => (a.least, a.most, .aggregate a)
  let scalars := (ScalarFunction.all.filter fun f => f.name = key).map fun f =>
    (if aggregates.isEmpty then f.least else max 2 f.least, f.most, .scalar f)
  scalars ++ aggregates ++
    (WindowFunction.all.filter fun w => w.1 = key).map (fun w => (w.2.1, w.2.2.1, .window w.2.2.2)) ++
    (lazyFunctions.filter fun f => f.1 = key).map fun f => (f.2.1, f.2.2.1, f.2.2.2)

/-- The function of a name for so many values. -/
def functionOf (name : String) (count : Nat) : Except Problem FunctionMeaning :=
  let found := meanings (lowerAscii name)
  match found.find? fun f => f.1 ≤ count ∧ count ≤ f.2.1 with
  | some f => .ok f.2.2
  | none => .error (if found.isEmpty then .noSuchFunction name else .wrongArguments name)

theorem functionOf_eq_error {name : String} {count : Nat} (h : meanings (lowerAscii name) = []) :
    functionOf name count = .error (.noSuchFunction name) := by
  simp [functionOf, h]

end CouplingTree.Sql
