import CouplingTree.Service.Complaint
import CouplingTree.Numbers.Scalar
import CouplingTree.Text.Numeral

/-!
# Reading fields

Numbers are taken leniently: a truth value is one or zero, and a text is read as a number. `toDouble` and `toInteger`
convert a value, `toShare` and `toCount` also hold it to its bounds. A reading that fails gives all its complaints.

`toShare_bounds` and `toCount_bound` : what is accepted keeps the bounds.
-/

namespace CouplingTree

namespace Numeral

/-- Drops single underscores that are neither first nor last, if there are any. -/
def withoutUnderscores? (cs : List Char) : Option (List Char) :=
  if cs.head? = some '_' ∨ cs.getLast? = some '_' ∨ '_' ∉ cs ∨ hasDouble cs then none
  else some (cs.filter (· ≠ '_'))
where
  /-- Whether two underscores follow each other. -/
  hasDouble : List Char → Bool
    | '_' :: '_' :: _ => true
    | _ :: rest => hasDouble rest
    | [] => false

/-- A double between blanks, or one with underscores. -/
def lenientDouble? (cs : List Char) : Option Float :=
  (plainDouble? (strip isBlank cs)).or ((withoutUnderscores? cs).bind plainDouble?)

/-- What is left without the zeros in front; `last` is the character before the rest. A minus sign may come after zeros. -/
def afterZeros? (last : Char) : List Char → Option (List Char)
  | [] => some [last]
  | '.' :: rest => some (last :: '.' :: rest)
  | c :: rest =>
    if c = '0' ∨ c = '_' then afterZeros? c rest
    else if c.isDigit ∨ c = '-' then some (c :: rest)
    else none

/-- Drops zeros in front, with underscores among them, but for one that nothing else stands for. -/
def withoutZeros? : List Char → Option (List Char)
  | '0' :: rest => afterZeros? '0' rest
  | c :: rest => if c.isDigit then some (c :: rest) else none
  | [] => none

/-- Drops a point that only zeros follow; there is at least one. -/
def withoutPoint (cs : List Char) : List Char :=
  match (cs.dropWhile (· ≠ '.')).drop 1 with
  | [] => cs
  | decimals => if decimals.all (· = '0') then cs.takeWhile (· ≠ '.') else cs

/-- The plus sign in front, if there is one, dropped. -/
def withoutPlus : List Char → List Char
  | '+' :: '-' :: rest => '+' :: '-' :: rest
  | '+' :: rest => rest
  | cs => cs

/-- The characters of an integer after its sign, without zeros, point and underscores that say nothing. -/
def magnitudeChars? (cs : List Char) : Option (List Char) :=
  (withoutZeros? cs).map fun cs =>
    let cs := withoutPoint cs
    (withoutUnderscores? cs).getD cs

/-- The characters of an integer between blanks, without those that say nothing. -/
def integerChars? (cs : List Char) : Option (List Char) :=
  match withoutPlus (strip isBlank cs) with
  | '-' :: rest => (magnitudeChars? rest).map ('-' :: ·)
  | rest => magnitudeChars? rest

/-- Whether a minus sign is in front, and the characters after it. -/
def readMinus : List Char → Bool × List Char
  | '-' :: rest => (true, rest)
  | cs => (false, cs)

end Numeral

/-! ## Numbers -/

namespace Input

/-- The least integer that a double is not converted to, of either sign. -/
def convertibleBound : Nat := 0x8000000000000000

def toDouble : Json → Except InputProblem Float
  | .double x => .ok x
  | .int i =>
    match Binary64.ratio? i 1 with
    | some x => .ok x
    | none => .error .notANumber
  | .bool b => .ok (if b then 1 else 0)
  | .text s =>
    match Numeral.lenientDouble? s.toList with
    | some x => .ok x
    | none => .error .unreadableNumber
  | _ => .error .notANumber

/-- An integer of not too many digits, without zeros in front. -/
def readInteger (cs : List Char) : Except InputProblem Int :=
  let (negative, body) := Numeral.readMinus cs
  let (digits, rest) := Numeral.readDigits body
  if digits = [] ∨ digits.head? = some '0' ∧ 1 < digits.length then .error .unreadableInteger
  else if Numeral.digitLimit < digits.length then .error .tooManyDigits
  else if rest ≠ [] then .error .unreadableInteger
  else .ok (if negative then -(Numeral.number digits : Int) else Numeral.number digits)

/-- An integer among characters that say nothing. -/
def readUnclean (cs : List Char) : Except InputProblem Int :=
  match (Numeral.integerChars? cs).map readInteger with
  | some (.ok i) => .ok i
  | _ => .error .unreadableInteger

def toInteger : Json → Except InputProblem Int
  | .int i => .ok i
  | .bool b => .ok (if b then 1 else 0)
  | .double x =>
    match Binary64.toRat? x with
    | none => .error .notFinite
    | some q =>
      if q.den ≠ 1 then .error .fraction
      else if q.num.natAbs < convertibleBound then .ok q.num
      else .error .tooManyDigits
  | .text s =>
    match readInteger s.toList with
    | .error .unreadableInteger => readUnclean s.toList
    | result => result
  | _ => .error .notAnInteger

/-- A number from zero to one. -/
def toShare (v : Json) : Except InputProblem Float := do
  let x ← toDouble v
  if ¬x ≤ 1 then .error .aboveOne
  else if ¬0 ≤ x then .error .belowZero
  else .ok x

/-- An integer from one on. -/
def toCount (v : Json) : Except InputProblem Int := do
  let i ← toInteger v
  if i < 1 then .error .belowOne else .ok i

theorem toShare_bounds {v : Json} {x : Float} (h : toShare v = .ok x) : 0 ≤ x ∧ x ≤ 1 := by
  unfold toShare at h
  cases hv : toDouble v with
  | error e => rw [hv] at h; cases h
  | ok y =>
    rw [hv] at h
    change (if ¬y ≤ 1 then Except.error InputProblem.aboveOne
      else if ¬0 ≤ y then Except.error InputProblem.belowZero else Except.ok y) = Except.ok x at h
    split at h
    · cases h
    · split at h
      · cases h
      · next h1 h0 =>
        cases h
        exact ⟨Decidable.not_not.1 h0, Decidable.not_not.1 h1⟩

theorem toCount_bound {v : Json} {i : Int} (h : toCount v = .ok i) : 1 ≤ i := by
  unfold toCount at h
  cases hv : toInteger v with
  | error e => rw [hv] at h; cases h
  | ok j =>
    rw [hv] at h
    change (if j < 1 then Except.error InputProblem.belowOne else Except.ok j) = Except.ok i at h
    split at h
    · cases h
    · next hj => cases h; exact Int.not_lt.1 hj

/-! ## Parts of objects -/

abbrev Checked (α : Type) := Except (List Complaint) α

/-- The value, or a complaint about the input. -/
def complain {α : Type} (v : Json) (r : Except InputProblem α) : Checked α := r.mapError fun p => [⟨[], p, v⟩]

/-- Puts the part in front of the places of complaints. -/
def inside {α : Type} (step : Step) (r : Checked α) : Checked α := r.mapError fun cs => cs.map (Complaint.within step)

/-- Both values, or the complaints about both. -/
def both {α β : Type} (a : Checked α) (b : Checked β) : Checked (α × β) :=
  match a, b with
  | .ok x, .ok y => .ok (x, y)
  | .error cs, .ok _ => .error cs
  | .ok _, .error ds => .error ds
  | .error cs, .error ds => .error (cs ++ ds)

def toText : Json → Except InputProblem String
  | .text s => .ok s
  | _ => .error .notText

/-- Each item read, from a place in the list on. -/
def itemsFrom {α : Type} (read : Json → Checked α) (i : Nat) : List Json → Checked (List α)
  | [] => .ok []
  | v :: rest => (both (inside (.index i) (read v)) (itemsFrom read (i + 1) rest)).map fun p => p.1 :: p.2

/-- A list, each item of which is read. -/
def items {α : Type} (read : Json → Checked α) : Json → Checked (List α)
  | .list vs => itemsFrom read 0 vs
  | v => .error [⟨[], .notAList, v⟩]

/-- A field of an object that has a default. -/
def optional {α : Type} (fields : List (String × Json)) (key : String) (default : α) (read : Json → Checked α) :
    Checked α :=
  match Entries.find? key fields with
  | some v => inside (.field key) (read v)
  | none => .ok default

/-- A field that an object has to have. -/
def required {α : Type} (fields : List (String × Json)) (key : String) (read : Json → Checked α) : Checked α :=
  match Entries.find? key fields with
  | some v => inside (.field key) (read v)
  | none => .error [⟨[.field key], .missing, .object fields⟩]

/-- A value that may be left open. -/
def nullable {α : Type} (read : Json → Checked α) : Json → Checked (Option α)
  | .null => .ok none
  | v => (read v).map some

def share (v : Json) : Checked Float := complain v (toShare v)

def count (v : Json) : Checked Int := complain v (toCount v)

def text (v : Json) : Checked String := complain v (toText v)

end Input

end CouplingTree
