import CouplingTree.Sql.Calendar
import CouplingTree.Sql.Function.Format

/-!
# Functions of moments

A moment is given by a value and changes of it, and is written as a date, a time, a number, or in a format of its own.

`inFormat?_nil` : an empty format makes an empty text.
-/

namespace CouplingTree.Sql

namespace Moment

/-- A number with so many digits at least. -/
def padded (digits : Nat) (i : Int) : Bytes :=
  let ds := (toString i.natAbs).toList
  Utf8.encode (String.ofList ((if i < 0 then ['-'] else []) ++
    (List.replicate (digits - ds.length - if i < 0 then 1 else 0) '0' ++ ds)))

def twoDigits (i : Int) : Bytes := padded 2 i

def dateText (d : Date) : Bytes :=
  (if d.year < 0 then [0x2D] else []) ++ padded 4 d.year.natAbs ++ 0x2D :: twoDigits d.month ++ 0x2D :: twoDigits d.day

def timeText (t : TimeOfDay) : Bytes :=
  twoDigits t.hour ++ 0x3A :: twoDigits t.minute ++ 0x3A :: twoDigits (truncate t.second)

/-- The number of the day in its year, from zero on. -/
def dayOfYear (count : Int) (d : Date) (t : TimeOfDay) : Int :=
  let start := (startOf? ⟨d.year, 1, 1⟩).getD 0 + lengthOf t
  Int.tdiv (count - start + halfDay) dayLength

/-- The text that a letter of a format stands for. -/
def piece? (count : Int) (d : Date) (t : TimeOfDay) (letter : Char) : Option Bytes :=
  match letter with
  | 'd' => some (twoDigits d.day)
  | 'f' => some (Format.real { zeros := true, width := 6, precision := some 3 } .fixed false
      (if t.second > 59.999 then 59.999 else t.second))
  | 'H' => some (twoDigits t.hour)
  | 'j' => some (padded 3 (dayOfYear count d t + 1))
  | 'W' =>
    let day := Int.tmod (Int.tdiv (count + halfDay) dayLength) 7
    some (twoDigits (Int.tdiv (dayOfYear count d t + 7 - day) 7))
  | 'J' => some (Format.real { precision := some 16 } .general false (doubleOfInt count / 86400000))
  | 'm' => some (twoDigits d.month)
  | 'M' => some (twoDigits t.minute)
  | 's' => some (Utf8.encode (toString (Int.tdiv count 1000 - Int.tdiv unixStart 1000)))
  | 'S' => some (twoDigits (truncate t.second))
  | 'w' => some (Utf8.encode (toString (Int.tmod (Int.tdiv (count + 129600000) dayLength) 7)))
  | 'Y' => some (padded 4 d.year)
  | '%' => some [0x25]
  | _ => none

/-- A moment in a format, if it knows all of its letters. -/
def inFormat? (count : Int) (d : Date) (t : TimeOfDay) : Bytes → Option Bytes
  | [] => some []
  | 0x25 :: letter :: rest => do
    let piece ← piece? count d t (Char.ofNat letter.toNat)
    return piece ++ (← inFormat? count d t rest)
  | [0x25] => none
  | b :: rest => do return b :: (← inFormat? count d t rest)

theorem inFormat?_nil (count : Int) (d : Date) (t : TimeOfDay) : inFormat? count d t [] = some [] := rfl

/-- What is made of the milliseconds, the date and the time of a moment. -/
def written (f : Int → Date → TimeOfDay → Option Value) (vs : List Value) : Value :=
  (do
    let m ← ofValues? vs
    let s ← m.split?
    f (← m.count) (← s.date) (← s.time)).getD .null

/-- Whether the clock is asked for. -/
def readsClock : List Value → Bool
  | [] => true
  | v :: changes =>
    (match v with | .text bs => isWord "now" bs | _ => false) ||
      changes.any fun c => match c with | .text bs => isWord "localtime" bs || isWord "utc" bs | _ => false

end Moment

namespace ScalarFunction

open Moment in
def ofMoments : List ScalarFunction :=
  let moment (name : String) (f : Int → Date → TimeOfDay → Option Value) : ScalarFunction :=
    ofValues name 0 unbounded fun vs => .ok (written f vs)
  let present (name : String) (f : Int → Date → TimeOfDay → Option Value) : ScalarFunction :=
    { ofValues name 0 0 fun _ => .ok (written f []) with isFixed := false }
  let date := fun _ d _ => some (Value.text (dateText d))
  let time := fun _ _ t => some (Value.text (timeText t))
  let both := fun _ d t => some (Value.text (dateText d ++ 0x20 :: timeText t))
  [moment "date" date, moment "time" time, moment "datetime" both,
    moment "julianday" fun count _ _ => some (.real (doubleOfInt count / 86400000)),
    moment "unixepoch" fun count _ _ => some (.integer (Int.tdiv count 1000 - Int.tdiv unixStart 1000)),
    ofValues "strftime" 0 unbounded fun vs => match vs with
      | [] => .ok .null
      | f :: vs =>
        .ok (if f.isNull then .null
        else written (fun count d t => (inFormat? count d t (beforeZero f.bytes)).map Value.text) vs),
    present "current_date" date, present "current_time" time, present "current_timestamp" both]

end ScalarFunction

end CouplingTree.Sql
