import CouplingTree.Sql.Conversion
import CouplingTree.Text.Character

/-!
# Moments

A moment is a time in milliseconds, counted from the noon with which the days of astronomers start; or a date, a time of
the day, or both of them; or a number of which it is not yet known what it counts. `Moment.ofBytes?` reads a moment, and
`Moment.modified?` changes one as a text says.

`toCount?_ofCount` : a moment that is a number of milliseconds has this number.
-/

namespace CouplingTree.Sql

structure Date where
  year : Int
  month : Int
  day : Int
deriving DecidableEq, Repr

structure TimeOfDay where
  hour : Int
  minute : Int
  second : Float

structure Moment where
  /-- The milliseconds, if they are known. -/
  count : Option Int := none
  date : Option Date := none
  time : Option TimeOfDay := none
  /-- The minutes by which the time is ahead, if they are any. -/
  ahead : Int := 0
  /-- A number that has been read in place of a moment. -/
  number : Option Float := none

namespace Moment

/-! ## Days -/

def dayLength : Int := 86400000

def halfDay : Int := 43200000

/-- Moments end before this number of milliseconds. -/
def countBound : Int := 464269060800000

/-- The milliseconds of the start of the first of January 1970. -/
def unixStart : Int := 210866760000000

def isInRange (n : Int) : Bool := decide (0 ≤ n ∧ n < countBound)

/-- The milliseconds of the start of a day. -/
def startOf? (d : Date) : Option Int :=
  if d.year < -4713 ∨ 9999 < d.year then none
  else
    let (y, m) : Int × Int := if d.month ≤ 2 then (d.year - 1, d.month + 12) else (d.year, d.month)
    let a := Int.tdiv y 100
    let b := 2 - a + Int.tdiv a 4
    let days := Int.tdiv (36525 * (y + 4716)) 100 + Int.tdiv (306001 * (m + 1)) 10000 + d.day + b
    some ((2 * days - 3049) * halfDay)

/-- The milliseconds of a time of the day. -/
def lengthOf (t : TimeOfDay) : Int := t.hour * 3600000 + t.minute * 60000 + truncate (t.second * 1000 + 0.5)

/-- The day in which some milliseconds end. -/
def dateOf (n : Int) : Date :=
  let z := Int.tdiv (n + halfDay) dayLength
  let a := truncate ((doubleOfInt z - 1867216.25) / 36524.25)
  let a := z + 1 + a - Int.tdiv a 4
  let b := a + 1524
  let c := truncate ((doubleOfInt b - 122.1) / 365.25)
  let d := Int.tdiv (36525 * (c % 32768)) 100
  let e := truncate (doubleOfInt (b - d) / 30.6001)
  let m := if e < 14 then e - 1 else e - 13
  ⟨if 2 < m then c - 4716 else c - 4715, m, b - d - truncate (30.6001 * doubleOfInt e)⟩

/-- The time of the day at which some milliseconds end. -/
def timeOf (n : Int) : TimeOfDay :=
  let rest := Int.tmod (n + halfDay) dayLength
  let seconds := doubleOfInt rest / 1000
  let whole := truncate seconds
  let h := Int.tdiv whole 3600
  let m := Int.tdiv (whole - h * 3600) 60
  ⟨h, m, seconds - doubleOfInt whole + doubleOfInt (whole - h * 3600 - m * 60)⟩

/-! ## Moments as milliseconds -/

/-- A moment whose milliseconds are known. What is missing of the date is the first day of the year 2000. -/
def counted? (m : Moment) : Option Moment :=
  match m.count with
  | some _ => some m
  | none =>
    if m.number.isSome then none
    else do
      let start ← startOf? (m.date.getD ⟨2000, 1, 1⟩)
      match m.time with
      | none => return { m with count := some start }
      | some t =>
        let n := start + lengthOf t
        return if m.ahead = 0 then { m with count := some n } else { count := some (n - m.ahead * 60000) }

def toCount? (m : Moment) : Option Int := m.counted?.bind Moment.count

def ofCount (n : Int) : Moment := { count := some n }

theorem toCount?_ofCount (n : Int) : (ofCount n).toCount? = some n := rfl

/-- A moment whose date is known. -/
def dated? (m : Moment) : Option Moment :=
  match m.date, m.count with
  | some _, _ => some m
  | none, none => some { m with date := some ⟨2000, 1, 1⟩ }
  | none, some n => if isInRange n then some { m with date := some (dateOf n) } else none

/-- A moment whose date and whose time of the day are known. -/
def split? (m : Moment) : Option Moment := do
  let m ← m.dated?
  match m.time with
  | some _ => return m
  | none =>
    let m ← m.counted?
    return { m with time := m.count.map timeOf, number := none }

/-! ## Reading -/

/-- A number of so many digits in a range, and what follows. -/
def digits? (count least greatest : Nat) (bs : Bytes) : Option (Nat × Bytes) :=
  let ds := bs.take count
  let n := LeadingNumber.number ds
  if ds.length = count ∧ ds.all isDigitByte ∧ least ≤ n ∧ n ≤ greatest then some (n, bs.drop count) else none

/-- What follows a byte. -/
def behind? (b : UInt8) : Bytes → Option Bytes
  | c :: rest => if c = b then some rest else none
  | [] => none

def skipBlanks (bs : Bytes) : Bytes := bs.dropWhile isBlankByte

/-- Hours and minutes, the former up to a bound. -/
def hoursAndMinutes? (bound : Nat) (bs : Bytes) : Option (Nat × Nat × Bytes) := do
  let (h, rest) ← digits? 2 0 bound bs
  let (m, rest) ← digits? 2 0 59 (← behind? 0x3A rest)
  return (h, m, rest)

/-- By how many minutes a time is ahead, as it is written behind it up to the end. -/
def ahead? (bs : Bytes) : Option Int :=
  let ended (rest : Bytes) (n : Int) : Option Int := if (skipBlanks rest).isEmpty then some n else none
  match skipBlanks bs with
  | [] => some 0
  | c :: rest =>
    if c = 0x5A || c = 0x7A then ended rest 0
    else if c = 0x2B || c = 0x2D then do
      let (h, m, rest) ← hoursAndMinutes? 14 rest
      ended rest (if c = 0x2D then -(m + h * 60 : Int) else m + h * 60)
    else none

/-- The part of a second behind a point. -/
def secondPart (ds : Bytes) : Float :=
  let (n, scale) := ds.foldl (fun (s : Float × Float) d =>
    (s.1 * 10 + doubleOfInt d.toNat - 48, s.2 * 10)) (0, 1)
  n / scale

/-- A time of the day up to the end. -/
def time? (bs : Bytes) : Option Moment := do
  let (h, m, rest) ← hoursAndMinutes? 24 bs
  let (second, rest) ←
    match rest with
    | 0x3A :: rest => do
      let (s, rest) ← digits? 2 0 59 rest
      match rest with
      | 0x2E :: d :: rest =>
        if isDigitByte d then
          let ds := d :: rest.takeWhile isDigitByte
          pure (doubleOfInt s + secondPart ds, rest.dropWhile isDigitByte)
        else pure (doubleOfInt s, 0x2E :: d :: rest)
      | rest => pure (doubleOfInt s, rest)
    | rest => pure (0, rest)
  return { time := some ⟨h, m, second⟩, ahead := ← ahead? rest }

/-- A date and perhaps a time behind it. -/
def date? (bs : Bytes) : Option Moment := do
  let negative := bs.head?.any (· = 0x2D)
  let (y, rest) ← digits? 4 0 14712 (if negative then bs.drop 1 else bs)
  let (m, rest) ← digits? 2 1 12 (← behind? 0x2D rest)
  let (d, rest) ← digits? 2 1 31 (← behind? 0x2D rest)
  let rest := rest.dropWhile fun b => isBlankByte b || b = 0x54
  let date : Date := ⟨if negative then -(y : Int) else y, m, d⟩
  match time? rest with
  | some t =>
    let moment := { t with date := some date }
    if t.ahead = 0 then return moment else moment.counted?
  | none => if rest.isEmpty then return { date := some date } else none

/-- The number that all of a text is. -/
def number? (bs : Bytes) : Option Float :=
  match LeadingNumber.read? bs with
  | some n => if n.isAll then some n.toDouble else none
  | none => none

/-- A number: days, as long as nothing else is said. -/
def ofNumber (x : Float) : Moment :=
  { count := if 0 <= x && x < 5373484.5 then some (truncate (x * 86400000 + 0.5)) else none, number := some x }

/-- The time that is now. No clock is read, so it is always the same one. -/
def now : Moment := ofCount (unixStart + 1735689600000)

def isWord (w : String) (bs : Bytes) : Bool := decide (bs.map lowerByte = Utf8.encode w)

def ofBytes? (bs : Bytes) : Option Moment :=
  (date? bs).or ((time? bs).or (if isWord "now" bs then some now else (number? bs).map ofNumber))

/-! ## Changes -/

/-- A count of milliseconds that a number is, from the start of 1970 on. -/
def unixCount (x : Float) : Float := x * 1000 + doubleOfInt unixStart

/-- A unit of time: its name, the most of it, and its seconds. -/
def units : List (String × Float × Float) := [
  ("second", 4.6427e+14, 1), ("minute", 7.7379e+12, 60), ("hour", 1.2897e+11, 3600), ("day", 5373485, 86400),
  ("month", 176546, 2592000), ("year", 14713, 31536000)]

/-- A date some months later, where the day may be one that the month does not have. -/
def monthsLater (d : Date) (n : Int) : Date :=
  let m := d.month + n
  let x := if 0 < m then Int.tdiv (m - 1) 12 else Int.tdiv (m - 12) 12
  ⟨d.year + x, m - x * 12, d.day⟩

/-- A moment after so many of a unit. -/
def later? (m : Moment) (x : Float) (unit : Bytes) : Option Moment := do
  let n := unit.length
  if n < 3 ∨ 10 < n then none
  else do
    let name := if isWord "s" (unit.drop (n - 1)) then unit.take (n - 1) else unit
    let (word, _, seconds) ← units.find? fun u => isWord u.1 name && -u.2.1 < x && x < u.2.1
    let m ← m.counted?
    let whole := truncate x
    let moved (f : Date → Date) : Option (Moment × Float) := do
      let m ← m.split?
      return ({ m with count := none, date := m.date.map f }, x - doubleOfInt whole)
    let (m, rest) ←
      if word = "month" then moved fun d => monthsLater d whole
      else if word = "year" then moved fun d => { d with year := d.year + whole }
      else pure (m, x)
    let count ← m.toCount?
    return ofCount (count + truncate (rest * 1000 * seconds + if x < 0 then -0.5 else 0.5))

/-- A moment moved by a length of time in hours, minutes and seconds. -/
def moved? (m : Moment) (bs : Bytes) : Option Moment := do
  let t ← time? (if bs.head?.any isDigitByte then bs else bs.drop 1)
  let n ← t.toCount?
  let length := Int.tmod (n - halfDay) dayLength
  let count ← m.toCount?
  return ofCount (if bs.head?.any (· = 0x2D) then count - length else count + length)

/-- The start of the unit that a moment is in. -/
def startOfUnit? (m : Moment) (unit : Bytes) : Option Moment := do
  if m.count.isNone && m.date.isNone && m.time.isNone then none
  else do
    let d ← (← m.dated?).date
    let start (d : Date) : Option Moment := some { date := some d, time := some ⟨0, 0, 0⟩ }
    if isWord "month" unit then start { d with day := 1 }
    else if isWord "year" unit then start { d with month := 1, day := 1 }
    else if isWord "day" unit then start d
    else none

/-- The next day of the week with a number, or the same day. -/
def weekday? (m : Moment) (bs : Bytes) : Option Moment := do
  let x ← number? bs
  let n := truncate x
  if x < 0 || 7 <= x || doubleOfInt n != x then none
  else do
    let m ← m.split?
    let count ← { m with count := none, ahead := 0 : Moment }.toCount?
    let z := Int.tmod (Int.tdiv (count + 129600000) dayLength) 7
    let z := if n < z then z - 7 else z
    return ofCount (count + (n - z) * dayLength)

/-- A number that is taken as seconds. -/
def ofSeconds? (x : Float) : Option Moment :=
  let n := unixCount x
  if 0 <= n && n < doubleOfInt countBound then some (ofCount (truncate (n + 0.5))) else none

/-- What follows a word at the start. -/
def after? (w : String) (bs : Bytes) : Option Bytes :=
  let n := w.utf8ByteSize
  if isWord w (bs.take n) then some (bs.drop n) else none

/-- A moment that is changed as a text says. Some changes can only be the first one. -/
def modified? (isFirst : Bool) (m : Moment) (bs : Bytes) : Option Moment :=
  if isWord "auto" bs then
    match isFirst, m.number, m.count with
    | false, _, _ => none
    | true, some x, none =>
      if -210866760000 <= x && x <= 253402300799 then some (ofCount (truncate (unixCount x + 0.5))) else none
    | true, _, _ => some { m with number := none }
  else if isWord "julianday" bs then
    if isFirst && m.number.isSome && m.count.isSome then some { m with number := none } else none
  else if isWord "unixepoch" bs then if isFirst then m.number.bind ofSeconds? else none
  else if isWord "localtime" bs || isWord "utc" bs then do
    return ofCount (← m.toCount?)
  else
    match after? "weekday " bs, after? "start of " bs, bs with
    | some rest, _, _ => m.weekday? rest
    | _, some rest, _ => m.startOfUnit? rest
    | _, _, b :: rest =>
      if b = 0x2B || b = 0x2D || isDigitByte b then do
        let length := (rest.takeWhile fun c => c ≠ 0x3A && !isBlankByte c).length + 1
        let x ← number? (bs.take length)
        if (bs.drop length).head?.any (· = 0x3A) then m.moved? bs else m.later? x (skipBlanks (bs.drop length))
      else none
    | _, _, [] => none

/-- The moment of a value and changes of it. Without a value it is now. -/
def ofValues? : List Value → Option Moment
  | [] => some now
  | v :: changes => do
    let start ←
      match v with
      | .integer _ | .real _ => some (ofNumber v.toDouble)
      | .null => none
      | v => ofBytes? (beforeZero v.bytes)
    let m ← changes.zipIdx.foldlM (fun (m : Moment) c =>
      match c.1 with
      | .null => none
      | v => m.modified? (c.2 = 0) (beforeZero v.bytes)) start
    let m ← m.counted?
    if m.count.any isInRange then some m else none

end Moment

end CouplingTree.Sql
