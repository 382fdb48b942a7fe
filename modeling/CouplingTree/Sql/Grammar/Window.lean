import CouplingTree.Sql.Grammar.Basic

/-!
# Reading orders and windows

An order is a list of expressions, each with a direction and a place for nothing. A window parts the rows, puts each part
in an order, and limits what is seen from a row to a frame around it.
-/

namespace CouplingTree.Sql

open Parser

namespace Grammar

variable (g : Grammar)

/-! ## Orders -/

def sorting : Parser Sorting := do
  let e ← g.expression
  let descending ← acceptWord "desc"
  let _ ← if descending then pure false else acceptWord "asc"
  if ← acceptWord "nulls" then
    if ← acceptWord "first" then return .mk e descending (some false)
    else
      expectWord "last"
      return .mk e descending (some true)
  else return .mk e descending none

def order : Parser (List Sorting) := do
  if ← acceptWords "order" ["by"] then commaList g.sorting else return []

/-! ## Frames -/

/-- Where a frame begins, or ends, at most as far away as the word says. -/
def bound (outmost : String) (whole : Bound) : Parser Bound := do
  if (← peek).isWord "unbounded" && (← peekSecond).isWord outmost then
    skip
    skip
    return whole
  else if ← acceptWords "current" ["row"] then return .here
  else
    let e ← g.expression
    let offset := if e.isLiteral then e else .value .null
    if ← acceptWord "preceding" then return .before offset
    else
      expectWord "following"
      return .after offset

def frameUnit? : Parser (Option FrameUnit) :=
  takeIf? fun t =>
    if t.isWord "rows" then some .rows else if t.isWord "range" then some .range
    else if t.isWord "groups" then some .groups else none

def exclusion : Parser FrameExclusion := do
  if ← acceptWord "exclude" then
    if ← acceptWords "no" ["others"] then return .nobody
    else if ← acceptWords "current" ["row"] then return .current
    else if ← acceptWord "group" then return .group
    else
      expectWord "ties"
      return .ties
  else return .nobody

/-- Whether a frame ends before it begins, whatever the rows are. -/
def isReversed : Bound → Bound → Bool
  | .here, .before _ => true
  | .after _, .before _ | .after _, .here => true
  | _, _ => false

def frame? : Parser (Option Frame) := do
  match ← frameUnit? with
  | none => return none
  | some unit =>
    let (start, stop) ←
      if ← acceptWord "between" then
        let start ← g.bound "preceding" .first
        expectWord "and"
        pure (start, ← g.bound "following" .last)
      else pure (← g.bound "preceding" .first, .here)
    let excluded ← exclusion
    if isReversed start stop then throw .frameOrder
    return some (.mk unit start stop excluded)

/-! ## Windows -/

/-- Words that begin a part of a window. -/
def windowWords : List String := ["partition", "order", "rows", "range", "groups"]

/-- A window in brackets. -/
def window : Parser Window := inBrackets do
  let t ← peek
  let base ← if t.isSign ")" || windowWords.any t.isWord then pure none else pure (some (← name))
  let parts ← if ← acceptWords "partition" ["by"] then commaList g.expression else pure []
  let order ← g.order
  return .mk base parts order (← g.frame?)

/-- A window behind a function, or its name. -/
def windowOrName : Parser Window := do
  if (← peek).isSign "(" then g.window else return .named (← name)

/-- The definitions of windows behind a selection. -/
def windows : Parser (List (String × Window)) := do
  if ← accept (Token.isKeyword "window") then
    commaList do
      let n ← name
      expectWord "as"
      return (n, ← g.window)
  else return []

end Grammar

end CouplingTree.Sql
