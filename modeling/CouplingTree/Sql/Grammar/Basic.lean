import CouplingTree.Sql.Query
import CouplingTree.Sql.Token

/-!
# Readers of statements

A reader takes tokens from the front of a list. Where a token stands that no statement has in its place, this token is
the problem. `Grammar` holds the readers of expressions and queries, which contain each other.
-/

namespace CouplingTree.Sql

abbrev Parser (α : Type) := StateT (List Token) (Except Problem) α

namespace Parser

variable {α : Type}

/-! ## Tokens -/

/-- The token that comes next. -/
def peek : Parser Token := do
  match (← get) with
  | t :: _ => return t
  | [] => return ⟨.stop, "", "", 0⟩

/-- The token after the next one. -/
def peekSecond : Parser Token := do
  match (← get) with
  | _ :: t :: _ => return t
  | _ => return ⟨.stop, "", "", 0⟩

/-- Passes a token over; the last one stays. -/
def skip : Parser Unit := do
  match (← get) with
  | _ :: t :: rest => set (t :: rest)
  | _ => return ()

/-- What is wrong with a token out of place. -/
def problemAt (t : Token) : Problem :=
  match t.kind with
  | .stop => .incomplete
  | .illegal => .unrecognized t.source
  | _ => .unexpected t.source

/-- The next token is out of place. -/
def refuse : Parser α := do throw (problemAt (← peek))

/-- Takes the next token if it is of a kind. -/
def accept (p : Token → Bool) : Parser Bool := do
  if p (← peek) then
    skip
    return true
  else return false

def acceptWord (w : String) : Parser Bool := accept (Token.isWord w)

def acceptSign (s : String) : Parser Bool := accept (Token.isSign s)

def expect (p : Token → Bool) : Parser Unit := do
  if !(← accept p) then refuse

def expectWord (w : String) : Parser Unit := expect (Token.isWord w)

def expectSign (s : String) : Parser Unit := expect (Token.isSign s)

/-- Takes some words in a row if the first one comes next. -/
def acceptWords (w : String) (rest : List String) : Parser Bool := do
  if ← acceptWord w then
    rest.forM expectWord
    return true
  else return false

/-- The next token, where its kind has a meaning. -/
def take (f : Token → Option α) : Parser α := do
  match f (← peek) with
  | some a =>
    skip
    return a
  | none => refuse

def takeIf? (f : Token → Option α) : Parser (Option α) := do
  match f (← peek) with
  | some a =>
    skip
    return some a
  | none => return none

def name : Parser String := take Token.name?

/-! ## Repetition -/

/-- Goes on with what is read so far until nothing is added, so many times at most. -/
def extend (step : α → Parser (Option α)) : Nat → α → Parser α
  | 0, a => return a
  | fuel + 1, a => do
    match ← step a with
    | some a => extend step fuel a
    | none => return a

/-- Goes on until nothing is added. Each time a token is taken. -/
def extendAll (step : α → Parser (Option α)) (a : α) : Parser α := do extend step (← get).length a

/-- One item or more, parted by commas. -/
def commaList (item : Parser α) : Parser (List α) := do
  let first ← item
  let items ← extendAll (fun items => do
    if ← acceptSign "," then return some ((← item) :: items) else return none) [first]
  return items.reverse

/-- Something in round brackets. -/
def inBrackets (p : Parser α) : Parser α := do
  expectSign "("
  let a ← p
  expectSign ")"
  return a

/-- Something in round brackets, if a bracket comes next. -/
def inBrackets? (p : Parser α) : Parser (Option α) := do
  if ← acceptSign "(" then
    let a ← p
    expectSign ")"
    return some a
  else return none

/-- What follows a word, if that comes next. -/
def after? (w : String) (p : Parser α) : Parser (Option α) := do
  if ← acceptWord w then return some (← p) else return none

end Parser

/-- Readers of expressions and queries in a statement. -/
structure Grammar where
  statement : List Char
  expression : Parser Expr
  query : Parser Query

end CouplingTree.Sql
