import CouplingTree.Sql.Grammar.Expression

/-!
# Reading queries

A query is a selection or a compound of several ones, with an order and a limit behind it and other queries named in
front of it. `Grammar.ofDepth` reads queries and expressions that are nested so deeply at most.
-/

namespace CouplingTree.Sql

open Parser

namespace Grammar

variable (g : Grammar)

/-! ## Results -/

/-- A part of the statement as it is written, without blanks around it. -/
def written (start stop : Nat) : String :=
  let cs := (g.statement.take stop).drop start |>.dropWhile Char.isWhitespace
  String.ofList (cs.reverse.dropWhile Char.isWhitespace).reverse

/-- The name given to a column or a table, with or without the word for it. -/
def alias? : Parser (Option String) := do
  if ← acceptWord "as" then return some (← name) else takeIf? Token.alias?

/-- The table whose columns are all meant. -/
def allOf? : Parser (Option String) := do
  match (← get) with
  | t :: dot :: star :: _ =>
    if dot.isSign "." && star.isSign "*" then
      match t.name? with
      | some n =>
        skip
        skip
        skip
        return some n
      | none => return none
    else return none
  | _ => return none

def item : Parser Item := do
  if ← acceptSign "*" then return .all
  else
    match ← allOf? with
    | some t => return .allOf t
    | none =>
      let start := (← peek).start
      let e ← g.expression
      let stop := (← peek).start
      return .expr e (← alias?) (g.written start stop)

/-! ## Tables -/

/-- The words that say how a table is joined, up to the last one. -/
def joinOperator : List String → Except Problem JoinOperator
  | words =>
    let has (w : String) : Bool := words.any fun x => lowerAscii x = w
    let outer := has "outer" || has "left" || has "right" || has "full"
    let known := words.all fun x => lowerAscii x ∈ Token.joinWords
    let sided := has "left" || has "right" || has "full"
    if !known || (outer && (has "inner" || has "cross")) || (has "outer" && !sided) then
      .error (.unknownJoin (" ".intercalate words))
    else .ok { natural := has "natural", left := has "left" || has "full", right := has "right" || has "full"
               cross := has "cross" }

/-- How the next table is joined, if there is one. -/
def joining? : Parser (Option JoinOperator) := do
  if ← acceptSign "," then return some {}
  else if ← acceptWord "join" then return some {}
  else
    match ← takeIf? fun t => if Token.joinWords.any t.isWord then some t.source else none with
    | none => return none
    | some first =>
      let rest ← extend (fun ws => do
        if (← peek).isWord "join" then return none else return some ((← name) :: ws)) 2 []
      expectWord "join"
      return some (← joinOperator (first :: rest.reverse))

/-- The name of a table, after the name of the database that it may be in. -/
def tableName : Parser String := do
  let first ← name
  if ← acceptSign "." then name else return first

/-- What is said about an index. -/
def indexHint : Parser IndexHint := do
  if ← acceptWords "indexed" ["by"] then return .indexed (← name)
  else if ← acceptWord "not" then
    expectWord "indexed"
    return .notIndexed
  else return .free

/-- The condition behind a table, or the columns that it shares with those before it. -/
def joinCondition (isFirst : Bool) : Parser (Option Expr × Option (List String)) := do
  if ← acceptWord "on" then
    let e ← g.expression
    if isFirst then throw (.conditionWithoutJoin "ON")
    return (some e, none)
  else if ← acceptWord "using" then
    let names ← inBrackets (commaList name)
    if isFirst then throw (.conditionWithoutJoin "USING")
    return (none, some names)
  else return (none, none)

/-- Joined tables in brackets as one source; one alone only takes another name. -/
def sourceOfJoins (joins : List Join) (label : Option String) : Source :=
  match joins with
  | [.mk _ (.table schema n _ _) _ _] => .table schema n label .free
  | [.mk _ (.function schema n arguments _) _ _] => .function schema n arguments label
  | [.mk _ (.query q _) _ _] => .query q label
  | joins => .joined joins label

/-- A table with its condition; joins are those of joined tables in brackets. -/
def term (joins : Parser (List Join)) (operator : Option JoinOperator) : Parser (List Join) := do
  let condition := g.joinCondition operator.isNone
  let joined (s : Source) : Parser (List Join) := do
    let (on, shared) ← condition
    return [.mk (operator.getD {}) s on shared]
  if ← acceptSign "(" then
    match ← g.query? with
    | some q =>
      expectSign ")"
      joined (.query q (← alias?))
    | none =>
      let js ← joins
      expectSign ")"
      let a ← alias?
      let (on, shared) ← condition
      if operator.isNone && a.isNone && on.isNone && shared.isNone then return js
      else return [.mk (operator.getD {}) (sourceOfJoins js a) on shared]
  else
    let (schema, n) ← qualifiedName
    if ← acceptSign "(" then
      let arguments ← if (← peek).isSign ")" then pure [] else commaList g.expression
      expectSign ")"
      joined (.function schema n arguments (← alias?))
    else
      let a ← alias?
      joined (.table schema n a (← indexHint))

/-- Joined tables with brackets inside each other, so many at most. -/
def joinsOfDepth : Nat → Parser (List Join)
  | 0 => refuse
  | depth + 1 => do
    let inner := joinsOfDepth depth
    let first ← g.term inner none
    extendAll (fun js => do
      match ← joining? with
      | some operator => return some (js ++ (← g.term inner (some operator)))
      | none => return none) first

def joins : Parser (List Join) := do g.joinsOfDepth (← get).length

/-! ## Selections -/

/-- A selection after its first word. -/
def selection : Parser Selection := do
  let distinct ← acceptWord "distinct"
  let _ ← if distinct then pure false else acceptWord "all"
  let items ← commaList g.item
  let js ← after? "from" g.joins
  let filter ← after? "where" g.expression
  let groups ←
    if ← acceptWords "group" ["by"] then commaList g.expression else pure []
  let having ← after? "having" g.expression
  return .mk distinct items (js.getD []) filter groups having (← g.windows)

/-- A row of expressions. -/
def row : Parser (List Expr) := inBrackets (commaList g.expression)

/-- The limit and the number of rows passed over. With a comma, the latter comes first. -/
def limits : Parser (Option Expr × Option Expr) := do
  match ← after? "limit" g.expression with
  | none => return (none, none)
  | some a =>
    if ← acceptSign "," then return (some (← g.expression), some a)
    else return (some a, ← after? "offset" g.expression)

/-- A selection or a list of rows, with the order and the limit behind it. -/
structure Member where
  first : Selection
  rows : List (Compound × Selection) := []
  order : List Sorting := []
  limit : Option Expr := none
  offset : Option Expr := none

def member : Parser Member := do
  if ← acceptWord "values" then
    let .mk _ first rows _ _ _ := Query.ofRows (← commaList g.row)
    return { first, rows }
  else
    expectWord "select"
    let first ← g.selection
    let order ← g.order
    let (limit, offset) ← g.limits
    return { first, order, limit, offset }

def compound? : Parser (Option Compound) := do
  if ← acceptWord "union" then return some (if ← acceptWord "all" then .unionAll else .union)
  else if ← acceptWord "intersect" then return some .intersect
  else if ← acceptWord "except" then return some .except
  else return none

/-- A part of a compound behind its operator. Several rows are those of a query of their own. -/
def Member.behind (m : Member) : Selection :=
  if m.rows.isEmpty then m.first
  else .mk false [.all] [.mk {} (.query (.mk [] m.first m.rows [] none none) none) none none] none [] none []

/-- Refuses a part before the last one with an order or a limit, the last such part first. -/
def checkEarly (first : Member) (others : List (Compound × Member)) : Except Problem Unit :=
  let parts := (first :: others.map Prod.snd).zip (others.map Prod.fst)
  match parts.reverse.find? fun p => !p.1.order.isEmpty || p.1.limit.isSome with
  | some (m, c) => .error (.earlyClause (if m.order.isEmpty then "LIMIT" else "ORDER BY") c.name)
  | none => .ok ()

/-! ## Queries -/

def namedQuery : Parser NamedQuery := do
  let n ← name
  let columns ← inBrackets? (commaList do
    let n ← name
    let _ ← after? "collate" name
    if !(← acceptWord "asc") then let _ ← acceptWord "desc"
    return n)
  expectWord "as"
  let kept ←
    if ← acceptWords "not" ["materialized"] then pure (some false)
    else if ← acceptWord "materialized" then pure (some true)
    else pure none
  return .mk n (columns.getD []) kept (← inBrackets g.query)

/-- Queries with different names. -/
def namedQueries : Parser (List NamedQuery) := do
  let _ ← acceptWord "recursive"
  let nameOf : NamedQuery → String := fun | .mk n _ _ _ => n
  let all ← commaList g.namedQuery
  let twice := (List.range all.length).filterMap fun i =>
    (all[i]?.map nameOf).filter fun n => (all.take i).any fun q => sameName (nameOf q) n
  match twice with
  | n :: _ => throw (.duplicateNamedQuery n)
  | [] => return all

def queryHere : Parser Query := do
  let named ← if ← acceptWord "with" then g.namedQueries else pure []
  let first ← g.member
  let others ← extendAll (fun others => do
    match ← compound? with
    | none => return none
    | some c => return some (others ++ [(c, ← g.member)])) []
  checkEarly first others
  let last := (others.getLast?.map Prod.snd).getD first
  return .mk named first.first (first.rows ++ others.map fun c => (c.1, c.2.behind)) last.order last.limit last.offset

/-! ## Nesting -/

/-- Readers one level further out. -/
def wider : Grammar := { g with expression := g.expressionHere, query := g.queryHere }

/-- Readers of what is nested so deeply at most. -/
def ofDepth (statement : List Char) : Nat → Grammar
  | 0 => ⟨statement, refuse, refuse⟩
  | depth + 1 => (ofDepth statement depth).wider

end Grammar

end CouplingTree.Sql
