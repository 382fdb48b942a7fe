import CouplingTree.Sql.Grammar.Selection
import CouplingTree.Sql.SelfReference

/-!
# Reading definitions

`Definition.ofStatement` reads a statement that makes a table, a view, an index or a trigger. What a trigger does is not
read. A definition that contradicts itself is refused where the contradiction is met.
-/

namespace CouplingTree.Sql

open Parser

/-- What is read of the definition of a table. -/
structure TableDraft where
  name : String
  /-- The last column comes first. -/
  columns : List ColumnDefinition := []
  key : Option TableKey := none
  /-- The last index comes first. -/
  indexes : List OwnIndex := []
  checks : List Expr := []

namespace TableDraft

/-- The column that a part of a key is; a text stands for the column of this name. -/
def keyColumn? (e : Expr) : Option String :=
  match e.bare with
  | .column none none n _ => some n
  | .value (.text bs) => some (String.ofList (Utf8.decodeLossy bs))
  | _ => none

/-- A part of a list of columns that has to be different in all rows. -/
def indexColumn (d : TableDraft) (t : KeyTerm) : Except Problem (String × String × Bool) :=
  match keyColumn? t.expression with
  | none => .error .keyExpression
  | some n =>
    match d.columns.find? fun c => sameName c.name n with
    | some c => .ok (c.name, t.collation.getD c.collationName, t.descending)
    | none => .error (.noSuchColumn n)

/-- Adds a list of columns that has to be different in all rows, unless there is one with the same columns. -/
def addIndex (d : TableDraft) (terms : List KeyTerm) (isKey : Bool) : Except Problem TableDraft := do
  let columns ← terms.mapM d.indexColumn
  let same (i : OwnIndex) : Bool :=
    decide (i.columns.length = columns.length) &&
      (i.columns.zip columns).all fun p => sameName p.1.1 p.2.1 && sameName p.1.2.1 p.2.2.1
  if d.indexes.any same then
    return { d with indexes := d.indexes.map fun i => if same i then { i with isKey := i.isKey || isKey } else i }
  else return { d with indexes := ⟨columns, isKey⟩ :: d.indexes }

/-- Sets the key. One integer column is the number of the row and has no index of its own. -/
def addKey (d : TableDraft) (terms : List KeyTerm) (mayCount automatic : Bool) : Except Problem TableDraft := do
  if d.key.isSome then throw (.secondPrimaryKey d.name)
  let names := terms.filterMap fun t => keyColumn? t.expression
  let keyColumns := names.filterMap fun n => d.columns.find? fun c => sameName c.name n
  if keyColumns.any fun c => c.generated.isSome then throw .generatedKey
  let counts := mayCount && decide (terms.length = 1) && keyColumns.any fun c => decide (c.lowerType = "integer")
  let d := { d with key := some ⟨names, mayCount, automatic⟩ }
  if counts then return d
  else if automatic then throw .misplacedAutoIncrement
  else d.addIndex terms true

/-- Changes the column that is defined last. -/
def withColumn (d : TableDraft) (f : ColumnDefinition → ColumnDefinition) : TableDraft :=
  match d.columns with
  | c :: rest => { d with columns := f c :: rest }
  | [] => d

def lastColumn (d : TableDraft) : ColumnDefinition := d.columns.head?.getD default

def lastName (d : TableDraft) : String := d.lastColumn.name

def lastTerm (d : TableDraft) : KeyTerm := { expression := .column none none d.lastName .quoted }

/-- A column needs a name of its own. -/
def addColumn (d : TableDraft) (name type : String) : Except Problem TableDraft :=
  if d.columns.any fun c => sameName c.name name then .error (.duplicateColumn name)
  else .ok { d with columns := { name, type } :: d.columns }

/-- Gives the last column a collation, and the indexes that start with it too. -/
def collate (d : TableDraft) (collation : String) : TableDraft :=
  let d := d.withColumn fun c => { c with collation := some collation }
  { d with indexes := d.indexes.map fun i =>
      match i.columns with
      | (n, c, descending) :: rest =>
        if sameName n d.lastName then { i with columns := (n, collation, descending) :: rest }
        else { i with columns := (n, c, descending) :: rest }
      | [] => i }

/-- The columns that refer to another table have to be there. -/
def checkReferences (d : TableDraft) (names : List String) : Except Problem Unit :=
  match names.find? fun n => !d.columns.any fun c => sameName c.name n with
  | some n => .error (.unknownReference n)
  | none => .ok ()

end TableDraft

namespace Grammar

variable (g : Grammar)

/-! ## Parts of definitions -/

def ifNotExists : Parser Unit := do
  let _ ← acceptWords "if" ["not", "exists"]

/-- The name of what is defined. Nothing stands in front of it. -/
def definedName : Parser String := do
  let first ← name
  if ← acceptSign "." then
    let _ ← name
    throw .qualifiedDefinition
  else return first

/-- What to do about a conflict. -/
def onConflict : Parser Unit := do
  if (← peek).isWord "on" && (← peekSecond).isWord "conflict" then
    skip
    skip
    expect fun t => ["rollback", "abort", "fail", "ignore", "replace"].any t.isWord

/-- Names of columns, each with a collation and an order. -/
def indexedNames : Parser (List String) := inBrackets (commaList do
  let n ← name
  let _ ← after? "collate" name
  if !(← acceptWord "asc") then let _ ← acceptWord "desc"
  return n)

/-- The terms of an index or a key. It cannot be said where nothing comes. -/
def keyTerms : Parser (List KeyTerm) := do
  let terms ← commaList g.sorting
  terms.mapM fun
    | .mk _ _ (some last) => throw (.nullsPlace (if last then "LAST" else "FIRST"))
    | .mk (.collate e c) descending none => return ⟨e, some c, descending⟩
    | .mk e descending none => return ⟨e, none, descending⟩

/-- What a reference to another table says about changes there. -/
def referenceActions : Parser Unit := do
  let _ ← extendAll (fun _ => do
    if ← acceptWord "match" then
      let _ ← name
      return some ()
    else if (← peek).isWord "on" && !(← peekSecond).isWord "conflict" then
      skip
      expect fun t => ["insert", "delete", "update"].any t.isWord
      if ← acceptWord "set" then expect fun t => t.isWord "null" || t.isWord "default"
      else if ← acceptWord "no" then expectWord "action"
      else expect fun t => t.isWord "cascade" || t.isWord "restrict"
      return some ()
    else return none) ()

/-- The table that is referred to, and how many of its columns. -/
def reference : Parser (String × Option Nat) := do
  let n ← name
  let columns ← if (← peek).isSign "(" then pure (some (← indexedNames).length) else pure none
  referenceActions
  return (n, columns)

/-- When a reference is checked, after its first word. -/
def deferral : Parser Unit := do
  if ← acceptWord "initially" then expect fun t => t.isWord "deferred" || t.isWord "immediate"

/-- Whether an expression has a value without a row: it is made of literals and functions. -/
def isConstant (e : Expr) : Bool := go e.depth e
where
  go : Nat → Expr → Bool
    | 0, _ => true
    | depth + 1, e =>
      match e with
      | .column none none n quoting => quoting = .bare && isTruthName n
      | .column .. | .exists _ | .single _ | .memberOf _ _ | .raise => false
      | .call _ _ _ _ _ (some _) => false
      | e => e.parts.all (go depth)

/-- A value that is given for a column, with the way it is written: a literal, a word, or an expression in brackets. -/
def defaultValue (column : String) : Parser (Expr × String) := do
  let first ← peek
  let signed (op : UnaryOp) : Parser (Expr × String) := do
    let t ← peek
    return (.unary op (← literal), g.written first.start (t.start + t.source.length))
  if ← acceptSign "(" then
    let e ← g.expression
    let stop ← peek
    expectSign ")"
    if isConstant e then return (e, g.written (first.start + 1) stop.start) else throw (.variableDefault column)
  else if ← acceptSign "+" then signed .plus
  else if ← acceptSign "-" then
    let t ← peek
    if t.source = leastLiteral then
      skip
      return (.value (.integer leastInteger), "-" ++ t.source)
    else signed .negate
  else
    match literal? first with
    | some v =>
      skip
      return (.value v, first.source)
    | none =>
      let n ← name
      if first.kind = .word && isTruthName n then return (.column none none n .bare, first.source)
      else if first.kind = .word && clockWords.any first.isWord then return (.ofCall n [], first.source)
      else return (.value (.ofString n), first.source)
where
  literal : Parser Expr := do return .value (← take literal?)

/-- How a generated column is computed. -/
def generation (column : String) : Parser (Expr × Bool) := do
  let e ← inBrackets g.expression
  let t ← peek
  if ["constraint", "default", "null", "not", "primary", "unique", "check", "references", "deferrable", "collate",
      "generated", "as"].any t.isWord then return (e, false)
  else
    match ← takeIf? Token.name? with
    | none => return (e, false)
    | some n =>
      if sameName n "stored" then return (e, true)
      else if sameName n "virtual" then return (e, false)
      else throw (.unknownGeneration column)

/-- A type without the words that introduce a generated column. -/
def withoutGeneration (type : String) : String :=
  let words := "generated always"
  if lowerAscii type = words then ""
  else if (" " ++ words).toList.isSuffixOf (lowerAscii type).toList then
    String.ofList (type.toList.take (type.length - words.length - 1))
  else type

/-! ## Tables -/

/-- One more thing said about the last column. -/
def columnConstraint (d : TableDraft) : Parser (Option TableDraft) := do
  if ← acceptWord "constraint" then
    let _ ← name
    return some d
  else if ← acceptWord "default" then
    let e ← g.defaultValue d.lastName
    if d.lastColumn.generated.isSome then throw .generatedDefault
    return some (d.withColumn fun c => { c with default := some e.1, defaultText := some e.2 })
  else if ← acceptWord "null" then
    onConflict
    return some d
  else if ← acceptWord "not" then
    if ← acceptWord "deferrable" then
      deferral
      return some d
    else
      expectWord "null"
      onConflict
      return some (d.withColumn fun c => { c with isPresent := true })
  else if ← acceptWords "primary" ["key"] then
    let ascending ← acceptWord "asc"
    let descending ← if ascending then pure false else acceptWord "desc"
    onConflict
    let automatic ← acceptWord "autoincrement"
    return some (← d.addKey [{ d.lastTerm with descending }] (!descending) automatic)
  else if ← acceptWord "unique" then
    onConflict
    return some (← d.addIndex [d.lastTerm] false)
  else if ← acceptWord "check" then
    let e ← inBrackets g.expression
    return some { d with checks := d.checks ++ [e] }
  else if ← acceptWord "references" then
    let (table, columns) ← reference
    if columns.any (· ≠ 1) then throw (.referenceWidth d.lastName table)
    return some d
  else if ← acceptWord "deferrable" then
    deferral
    return some d
  else if ← acceptWord "collate" then return some (d.collate (← name))
  else if (← acceptWords "generated" ["always", "as"]) || (← acceptWord "as") then
    let e ← g.generation d.lastName
    if d.lastColumn.default.isSome then throw (.unknownGeneration d.lastName)
    if d.key.any fun k => k.columns.any (sameName d.lastName) then throw .generatedKey
    return some (d.withColumn fun c => { c with generated := some e })
  else return none

def column (d : TableDraft) : Parser TableDraft := do
  let n ← name
  let type ← typeName
  let d ← d.addColumn n (withoutGeneration type)
  extendAll g.columnConstraint d

/-- Words that begin what is said about a whole table. -/
def constraintWords : List String := ["constraint", "primary", "unique", "check", "foreign"]

/-- One more thing said about the whole table, after a comma or without one. -/
def tableConstraint (d : TableDraft) : Parser (Option TableDraft) := do
  let comma ← acceptSign ","
  if ← acceptWord "constraint" then
    let _ ← name
    return some d
  else if ← acceptWords "primary" ["key"] then
    let (terms, automatic) ← inBrackets do
      let terms ← g.keyTerms
      return (terms, ← acceptWord "autoincrement")
    onConflict
    return some (← d.addKey terms true automatic)
  else if ← acceptWord "unique" then
    let terms ← inBrackets g.keyTerms
    onConflict
    return some (← d.addIndex terms false)
  else if ← acceptWord "check" then
    let e ← inBrackets g.expression
    onConflict
    return some { d with checks := d.checks ++ [e] }
  else if ← acceptWords "foreign" ["key"] then
    let names ← indexedNames
    expectWord "references"
    let (_, columns) ← reference
    if columns.any (· ≠ names.length) then throw .referencesWidth
    d.checkReferences names
    if ← acceptWord "not" then
      expectWord "deferrable"
      deferral
    else if ← acceptWord "deferrable" then deferral
    return some d
  else if comma then refuse
  else return none

/-- One more column after a comma. -/
def nextColumn (d : TableDraft) : Parser (Option TableDraft) := do
  if (← peek).isSign "," && !(constraintWords.any (← peekSecond).isWord) then
    skip
    return some (← g.column d)
  else return none

/-- What is said behind the columns: whether there are no row numbers, and whether the types are strict. -/
def tableOption (found : Bool × Bool) : Parser (Bool × Bool) := do
  if ← acceptWord "without" then
    let n ← name
    if sameName n "rowid" then return (true, found.2) else throw (.unknownOption n)
  else
    let n ← name
    if sameName n "strict" then return (found.1, true) else throw (.unknownOption n)

def tableOptions : Parser (Bool × Bool) := do
  let t ← peek
  if t.kind = .stop || t.isSign ";" then return (false, false)
  else
    let first ← tableOption (false, false)
    extendAll (fun found => do
      if ← acceptSign "," then return some (← tableOption found) else return none) first

/-- Refuses a strict table with a column of no known type. -/
def checkTypes (d : TableDraft) : Except Problem Unit :=
  d.columns.reverse.forM fun c =>
    let shown := d.name ++ "." ++ c.name
    if c.type = "" then .error (.missingType shown)
    else if c.lowerType ∈ ColumnDefinition.strictTypes then .ok ()
    else .error (.unknownType shown c.type)

/-- What is wrong with the expressions about the rows of a table. -/
def checkRows (t : TableDefinition) (checks : List Expr) : Except Problem Unit := do
  let subject (use : RowUse) : SelfReference.Subject := ⟨t.name, t.columns.map ColumnDefinition.name, !t.withoutRowIds, use⟩
  checks.forM fun e => e.checkSelf (subject .constraint)
  t.columns.forM fun c =>
    match c.generated with
    | some (e, _) => e.checkSelf (subject .generated)
    | none => .ok ()

/-- A table whose definition is complete. Without row numbers there is always an index for the key. -/
def completed (d : TableDraft) (withoutRowIds strict : Bool) : Except Problem TableDefinition := do
  if strict then checkTypes d
  let hasAutomatic := d.key.any TableKey.automatic
  if withoutRowIds && hasAutomatic then throw .automaticWithoutRowIds
  if withoutRowIds && d.key.isNone then throw (.noPrimaryKey d.name)
  let names := (d.key.map TableKey.columns).getD []
  let keyTerm (n : String) : KeyTerm := { expression := .column none none n .quoted }
  let d ←
    if withoutRowIds && !d.indexes.any OwnIndex.isKey then d.addIndex (names.map keyTerm) true else pure d
  let isInKey (c : ColumnDefinition) : Bool := names.any (sameName c.name)
  let columns := d.columns.reverse.map fun c =>
    { c with isPresent := c.isPresent || (withoutRowIds || strict) && isInKey c }
  let t : TableDefinition := ⟨d.name, columns, d.key, d.indexes.reverse, withoutRowIds, strict⟩
  checkRows t d.checks
  if d.columns.all fun c => c.generated.isSome then throw .onlyGeneratedColumns
  return t

def table : Parser Definition := do
  ifNotExists
  let n ← definedName
  if ← acceptWord "as" then
    let _ ← g.query
    throw .refused
  expectSign "("
  let first ← g.column { name := n }
  let columns ← extendAll g.nextColumn first
  let d ← extendAll g.tableConstraint columns
  expectSign ")"
  let (withoutRowIds, strict) ← tableOptions
  return .table (← completed d withoutRowIds strict)

/-! ## Other definitions -/

def view : Parser Definition := do
  ifNotExists
  let n ← name
  let isQualified ← acceptSign "."
  let _ ← if isQualified then name else pure n
  let columns ← if (← peek).isSign "(" then indexedNames else pure []
  expectWord "as"
  let depth := (← get).length
  let q ← g.query
  if isQualified then throw .qualifiedDefinition
  return .view ⟨n, columns, q, depth⟩

def index (isUnique : Bool) : Parser Definition := do
  ifNotExists
  let n ← name
  let isQualified ← acceptSign "."
  let _ ← if isQualified then name else pure n
  expectWord "on"
  let t ← name
  let terms ← inBrackets g.keyTerms
  let filter ← after? "where" g.expression
  if isQualified then throw .qualifiedDefinition
  return .index ⟨n, t, isUnique, terms, filter⟩

/-- Passes over all that follows. -/
def skipAll : Parser Unit := do
  let _ ← extendAll (fun _ => do
    if (← peek).kind = .stop then return none
    else
      skip
      return some ()) ()

def trigger : Parser Definition := do
  ifNotExists
  let n ← tableName
  if ← acceptWord "instead" then expectWord "of"
  else if !(← acceptWord "before") then let _ ← acceptWord "after"
  if ← acceptWord "update" then
    let _ ← after? "of" (commaList name)
  else expect fun t => t.isWord "insert" || t.isWord "delete"
  expectWord "on"
  let t ← tableName
  skipAll
  return .trigger n t

/-- An argument of a module: all up to a comma or the last bracket. -/
def moduleArgument : Parser String := do
  let start := (← peek).start
  let _ ← extendAll (fun depth => do
    let t ← peek
    if t.kind = .stop || (depth = 0 && (t.isSign "," || t.isSign ")")) then return none
    else
      skip
      return some (if t.isSign "(" then depth + 1 else if t.isSign ")" then depth - 1 else depth)) 0
  return g.written start (← peek).start

def moduleTable : Parser Definition := do
  expectWord "table"
  ifNotExists
  let n ← definedName
  expectWord "using"
  let m ← name
  let arguments ← inBrackets? (commaList g.moduleArgument)
  return .moduleTable n m (arguments.getD [])

/-- A definition up to the end of the statement. -/
def definition (hasParameters : Bool) : Parser Definition := do
  expectWord "create"
  if !(← acceptWord "temp") then let _ ← acceptWord "temporary"
  let d ←
    if ← acceptWord "table" then g.table
    else if ← acceptWord "view" then g.view
    else if ← acceptWord "index" then g.index false
    else if ← acceptWords "unique" ["index"] then g.index true
    else if ← acceptWord "trigger" then trigger
    else if ← acceptWord "virtual" then g.moduleTable
    else refuse
  let t ← peek
  if t.kind = .stop || t.isSign ";" then
    match d, hasParameters with
    | .view _, true => throw .parametersInView
    | d, _ => return d
  else refuse

end Grammar

/-- The definition that a statement makes. -/
def Definition.ofStatement (statement : List Char) : Except Problem Definition :=
  let ts := tokens statement
  let hasParameters := ts.any fun t => decide (t.kind = .parameter)
  ((Grammar.ofDepth statement ts.length).definition hasParameters).run' ts

end CouplingTree.Sql
