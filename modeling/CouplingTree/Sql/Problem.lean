/-!
# What is wrong with a query

A statement may be no statement, what it names may be missing, and a value may be out of range. `Problem.message` words
each problem.
-/

namespace CouplingTree.Sql

inductive Problem
  /-- A page or a row is not in order. -/
  | malformed
  | tooBig
  /-- What stands where something else is due. -/
  | unexpected (token : String)
  /-- What is no token. -/
  | unrecognized (token : String)
  | incomplete
  | noSuchTable (name : String)
  | noSuchColumn (name : String)
  | ambiguousColumn (name : String)
  | noSuchFunction (name : String)
  | noSuchCollation (name : String)
  | noSuchModule (name : String)
  | wrongArguments (function : String)
  /-- An aggregate where there are no groups of rows. -/
  | misplacedAggregate (function : String)
  /-- A function of rows, of a kind, where it must not stand. -/
  | misusedFunction (kind function : String)
  /-- Rows of groups in a query without groups. -/
  | havingWithoutGroups
  | aggregateInGroups
  /-- A name of a result that is computed from groups or from the rows around one, of a kind, where it must not stand. -/
  | misusedResult (kind name : String)
  | distinctArguments
  | notForWindows (function : String)
  | filteredScalar (function : String)
  | filteredWindow
  | likelihoodRange (function : String)
  | noSuchWindow (name : String)
  | windowOverride (clause window : String)
  | rangeOrder
  | raiseOutsideTrigger
  | noSuchIndex (name : String)
  | noSuchNamedIndex (name : String)
  | notAFunction (name : String)
  | tooManyArguments (function : String) (most : Nat)
  | circularReference (name : String)
  | multipleReferences (name : String)
  | multipleRecursion (name : String)
  | recursiveSubquery (name : String)
  | recursiveAggregate
  | recursiveWindow
  | ambiguousShared (name : String)
  /-- A condition of a join that looks at a table behind it. -/
  | conditionToTheRight
  | frameOffset (isStart isNumber : Bool)
  | nthArgument
  | tileArgument
  | noSolution
  /-- A module that cannot do what it is asked for. -/
  | moduleFailure
  | circularView (name : String)
  | viewWidth (name : String) (expected found : Nat)
  /-- Two sides of a compound with different numbers of columns. -/
  | compoundWidth (operator : String)
  | valuesWidth
  | subqueryWidth (found expected : Nat)
  /-- Several values side by side where one is due, or another number of them. -/
  | misusedRow
  /-- A named query with so many columns, but so many names for them. -/
  | namedWidth (name : String) (columns names : Nat)
  | noTables
  /-- A sorting term, by its place, that is no column of the result. -/
  | sortingColumn (place columns : Nat)
  | sortingTerm (place : Nat)
  | groupingColumn (place columns : Nat)
  | missingJoinColumn (name : String)
  | constrainedNaturalJoin
  | tableExists (name : String)
  | indexExists (name : String)
  | duplicateColumn (name : String)
  | secondPrimaryKey (table : String)
  | noPrimaryKey (table : String)
  | misplacedAutoIncrement
  | automaticWithoutRowIds
  | generatedKey
  | onlyGeneratedColumns
  | generatedLoop (column : String)
  | variableDefault (column : String)
  | generatedDefault
  | unknownGeneration (column : String)
  | unknownReference (column : String)
  | referenceWidth (column table : String)
  | referencesWidth
  | keyExpression
  /-- A name in front of another one where only one is due. -/
  | qualifiedDefinition
  /-- Something that the definition of a view or an index takes from another database. -/
  | foreignObject (kind name database : String)
  | prohibited (what place : String)
  /-- A refusal without a reason. -/
  | refused
  | viewExists (name : String)
  | notIndexable (what : String)
  | unknownOption (word : String)
  | missingType (column : String)
  | unknownType (column type : String)
  | parametersInView
  /-- A part of a compound before its end that has an order or a limit. -/
  | earlyClause (clause operator : String)
  | duplicateNamedQuery (name : String)
  | unknownJoin (words : String)
  /-- A condition for a table that is joined to nothing. -/
  | conditionWithoutJoin (word : String)
  | frameOrder
  | distinctInWindow
  /-- A row in a list with another number of values than what is looked for. -/
  | rowWidth (found expected : Nat)
  | nullsPlace (word : String)
  | integerOverflow
  | datatypeMismatch
  | escapeWidth
  | patternTooComplex
  /-- A text that is no document. -/
  | brokenDocument
  /-- A path into a document that goes wrong at a place. -/
  | brokenPath (rest : String)
  | blobInDocument
  | oddMembers (function : String)
  | memberName (function : String)
  /-- A function that takes more values in pairs. -/
  | unpairedValues (function : String)
  /-- A function that has no meaning where it is used. -/
  | unusableFunction (name : String)
  /-- A function in the definition of a table that is missing. -/
  | unknownFunction (name : String)
  | unknownDatabase (name : String)
  | unsupported
deriving DecidableEq, Repr

namespace Problem

/-- The ending of an ordinal number. -/
def ordinalEnding (n : Nat) : String :=
  if n % 100 / 10 = 1 then "th"
  else
    match n % 10 with
    | 1 => "st"
    | 2 => "nd"
    | 3 => "rd"
    | _ => "th"

def ordinal (n : Nat) : String := toString n ++ ordinalEnding n

def message : Problem → String
  | malformed => "database disk image is malformed"
  | tooBig => "string or blob too big"
  | unexpected token => "near \"" ++ token ++ "\": syntax error"
  | unrecognized token => "unrecognized token: \"" ++ token ++ "\""
  | incomplete => "incomplete input"
  | noSuchTable name => "no such table: " ++ name
  | noSuchColumn name => "no such column: " ++ name
  | ambiguousColumn name => "ambiguous column name: " ++ name
  | noSuchFunction name => "no such function: " ++ name
  | noSuchCollation name => "no such collation sequence: " ++ name
  | noSuchModule name => "no such module: " ++ name
  | wrongArguments function => "wrong number of arguments to function " ++ function ++ "()"
  | misplacedAggregate function => "misuse of aggregate: " ++ function ++ "()"
  | misusedFunction kind function => "misuse of " ++ kind ++ " function " ++ function ++ "()"
  | havingWithoutGroups => "HAVING clause on a non-aggregate query"
  | aggregateInGroups => "aggregate functions are not allowed in the GROUP BY clause"
  | misusedResult kind name => "misuse of aliased " ++ kind ++ " " ++ name
  | distinctArguments => "DISTINCT aggregates must have exactly one argument"
  | notForWindows function => function ++ "() may not be used as a window function"
  | filteredScalar function => "FILTER may not be used with non-aggregate " ++ function ++ "()"
  | filteredWindow => "FILTER clause may only be used with aggregate window functions"
  | likelihoodRange function =>
    "second argument to " ++ function ++ "() must be a constant between 0.0 and 1.0"
  | noSuchWindow name => "no such window: " ++ name
  | windowOverride clause window => "cannot override " ++ clause ++ " of window: " ++ window
  | rangeOrder => "RANGE with offset PRECEDING/FOLLOWING requires one ORDER BY expression"
  | raiseOutsideTrigger => "RAISE() may only be used within a trigger-program"
  | noSuchIndex name => "no such index: " ++ name
  | noSuchNamedIndex name => "no such index: \"" ++ name ++ "\""
  | notAFunction name => "'" ++ name ++ "' is not a function"
  | tooManyArguments function most =>
    "too many arguments on " ++ function ++ "() - max " ++ toString most
  | circularReference name => "circular reference: " ++ name
  | multipleReferences name => "multiple references to recursive table: " ++ name
  | multipleRecursion name => "multiple recursive references: " ++ name
  | recursiveSubquery name => "recursive reference in a subquery: " ++ name
  | recursiveAggregate => "recursive aggregate queries not supported"
  | recursiveWindow => "cannot use window functions in recursive queries"
  | ambiguousShared name => "ambiguous reference to " ++ name ++ " in USING()"
  | conditionToTheRight => "ON clause references tables to its right"
  | frameOffset isStart isNumber =>
    "frame " ++ (if isStart then "starting" else "ending") ++ " offset must be a non-negative " ++
      if isNumber then "number" else "integer"
  | nthArgument => "second argument to nth_value must be a positive integer"
  | tileArgument => "argument of ntile must be a positive integer"
  | noSolution => "no query solution"
  | moduleFailure => "SQL logic error"
  | circularView name => "view " ++ name ++ " is circularly defined"
  | viewWidth name expected found =>
    "expected " ++ toString expected ++ " columns for '" ++ name ++ "' but got " ++ toString found
  | compoundWidth operator =>
    "SELECTs to the left and right of " ++ operator ++ " do not have the same number of result columns"
  | valuesWidth => "all VALUES must have the same number of terms"
  | subqueryWidth found expected =>
    "sub-select returns " ++ toString found ++ " columns - expected " ++ toString expected
  | misusedRow => "row value misused"
  | namedWidth name columns names =>
    "table " ++ name ++ " has " ++ toString columns ++ " values for " ++ toString names ++ " columns"
  | noTables => "no tables specified"
  | sortingColumn place columns =>
    ordinal place ++ " ORDER BY term out of range - should be between 1 and " ++ toString columns
  | sortingTerm place => ordinal place ++ " ORDER BY term does not match any column in the result set"
  | groupingColumn place columns =>
    ordinal place ++ " GROUP BY term out of range - should be between 1 and " ++ toString columns
  | missingJoinColumn name => "cannot join using column " ++ name ++ " - column not present in both tables"
  | constrainedNaturalJoin => "a NATURAL join may not have an ON or USING clause"
  | tableExists name => "table " ++ name ++ " already exists"
  | indexExists name => "index " ++ name ++ " already exists"
  | duplicateColumn name => "duplicate column name: " ++ name
  | secondPrimaryKey table => "table \"" ++ table ++ "\" has more than one primary key"
  | noPrimaryKey table => "PRIMARY KEY missing on table " ++ table
  | misplacedAutoIncrement => "AUTOINCREMENT is only allowed on an INTEGER PRIMARY KEY"
  | automaticWithoutRowIds => "AUTOINCREMENT not allowed on WITHOUT ROWID tables"
  | generatedKey => "generated columns cannot be part of the PRIMARY KEY"
  | onlyGeneratedColumns => "must have at least one non-generated column"
  | generatedLoop column => "generated column loop on \"" ++ column ++ "\""
  | variableDefault column => "default value of column [" ++ column ++ "] is not constant"
  | generatedDefault => "cannot use DEFAULT on a generated column"
  | unknownGeneration column => "error in generated column \"" ++ column ++ "\""
  | unknownReference column => "unknown column \"" ++ column ++ "\" in foreign key definition"
  | referenceWidth column table => "foreign key on " ++ column ++ " should reference only one column of table " ++ table
  | referencesWidth =>
    "number of columns in foreign key does not match the number of columns in the referenced table"
  | keyExpression => "expressions prohibited in PRIMARY KEY and UNIQUE constraints"
  | qualifiedDefinition => "corrupt database"
  | foreignObject kind name database =>
    kind ++ " " ++ name ++ " cannot reference objects in database " ++ database
  | prohibited what place => what ++ " prohibited in " ++ place
  | refused => ""
  | viewExists name => "view " ++ name ++ " already exists"
  | notIndexable what => what ++ " may not be indexed"
  | unknownOption word => "unknown table option: " ++ word
  | missingType column => "missing datatype for " ++ column
  | unknownType column type => "unknown datatype for " ++ column ++ ": \"" ++ type ++ "\""
  | parametersInView => "parameters are not allowed in views"
  | earlyClause clause operator => clause ++ " clause should come after " ++ operator ++ " not before"
  | duplicateNamedQuery name => "duplicate WITH table name: " ++ name
  | unknownJoin words => "unknown join type: " ++ words
  | conditionWithoutJoin word => "a JOIN clause is required before " ++ word
  | frameOrder => "unsupported frame specification"
  | distinctInWindow => "DISTINCT is not supported for window functions"
  | rowWidth found expected =>
    "IN(...) element has " ++ toString found ++ " term" ++ (if found = 1 then "" else "s") ++ " - expected " ++
      toString expected
  | nullsPlace word => "unsupported use of NULLS " ++ word
  | integerOverflow => "integer overflow"
  | datatypeMismatch => "datatype mismatch"
  | escapeWidth => "ESCAPE expression must be a single character"
  | patternTooComplex => "LIKE or GLOB pattern too complex"
  | brokenDocument => "malformed JSON"
  | brokenPath rest => "JSON path error near '" ++ rest.replace "'" "''" ++ "'"
  | blobInDocument => "JSON cannot hold BLOB values"
  | oddMembers function => function ++ "() requires an even number of arguments"
  | memberName function => function ++ "() labels must be TEXT"
  | unpairedValues function => function ++ "() needs an odd number of arguments"
  | unusableFunction name => "unable to use function " ++ name ++ " in the requested context"
  | unknownFunction name => "unknown function: " ++ name ++ "()"
  | unknownDatabase name => "unknown database " ++ name
  | unsupported => "not supported"

end Problem

end CouplingTree.Sql
