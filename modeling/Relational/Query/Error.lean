/-
What can be wrong with a query.

A clause call that gets bad input is remembered with the name of the call, and the first such
fault is what every attempt to compile the query reports.
-/
namespace Relational

/-- A clause call that checks its input. -/
inductive Clause where
  | filter
  | orFilter
  | filterIn
  | filterNotIn
  | filterNull
  | filterNotNull
  | filterBetween
  | filterColumn
  | filterRaw
  | orFilterRaw
  | on
  | orOn
  | joinFilter
  | orJoinFilter
  | having
  | orHaving
  | havingRaw
  | source
  | select
  | selectRaw
  | aggregate
  | join
  | groupBy
  | orderBy
  | orderByRaw
  | cursor
  | insert
  | update
  deriving DecidableEq, Repr

/-- The name a user knows the call by. -/
def Clause.name : Clause → String
  | filter => "where"
  | orFilter => "or_where"
  | filterIn => "where_in"
  | filterNotIn => "where_not_in"
  | filterNull => "where_null"
  | filterNotNull => "where_not_null"
  | filterBetween => "where_between"
  | filterColumn => "where_column"
  | filterRaw => "where_raw"
  | orFilterRaw => "or_where_raw"
  | on => "join.on"
  | orOn => "join.or_on"
  | joinFilter => "join.where"
  | orJoinFilter => "join.or_where"
  | having => "having"
  | orHaving => "or_having"
  | havingRaw => "having_raw"
  | source => "from"
  | select => "select"
  | selectRaw => "select_raw"
  | aggregate => "aggregate"
  | join => "join"
  | groupBy => "group_by"
  | orderBy => "order_by"
  | orderByRaw => "order_by_raw"
  | cursor => "cursor"
  | insert => "insert"
  | update => "update"

/-- Why an operand does not fit. -/
inductive OperandFault where
  /-- `NULL` under an operator other than equality. -/
  | nullCompared (operator : String)
  /-- A range with another number of ends than two. -/
  | rangeLength (operator : String) (count : Nat)
  /-- A range with a single value. -/
  | rangeValue (operator : String)
  /-- A list under an operator that takes one value. -/
  | unexpectedList (operator : String)
  /-- A raw fragment of blanks. -/
  | emptyFragment
  deriving DecidableEq, Repr

/-- What to tell the user about the operand. -/
def OperandFault.message : OperandFault → String
  | nullCompared op => "NULL cannot be compared with " ++ op
  | rangeLength op count => op ++ " needs exactly two values, got " ++ toString count
  | rangeValue op => op ++ " needs exactly two values"
  | unexpectedList op => op ++ " cannot take a list of values"
  | emptyFragment => "raw fragment is empty"

/-- A write statement. -/
inductive WriteKind where
  | insert
  | update
  | delete
  deriving DecidableEq, Repr

/-- The word for a write statement. -/
def WriteKind.word : WriteKind → String
  | insert => "insert"
  | update => "update"
  | delete => "delete"

/-- Why no statement can be made of a query. -/
inductive StatementFault where
  | aliasedTarget (kind : WriteKind)
  | joinedTarget (kind : WriteKind)
  | limitedTarget (kind : WriteKind)
  | joinWithoutCondition (keyword table : String)
  | noRows
  | noColumns
  | rowSize (row : Nat)
  | rowColumn (row : Nat) (column : String)
  | noAssignments
  deriving DecidableEq, Repr

/-- What to tell the user about the statement. -/
def StatementFault.message : StatementFault → String
  | aliasedTarget kind => kind.word ++ " cannot target an aliased table"
  | joinedTarget kind => kind.word ++ " with joins is not supported"
  | limitedTarget kind => kind.word ++ " with limit or offset is not supported"
  | joinWithoutCondition keyword table => keyword ++ " " ++ table ++ " has no ON condition"
  | noRows => "insert needs at least one row"
  | noColumns => "insert row has no columns"
  | rowSize row =>
    "insert row " ++ toString row ++ " does not match the columns of the first row"
  | rowColumn row column =>
    "insert row " ++ toString row ++ " is missing column '" ++ column ++ "'"
  | noAssignments => "update needs at least one assignment"

/-- A fault in a query. -/
inductive QueryError where
  | unknownOperator (clause : Clause) (operator : String)
  | invalidIdentifier (clause : Clause) (identifier : String)
  | invalidOperand (clause : Clause) (fault : OperandFault)
  | bindingMismatch (clause : Clause) (markers bindings : Nat)
  | missingTable
  | invalidStatement (fault : StatementFault)
  deriving DecidableEq, Repr

/-- What to tell the user. -/
def QueryError.message : QueryError → String
  | unknownOperator clause operator => clause.name ++ ": unknown operator '" ++ operator ++ "'"
  | invalidIdentifier clause identifier =>
    clause.name ++ ": invalid identifier '" ++ identifier ++ "'"
  | invalidOperand clause fault => clause.name ++ ": " ++ fault.message
  | bindingMismatch clause markers bindings =>
    clause.name ++ ": raw fragment has " ++ toString markers ++ " placeholder(s) but " ++
      toString bindings ++ " binding(s)"
  | missingTable => "missing table"
  | invalidStatement fault => fault.message

end Relational
