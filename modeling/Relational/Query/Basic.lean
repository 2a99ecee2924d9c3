import Relational.Query.Join
import Relational.Row
/-
Queries under construction.

A query starts empty and every clause call returns it with one clause more.  Nothing is compiled
until the query is finished; a clause call with bad input leaves the clauses as they were and
leaves a fault, which every compilation then reports.
-/
namespace Relational

/-- Sort direction. -/
inductive Direction where
  | asc
  | desc
  deriving DecidableEq, Repr, Inhabited

namespace Direction

/-- The keyword. -/
def sql : Direction → String
  | asc => "ASC"
  | desc => "DESC"

/-- The comparison that holds of what comes later in this direction. -/
def past : Direction → Comparison
  | asc => .greater
  | desc => .less

end Direction

/-- An aggregate function. -/
inductive Aggregate where
  | count
  | sum
  | avg
  | min
  | max
  deriving DecidableEq, Repr

/-- The name of the function. -/
def Aggregate.sql : Aggregate → String
  | count => "COUNT"
  | sum => "SUM"
  | avg => "AVG"
  | min => "MIN"
  | max => "MAX"

/-- An entry of the select list. -/
inductive Selection where
  | column (name : String)
  | raw (sql : String) (bindings : List Value)
  deriving DecidableEq, Repr

/-- An entry of the ordering. -/
inductive Ordering where
  | column (name : String) (direction : Direction)
  | raw (sql : String) (bindings : List Value)
  deriving DecidableEq, Repr

/-- Orders by a column first and, with a value, keeps only the rows strictly past it. -/
structure Cursor where
  column : String
  direction : Direction
  after : Option Value
  deriving DecidableEq, Repr

/-- The clauses of a query. -/
structure Query where
  table : Option String := none
  selections : List Selection := []
  distinct : Bool := false
  aggregate : Option (Aggregate × String) := none
  joins : List Join := []
  filters : Conditions := .empty
  groups : List String := []
  havings : Conditions := .empty
  orders : List Ordering := []
  limit : Option UInt64 := none
  offset : Option UInt64 := none
  cursor : Option Cursor := none
  /-- The first fault of a call that no list of conditions remembers. -/
  fault : Option QueryError := none
  deriving DecidableEq, Repr, Inhabited

namespace Query

/-- The query without clauses. -/
def empty : Query := {}

/-! ### Faults -/

/-- The fault the query reports: its own, then one of its conditions. -/
def error (q : Query) : Option QueryError :=
  q.fault.or <| q.filters.error.or <| q.havings.error.or <|
    q.joins.findSome? (·.conditions.error)

/-- Notes a fault, unless there is one already. -/
def fail (q : Query) (e : QueryError) : Query :=
  { q with fault := q.fault.or (some e) }

/-- Applies `change` for a name that may carry an alias, and notes a fault otherwise. -/
def whenAliased (q : Query) (clause : Clause) (name : String) (change : Query → Query) : Query :=
  if Name.isAliased name then change q else q.fail (.invalidIdentifier clause name)

/-- Applies `change` for a fragment with one value per marker, and notes a fault otherwise. -/
def whenBalanced (q : Query) (clause : Clause) (sql : String) (bindings : List Value)
    (change : Query → Query) : Query :=
  if Marker.count sql = bindings.length then change q
  else q.fail (.bindingMismatch clause (Marker.count sql) bindings.length)

/-! ### Source and select list -/

/-- The table to read from, which may carry an alias. -/
def source (q : Query) (table : String) : Query :=
  if Name.isAliased table && table != "*" then { q with table := some table }
  else q.fail (.invalidIdentifier .source table)

/-- A query over a table. -/
def ofTable (table : String) : Query :=
  empty.source table

/-- Adds one column to the select list. -/
def addColumn (q : Query) (column : String) : Query :=
  q.whenAliased .select column fun q =>
    { q with selections := q.selections ++ [.column column] }

/-- Adds columns to the select list. -/
def addSelect (q : Query) (columns : List String) : Query :=
  columns.foldl addColumn q

/-- Replaces the select list. -/
def select (q : Query) (columns : List String) : Query :=
  addSelect { q with selections := [] } columns

/-- Adds a raw expression to the select list. -/
def selectRaw (q : Query) (sql : String) (bindings : List Value) : Query :=
  q.whenBalanced .selectRaw sql bindings fun q =>
    { q with selections := q.selections ++ [.raw sql bindings] }

/-- Drops repeated rows. -/
def makeDistinct (q : Query) : Query :=
  { q with distinct := true }

/-- Replaces the select list by one aggregate; the wildcard counts rows. -/
def aggregateOf (q : Query) (function : Aggregate) (column : String) : Query :=
  if column == "*" then { q with aggregate := some (function, column) }
  else q.whenAliased .aggregate column fun q =>
    { q with aggregate := some (function, column) }

/-! ### Joins -/

/-- Adds a join. -/
def addJoin (q : Query) (join : Join) : Query :=
  q.whenAliased .join join.table fun q => { q with joins := q.joins ++ [join] }

/-- Joins a table where two columns compare. -/
def joinOn (q : Query) (kind : JoinKind) (table first operator second : String) : Query :=
  q.addJoin (Join.on { kind, table } first operator second)

/-- Joins every row of a table. -/
def crossJoin (q : Query) (table : String) : Query :=
  q.addJoin { kind := .cross, table }

/-- Joins a table under conditions written by `build`. -/
def joinWith (q : Query) (kind : JoinKind) (table : String) (build : Join → Join) : Query :=
  q.addJoin (build { kind, table })

/-! ### Conditions -/

/-- Changes the WHERE conditions. -/
def filtered (q : Query) (change : Conditions → Conditions) : Query :=
  { q with filters := change q.filters }

/-- Groups the rows. -/
def groupBy (q : Query) (columns : List String) : Query :=
  columns.foldl
    (fun q column => q.whenAliased .groupBy column fun q =>
      { q with groups := q.groups ++ [column] }) q

/-- `HAVING column operator value`. -/
def having (q : Query) (column operator : String) (operand : Operand) : Query :=
  { q with havings := q.havings.compare .having .and column operator operand }

/-- `OR HAVING column operator value`. -/
def orHaving (q : Query) (column operator : String) (operand : Operand) : Query :=
  { q with havings := q.havings.compare .orHaving .or column operator operand }

/-- A raw HAVING fragment. -/
def havingRaw (q : Query) (sql : String) (bindings : List Value) : Query :=
  { q with havings := q.havings.fragment .havingRaw .and sql bindings }

/-! ### Order and extent -/

/-- Adds a column to the ordering. -/
def orderBy (q : Query) (column : String) (direction : Direction) : Query :=
  q.whenAliased .orderBy column fun q =>
    { q with orders := q.orders ++ [.column column direction] }

/-- Adds a raw expression to the ordering. -/
def orderByRaw (q : Query) (sql : String) (bindings : List Value) : Query :=
  q.whenBalanced .orderByRaw sql bindings fun q =>
    { q with orders := q.orders ++ [.raw sql bindings] }

/-- Drops the ordering. -/
def reorder (q : Query) : Query :=
  { q with orders := [] }

/-- At most so many rows. -/
def take (q : Query) (n : UInt64) : Query :=
  { q with limit := some n }

/-- Leaves out the first rows. -/
def skip (q : Query) (n : UInt64) : Query :=
  { q with offset := some n }

/-- Drops limit and offset. -/
def withoutLimits (q : Query) : Query :=
  { q with limit := none, offset := none }

/-- Orders by a column first and, with a value, keeps the rows strictly past it. -/
def startAfter (q : Query) (column : String) (direction : Direction) (after : Option Value) :
    Query :=
  q.whenAliased .cursor column fun q => { q with cursor := some ⟨column, direction, after⟩ }

/-- Whether one result row may stand for several rows. -/
def isFolded (q : Query) : Bool :=
  q.distinct || !q.groups.isEmpty

end Query

end Relational
