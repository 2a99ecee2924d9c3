import Relational.Query.Basic
import Relational.Sql
/-
The statement that reads a query's rows.

Each clause becomes a sequence of pieces, and the pieces are rendered once at the end.  The clauses
come in a fixed order, so the values are bound in that order too.
-/
namespace Relational

/-! ### Conditions -/

/-- A condition.  Membership in no values keeps its truth value, as an empty list is no SQL. -/
def Leaf.pieces : Leaf → List Piece
  | compare column comparison v =>
    [.name column, .words (" " ++ comparison.sql ++ " "), .bound v]
  | member _ false [] => [.words "1 = 0"]
  | member _ true [] => [.words "1 = 1"]
  | member column negated vs =>
    [.name column, .words (" " ++ Operator.memberSql negated ++ " (")] ++
      Sql.separated ", " (vs.map fun v => [.bound v]) ++ [.words ")"]
  | range column negated low high =>
    [.name column, .words (" " ++ Operator.rangeSql negated ++ " "), .bound low, .words " AND ",
      .bound high]
  | columns first comparison second =>
    [.name first, .words (" " ++ comparison.sql ++ " "), .name second]
  | null column negated =>
    [.name column, .words (if negated then " IS NOT NULL" else " IS NULL")]
  | raw sql bindings => [.raw sql bindings]

/-- A token.  A raw fragment goes in parentheses when other conditions stand beside it, so that an
`OR` inside it does not reach past it. -/
def Token.pieces (shared : Bool) : Token → List Piece
  | leaf (.raw sql bindings) =>
    if shared then [.words "(", .raw sql bindings, .words ")"] else [.raw sql bindings]
  | leaf l => l.pieces
  | connector c => [.words c.sql]
  | groupOpen => [.words "("]
  | groupClose => [.words ")"]

namespace Conditions

/-- Whether there is more than one condition. -/
def isShared (c : Conditions) : Bool :=
  1 < c.tokens.countP Token.isLeaf

/-- The sequence of conditions. -/
def pieces (c : Conditions) : List Piece :=
  c.tokens.flatMap (Token.pieces c.isShared)

end Conditions

namespace Query

/-! ### Clauses -/

/-- The name of an aggregate in the result. -/
def aggregateName : String := "aggregate"

/-- The name of the table that a folded query is counted through. -/
def aggregateTable : String := "aggregate_table"

/-- An aggregate under its name; distinct values only, if the query is distinct. -/
def aggregatePieces (distinct : Bool) (function : Aggregate) (column : String) : List Piece :=
  let argument : List Piece :=
    if column == "*" then [.words "*"]
    else if distinct then [.words "DISTINCT ", .name column]
    else [.name column]
  [.words (function.sql ++ "(")] ++ argument ++ [.words ") AS ", .name aggregateName]

/-- An entry of the select list. -/
def selectionPieces : Selection → List Piece
  | .column name => [.name name]
  | .raw sql bindings => [.raw sql bindings]

/-- What is selected. -/
def selectPieces (q : Query) : List Piece :=
  match q.aggregate with
  | some (function, column) => aggregatePieces q.distinct function column
  | none =>
    (if q.distinct then [.words "DISTINCT "] else []) ++
      (if q.selections.isEmpty then [.words "*"]
        else Sql.separated ", " (q.selections.map selectionPieces))

/-- A join; every kind but the cross join needs a condition. -/
def joinPieces (j : Join) : Except QueryError (List Piece) :=
  if j.kind ≠ .cross ∧ j.conditions.isEmpty then
    .error (.invalidStatement (.joinWithoutCondition j.kind.sql j.table))
  else .ok <|
    [.words (" " ++ j.kind.sql ++ " "), .name j.table] ++
      (if j.conditions.isEmpty then [] else .words " ON " :: j.conditions.pieces)

/-- The value the rows have to lie past, with its column and direction. -/
def bound? (q : Query) : Option (Cursor × Value) :=
  q.cursor.bind fun c => c.after.map fun v => (c, v)

/-- The conditions alone. -/
def filterPieces (q : Query) : List Piece :=
  if q.filters.isEmpty then [] else .words " WHERE " :: q.filters.pieces

/-- The conditions, and that the rows lie past the cursor. -/
def wherePieces (q : Query) : List Piece :=
  match q.bound? with
  | none => q.filterPieces
  | some (cursor, v) =>
    [.words " WHERE "] ++
      (if q.filters.isEmpty then []
        else [.words "("] ++ q.filters.pieces ++ [.words ") AND "]) ++
      [.name cursor.column, .words (" " ++ cursor.direction.past.sql ++ " "), .bound v]

/-- The grouping. -/
def groupPieces (q : Query) : List Piece :=
  if q.groups.isEmpty then []
  else .words " GROUP BY " :: Sql.separated ", " (q.groups.map fun g => [.name g])

/-- The conditions on groups. -/
def havingPieces (q : Query) : List Piece :=
  if q.havings.isEmpty then [] else .words " HAVING " :: q.havings.pieces

/-- An entry of the ordering. -/
def orderingPieces : Ordering → List Piece
  | .column name direction => [.name name, .words (" " ++ direction.sql)]
  | .raw sql bindings => [.raw sql bindings]

/-- Whether the entry orders by the given column. -/
def ordersBy (column : String) : Ordering → Bool
  | .column name _ => name == column
  | .raw .. => false

/-- The whole ordering: the cursor's column first, and not a second time. -/
def orderings (q : Query) : List Ordering :=
  match q.cursor with
  | none => q.orders
  | some c => .column c.column c.direction :: q.orders.filter (!ordersBy c.column ·)

/-- The ordering clause. -/
def orderPieces (q : Query) : List Piece :=
  if q.orderings.isEmpty then []
  else .words " ORDER BY " :: Sql.separated ", " (q.orderings.map orderingPieces)

/-- The paging clause.  A dialect that pages only ordered rows gets an ordering by nothing. -/
def limitPieces (q : Query) (d : Dialect) : List Piece :=
  let limited := q.limit.isSome || q.offset.isSome
  (if limited && q.orderings.isEmpty && d.needsOrderForOffset then
    [.words " ORDER BY (SELECT NULL)"] else []) ++
    [.words (d.limitOffset q.limit q.offset)]

/-! ### Statements -/

/-- The table, of a query without a fault. -/
def validTable (q : Query) : Except QueryError String :=
  match q.error, q.table with
  | some e, _ => .error e
  | none, none => .error .missingTable
  | none, some table => .ok table

/-- The pieces of the statement that reads the rows. -/
def pieces (q : Query) (d : Dialect) : Except QueryError (List Piece) := do
  let table ← q.validTable
  let joins ← q.joins.mapM joinPieces
  return .words "SELECT " :: (q.selectPieces ++ [.words " FROM ", .name table] ++ joins.flatten ++
    q.wherePieces ++ q.groupPieces ++ q.havingPieces ++ q.orderPieces ++ q.limitPieces d)

/-- The statement that reads the rows. -/
def toSql (q : Query) (d : Dialect) : Except QueryError Statement :=
  (q.pieces d).map (Sql.render d)

/-- The query without what does not change how many rows match. -/
def unordered (q : Query) : Query :=
  { q.reorder.withoutLimits with cursor := none }

/-- The pieces of the statement that counts the rows.  Folded rows are counted through a derived
table. -/
def countPieces (q : Query) (d : Dialect) : Except QueryError (List Piece) :=
  if q.unordered.isFolded then
    (q.unordered.pieces d).map fun inner =>
      [.words "SELECT COUNT(*) AS ", .name aggregateName, .words " FROM ("] ++ inner ++
        [.words ") AS ", .name aggregateTable]
  else (q.unordered.aggregateOf .count "*").pieces d

/-- The statement that counts the rows, whatever their order and however many are asked for. -/
def toCountSql (q : Query) (d : Dialect) : Except QueryError Statement :=
  (q.countPieces d).map (Sql.render d)

end Query

end Relational
