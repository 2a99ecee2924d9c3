import Relational.Query.Select
/-
Statements that write rows.

A write goes to one plain table: no alias, no joins, no paging.  Updates and deletes reach the rows
the query's conditions select.
-/
namespace Relational.Query

/-- The table, of a query that a statement may write to. -/
def writableTable (q : Query) (kind : WriteKind) : Except QueryError String := do
  let table ← q.validTable
  if (Name.splitAlias? table).isSome then
    .error (.invalidStatement (.aliasedTarget kind))
  else if !q.joins.isEmpty then .error (.invalidStatement (.joinedTarget kind))
  else if q.limit.isSome || q.offset.isSome then .error (.invalidStatement (.limitedTarget kind))
  else .ok table

/-- Refuses names that are no columns. -/
def checkColumns (clause : Clause) (columns : List String) : Except QueryError Unit :=
  columns.forM (Conditions.checkColumn clause)

/-! ### Insert -/

/-- The value of a column in row `n`. -/
def valueIn (n : Nat) (row : Row) (column : String) : Except QueryError Value :=
  match row.get? column with
  | some v => .ok v
  | none => .error (.invalidStatement (.rowColumn n column))

/-- The values of row `n` in the order of `columns`; the row has those columns and no others. -/
def groupPiecesOf (columns : List String) (n : Nat) (row : Row) :
    Except QueryError (List Piece) := do
  if row.size ≠ columns.length then .error (.invalidStatement (.rowSize n))
  else
    let values ← columns.mapM (valueIn n row)
    return [.words "("] ++ Sql.separated ", " (values.map fun v => [.bound v]) ++ [.words ")"]

/-- The value groups of the rows, counted from `n`. -/
def valueGroups (columns : List String) : Nat → List Row → Except QueryError (List (List Piece))
  | _, [] => .ok []
  | n, row :: rest => do
    let group ← groupPiecesOf columns n row
    let groups ← valueGroups columns (n + 1) rest
    return group :: groups

/-- The pieces of the statement that inserts `rows`; the first row says which columns there
are. -/
def insertPieces (q : Query) (rows : List Row) : Except QueryError (List Piece) := do
  let table ← q.writableTable .insert
  match rows with
  | [] => .error (.invalidStatement .noRows)
  | first :: _ =>
    if first.columns.isEmpty then .error (.invalidStatement .noColumns)
    else
      checkColumns .insert first.columns
      let groups ← valueGroups first.columns 0 rows
      return [.words "INSERT INTO ", .name table, .words " ("] ++
        Sql.separated ", " (first.columns.map fun c => [.name c]) ++ [.words ") VALUES "] ++
        Sql.separated ", " groups

/-- The statement that inserts `rows`. -/
def insertSql (q : Query) (d : Dialect) (rows : List Row) : Except QueryError Statement :=
  (q.insertPieces rows).map (Sql.render d)

/-! ### Update and delete -/

/-- The pieces of the statement that sets columns of the selected rows. -/
def updatePieces (q : Query) (assignments : Row) : Except QueryError (List Piece) := do
  let table ← q.writableTable .update
  if assignments.columns.isEmpty then .error (.invalidStatement .noAssignments)
  else
    checkColumns .update assignments.columns
    return [.words "UPDATE ", .name table, .words " SET "] ++
      Sql.separated ", "
        (assignments.toList.map fun (column, v) => [.name column, .words " = ", .bound v]) ++
      q.filterPieces

/-- The statement that sets columns of the selected rows. -/
def updateSql (q : Query) (d : Dialect) (assignments : Row) : Except QueryError Statement :=
  (q.updatePieces assignments).map (Sql.render d)

/-- The pieces of the statement that deletes the selected rows. -/
def deletePieces (q : Query) : Except QueryError (List Piece) := do
  let table ← q.writableTable .delete
  return [.words "DELETE FROM ", .name table] ++ q.filterPieces

/-- The statement that deletes the selected rows. -/
def deleteSql (q : Query) (d : Dialect) : Except QueryError Statement :=
  q.deletePieces.map (Sql.render d)

end Relational.Query
