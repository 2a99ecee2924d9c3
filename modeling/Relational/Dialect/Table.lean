import Relational.Dialect.Column
import Relational.Schema.Index
/-
Statements on whole tables and on their columns, in each dialect.
-/
namespace Relational.Dialect

/-! ### Tables -/

/-- Makes a table of definitions that are written already. -/
def createTable (d : Dialect) (table : String) (ifNotExists : Bool) (body : List String) : String :=
  "CREATE TABLE " ++ (if ifNotExists then "IF NOT EXISTS " else "") ++ d.quoteName table ++ " (" ++
    String.intercalate ", " body ++ ")"

/-- Storage engine, character set and collation, where a table can have such. -/
def tableOptions (d : Dialect) (engine charset collation : Option String) : Option String :=
  let option (word : String) (value : Option String) : String :=
    match value with
    | some v => word ++ v
    | none => ""
  match d with
  | mysql => some (option " ENGINE = " engine ++ option " DEFAULT CHARACTER SET " charset ++
      option " COLLATE " collation)
  | _ => none

/-- Drops a table that is there. -/
def dropTable (d : Dialect) (table : String) : String :=
  "DROP TABLE " ++ d.quoteName table

/-- Drops a table if it is there. -/
def dropTableIfExists (d : Dialect) (table : String) : String :=
  "DROP TABLE IF EXISTS " ++ d.quoteName table

/-- Drops a table when all are dropped, whatever depends on it. -/
def dropTableForWipe (d : Dialect) (table : String) : String :=
  match d with
  | postgres => d.dropTableIfExists table ++ " CASCADE"
  | _ => d.dropTableIfExists table

/-- Renames a table. -/
def renameTable (d : Dialect) (source target : String) : String :=
  match d with
  | mysql => "RENAME TABLE " ++ d.quoteName source ++ " TO " ++ d.quoteName target
  | sqlServer => "EXEC sp_rename " ++ d.quoteText source ++ ", " ++ d.quoteText target
  | _ => "ALTER TABLE " ++ d.quoteName source ++ " RENAME TO " ++ d.quoteName target

/-- The start of a statement that changes a table. -/
def alterTable (d : Dialect) (table : String) : String :=
  "ALTER TABLE " ++ d.quoteName table

/-! ### Columns -/

/-- Adds a column.  SQLite cannot add a key, nor a required column that old rows have no value
for. -/
def addColumn (d : Dialect) (table : String) (c : Column) : Except SchemaError String :=
  match d with
  | sqlite =>
    if c.autoIncrement || c.primary.isSome then
      .error (.unsupported .sqlite (.addingKeyColumn c.name))
    else if !c.nullable && c.default.isNone then
      .error (.unsupported .sqlite (.addingRequiredColumn c.name))
    else do return d.alterTable table ++ " ADD COLUMN " ++ (← d.columnDefinition c)
  | sqlServer => do return d.alterTable table ++ " ADD " ++ (← d.columnDefinition c)
  | _ => do return d.alterTable table ++ " ADD COLUMN " ++ (← d.columnDefinition c)

/-- Drops a column. -/
def dropColumn (d : Dialect) (table column : String) : String :=
  d.alterTable table ++ " DROP COLUMN " ++ d.quoteName column

/-- Renames a column. -/
def renameColumn (d : Dialect) (table source target : String) : String :=
  match d with
  | sqlServer =>
    "EXEC sp_rename " ++ d.quoteText (table ++ "." ++ source) ++ ", " ++ d.quoteText target ++
      ", N'COLUMN'"
  | _ =>
    d.alterTable table ++ " RENAME COLUMN " ++ d.quoteName source ++ " TO " ++ d.quoteName target

/-- The name PostgreSQL gives the check of a column, used for SQL Server as well. -/
def checkName (table column : String) : String :=
  table ++ "_" ++ column ++ "_check"

/-- The name of the default of a column. -/
def defaultConstraintName (table column : String) : String :=
  table ++ "_" ++ column ++ "_default"

/-- Changes a column in PostgreSQL: check, type, nullability and default each have a statement. -/
def modifyPostgresColumn (table : String) (c : Column) : List String :=
  let d := postgres
  let check := d.quoteName (checkName table c.name)
  let type := postgresType c.type
  let alterColumn := d.alterTable table ++ " ALTER COLUMN " ++ d.quoteName c.name
  [d.alterTable table ++ " DROP CONSTRAINT IF EXISTS " ++ check,
    alterColumn ++ " TYPE " ++ type ++ " USING " ++ d.quoteName c.name ++ "::" ++ type,
    alterColumn ++ (if c.nullable then " DROP NOT NULL" else " SET NOT NULL"),
    alterColumn ++ (match c.default with
      | some v => " SET DEFAULT " ++ d.renderDefault v
      | none => " DROP DEFAULT")] ++
    (match d.columnCheck c with
      | some condition => [d.alterTable table ++ " ADD CONSTRAINT " ++ check ++ " " ++ condition]
      | none => [])

/-- The batch that drops the checks and the default bound to a column of SQL Server, which would
keep it from being changed. -/
def dropBoundConstraints (table column : String) : String :=
  let d := sqlServer
  let object := d.quoteText (d.quoteName table)
  let columnId :=
    "COLUMNPROPERTY(OBJECT_ID(" ++ object ++ "), " ++ d.quoteText column ++ ", 'ColumnId')"
  let drop := d.quoteText (d.alterTable table ++ " DROP CONSTRAINT ")
  let collect (source : String) : String :=
    "SELECT @sql += " ++ drop ++ " + QUOTENAME(name) + N'; ' FROM sys." ++ source ++
      " WHERE parent_object_id = OBJECT_ID(" ++ object ++ ") AND "
  "DECLARE @sql NVARCHAR(MAX) = N''; " ++ collect "default_constraints" ++
    "parent_column_id = " ++ columnId ++ "; " ++ collect "check_constraints" ++
    "(parent_column_id = " ++ columnId ++ " OR name = " ++ d.quoteText (checkName table column) ++
    "); EXEC sp_executesql @sql"

/-- Changes a column in SQL Server: what is bound to it goes first and comes back last. -/
def modifySqlServerColumn (table : String) (c : Column) : Except SchemaError (List String) := do
  let d := sqlServer
  let type ← d.typeName c
  return [dropBoundConstraints table c.name,
    d.alterTable table ++ " ALTER COLUMN " ++ d.quoteName c.name ++ " " ++ type ++ nullability c] ++
    (match c.default with
      | some v => [d.alterTable table ++ " ADD CONSTRAINT " ++
          d.quoteName (defaultConstraintName table c.name) ++ " DEFAULT " ++ d.renderDefault v ++
          " FOR " ++ d.quoteName c.name]
      | none => []) ++
    (match d.columnCheck c with
      | some condition => [d.alterTable table ++ " ADD CONSTRAINT " ++
          d.quoteName (checkName table c.name) ++ " " ++ condition]
      | none => [])

/-- The statements that change a column to its new definition. -/
def modifyColumn (d : Dialect) (table : String) (c : Column) : Except SchemaError (List String) :=
  match d with
  | sqlite => .error (.unsupported .sqlite (.changingOutsideRebuild c.name))
  | postgres =>
    if c.autoIncrement then .error (.unsupported .postgres (.changingIntoCounter c.name "a serial"))
    else .ok (modifyPostgresColumn table c)
  | mysql => do return [d.alterTable table ++ " MODIFY COLUMN " ++ (← d.columnDefinition c)]
  | sqlServer =>
    if c.autoIncrement then
      .error (.unsupported .sqlServer (.changingIntoCounter c.name "an identity"))
    else modifySqlServerColumn table c

end Relational.Dialect
