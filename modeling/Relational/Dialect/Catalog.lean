import Relational.Sql
/-
What each engine tells about its own tables, and the switch for its foreign keys.
-/
namespace Relational.Dialect

/-- Counts the tables of that name. -/
def hasTable (d : Dialect) (table : String) : Statement :=
  let sql := match d with
    | sqlite =>
      "SELECT COUNT(*) AS aggregate FROM sqlite_master WHERE type = 'table' AND name = ?"
    | postgres =>
      "SELECT COUNT(*) AS aggregate FROM information_schema.tables " ++
        "WHERE table_schema = current_schema() AND table_name = $1 AND table_type = 'BASE TABLE'"
    | mysql =>
      "SELECT COUNT(*) AS aggregate FROM information_schema.tables " ++
        "WHERE table_schema = DATABASE() AND table_name = ? AND table_type = 'BASE TABLE'"
    | sqlServer =>
      "SELECT COUNT(*) AS aggregate FROM INFORMATION_SCHEMA.TABLES " ++
        "WHERE TABLE_NAME = @p1 AND TABLE_TYPE = 'BASE TABLE'"
  ⟨sql, [.text table]⟩

/-- Counts the columns of that name in a table. -/
def hasColumn (d : Dialect) (table column : String) : Statement :=
  let sql := match d with
    | sqlite => "SELECT COUNT(*) AS aggregate FROM pragma_table_info(?) WHERE name = ?"
    | postgres =>
      "SELECT COUNT(*) AS aggregate FROM information_schema.columns " ++
        "WHERE table_schema = current_schema() AND table_name = $1 AND column_name = $2"
    | mysql =>
      "SELECT COUNT(*) AS aggregate FROM information_schema.columns " ++
        "WHERE table_schema = DATABASE() AND table_name = ? AND column_name = ?"
    | sqlServer =>
      "SELECT COUNT(*) AS aggregate FROM INFORMATION_SCHEMA.COLUMNS " ++
        "WHERE TABLE_NAME = @p1 AND COLUMN_NAME = @p2"
  ⟨sql, [.text table, .text column]⟩

/-- Lists the names of the user's tables. -/
def listTables : Dialect → String
  | sqlite =>
    "SELECT name FROM sqlite_master WHERE type = 'table' AND name NOT LIKE 'sqlite_%' ORDER BY name"
  | postgres =>
    "SELECT table_name AS name FROM information_schema.tables " ++
      "WHERE table_schema = current_schema() AND table_type = 'BASE TABLE' ORDER BY table_name"
  | mysql =>
    "SELECT table_name AS name FROM information_schema.tables " ++
      "WHERE table_schema = DATABASE() AND table_type = 'BASE TABLE' ORDER BY table_name"
  | sqlServer =>
    "SELECT TABLE_NAME AS name FROM INFORMATION_SCHEMA.TABLES " ++
      "WHERE TABLE_TYPE = 'BASE TABLE' ORDER BY TABLE_NAME"

/-- Reads the stored definition of a table and of what hangs on it, where the engine stores it. -/
def tableDefinition (d : Dialect) (table : String) : Option Statement :=
  match d with
  | sqlite =>
    some ⟨"SELECT type, sql FROM sqlite_master WHERE tbl_name = ? AND sql IS NOT NULL ORDER BY rowid",
      [.text table]⟩
  | _ => none

/-- Turns the checking of foreign keys off, where dropping all tables needs that. -/
def disableForeignKeys : Dialect → Option String
  | sqlite => some "PRAGMA foreign_keys = OFF"
  | postgres => none
  | mysql => some "SET FOREIGN_KEY_CHECKS = 0"
  | sqlServer => some "EXEC sp_MSforeachtable 'ALTER TABLE ? NOCHECK CONSTRAINT all'"

/-- Turns the checking of foreign keys back on. -/
def enableForeignKeys : Dialect → Option String
  | sqlite => some "PRAGMA foreign_keys = ON"
  | postgres => none
  | mysql => some "SET FOREIGN_KEY_CHECKS = 1"
  | sqlServer => some "EXEC sp_MSforeachtable 'ALTER TABLE ? WITH CHECK CHECK CONSTRAINT all'"

end Relational.Dialect
