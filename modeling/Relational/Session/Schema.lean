import Relational.Schema.Compiler
import Relational.Session.Runner
/-
Running schema changes.

A blueprint that changes columns, in a dialect that builds tables anew for that, is compiled
against the definition the engine has stored, and what it started is given up if it fails part of
the way.  Everything else is compiled first and run statement by statement.
-/
namespace Relational

/-- Runs schema changes. -/
structure Schema (σ : Type) where
  executor : Executor σ
  tablePrefix : String := ""
  /-- Whether text that looks like a number is read as one in result rows. -/
  normalizeNumeric : Bool := false

namespace Schema

variable {σ : Type}

/-- The compiler for the executor's dialect. -/
def compiler (s : Schema σ) : SchemaCompiler :=
  { dialect := s.executor.dialect, tablePrefix := s.tablePrefix }

/-- Runs queries on the same executor. -/
def queries (s : Schema σ) : QueryRunner σ :=
  { executor := s.executor, normalizeNumeric := s.normalizeNumeric }

/-- Finished statements, or the error in the change. -/
def compiled {α : Type} (statements : Except SchemaError α) : Action σ α :=
  Action.ofExcept .schema statements

/-! ### Changes -/

/-- Runs one schema change. -/
def apply (s : Schema σ) (operation : SchemaOperation) : Action σ Unit := do
  s.executor.executeAll (← compiled (s.compiler.compileOperation operation))

/-- Runs a plan, all of which is compiled first. -/
def run (s : Schema σ) (plan : SchemaPlan) : Action σ Unit := do
  s.executor.executeAll (← compiled (s.compiler.compilePlan plan))

/-- The stored definition of a table, if the engine has one. -/
def snapshot (s : Schema σ) (table : String) : Action σ (Option TableSnapshot) := do
  let name := s.compiler.tableName table
  match s.executor.dialect.tableDefinition name with
  | none => return none
  | some statement =>
    let rows ← s.executor.query statement.sql statement.bindings
    if rows.isEmpty then return none
    else some <$> compiled (TableSnapshot.ofRows name rows)

/-- Runs a blueprint. -/
def blueprint (s : Schema σ) (b : Blueprint) : Action σ Unit := do
  let d := s.executor.dialect
  if b.changesColumns && d.rebuildsTables then
    let snapshot ← s.snapshot b.table
    let statements ← compiled (({ s.compiler with snapshot }).compile b)
    s.executor.executeScript statements d.abandonRebuild
  else
    s.executor.executeAll (← compiled (s.compiler.compile b))

/-- Runs a statement as it is. -/
def statement (s : Schema σ) (sql : String) : Action σ UInt64 :=
  s.executor.execute sql []

/-! ### Questions -/

/-- Whether a query counts at least one. -/
def countsAny (s : Schema σ) (statement : Statement) : Action σ Bool := do
  match ← s.executor.fetchValue statement with
  | some (.int n) => return 0 < n
  | _ => return false

/-- Whether there is a table. -/
def hasTable (s : Schema σ) (table : String) : Action σ Bool :=
  s.countsAny (s.executor.dialect.hasTable (s.compiler.tableName table))

/-- Whether a table has a column. -/
def hasColumn (s : Schema σ) (table column : String) : Action σ Bool :=
  s.countsAny (s.executor.dialect.hasColumn (s.compiler.tableName table) column)

/-- The text in a row's first column. -/
def firstText? (row : Row) : Option String :=
  match row.first? with
  | some (.text s) => some s
  | _ => none

/-- The names of all tables. -/
def tables (s : Schema σ) : Action σ (List String) := do
  return (← s.executor.query s.executor.dialect.listTables []).filterMap firstText?

/-- Drops all tables, with the checking of foreign keys off, and returns their names. -/
def dropAll (s : Schema σ) : Action σ (List String) := do
  let d := s.executor.dialect
  let names ← s.tables
  let enable := d.enableForeignKeys.toList
  s.executor.executeScript
    (d.disableForeignKeys.toList ++ names.map d.dropTableForWipe ++ enable) enable
  return names

end Schema

end Relational
