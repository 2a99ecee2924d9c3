import Relational.Dialect.Catalog
import Relational.Dialect.Table
import Relational.Schema.Snapshot
/-
Changing columns by building the table anew.

SQLite cannot change a column.  A copy of the table is made from its stored definition with the new
columns in place of the old ones, the rows are copied over, and the copy takes the table's name.
All of it runs inside a savepoint with the checking of foreign keys off, so that it can be given up
at any point.
-/
namespace Relational.Dialect

/-- The savepoint around a rebuild. -/
def rebuildSavepoint : String := "quarry_rebuild"

/-- The name of the copy of a table. -/
def copyName (table : String) : String :=
  "__quarry_tmp_" ++ table

/-- Refuses a change of a column that is not there, or that has to stay as it is. -/
def checkChange (s : TableSnapshot) (c : Column) : Except SchemaError Unit :=
  if c.autoIncrement then
    .error (.unsupported .sqlite (.changingIntoCounter c.name "an auto-increment"))
  else match s.column? c.name with
    | none => .error (.invalidBlueprint s.table (.noSuchColumn c.name))
    | some item =>
      if item.isGenerated || item.isInlinePrimary then
        .error (.unsupported .sqlite (.changingFixedColumn c.name))
      else .ok ()

/-- Reads the old value of a column as a value of its new type; a required column with a default
takes that where there is none. -/
def copyExpression (stored : String) (c : Column) : Except SchemaError String := do
  let d := sqlite
  let type ← d.typeName c
  let cast := "CAST(" ++ d.quoteSegment stored ++ " AS " ++ type ++ ")"
  return match c.default with
    | some v =>
      if c.nullable then cast else "COALESCE(" ++ cast ++ ", " ++ d.renderDefault v ++ ")"
    | none => cast

/-- An entry of the copy's definition, and the column it is filled from. -/
structure CopiedItem where
  definition : String
  /-- Target and source, unless nothing is copied. -/
  transfer : Option (String × String)
  deriving DecidableEq, Repr

/-- An entry of the copy: a changed column as it is to be, keeping its reference to another table,
and everything else as it was. -/
def copyItem (changes : List Column) (item : TableItem) : Except SchemaError CopiedItem :=
  let d := sqlite
  match item.name? with
  | none => .ok ⟨item.sql, none⟩
  | some name =>
    match changes.find? (Text.eqIgnoringCase ·.name name) with
    | some c => do
      let definition ← d.columnDefinition c
      let source ← copyExpression name c
      let references := match item.references? with
        | some clause => " " ++ clause
        | none => ""
      return ⟨definition ++ references, some (d.quoteName c.name, source)⟩
    | none =>
      .ok ⟨item.sql,
        if item.isGenerated then none else some (d.quoteSegment name, d.quoteSegment name)⟩

/-- The statements of a rebuild with the given entries. -/
def rebuildStatements (s : TableSnapshot) (items : List CopiedItem) : List String :=
  let d := sqlite
  let copy := copyName s.table
  let transfers := items.filterMap (·.transfer)
  let create := d.createTable copy false (items.map (·.definition)) ++
    (if s.options.isEmpty then "" else " " ++ s.options)
  let insert := "INSERT INTO " ++ d.quoteName copy ++ " (" ++
    String.intercalate ", " (transfers.map Prod.fst) ++ ") SELECT " ++
    String.intercalate ", " (transfers.map Prod.snd) ++ " FROM " ++ d.quoteName s.table
  d.disableForeignKeys.toList ++
    ["SAVEPOINT " ++ rebuildSavepoint, d.dropTableIfExists copy, create, insert,
      d.dropTable s.table, d.renameTable copy s.table] ++
    s.dependents ++ ["RELEASE " ++ rebuildSavepoint] ++ d.enableForeignKeys.toList

/-- The statements that build a table anew with some columns changed and keep its rows. -/
def rebuildTable (d : Dialect) (s : TableSnapshot) (changes : List Column) :
    Except SchemaError (List String) :=
  match d with
  | sqlite => do
    changes.forM (checkChange s)
    let items ← s.items.mapM (copyItem changes)
    return rebuildStatements s items
  | d => .error (.unsupported d (.rebuildingTable s.table))

/-- The statements that give up a rebuild that failed part of the way. -/
def abandonRebuild : Dialect → List String
  | sqlite =>
    ["ROLLBACK TO " ++ rebuildSavepoint, "RELEASE " ++ rebuildSavepoint] ++
      sqlite.enableForeignKeys.toList
  | _ => []

end Relational.Dialect
