import Relational.Schema.Column
import Relational.Schema.Error
/-
Column definitions in each dialect.

Types that an engine lacks become the nearest one it has.  What an engine cannot declare about a
column, an unsigned number or a fixed set of texts, a check makes up for.
-/
namespace Relational.Dialect

/-! ### Types -/

/-- SQLite keeps five kinds of values, so its types are few. -/
def sqliteType : ColumnType → Except SchemaError String
  | .tinyInteger | .smallInteger | .mediumInteger | .integer | .bigInteger | .boolean =>
    .ok "INTEGER"
  | .decimal .. => .ok "NUMERIC"
  | .float | .double => .ok "REAL"
  | .char _ | .string _ | .text | .mediumText | .longText | .date | .time | .dateTime
  | .timestamp | .timestampTz | .json | .uuid | .enum _ => .ok "TEXT"
  | .binary => .ok "BLOB"
  | .jsonb => .error (.unsupported .sqlite .jsonbColumns)

/-- A type with one number. -/
def sized (name : String) (n : Nat) : String :=
  name ++ "(" ++ toString n ++ ")"

/-- A decimal type. -/
def decimalType (precision scale : Nat) : String :=
  "DECIMAL(" ++ toString precision ++ ", " ++ toString scale ++ ")"

/-- PostgreSQL's type of a column that does not count up. -/
def postgresType : ColumnType → String
  | .tinyInteger | .smallInteger => "SMALLINT"
  | .mediumInteger | .integer => "INTEGER"
  | .bigInteger => "BIGINT"
  | .char n => sized "CHAR" n
  | .string n => sized "VARCHAR" n
  | .text | .mediumText | .longText => "TEXT"
  | .decimal precision scale => decimalType precision scale
  | .float => "REAL"
  | .double => "DOUBLE PRECISION"
  | .boolean => "BOOLEAN"
  | .date => "DATE"
  | .time => "TIME"
  | .dateTime | .timestamp => "TIMESTAMP"
  | .timestampTz => "TIMESTAMPTZ"
  | .json => "JSON"
  | .jsonb => "JSONB"
  | .uuid => "UUID"
  | .binary => "BYTEA"
  | .enum _ => "VARCHAR(255)"

/-- PostgreSQL's type of a counter. -/
def serialType : ColumnType → String
  | .tinyInteger | .smallInteger => "SMALLSERIAL"
  | .mediumInteger | .integer => "SERIAL"
  | _ => "BIGSERIAL"

/-- MySQL's type, without its sign. -/
def mysqlType : ColumnType → Except SchemaError String
  | .tinyInteger => .ok "TINYINT"
  | .smallInteger => .ok "SMALLINT"
  | .mediumInteger => .ok "MEDIUMINT"
  | .integer => .ok "INT"
  | .bigInteger => .ok "BIGINT"
  | .char n => .ok (sized "CHAR" n)
  | .string n => .ok (sized "VARCHAR" n)
  | .text => .ok "TEXT"
  | .mediumText => .ok "MEDIUMTEXT"
  | .longText => .ok "LONGTEXT"
  | .decimal precision scale => .ok (decimalType precision scale)
  | .float => .ok "FLOAT"
  | .double => .ok "DOUBLE"
  | .boolean => .ok "TINYINT(1)"
  | .date => .ok "DATE"
  | .time => .ok "TIME"
  | .dateTime => .ok "DATETIME"
  | .timestamp | .timestampTz => .ok "TIMESTAMP"
  | .json => .ok "JSON"
  | .jsonb => .error (.unsupported .mysql .jsonbColumns)
  | .uuid => .ok "CHAR(36)"
  | .binary => .ok "BLOB"
  | .enum values => .ok ("ENUM(" ++ mysql.quoteTexts values ++ ")")

/-- SQL Server's type. -/
def sqlServerType : ColumnType → Except SchemaError String
  | .tinyInteger => .ok "TINYINT"
  | .smallInteger => .ok "SMALLINT"
  | .mediumInteger | .integer => .ok "INT"
  | .bigInteger => .ok "BIGINT"
  | .char n => .ok (sized "NCHAR" n)
  | .string n => .ok (sized "NVARCHAR" n)
  | .text | .mediumText | .longText | .json => .ok "NVARCHAR(MAX)"
  | .decimal precision scale => .ok (decimalType precision scale)
  | .float => .ok "REAL"
  | .double => .ok "FLOAT"
  | .boolean => .ok "BIT"
  | .date => .ok "DATE"
  | .time => .ok "TIME"
  | .dateTime | .timestamp => .ok "DATETIME2"
  | .timestampTz => .ok "DATETIMEOFFSET"
  | .jsonb => .error (.unsupported .sqlServer .jsonbColumns)
  | .uuid => .ok "UNIQUEIDENTIFIER"
  | .binary => .ok "VARBINARY(MAX)"
  | .enum _ => .ok "NVARCHAR(255)"

/-- The type of a column. -/
def typeName (d : Dialect) (c : Column) : Except SchemaError String :=
  match d with
  | sqlite => sqliteType c.type
  | postgres => .ok (if c.autoIncrement then serialType c.type else postgresType c.type)
  | mysql => do
    let name ← mysqlType c.type
    return if c.unsigned && c.type.isNumeric then name ++ " UNSIGNED" else name
  | sqlServer => sqlServerType c.type

/-! ### The parts of a definition -/

/-- What makes a column count up, with a space in front. -/
def autoIncrementClause (d : Dialect) (c : Column) : Except SchemaError String :=
  match d, c.isInlinePrimary with
  | sqlite, true => .ok " PRIMARY KEY AUTOINCREMENT"
  | sqlite, false => .error (.unsupported .sqlite (.counterBesideKey c.name))
  | postgres, true => .ok " PRIMARY KEY"
  | postgres, false => .ok ""
  | mysql, true => .ok " AUTO_INCREMENT PRIMARY KEY"
  | mysql, false => .ok " AUTO_INCREMENT"
  | sqlServer, true => .ok " IDENTITY(1,1) PRIMARY KEY"
  | sqlServer, false => .ok " IDENTITY(1,1)"

/-- A default. -/
def renderDefault (d : Dialect) : DefaultValue → String
  | .raw sql => sql
  | .literal (.bool b) => d.boolLiteral b
  | .literal (.text s) => d.quoteText s
  | .literal v => v.inline

/-- The conditions that make up for what the engine cannot declare. -/
def columnConditions (d : Dialect) (c : Column) : List String :=
  (match c.type with
    | .enum values =>
      if d.hasEnum then [] else [d.quoteName c.name ++ " IN (" ++ d.quoteTexts values ++ ")"]
    | _ => []) ++
    (if c.unsigned && !d.hasUnsigned then [d.quoteName c.name ++ " >= 0"] else [])

/-- The check on a column, if it needs one. -/
def columnCheck (d : Dialect) (c : Column) : Option String :=
  match d.columnConditions c with
  | [] => none
  | conditions => some ("CHECK (" ++ String.intercalate " AND " conditions ++ ")")

/-- A comment inside the definition, with a space in front, where the engine has such. -/
def inlineComment (d : Dialect) (comment : String) : Option String :=
  match d with
  | mysql => some (" COMMENT " ++ d.quoteText comment)
  | _ => none

/-- A statement that attaches a comment to a column, where the engine has such. -/
def commentStatement (d : Dialect) (table column comment : String) : Option String :=
  match d with
  | postgres =>
    some ("COMMENT ON COLUMN " ++ d.quoteName table ++ "." ++ d.quoteName column ++ " IS " ++
      d.quoteText comment)
  | sqlServer =>
    some ("EXEC sp_addextendedproperty N'MS_Description', " ++ d.quoteText comment ++
      ", N'SCHEMA', N'dbo', N'TABLE', " ++ d.quoteText table ++ ", N'COLUMN', " ++
      d.quoteText column)
  | _ => none

/-- Whether `NULL` is allowed, with a space in front. -/
def nullability (c : Column) : String :=
  if c.nullable then " NULL" else " NOT NULL"

/-- The definition of a column, as it stands in the table's definition. -/
def columnDefinition (d : Dialect) (c : Column) : Except SchemaError String := do
  let type ← d.typeName c
  let counter ← if c.autoIncrement then d.autoIncrementClause c else .ok ""
  let default := match c.default with
    | some v => " DEFAULT " ++ d.renderDefault v
    | none => ""
  let check := match d.columnCheck c with
    | some check => " " ++ check
    | none => ""
  let comment := (c.comment.bind d.inlineComment).getD ""
  let place := match c.after with
    | some column => if d.placesColumns then " AFTER " ++ d.quoteName column else ""
    | none => ""
  return d.quoteName c.name ++ " " ++ type ++ nullability c ++ default ++ counter ++ check ++
    comment ++ place

end Relational.Dialect
