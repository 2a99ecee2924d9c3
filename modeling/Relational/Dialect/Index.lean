import Relational.Dialect.Table
/-
Indexes and keys in each dialect.
-/
namespace Relational.Dialect

/-! ### Primary keys -/

/-- A primary key inside a table's definition.  SQLite and PostgreSQL name it only if it has a
name, MySQL never, SQL Server always. -/
def primaryConstraint (d : Dialect) (table : String) (i : Index) : String :=
  let key := "PRIMARY KEY (" ++ d.quoteNames i.columns ++ ")"
  let named (name : String) : String := "CONSTRAINT " ++ d.quoteName name ++ " " ++ key
  match d, i.name with
  | mysql, _ => key
  | sqlServer, _ => named (i.nameOn table)
  | _, some name => named name
  | _, none => key

/-- Adds a primary key to a table. -/
def addPrimary (d : Dialect) (table : String) (i : Index) : Except SchemaError String :=
  match d with
  | sqlite => .error (.unsupported .sqlite .addingPrimary)
  | _ => .ok (d.alterTable table ++ " ADD " ++ d.primaryConstraint table i)

/-- Drops the primary key. -/
def dropPrimary (d : Dialect) (table : String) (name : Option String) :
    Except SchemaError String :=
  let drop (name : String) : String := d.alterTable table ++ " DROP CONSTRAINT " ++ d.quoteName name
  match d, name with
  | sqlite, _ => .error (.unsupported .sqlite .droppingPrimary)
  | postgres, name => .ok (drop (name.getD (table ++ "_pkey")))
  | mysql, _ => .ok (d.alterTable table ++ " DROP PRIMARY KEY")
  | sqlServer, some name => .ok (drop name)
  | sqlServer, none => .error (.invalidConstraint table .unnamedPrimary)

/-! ### Indexes -/

/-- Makes an index from its keyword. -/
def createIndexAs (d : Dialect) (keyword table : String) (i : Index) : String :=
  "CREATE " ++ keyword ++ " " ++ d.quoteName (i.nameOn table) ++ " ON " ++ d.quoteName table ++
    " (" ++ d.quoteNames i.columns ++ ")"

/-- Makes an index of PostgreSQL, where each column may have an operator class and a document
index is over an expression. -/
def createPostgresIndex (table : String) (i : Index) : Except SchemaError String :=
  let d := postgres
  let column (c : String) : String :=
    match i.operatorClass with
    | some operatorClass => d.quoteName c ++ " " ++ operatorClass
    | none => d.quoteName c
  let columns := String.intercalate ", " (i.columns.map column)
  let method := match i.algorithm with
    | some algorithm => " USING " ++ algorithm
    | none => ""
  let create (keyword rest : String) : String :=
    "CREATE " ++ keyword ++ " " ++ d.quoteName (i.nameOn table) ++ " ON " ++ d.quoteName table ++ rest
  match i.kind with
  | .primary => d.addPrimary table i
  | .index => .ok (create "INDEX" (method ++ " (" ++ columns ++ ")"))
  | .unique => .ok (create "UNIQUE INDEX" (method ++ " (" ++ columns ++ ")"))
  | .spatial => .ok (create "INDEX" (" USING gist (" ++ columns ++ ")"))
  | .fulltext =>
    .ok (create "INDEX" (" USING gin ((to_tsvector('english', " ++
      String.intercalate " || ' ' || " (i.columns.map d.quoteName) ++ ")))"))

/-- Makes an index. -/
def createIndex (d : Dialect) (table : String) (i : Index) : Except SchemaError String :=
  match d, i.kind with
  | postgres, _ => createPostgresIndex table i
  | d, .primary => d.addPrimary table i
  | mysql, kind =>
    let keyword := match kind with
      | .unique => "UNIQUE INDEX"
      | .spatial => "SPATIAL INDEX"
      | .fulltext => "FULLTEXT INDEX"
      | _ => "INDEX"
    let method := match i.algorithm with
      | some algorithm => " USING " ++ Text.uppercase algorithm
      | none => ""
    .ok (d.createIndexAs keyword table i ++ method)
  | d, .index => .ok (d.createIndexAs "INDEX" table i)
  | d, .unique => .ok (d.createIndexAs "UNIQUE INDEX" table i)
  | sqlServer, .spatial => .ok (d.createIndexAs "SPATIAL INDEX" table i)
  | d, .spatial => .error (.unsupported d .spatialIndexes)
  | d, .fulltext => .error (.unsupported d .fulltextIndexes)

/-- Drops an index; MySQL and SQL Server need the table for that. -/
def dropIndex (d : Dialect) (table name : String) : String :=
  match d with
  | mysql | sqlServer => "DROP INDEX " ++ d.quoteName name ++ " ON " ++ d.quoteName table
  | _ => "DROP INDEX " ++ d.quoteName name

/-! ### Foreign keys -/

/-- A foreign key inside a table's definition. -/
def foreignKeyClause (d : Dialect) (fk : ForeignKey) : String :=
  let action (word : String) (a : Option ForeignAction) : String :=
    match a with
    | some a => word ++ a.sql
    | none => ""
  "CONSTRAINT " ++ d.quoteName fk.resolvedName ++ " FOREIGN KEY (" ++ d.quoteNames fk.columns ++
    ") REFERENCES " ++ d.quoteName fk.referencedTable ++ " (" ++
    d.quoteNames fk.referencedColumns ++ ")" ++ action " ON DELETE " fk.onDelete ++
    action " ON UPDATE " fk.onUpdate

/-- Adds a foreign key to a table. -/
def addForeign (d : Dialect) (table : String) (fk : ForeignKey) : Except SchemaError String :=
  match d with
  | sqlite => .error (.unsupported .sqlite .addingForeign)
  | _ => .ok (d.alterTable table ++ " ADD " ++ d.foreignKeyClause fk)

/-- Drops a foreign key. -/
def dropForeign (d : Dialect) (table name : String) : Except SchemaError String :=
  match d with
  | sqlite => .error (.unsupported .sqlite .droppingForeign)
  | mysql => .ok (d.alterTable table ++ " DROP FOREIGN KEY " ++ d.quoteName name)
  | _ => .ok (d.alterTable table ++ " DROP CONSTRAINT " ++ d.quoteName name)

end Relational.Dialect
