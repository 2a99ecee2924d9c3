import Relational.Dialect.Basic
/-
What can be wrong with a schema change.
-/
namespace Relational

/-- Something a dialect cannot do. -/
inductive Feature where
  | jsonbColumns
  | rebuildingTable (table : String)
  | spatialIndexes
  | fulltextIndexes
  /-- A counter on a column that is not the primary key. -/
  | counterBesideKey (column : String)
  | addingKeyColumn (column : String)
  | addingRequiredColumn (column : String)
  | changingOutsideRebuild (column : String)
  /-- A change that makes a column a counter, under the dialect's word for one. -/
  | changingIntoCounter (column word : String)
  | changingFixedColumn (column : String)
  | addingPrimary
  | droppingPrimary
  | addingForeign
  | droppingForeign
  deriving DecidableEq, Repr

/-- The words for a feature. -/
def Feature.words : Feature → String
  | jsonbColumns => "jsonb columns"
  | rebuildingTable table => "rebuilding table '" ++ table ++ "'"
  | spatialIndexes => "spatial indexes"
  | fulltextIndexes => "full-text indexes"
  | counterBesideKey column => "auto-increment on non-primary column '" ++ column ++ "'"
  | addingKeyColumn column =>
    "adding primary key column '" ++ column ++ "' to an existing table"
  | addingRequiredColumn column => "adding NOT NULL column '" ++ column ++ "' without a default"
  | changingOutsideRebuild column => "changing '" ++ column ++ "' outside a table rebuild"
  | changingIntoCounter column word => "changing '" ++ column ++ "' into " ++ word ++ " column"
  | changingFixedColumn column =>
    "changing generated or primary key column '" ++ column ++ "'"
  | addingPrimary => "adding a primary key to an existing table"
  | droppingPrimary => "dropping a primary key"
  | addingForeign => "adding a foreign key to an existing table"
  | droppingForeign => "dropping a foreign key"

/-- What is wrong with a column. -/
inductive ColumnFault where
  | zeroLength
  | decimalShape
  | emptyEnum
  | counterType
  | counterDefault
  | counterNullable
  | unsignedType
  deriving DecidableEq, Repr

/-- What to tell the user about the column. -/
def ColumnFault.message : ColumnFault → String
  | zeroLength => "string length must be positive"
  | decimalShape => "decimal scale must not exceed a positive precision"
  | emptyEnum => "enum needs at least one allowed value"
  | counterType => "auto-increment requires an integer type"
  | counterDefault => "auto-increment columns cannot have a default"
  | counterNullable => "auto-increment columns cannot be nullable"
  | unsignedType => "unsigned requires a numeric type"

/-- What is wrong with an index or a key. -/
inductive ConstraintFault where
  | noColumns (kind : String)
  | foreignWithoutColumns
  | foreignWithoutTable
  | foreignArity
  | unnamedPrimary
  deriving DecidableEq, Repr

/-- What to tell the user about the constraint. -/
def ConstraintFault.message : ConstraintFault → String
  | noColumns kind => kind ++ " needs at least one column"
  | foreignWithoutColumns => "foreign key needs at least one column"
  | foreignWithoutTable => "foreign key needs a referenced table"
  | foreignArity => "foreign key must reference as many columns as it constrains"
  | unnamedPrimary => "dropping a primary key requires its constraint name"

/-- What is wrong with a blueprint as a whole, or with the table it is for. -/
inductive BlueprintFault where
  | noColumns
  | changeOnNewTable (column : String)
  | onlyExistingTables (command : String)
  | severalPrimaries
  | lateChange (d : Dialect)
  | definitionNeeded
  | noSuchColumn (column : String)
  | unreadableDefinition
  | noSuchTable
  deriving DecidableEq, Repr

/-- What to tell the user about the blueprint. -/
def BlueprintFault.message : BlueprintFault → String
  | noColumns => "a new table needs at least one column"
  | changeOnNewTable column => "column '" ++ column ++ "' is marked change() on a new table"
  | onlyExistingTables command => command ++ " only applies to existing tables"
  | severalPrimaries => "more than one primary key declared"
  | lateChange d =>
    "column changes must come before other commands on the " ++ d.id ++ " dialect"
  | definitionNeeded => "changing columns needs the stored table definition"
  | noSuchColumn column => "column '" ++ column ++ "' does not exist"
  | unreadableDefinition => "stored table definition could not be read"
  | noSuchTable => "table does not exist"

/-- Why a schema change cannot be compiled. -/
inductive SchemaError where
  | unsupported (d : Dialect) (feature : Feature)
  | invalidColumn (column : String) (fault : ColumnFault)
  | invalidConstraint (table : String) (fault : ConstraintFault)
  | invalidBlueprint (table : String) (fault : BlueprintFault)
  | invalidIdentifier (name : String)
  deriving DecidableEq, Repr

/-- What to tell the user. -/
def SchemaError.message : SchemaError → String
  | unsupported d feature => feature.words ++ " is not supported by the " ++ d.id ++ " dialect"
  | invalidColumn column fault => "invalid column '" ++ column ++ "': " ++ fault.message
  | invalidConstraint table fault =>
    "invalid constraint on '" ++ table ++ "': " ++ fault.message
  | invalidBlueprint table fault => "invalid blueprint for '" ++ table ++ "': " ++ fault.message
  | invalidIdentifier name => "invalid identifier '" ++ name ++ "'"

end Relational
