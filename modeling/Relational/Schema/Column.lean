import Relational.Query.Operand
/-
Columns of a table, independent of any dialect.

A column is `NOT NULL` unless it is marked otherwise.  A counter is the primary key of its table
unless that is suppressed.
-/
namespace Relational

/-- The type of a column. -/
inductive ColumnType where
  | tinyInteger
  | smallInteger
  | mediumInteger
  | integer
  | bigInteger
  /-- Text of fixed length. -/
  | char (length : Nat)
  /-- Text of bounded length. -/
  | string (length : Nat)
  | text
  | mediumText
  | longText
  /-- Exact decimals: digits in all, and digits behind the point. -/
  | decimal (precision scale : Nat)
  | float
  | double
  | boolean
  | date
  | time
  | dateTime
  | timestamp
  | timestampTz
  | json
  | jsonb
  | uuid
  | binary
  /-- One of some texts. -/
  | enum (values : List String)
  deriving DecidableEq, Repr

namespace ColumnType

/-- Whether the values are whole numbers. -/
def isInteger : ColumnType → Bool
  | tinyInteger | smallInteger | mediumInteger | integer | bigInteger => true
  | _ => false

/-- Whether the values are numbers, so that a column of them can be unsigned. -/
def isNumeric : ColumnType → Bool
  | decimal .. | float | double => true
  | t => t.isInteger

end ColumnType

/-- The default of a column. -/
inductive DefaultValue where
  /-- A value, written with quotes where it needs them. -/
  | literal (v : Value)
  /-- A SQL expression, written as it is. -/
  | raw (sql : String)
  deriving DecidableEq, Repr

/-- An index asked for on the column itself: under a generated name or a given one. -/
inductive IndexFlag where
  | generated
  | named (name : String)
  deriving DecidableEq, Repr

/-- The given name. -/
def IndexFlag.name? : IndexFlag → Option String
  | generated => none
  | named name => some name

/-- A column. -/
structure Column where
  name : String
  type : ColumnType
  nullable : Bool := false
  default : Option DefaultValue := none
  unsigned : Bool := false
  /-- Counts up by itself. -/
  autoIncrement : Bool := false
  /-- Keeps a counter from being the primary key. -/
  suppressPrimary : Bool := false
  primary : Option IndexFlag := none
  unique : Option IndexFlag := none
  index : Option IndexFlag := none
  comment : Option String := none
  /-- The column this one should stand behind. -/
  after : Option String := none
  /-- On an existing table: changes the column instead of adding it. -/
  change : Bool := false
  deriving DecidableEq, Repr

namespace Column

/-- Whether the column is the table's primary key by counting up. -/
def isInlinePrimary (c : Column) : Bool :=
  c.autoIncrement && !c.suppressPrimary

/-- The column with a value as its default. -/
def withDefault {α : Type} [ToValue α] (c : Column) (a : α) : Column :=
  { c with default := some (.literal (toValue a)) }

/-- The column with an expression as its default. -/
def withRawDefault (c : Column) (sql : String) : Column :=
  { c with default := some (.raw sql) }

/-- The column with the current time as its default. -/
def useCurrent (c : Column) : Column :=
  c.withRawDefault "CURRENT_TIMESTAMP"

/-! ### Common columns -/

/-- An unsigned counter of thirty-two bits. -/
def increments (name : String) : Column :=
  { name, type := .integer, unsigned := true, autoIncrement := true }

/-- An unsigned counter of sixty-four bits. -/
def bigIncrements (name : String) : Column :=
  { name, type := .bigInteger, unsigned := true, autoIncrement := true }

/-- The usual primary key. -/
def id : Column :=
  bigIncrements "id"

/-- An unsigned integer of thirty-two bits. -/
def unsignedInteger (name : String) : Column :=
  { name, type := .integer, unsigned := true }

/-- An unsigned integer of sixty-four bits. -/
def unsignedBigInteger (name : String) : Column :=
  { name, type := .bigInteger, unsigned := true }

/-- A column that holds another table's `id`. -/
def foreignId (name : String) : Column :=
  unsignedBigInteger name

/-- A timestamp that may be missing. -/
def optionalTimestamp (name : String) : Column :=
  { name, type := .timestamp, nullable := true }

/-- When a row was created and last changed. -/
def timestamps : List Column :=
  [optionalTimestamp "created_at", optionalTimestamp "updated_at"]

/-- When a row was given up. -/
def deletedAt : Column :=
  optionalTimestamp "deleted_at"

end Column

end Relational
