import Relational.Text.Casing
/-
Indexes and keys.

An index or key without a name gets one from its table, its columns and its kind.  The same table
and columns always give the same name, so that what was created without a name can be dropped
without one.
-/
namespace Relational

/-- The kind of an index. -/
inductive IndexKind where
  | index
  | unique
  | primary
  | spatial
  | fulltext
  deriving DecidableEq, Repr

/-- The word for the kind in generated names. -/
def IndexKind.suffix : IndexKind → String
  | index => "index"
  | unique => "unique"
  | primary => "primary"
  | spatial => "spatialindex"
  | fulltext => "fulltext"

/-- The word for a foreign key in generated names. -/
def foreignSuffix : String := "foreign"

/-- The generated name: table, columns and kind with underscores between them and for dots and
dashes, in lower case. -/
def defaultName (table : String) (columns : List String) (suffix : String) : String :=
  let joined := String.intercalate "_" (table :: (columns ++ [suffix]))
  Text.lowercase (joined.map fun c => if c = '-' ∨ c = '.' then '_' else c)

/-- An index over columns. -/
structure Index where
  kind : IndexKind
  columns : List String
  name : Option String := none
  /-- The index method. -/
  algorithm : Option String := none
  /-- The operator class of the columns. -/
  operatorClass : Option String := none
  deriving DecidableEq, Repr

/-- The given name, or the generated one. -/
def Index.nameOn (i : Index) (table : String) : String :=
  i.name.getD (defaultName table i.columns i.kind.suffix)

/-- What happens to the rows that refer to a row. -/
inductive ForeignAction where
  | cascade
  | setNull
  | restrict
  | noAction
  deriving DecidableEq, Repr

/-- The action in SQL. -/
def ForeignAction.sql : ForeignAction → String
  | cascade => "CASCADE"
  | setNull => "SET NULL"
  | restrict => "RESTRICT"
  | noAction => "NO ACTION"

/-- A foreign key. -/
structure ForeignKey where
  table : String
  columns : List String
  referencedTable : String := ""
  referencedColumns : List String := []
  onDelete : Option ForeignAction := none
  onUpdate : Option ForeignAction := none
  name : Option String := none
  deriving DecidableEq, Repr

/-- The given name, or the generated one. -/
def ForeignKey.resolvedName (fk : ForeignKey) : String :=
  fk.name.getD (defaultName fk.table fk.columns foreignSuffix)

/-- What to drop: a given name, or the name generated for some columns. -/
inductive ConstraintRef where
  | named (name : String)
  | generated (columns : List String) (suffix : String)
  deriving DecidableEq, Repr

namespace ConstraintRef

/-- Whether the name was given. -/
def isNamed : ConstraintRef → Bool
  | named _ => true
  | generated .. => false

/-- The name on a table. -/
def nameOn (r : ConstraintRef) (table : String) : String :=
  match r with
  | named name => name
  | generated columns suffix => defaultName table columns suffix

end ConstraintRef

end Relational
