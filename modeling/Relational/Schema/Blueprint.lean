import Relational.Schema.Column
import Relational.Schema.Index
/-
Blueprints: what a table is to look like, or how it is to change.

A blueprint is a list of commands in the order they were given.  Nothing is checked while it is
written; that is left to the compiler, which knows the dialect.
-/
namespace Relational

/-- One command of a blueprint. -/
inductive BlueprintCommand where
  /-- Adds a column, or changes it if it is marked so. -/
  | column (c : Column)
  | index (i : Index)
  | foreign (fk : ForeignKey)
  | dropColumns (columns : List String)
  | renameColumn (source target : String)
  | dropIndex (target : ConstraintRef)
  | dropPrimary (name : Option String)
  | dropForeign (target : ConstraintRef)
  deriving DecidableEq, Repr

namespace BlueprintCommand

/-- The word for a command that needs a table to be there. -/
def describe : BlueprintCommand → String
  | column _ => "adding a column"
  | index _ => "adding an index"
  | foreign _ => "adding a foreign key"
  | dropColumns _ => "drop_column"
  | renameColumn .. => "rename_column"
  | dropIndex _ => "drop_index"
  | dropPrimary _ => "drop_primary"
  | dropForeign _ => "drop_foreign"

/-- The column of a command that adds or changes one. -/
def column? : BlueprintCommand → Option Column
  | column c => some c
  | _ => none

/-- The index of a command that adds one. -/
def index? : BlueprintCommand → Option Index
  | index i => some i
  | _ => none

/-- The foreign key of a command that adds one. -/
def foreign? : BlueprintCommand → Option ForeignKey
  | foreign fk => some fk
  | _ => none

/-- The column of a command that changes one. -/
def changed? (c : BlueprintCommand) : Option Column :=
  c.column?.filter (·.change)

end BlueprintCommand

/-- Whether a table is made or changed. -/
inductive BlueprintMode where
  | create
  | alter
  deriving DecidableEq, Repr

/-- The commands for one table. -/
structure Blueprint where
  table : String
  mode : BlueprintMode
  commands : List BlueprintCommand := []
  ifNotExists : Bool := false
  engine : Option String := none
  charset : Option String := none
  collation : Option String := none
  deriving DecidableEq, Repr

namespace Blueprint

/-- A blueprint for a new table. -/
def create (table : String) : Blueprint := { table, mode := .create }

/-- A blueprint for a table that is there. -/
def alter (table : String) : Blueprint := { table, mode := .alter }

/-! ### What was recorded -/

/-- The columns, in order. -/
def columns (b : Blueprint) : List Column :=
  b.commands.filterMap BlueprintCommand.column?

/-- The indexes, in order. -/
def indexes (b : Blueprint) : List Index :=
  b.commands.filterMap BlueprintCommand.index?

/-- The foreign keys, in order. -/
def foreignKeys (b : Blueprint) : List ForeignKey :=
  b.commands.filterMap BlueprintCommand.foreign?

/-- Whether the blueprint changes a column of a table that is there. -/
def changesColumns (b : Blueprint) : Bool :=
  b.mode == .alter && b.columns.any (·.change)

/-- Each command with the number of columns, indexes and foreign keys before it. -/
def numberedFrom (columns indexes foreignKeys : Nat) :
    List BlueprintCommand → List (BlueprintCommand × Nat)
  | [] => []
  | .column c :: rest => (.column c, columns) :: numberedFrom (columns + 1) indexes foreignKeys rest
  | .index i :: rest => (.index i, indexes) :: numberedFrom columns (indexes + 1) foreignKeys rest
  | .foreign fk :: rest =>
    (.foreign fk, foreignKeys) :: numberedFrom columns indexes (foreignKeys + 1) rest
  | other :: rest => (other, 0) :: numberedFrom columns indexes foreignKeys rest

/-- The commands; one that adds a column, an index or a foreign key comes with the place of that
definition among its like. -/
def numbered (b : Blueprint) : List (BlueprintCommand × Nat) :=
  numberedFrom 0 0 0 b.commands

/-! ### Recording -/

/-- Adds a command. -/
def record (b : Blueprint) (c : BlueprintCommand) : Blueprint :=
  { b with commands := b.commands ++ [c] }

/-- Adds a column. -/
def add (b : Blueprint) (c : Column) : Blueprint :=
  b.record (.column c)

/-- Adds the columns for when a row was created and changed. -/
def timestamps (b : Blueprint) : Blueprint :=
  Column.timestamps.foldl add b

/-- Adds an index; `modify` sets what is not usual about it. -/
def addIndex (b : Blueprint) (kind : IndexKind) (columns : List String) (modify : Index → Index) :
    Blueprint :=
  b.record (.index (modify { kind, columns }))

/-- Adds a foreign key on the blueprint's table; `modify` says what it refers to. -/
def addForeign (b : Blueprint) (columns : List String) (modify : ForeignKey → ForeignKey) :
    Blueprint :=
  b.record (.foreign (modify { table := b.table, columns }))

/-- Drops columns. -/
def dropColumns (b : Blueprint) (columns : List String) : Blueprint :=
  b.record (.dropColumns columns)

/-- Drops the columns for when a row was created and changed. -/
def dropTimestamps (b : Blueprint) : Blueprint :=
  b.dropColumns (Column.timestamps.map (·.name))

/-- Renames a column. -/
def renameColumn (b : Blueprint) (source target : String) : Blueprint :=
  b.record (.renameColumn source target)

/-- Drops an index by its name. -/
def dropIndex (b : Blueprint) (name : String) : Blueprint :=
  b.record (.dropIndex (.named name))

/-- Drops the index of a kind whose name was generated for these columns. -/
def dropIndexOn (b : Blueprint) (kind : IndexKind) (columns : List String) : Blueprint :=
  b.record (.dropIndex (.generated columns kind.suffix))

/-- Drops the primary key, by its name or the engine's usual one. -/
def dropPrimary (b : Blueprint) (name : Option String) : Blueprint :=
  b.record (.dropPrimary name)

/-- Drops a foreign key by its name. -/
def dropForeign (b : Blueprint) (name : String) : Blueprint :=
  b.record (.dropForeign (.named name))

/-- Drops the foreign key whose name was generated for these columns. -/
def dropForeignOn (b : Blueprint) (columns : List String) : Blueprint :=
  b.record (.dropForeign (.generated columns foreignSuffix))

end Blueprint

end Relational
