import Relational.Dialect.Index
import Relational.Dialect.Rebuild
import Relational.Schema.Plan
/-
From schema changes to statements.

The compiler knows the dialect, the prefix in front of every table name, and, where a dialect
changes columns by building the table anew, the table's stored definition.  Statements come out in
the order they have to run in: a table first, then its indexes and comments.
-/
namespace Relational

/-- What compiling depends on besides the change itself. -/
structure SchemaCompiler where
  dialect : Dialect
  tablePrefix : String := ""
  snapshot : Option TableSnapshot := none

namespace SchemaCompiler

/-! ### Checks -/

/-- Refuses a name that is no identifier. -/
def checkName (name : String) : Except SchemaError Unit :=
  if Name.isColumn name then .ok () else .error (.invalidIdentifier name)

/-- What a column's type is wrong about, if anything. -/
def typeFault? : ColumnType → Option ColumnFault
  | .char 0 | .string 0 => some .zeroLength
  | .decimal precision scale =>
    if precision = 0 ∨ precision < scale then some .decimalShape else none
  | .enum [] => some .emptyEnum
  | _ => none

/-- What a column is wrong about, if anything. -/
def columnFault? (c : Column) : Option ColumnFault :=
  (typeFault? c.type).or <|
    if c.autoIncrement && !c.type.isInteger then some .counterType
    else if c.autoIncrement && c.default.isSome then some .counterDefault
    else if c.autoIncrement && c.nullable then some .counterNullable
    else if c.unsigned && !c.type.isNumeric then some .unsignedType
    else none

/-- Refuses a column that cannot be. -/
def checkColumn (c : Column) : Except SchemaError Unit := do
  checkName c.name
  match columnFault? c with
  | some fault => .error (.invalidColumn c.name fault)
  | none =>
    match c.after with
    | some column => checkName column
    | none => .ok ()

/-- Refuses an index without columns or with a column that has no name. -/
def checkIndex (table : String) (i : Index) : Except SchemaError Unit :=
  if i.columns.isEmpty then .error (.invalidConstraint table (.noColumns i.kind.suffix))
  else i.columns.forM checkName

/-- Refuses a foreign key that does not refer to as many columns of a named table. -/
def checkForeign (fk : ForeignKey) : Except SchemaError Unit := do
  if fk.columns.isEmpty then .error (.invalidConstraint fk.table .foreignWithoutColumns)
  else if fk.referencedTable.isEmpty then
    .error (.invalidConstraint fk.table .foreignWithoutTable)
  else if fk.referencedColumns.length ≠ fk.columns.length then
    .error (.invalidConstraint fk.table .foreignArity)
  else
    checkName fk.referencedTable
    (fk.columns ++ fk.referencedColumns).forM checkName

/-! ### Parts that new and changed tables share -/

/-- A table's name behind the prefix. -/
def tableName (k : SchemaCompiler) (table : String) : String :=
  k.tablePrefix ++ table

/-- A foreign key with the prefix in front of both tables. -/
def prefixedForeign (k : SchemaCompiler) (fk : ForeignKey) : ForeignKey :=
  { fk with
    table := k.tableName fk.table
    referencedTable :=
      if fk.referencedTable.isEmpty then fk.referencedTable else k.tableName fk.referencedTable }

/-- An index asked for on a column. -/
def flaggedIndex (kind : IndexKind) (c : Column) (flag : IndexFlag) : Index :=
  { kind, columns := [c.name], name := flag.name? }

/-- The statements for the indexes asked for on a column: the unique one, then the plain one. -/
def columnIndexes (k : SchemaCompiler) (table : String) (c : Column) :
    Except SchemaError (List String) :=
  let flagged := (c.unique.map (flaggedIndex .unique c)).toList ++
    (c.index.map (flaggedIndex .index c)).toList
  flagged.mapM (k.dialect.createIndex table)

/-- The statement for a column's comment, unless the definition holds it. -/
def columnComment (k : SchemaCompiler) (table : String) (c : Column) : List String :=
  match c.comment with
  | none => []
  | some comment =>
    if (k.dialect.inlineComment comment).isSome then []
    else (k.dialect.commentStatement table c.name comment).toList

/-! ### New tables -/

/-- What a command contributes to a new table. -/
structure CreatePart where
  columns : List String := []
  constraints : List String := []
  trailing : List String := []
  /-- Number of columns that are the primary key by counting up. -/
  inlinePrimaries : Nat := 0
  /-- Columns marked primary. -/
  marked : List (String × IndexFlag) := []
  /-- Primary keys declared by themselves. -/
  declared : List Index := []

/-- The contribution of one command. -/
def createPart (k : SchemaCompiler) (table : String) :
    BlueprintCommand → Except SchemaError CreatePart
  | .column c => do
    checkColumn c
    if c.change then .error (.invalidBlueprint table (.changeOnNewTable c.name))
    else
      let definition ← k.dialect.columnDefinition c
      let indexes ← k.columnIndexes table c
      return {
        columns := [definition]
        trailing := indexes ++ k.columnComment table c
        inlinePrimaries := if c.isInlinePrimary then 1 else 0
        marked := (c.primary.map fun flag => (c.name, flag)).toList }
  | .index i => do
    checkIndex table i
    if i.kind = .primary then return { declared := [i] }
    else
      let statement ← k.dialect.createIndex table i
      return { trailing := [statement] }
  | .foreign fk => do
    let fk := k.prefixedForeign fk
    checkForeign fk
    return { constraints := [k.dialect.foreignKeyClause fk] }
  | command => .error (.invalidBlueprint table (.onlyExistingTables command.describe))

/-- The primary key declared by itself, or the one over all columns marked so. -/
def primaryKey? (parts : List CreatePart) : Option Index :=
  match parts.flatMap (·.declared), parts.flatMap (·.marked) with
  | i :: _, _ => some i
  | [], [] => none
  | [], marked =>
    some { kind := .primary, columns := marked.map Prod.fst, name := marked.findSome? (·.2.name?) }

/-- Number of ways in which a primary key is declared. -/
def primarySources (parts : List CreatePart) : Nat :=
  (parts.map (·.inlinePrimaries)).foldl (· + ·) 0 +
    (if (parts.flatMap (·.marked)).isEmpty then 0 else 1) + (parts.flatMap (·.declared)).length

/-- The storage options of a new table, if any are set and the dialect has such. -/
def optionsOf (k : SchemaCompiler) (b : Blueprint) : String :=
  if b.engine.isSome || b.charset.isSome || b.collation.isSome then
    (k.dialect.tableOptions b.engine b.charset b.collation).getD ""
  else ""

/-- The statements that make a table. -/
def compileCreate (k : SchemaCompiler) (b : Blueprint) : Except SchemaError (List String) := do
  let table := k.tableName b.table
  if b.columns.isEmpty then .error (.invalidBlueprint table .noColumns)
  else
    let parts ← b.commands.mapM (k.createPart table)
    if 1 < primarySources parts then .error (.invalidBlueprint table .severalPrimaries)
    else
      let body := parts.flatMap (·.columns) ++
        ((primaryKey? parts).map (k.dialect.primaryConstraint table)).toList ++
        parts.flatMap (·.constraints)
      return (k.dialect.createTable table b.ifNotExists body ++ k.optionsOf b) ::
        parts.flatMap (·.trailing)

/-! ### Changed tables -/

/-- One rebuild for all changed columns.  The stored definition is the table's before the
blueprint runs, so the changes have to come before all other commands. -/
def rebuild (k : SchemaCompiler) (table : String) (b : Blueprint) :
    Except SchemaError (List String) := do
  let leading := b.commands.takeWhile (·.changed?.isSome)
  let others := b.commands.dropWhile (·.changed?.isSome)
  if others.any (·.changed?.isSome) then
    .error (.invalidBlueprint table (.lateChange k.dialect))
  else
    let changes := leading.filterMap (·.changed?)
    changes.forM checkColumn
    match k.snapshot.filter (·.table == table) with
    | some snapshot => k.dialect.rebuildTable snapshot changes
    | none => .error (.invalidBlueprint table .definitionNeeded)

/-- The statements that add or change a column; `rebuilt` says that a rebuild has changed all
columns already. -/
def alterColumn (k : SchemaCompiler) (table : String) (b : Blueprint) (rebuilt : Bool)
    (c : Column) : Except SchemaError (List String) := do
  checkColumn c
  let statements ←
    if c.change && k.dialect.rebuildsTables then
      if rebuilt then .ok [] else k.rebuild table b
    else if c.change then k.dialect.modifyColumn table c
    else (k.dialect.addColumn table c).map ([·])
  let key ← match c.primary with
    | some flag => (k.dialect.addPrimary table (flaggedIndex .primary c flag)).map ([·])
    | none => .ok []
  let indexes ← k.columnIndexes table c
  return statements ++ key ++ indexes ++ k.columnComment table c

/-- The statements of one command on a table that is there. -/
def alterCommand (k : SchemaCompiler) (table : String) (b : Blueprint) (rebuilt : Bool) :
    BlueprintCommand → Except SchemaError (List String)
  | .column c => k.alterColumn table b rebuilt c
  | .index i => do
    checkIndex table i
    (k.dialect.createIndex table i).map ([·])
  | .foreign fk => do
    let fk := k.prefixedForeign fk
    checkForeign fk
    (k.dialect.addForeign table fk).map ([·])
  | .dropColumns columns =>
    columns.mapM fun column => do
      checkName column
      return k.dialect.dropColumn table column
  | .renameColumn source target => do
    checkName source
    checkName target
    return [k.dialect.renameColumn table source target]
  | .dropIndex target => .ok [k.dialect.dropIndex table (target.nameOn table)]
  | .dropPrimary name => (k.dialect.dropPrimary table name).map ([·])
  | .dropForeign target => (k.dialect.dropForeign table (target.nameOn table)).map ([·])

/-- The statements of the commands from here on. -/
def alterCommands (k : SchemaCompiler) (table : String) (b : Blueprint) :
    Bool → List BlueprintCommand → Except SchemaError (List String)
  | _, [] => .ok []
  | rebuilt, command :: rest => do
    let statements ← k.alterCommand table b rebuilt command
    let later ← k.alterCommands table b (rebuilt || command.changed?.isSome) rest
    return statements ++ later

/-- The statements that change a table. -/
def compileAlter (k : SchemaCompiler) (b : Blueprint) : Except SchemaError (List String) :=
  k.alterCommands (k.tableName b.table) b false b.commands

/-! ### Whole changes -/

/-- The statements of a blueprint. -/
def compile (k : SchemaCompiler) (b : Blueprint) : Except SchemaError (List String) := do
  checkName b.table
  match b.mode with
  | .create => k.compileCreate b
  | .alter => k.compileAlter b

/-- The statements of a schema change. -/
def compileOperation (k : SchemaCompiler) : SchemaOperation → Except SchemaError (List String)
  | .table b => k.compile b
  | .drop table => do
    checkName table
    return [k.dialect.dropTable (k.tableName table)]
  | .dropIfExists table => do
    checkName table
    return [k.dialect.dropTableIfExists (k.tableName table)]
  | .rename source target => do
    checkName source
    checkName target
    return [k.dialect.renameTable (k.tableName source) (k.tableName target)]
  | .raw sql => .ok [sql]

/-- The statements of a plan. -/
def compilePlan (k : SchemaCompiler) (plan : SchemaPlan) : Except SchemaError (List String) := do
  return (← plan.mapM k.compileOperation).flatten

end SchemaCompiler

end Relational
