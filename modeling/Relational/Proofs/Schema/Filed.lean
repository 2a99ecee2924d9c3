import Relational.Proofs.Schema.InOrder
import Relational.Proofs.Schema.Keyed
import Relational.Proofs.Schema.Unnamed
/-
Definitions filed by kind.

A blueprint can also be kept with its definitions apart from its commands: in a list of columns,
one of indexes and one of foreign keys, and a command then names its definition by the place that
it has among its like.  Such a command is good for nothing unless there is a definition in that
place, and a definition that no command names is never compiled.

Both ways of keeping a blueprint record the same calls.  One call does to the filed blueprint what
filing makes of the call on the blueprint itself, so this holds of any number of them, and it is
enough to look at what filing does: it numbers the definitions of each kind in their order.
-/
namespace Relational

/-! ### Blueprints by place -/

/-- A command that names its definition by the place among its like. -/
inductive FiledCommand where
  | column (place : Nat)
  | index (place : Nat)
  | foreign (place : Nat)
  | dropColumns (columns : List String)
  | renameColumn (source target : String)
  | dropIndex (target : ConstraintRef)
  | dropPrimary (name : Option String)
  | dropForeign (target : ConstraintRef)
  deriving DecidableEq, Repr

namespace FiledCommand

/-- The place of the column that the command names. -/
def column? : FiledCommand → Option Nat
  | column place => some place
  | _ => none

/-- The place of the index that the command names. -/
def index? : FiledCommand → Option Nat
  | index place => some place
  | _ => none

/-- The place of the foreign key that the command names. -/
def foreign? : FiledCommand → Option Nat
  | foreign place => some place
  | _ => none

/-- A command whose definition is filed in a place. -/
def ofNumbered : BlueprintCommand × Nat → FiledCommand
  | (.column _, place) => column place
  | (.index _, place) => index place
  | (.foreign _, place) => foreign place
  | (.dropColumns columns, _) => dropColumns columns
  | (.renameColumn source target, _) => renameColumn source target
  | (.dropIndex target, _) => dropIndex target
  | (.dropPrimary name, _) => dropPrimary name
  | (.dropForeign target, _) => dropForeign target

end FiledCommand

/-- A blueprint with its definitions filed by kind. -/
structure FiledBlueprint where
  table : String
  mode : BlueprintMode
  columns : List Column := []
  indexes : List Index := []
  foreignKeys : List ForeignKey := []
  commands : List FiledCommand := []
  ifNotExists : Bool := false
  engine : Option String := none
  charset : Option String := none
  collation : Option String := none
  deriving DecidableEq, Repr

namespace FiledBlueprint

/-- The command with its definition, if there is one in that place. -/
def command? (f : FiledBlueprint) : FiledCommand → Option BlueprintCommand
  | .column place => f.columns[place]?.map .column
  | .index place => f.indexes[place]?.map .index
  | .foreign place => f.foreignKeys[place]?.map .foreign
  | .dropColumns columns => some (.dropColumns columns)
  | .renameColumn source target => some (.renameColumn source target)
  | .dropIndex target => some (.dropIndex target)
  | .dropPrimary name => some (.dropPrimary name)
  | .dropForeign target => some (.dropForeign target)

/-- The blueprint whose commands hold their definitions, if every place that a command names has
one. -/
def unfiled? (f : FiledBlueprint) : Option Blueprint :=
  (f.commands.mapM f.command?).map fun commands =>
    { table := f.table, mode := f.mode, commands, ifNotExists := f.ifNotExists, engine := f.engine
      charset := f.charset, collation := f.collation }

/-- The places that the commands name are those of the definitions, each once and in order. -/
structure InPlace (f : FiledBlueprint) : Prop where
  columns : f.commands.filterMap FiledCommand.column? = List.range f.columns.length
  indexes : f.commands.filterMap FiledCommand.index? = List.range f.indexes.length
  foreignKeys : f.commands.filterMap FiledCommand.foreign? = List.range f.foreignKeys.length

end FiledBlueprint

/-! ### Calls -/

/-- What can be asked of a blueprint.  A definition that was recorded is handed out to be modified,
until the next call. -/
inductive BlueprintCall where
  | ifNotExists
  | engine (name : String)
  | charset (name : String)
  | collation (name : String)
  /-- One column: any kind of column is a name, a type and what is usual for that kind. -/
  | column (name : String) (type : ColumnType) (modify : Column → Column)
  /-- When a row was created and last changed. -/
  | timestamps
  | index (kind : IndexKind) (columns : List String) (modify : Index → Index)
  | foreign (columns : List String) (modify : ForeignKey → ForeignKey)
  | dropColumns (columns : List String)
  | dropTimestamps
  | renameColumn (source target : String)
  | dropIndex (name : String)
  | dropIndexOn (kind : IndexKind) (columns : List String)
  | dropPrimary (name : Option String)
  | dropForeign (name : String)
  | dropForeignOn (columns : List String)

namespace Blueprint

/-- The blueprint after a call. -/
def after (b : Blueprint) : BlueprintCall → Blueprint
  | .ifNotExists => { b with ifNotExists := true }
  | .engine name => { b with engine := some name }
  | .charset name => { b with charset := some name }
  | .collation name => { b with collation := some name }
  | .column name type modify => b.add (modify { name, type })
  | .timestamps => b.timestamps
  | .index kind columns modify => b.addIndex kind columns modify
  | .foreign columns modify => b.addForeign columns modify
  | .dropColumns columns => b.dropColumns columns
  | .dropTimestamps => b.dropTimestamps
  | .renameColumn source target => b.renameColumn source target
  | .dropIndex name => b.dropIndex name
  | .dropIndexOn kind columns => b.dropIndexOn kind columns
  | .dropPrimary name => b.dropPrimary name
  | .dropForeign name => b.dropForeign name
  | .dropForeignOn columns => b.dropForeignOn columns

/-- The blueprint that some calls make. -/
def ofCalls (mode : BlueprintMode) (table : String) (calls : List BlueprintCall) : Blueprint :=
  calls.foldl after { table, mode }

end Blueprint

namespace FiledBlueprint

/-- Files a column behind the others and names its place, then modifies it there. -/
def fileColumn (f : FiledBlueprint) (name : String) (type : ColumnType) (modify : Column → Column) :
    FiledBlueprint :=
  { f with
    columns := (f.columns ++ [({ name, type } : Column)]).modify f.columns.length modify
    commands := f.commands ++ [.column f.columns.length] }

/-- Files an index behind the others and names its place, then modifies it there. -/
def fileIndex (f : FiledBlueprint) (kind : IndexKind) (columns : List String)
    (modify : Index → Index) : FiledBlueprint :=
  { f with
    indexes := (f.indexes ++ [({ kind, columns } : Index)]).modify f.indexes.length modify
    commands := f.commands ++ [.index f.indexes.length] }

/-- Files a foreign key behind the others and names its place, then modifies it there. -/
def fileForeign (f : FiledBlueprint) (columns : List String) (modify : ForeignKey → ForeignKey) :
    FiledBlueprint :=
  { f with
    foreignKeys := (f.foreignKeys ++ [({ table := f.table, columns } : ForeignKey)]).modify
      f.foreignKeys.length modify
    commands := f.commands ++ [.foreign f.foreignKeys.length] }

/-- Adds a command that needs no definition. -/
def record (f : FiledBlueprint) (command : FiledCommand) : FiledBlueprint :=
  { f with commands := f.commands ++ [command] }

/-- The filed blueprint after a call. -/
def after (f : FiledBlueprint) : BlueprintCall → FiledBlueprint
  | .ifNotExists => { f with ifNotExists := true }
  | .engine name => { f with engine := some name }
  | .charset name => { f with charset := some name }
  | .collation name => { f with collation := some name }
  | .column name type modify => f.fileColumn name type modify
  | .timestamps =>
    (f.fileColumn "created_at" .timestamp ({ · with nullable := true })).fileColumn "updated_at"
      .timestamp ({ · with nullable := true })
  | .index kind columns modify => f.fileIndex kind columns modify
  | .foreign columns modify => f.fileForeign columns modify
  | .dropColumns columns => f.record (.dropColumns columns)
  | .dropTimestamps => f.record (.dropColumns ["created_at", "updated_at"])
  | .renameColumn source target => f.record (.renameColumn source target)
  | .dropIndex name => f.record (.dropIndex (.named name))
  | .dropIndexOn kind columns => f.record (.dropIndex (.generated columns kind.suffix))
  | .dropPrimary name => f.record (.dropPrimary name)
  | .dropForeign name => f.record (.dropForeign (.named name))
  | .dropForeignOn columns => f.record (.dropForeign (.generated columns foreignSuffix))

/-- The filed blueprint that some calls make. -/
def ofCalls (mode : BlueprintMode) (table : String) (calls : List BlueprintCall) : FiledBlueprint :=
  calls.foldl after { table, mode }

end FiledBlueprint

/-! ### Filing -/

namespace Blueprint

/-- The blueprint with its definitions filed. -/
def filed (b : Blueprint) : FiledBlueprint :=
  { table := b.table, mode := b.mode, columns := b.columns, indexes := b.indexes
    foreignKeys := b.foreignKeys, commands := b.numbered.map FiledCommand.ofNumbered
    ifNotExists := b.ifNotExists, engine := b.engine, charset := b.charset
    collation := b.collation }

variable {commands : List BlueprintCommand}

theorem numberedFrom_concat (i j n : Nat) (commands : List BlueprintCommand)
    (command : BlueprintCommand) :
    numberedFrom i j n (commands ++ [command]) =
      numberedFrom i j n commands ++
        numberedFrom (i + (commands.filterMap (·.column?)).length)
          (j + (commands.filterMap (·.index?)).length)
          (n + (commands.filterMap (·.foreign?)).length) [command] := by
  induction commands generalizing i j n with
  | nil => rfl
  | cons first rest ih =>
      cases first <;>
        simp [numberedFrom, ih, BlueprintCommand.column?, BlueprintCommand.index?,
          BlueprintCommand.foreign?, Nat.add_assoc, Nat.add_comm 1]

/-- One more command is filed behind the others. -/
theorem filed_record (b : Blueprint) (command : BlueprintCommand) :
    (b.record command).filed =
      { b.filed with
        columns := b.columns ++ command.column?.toList
        indexes := b.indexes ++ command.index?.toList
        foreignKeys := b.foreignKeys ++ command.foreign?.toList
        commands := b.filed.commands ++
          (numberedFrom b.columns.length b.indexes.length b.foreignKeys.length [command]).map
            FiledCommand.ofNumbered } := by
  have hnumbered : (b.record command).numbered = b.numbered ++
      numberedFrom b.columns.length b.indexes.length b.foreignKeys.length [command] := by
    rw [numbered, record, numberedFrom_concat]
    simp [numbered, columns, indexes, foreignKeys]
  simp only [filed, hnumbered, List.map_append]
  cases command <;>
    simp [record, columns, indexes, foreignKeys, BlueprintCommand.column?, BlueprintCommand.index?,
      BlueprintCommand.foreign?]

theorem modify_concat {α : Type} (xs : List α) (x : α) (f : α → α) :
    (xs ++ [x]).modify xs.length f = xs ++ [f x] := by
  rw [List.modify_eq_take_drop]
  simp

theorem filed_add (b : Blueprint) (name : String) (type : ColumnType) (modify : Column → Column) :
    (b.add (modify { name, type })).filed = b.filed.fileColumn name type modify := by
  rw [add, filed_record, FiledBlueprint.fileColumn, show b.filed.columns = b.columns from rfl,
    modify_concat]
  simp [filed, numberedFrom, FiledCommand.ofNumbered, BlueprintCommand.column?,
    BlueprintCommand.index?, BlueprintCommand.foreign?]

theorem filed_addIndex (b : Blueprint) (kind : IndexKind) (columns : List String)
    (modify : Index → Index) :
    (b.addIndex kind columns modify).filed = b.filed.fileIndex kind columns modify := by
  rw [addIndex, filed_record, FiledBlueprint.fileIndex, show b.filed.indexes = b.indexes from rfl,
    modify_concat]
  simp [filed, numberedFrom, FiledCommand.ofNumbered, BlueprintCommand.column?,
    BlueprintCommand.index?, BlueprintCommand.foreign?]

theorem filed_addForeign (b : Blueprint) (columns : List String)
    (modify : ForeignKey → ForeignKey) :
    (b.addForeign columns modify).filed = b.filed.fileForeign columns modify := by
  rw [addForeign, filed_record, FiledBlueprint.fileForeign,
    show b.filed.foreignKeys = b.foreignKeys from rfl, modify_concat]
  simp [filed, numberedFrom, FiledCommand.ofNumbered, BlueprintCommand.column?,
    BlueprintCommand.index?, BlueprintCommand.foreign?]

/-- A command without a definition is filed as it is. -/
theorem filed_record_of_none (b : Blueprint) {command : BlueprintCommand}
    (hcolumn : command.column? = none) (hindex : command.index? = none)
    (hforeign : command.foreign? = none) :
    (b.record command).filed = b.filed.record (FiledCommand.ofNumbered (command, 0)) := by
  rw [filed_record, hcolumn, hindex, hforeign, FiledBlueprint.record]
  cases command with
  | column => cases hcolumn
  | index => cases hindex
  | foreign => cases hforeign
  | _ => simp [filed, numberedFrom]

theorem filed_timestamps (b : Blueprint) : b.timestamps.filed = b.filed.after .timestamps := by
  have hadd : ∀ (b : Blueprint) (name : String), (b.add (.optionalTimestamp name)).filed =
      b.filed.fileColumn name .timestamp ({ · with nullable := true }) :=
    fun b name => b.filed_add name .timestamp ({ · with nullable := true })
  have htwo : b.timestamps =
      (b.add (.optionalTimestamp "created_at")).add (.optionalTimestamp "updated_at") := rfl
  rw [htwo, hadd, hadd]
  rfl

/-- A call does to the filed blueprint what it does to the blueprint. -/
theorem filed_after (b : Blueprint) (call : BlueprintCall) :
    (b.after call).filed = b.filed.after call := by
  cases call with
  | ifNotExists | engine | charset | collation => rfl
  | column name type modify => exact b.filed_add name type modify
  | timestamps => exact b.filed_timestamps
  | index kind columns modify => exact b.filed_addIndex kind columns modify
  | foreign columns modify => exact b.filed_addForeign columns modify
  | _ => exact b.filed_record_of_none rfl rfl rfl

theorem filed_ofCalls (mode : BlueprintMode) (table : String) (calls : List BlueprintCall) :
    (ofCalls mode table calls).filed = FiledBlueprint.ofCalls mode table calls := by
  have hrun : ∀ b : Blueprint,
      (calls.foldl after b).filed = calls.foldl FiledBlueprint.after b.filed := by
    induction calls with
    | nil => exact fun _ => rfl
    | cons call rest ih =>
        intro b
        rw [List.foldl_cons, ih, filed_after]
        rfl
  exact hrun { table, mode }

/-! ### Places -/

/-- The definitions of each kind are numbered in their order. -/
theorem places_numberedFrom (i j n : Nat) (commands : List BlueprintCommand) :
    ((numberedFrom i j n commands).map FiledCommand.ofNumbered).filterMap FiledCommand.column? =
        List.range' i (commands.filterMap BlueprintCommand.column?).length ∧
      ((numberedFrom i j n commands).map FiledCommand.ofNumbered).filterMap FiledCommand.index? =
        List.range' j (commands.filterMap BlueprintCommand.index?).length ∧
      ((numberedFrom i j n commands).map FiledCommand.ofNumbered).filterMap FiledCommand.foreign? =
        List.range' n (commands.filterMap BlueprintCommand.foreign?).length := by
  induction commands generalizing i j n with
  | nil => exact ⟨rfl, rfl, rfl⟩
  | cons command rest ih =>
      cases command with
      | column c =>
          obtain ⟨hcolumns, hindexes, hforeign⟩ := ih (i + 1) j n
          exact ⟨congrArg (i :: ·) hcolumns, hindexes, hforeign⟩
      | index own =>
          obtain ⟨hcolumns, hindexes, hforeign⟩ := ih i (j + 1) n
          exact ⟨hcolumns, congrArg (j :: ·) hindexes, hforeign⟩
      | foreign fk =>
          obtain ⟨hcolumns, hindexes, hforeign⟩ := ih i j (n + 1)
          exact ⟨hcolumns, hindexes, congrArg (n :: ·) hforeign⟩
      | _ => exact ih i j n

theorem inPlace_filed (b : Blueprint) : b.filed.InPlace := by
  obtain ⟨hcolumns, hindexes, hforeign⟩ := places_numberedFrom 0 0 0 b.commands
  rw [← List.range_eq_range'] at hcolumns hindexes hforeign
  exact ⟨hcolumns, hindexes, hforeign⟩

/-- The definitions from a place on, of which there is a first one. -/
theorem drop_eq_cons {α : Type} {xs rest : List α} {x : α} {i : Nat} (h : xs.drop i = x :: rest) :
    xs[i]? = some x ∧ xs.drop (i + 1) = rest := by
  constructor
  · rw [← List.head?_drop, h, List.head?_cons]
  · rw [← List.tail_drop, h, List.tail_cons]

theorem mapM_cons_of_some {α β : Type} {f : α → Option β} {x : α} {xs : List α} {y : β}
    {ys : List β} (hfirst : f x = some y) (hrest : xs.mapM f = some ys) :
    (x :: xs).mapM f = some (y :: ys) := by
  rw [List.mapM_cons, hfirst, hrest]
  rfl

/-- Commands that are numbered from the places of their definitions on are found with them. -/
theorem mapM_command? (f : FiledBlueprint) (i j n : Nat) (commands : List BlueprintCommand)
    (hcolumns : f.columns.drop i = commands.filterMap BlueprintCommand.column?)
    (hindexes : f.indexes.drop j = commands.filterMap BlueprintCommand.index?)
    (hforeign : f.foreignKeys.drop n = commands.filterMap BlueprintCommand.foreign?) :
    ((numberedFrom i j n commands).map FiledCommand.ofNumbered).mapM f.command? =
      some commands := by
  induction commands generalizing i j n with
  | nil => rfl
  | cons command rest ih =>
      cases command with
      | column c =>
          obtain ⟨hfirst, hrest⟩ := drop_eq_cons hcolumns
          have hfound : f.command? (.column i) = some (.column c) := by
            rw [FiledBlueprint.command?, hfirst, Option.map_some]
          exact mapM_cons_of_some hfound (ih (i + 1) j n hrest hindexes hforeign)
      | index own =>
          obtain ⟨hfirst, hrest⟩ := drop_eq_cons hindexes
          have hfound : f.command? (.index j) = some (.index own) := by
            rw [FiledBlueprint.command?, hfirst, Option.map_some]
          exact mapM_cons_of_some hfound (ih i (j + 1) n hcolumns hrest hforeign)
      | foreign fk =>
          obtain ⟨hfirst, hrest⟩ := drop_eq_cons hforeign
          have hfound : f.command? (.foreign n) = some (.foreign fk) := by
            rw [FiledBlueprint.command?, hfirst, Option.map_some]
          exact mapM_cons_of_some hfound (ih i j (n + 1) hcolumns hindexes hrest)
      | _ => exact mapM_cons_of_some rfl (ih i j n hcolumns hindexes hforeign)

/-- Filing loses nothing. -/
theorem unfiled?_filed (b : Blueprint) : b.filed.unfiled? = some b := by
  have hcommands : b.filed.commands.mapM b.filed.command? = some b.commands :=
    mapM_command? b.filed 0 0 0 b.commands rfl rfl rfl
  rw [FiledBlueprint.unfiled?, hcommands]
  rfl

end Blueprint

/-! ### What is compiled -/

namespace SchemaCompiler

variable {k : SchemaCompiler} {b : Blueprint} {statements : List String}

/-- What a command contributes behind the statement for a new table. -/
def behindTable (k : SchemaCompiler) (table : String) :
    BlueprintCommand → Except SchemaError (List String)
  | .column c => do
    let indexes ← k.columnIndexes table c
    return indexes ++ k.columnComment table c
  | .index i =>
    if i.kind = .primary then .ok [] else do
      let statement ← k.dialect.createIndex table i
      return [statement]
  | _ => .ok []

theorem behindTable_of_createPart {table : String} {command : BlueprintCommand} {part : CreatePart}
    (h : k.createPart table command = .ok part) :
    k.behindTable table command = .ok part.trailing := by
  cases command with
  | column c =>
      obtain ⟨⟨⟩, -, h⟩ := exists_of_bind h
      change (if c.change then _ else _) = _ at h
      split at h
      · cases h
      obtain ⟨s, -, h⟩ := exists_of_bind h
      obtain ⟨indexes, hindexes, h⟩ := exists_of_bind h
      cases h
      rw [behindTable, hindexes]
      rfl
  | index i =>
      obtain ⟨⟨⟩, -, h⟩ := exists_of_bind h
      change (if i.kind = .primary then _ else _) = _ at h
      rw [behindTable]
      split at h
      · rename_i hkind
        cases h
        exact if_pos hkind
      · rename_i hkind
        obtain ⟨statement, hstatement, h⟩ := exists_of_bind h
        cases h
        rw [if_neg hkind, hstatement]
        rfl
  | foreign fk =>
      obtain ⟨⟨⟩, -, h⟩ := exists_of_bind h
      cases h
      rfl
  | _ => cases h

/-- The statements make a new table of everything that is recorded.  The first one has the
definitions of all columns, one key at most and all foreign keys, in this order; what the columns
and the other indexes need besides is behind it. -/
structure MakesOfAll (k : SchemaCompiler) (b : Blueprint) (statements : List String) : Prop where
  table : ∃ definitions behind,
    List.Forall₂ (fun c s => k.dialect.columnDefinition c = .ok s) b.columns definitions ∧
      InTurn (k.behindTable (k.tableName b.table)) b.commands (.ok behind) ∧
      statements = (k.dialect.createTable (k.tableName b.table) b.ifNotExists
        (definitions ++ k.constraintsOf b) ++ k.optionsOf b) :: behind
  /-- An index that is the key is compiled as that key, and there is no other. -/
  key : b.indexes.filter (·.kind = .primary) = [] ∨
    ∃ i, b.indexes.filter (·.kind = .primary) = [i] ∧ b.primaryKey? = some i

/-- The statements are those of the one rebuild that makes all changes, and behind them what the
commands contribute besides. -/
def RebuildsWithAll (k : SchemaCompiler) (b : Blueprint) (statements : List String) : Prop :=
  ∃ s script later, k.snapshot = some s ∧ s.table = k.tableName b.table ∧
    Dialect.rebuildTable .sqlite s (b.columns.filter (·.change)) = .ok script ∧
    InTurn (k.contribution b) b.commands (.ok later) ∧ statements = script ++ later

theorem makesOfAll_of_compileCreate (h : k.compileCreate b = .ok statements) :
    k.MakesOfAll b statements := by
  have hsources : b.primarySources ≤ 1 := by
    obtain ⟨create, trailing, -, hone⟩ := oneKey_compileCreate h
    exact hone.sources
  obtain ⟨parts, hparts, -, rfl⟩ := compileCreate_eq_ok h
  have hall := forall₂_of_mapM hparts
  refine ⟨⟨parts.flatMap (·.columns), parts.flatMap (·.trailing), ?_, ?_, ?_⟩, ?_⟩
  · exact forall₂_columns hall fun _ _ hpart =>
      (columns_createPart hpart).1.imp fun _ _ hcolumn => hcolumn.2
  · refine ⟨parts.map (·.trailing), ?_, List.flatMap_def⟩
    exact List.forall₂_map_right_iff.mpr (hall.imp fun _ _ => behindTable_of_createPart)
  · rfl
  · rw [Blueprint.primarySources_eq] at hsources
    cases hdeclared : b.indexes.filter (·.kind = .primary) with
    | nil => exact .inl rfl
    | cons i more =>
        rw [hdeclared, List.length_cons] at hsources
        obtain rfl : more = [] := List.eq_nil_of_length_eq_zero (by omega)
        refine .inr ⟨i, rfl, ?_⟩
        rw [Blueprint.primaryKey?, hdeclared]

/-- What a blueprint compiles to, from everything that is recorded and in that order. -/
inductive CompilesAll (k : SchemaCompiler) (b : Blueprint) (statements : List String) : Prop
  | created (hmode : b.mode = .create) (hmade : k.MakesOfAll b statements)
  /-- Every command is compiled by itself. -/
  | altered (hmode : b.mode = .alter)
      (hplain : k.dialect.rebuildsTables = false ∨ b.columns.filter (·.change) = [])
      (hturn : InTurn (k.compileAlone b) b.commands (.ok statements))
  | rebuilt (hmode : b.mode = .alter) (hdialect : k.dialect.rebuildsTables = true)
      (hrebuilds : k.RebuildsWithAll b statements)

theorem compilesAll_of_compile (h : k.compile b = .ok statements) : k.CompilesAll b statements := by
  obtain ⟨⟨⟩, hname, -⟩ := exists_of_bind h
  have hcolumn : Name.isColumn b.table = true := isColumn_of_checkName hname
  have hfilter : b.changes = b.columns.filter (·.change) := List.filter_filterMap.symm
  rcases compile_eq_ok h with ⟨hmode, hcreate⟩ | ⟨hmode, -⟩
  · exact .created hmode (makesOfAll_of_compileCreate hcreate)
  · by_cases hplain : k.dialect.rebuildsTables = false ∨ b.changes = []
    · have hturn := compile_inTurn hmode hcolumn hplain
      rw [h] at hturn
      exact .altered hmode (hfilter ▸ hplain) hturn
    · push Not at hplain
      obtain ⟨hdialect, hchanges⟩ := hplain
      rw [ne_eq, Bool.not_eq_false] at hdialect
      have hsqlite : k.dialect = .sqlite := by
        cases hkind : k.dialect with
        | sqlite => rfl
        | _ => simp [hkind, Dialect.rebuildsTables] at hdialect
      obtain ⟨-, s, script, later, hs, htable, hscript, hlater, rfl⟩ :=
        compile_rebuilt hmode hcolumn hsqlite hchanges h
      exact .rebuilt hmode hdialect ⟨s, script, later, hs, htable, hfilter ▸ hscript, hlater, rfl⟩

/-- **Every definition is recorded in its place and compiled once.**  Whatever is asked of a
blueprint, the commands name the columns that are filed by the places 0, 1, 2, … in order, and so
the indexes and the foreign keys.  So a definition is found for every command, and the blueprint
that holds them has each of them once and in that order.  If it compiles, the statements are made
of all of them: a new table has the definitions of all columns, its key and all foreign keys, with
the other indexes behind it, and a table that is there is changed by one command after the other,
or by one rebuild for all changes and what the commands contribute besides. -/
theorem definitions_compiled_in_place (mode : BlueprintMode) (table : String)
    (calls : List BlueprintCall) :
    (FiledBlueprint.ofCalls mode table calls).InPlace ∧
      (FiledBlueprint.ofCalls mode table calls).unfiled? =
        some (Blueprint.ofCalls mode table calls) ∧
      FiledBlueprint.ofCalls mode table calls = (Blueprint.ofCalls mode table calls).filed ∧
      ∀ (k : SchemaCompiler) (statements : List String),
        k.compile (Blueprint.ofCalls mode table calls) = .ok statements →
          k.CompilesAll (Blueprint.ofCalls mode table calls) statements := by
  have hfiled := Blueprint.filed_ofCalls mode table calls
  refine ⟨?_, ?_, hfiled.symm, fun k statements => compilesAll_of_compile⟩
  · rw [← hfiled]
    exact Blueprint.inPlace_filed _
  · rw [← hfiled]
    exact Blueprint.unfiled?_filed _

/-- Posts with a counter, an author, two times, an index and a key to another table. -/
def postCalls : List BlueprintCall :=
  [.column "id" .bigInteger ({ · with unsigned := true, autoIncrement := true }),
    .column "author_id" .bigInteger ({ · with unsigned := true }), .timestamps,
    .index .unique ["author_id", "created_at"] id,
    .foreign ["author_id"] ({ · with referencedTable := "users", referencedColumns := ["id"] })]

theorem posts_compiled_in_place :
    (FiledBlueprint.ofCalls .create "posts" postCalls).commands =
        [.column 0, .column 1, .column 2, .column 3, .index 0, .foreign 0] ∧
      ∃ statements,
        compile { dialect := .postgres } (Blueprint.ofCalls .create "posts" postCalls) =
            .ok statements ∧
          statements.length = 2 ∧
          CompilesAll { dialect := .postgres } (Blueprint.ofCalls .create "posts" postCalls)
            statements := by
  have hcompiles : ∃ statements, compile { dialect := .postgres }
      (Blueprint.ofCalls .create "posts" postCalls) = .ok statements ∧ statements.length = 2 :=
    ⟨_, rfl, rfl⟩
  obtain ⟨statements, h, hlength⟩ := hcompiles
  exact ⟨rfl, statements, h, hlength,
    (definitions_compiled_in_place .create "posts" postCalls).2.2.2 _ statements h⟩

end SchemaCompiler

end Relational
