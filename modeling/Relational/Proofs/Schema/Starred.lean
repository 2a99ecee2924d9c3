import Relational.Proofs.Query.Starred
import Relational.Proofs.Schema.MadeUp
import Relational.Proofs.Schema.Starless
/-
Which names bring a star into a statement.

The grammar of names has wildcard segments, and a segment that is one is written without quotes.
Where a name stands decides whether that says anything.  Of a query it is known exactly: a star is
in its place unless the name of a clause behind the select list has a wildcard segment, or one of the
list has it in front of another segment or inside a function.  A change of a schema has no place for
a star at all, and it has one only if a name that it writes brings it or the SQL that is given to it.
-/
namespace Relational

/-! ### Names and SQL of a change -/

/-- The SQL that a command is given. -/
def BlueprintCommand.given : BlueprintCommand → List String
  | .column c => c.given
  | _ => []

namespace SchemaCompiler

/-- The names that a command writes besides those of its indexes and keys, and those that are made up
for a changed column. -/
def commandNames (k : SchemaCompiler) (table : String) : BlueprintCommand → List String
  | .column c => Dialect.changeNames table c
  | .index _ => []
  | .foreign fk => (k.prefixedForeign fk).names
  | .dropColumns columns => columns
  | .renameColumn source target => [source, target]
  | .dropIndex target | .dropForeign target => [target.nameOn table]
  | .dropPrimary name => [name.getD (table ++ "_pkey")]

/-- The stored definition of a table. -/
def stored (k : SchemaCompiler) (table : String) : Option TableSnapshot :=
  k.snapshot.filter (·.table == table)

/-- The indexes and keys that a blueprint asks for. -/
def indexesOf (b : Blueprint) : List Index :=
  b.keys ++ b.commands.flatMap (·.indexes)

/-- The names that a change writes, those that are made up as well. -/
def namesOf (k : SchemaCompiler) : SchemaOperation → List String
  | .table b =>
    let table := k.tableName b.table
    table :: ((indexesOf b).flatMap (·.names table) ++ b.commands.flatMap (k.commandNames table) ++
      (k.stored table).toList.flatMap (·.names))
  | .drop table | .dropIfExists table => [k.tableName table]
  | .rename source target => [k.tableName source, k.tableName target]
  | .raw _ => []

/-- The SQL that is given to a change: defaults, the options of a table and of its indexes, the stored
definition, and a change that is SQL. -/
def givenTo (k : SchemaCompiler) : SchemaOperation → List String
  | .table b =>
    b.engine.toList ++ b.charset.toList ++ b.collation.toList ++
      ((indexesOf b).flatMap (·.given) ++ b.commands.flatMap (·.given) ++
        (k.stored (k.tableName b.table)).toList.flatMap (·.given))
  | .raw sql => [sql]
  | _ => []

variable {k : SchemaCompiler} {b : Blueprint} {table : String} {command : BlueprintCommand}
  {statements : List String}

/-! ### One command -/

theorem exists_of_map_singleton {x : Except SchemaError String}
    (h : x.map ([·]) = .ok statements) : ∃ s, x = .ok s ∧ statements = [s] := by
  cases x with
  | error e => cases h
  | ok s => exact ⟨s, rfl, (Except.ok.inj h).symm⟩

/-- A command brings no star. -/
structure Harmless (k : SchemaCompiler) (table : String) (command : BlueprintCommand) : Prop where
  indexes : ∀ i ∈ command.indexes, k.dialect.Tame (i.names table) i.given
  own : k.dialect.Tame (k.commandNames table command) command.given

theorem Harmless.column {c : Column} (h : k.Harmless table (.column c)) :
    k.dialect.Tame (Dialect.changeNames table c) c.given :=
  h.own

theorem Harmless.definition {c : Column} (h : k.Harmless table (.column c)) :
    k.dialect.Tame c.names c.given :=
  h.column.mono (fun n hn => by simp [Dialect.changeNames, hn]) (List.Subset.refl _)

theorem starless_columnIndexes {c : Column} (h : k.Harmless table (.column c))
    (hs : k.columnIndexes table c = .ok statements) : ∀ s ∈ statements, k.dialect.Starless s := by
  intro s hmem
  obtain ⟨i, hi, hindex⟩ := exists_of_mem_mapM hs hmem
  exact Dialect.starless_createIndex (h.indexes i hi) hindex

theorem starless_columnComment {c : Column} (h : k.Harmless table (.column c)) :
    ∀ s ∈ k.columnComment table c, k.dialect.Starless s := by
  intro s hs
  unfold columnComment at hs
  split at hs
  · cases hs
  · split at hs
    · cases hs
    · exact Dialect.starless_commentStatement (h.column.names table (by simp [Dialect.changeNames]))
        (h.definition.names c.name List.mem_cons_self) _ s (Option.mem_toList.mp hs)

/-- What a command contributes to a new table, besides its keys. -/
theorem starless_createPart (h : k.Harmless table command) {part : CreatePart}
    (hs : k.createPart table command = .ok part) :
    ∀ s ∈ part.columns ++ part.trailing, k.dialect.Starless s := by
  cases command with
  | column c =>
      obtain ⟨-, -, hs⟩ := exists_of_bind hs
      change (if c.change then _ else _) = _ at hs
      split at hs
      · cases hs
      obtain ⟨definition, hdefinition, hs⟩ := exists_of_bind hs
      obtain ⟨indexes, hindexes, hs⟩ := exists_of_bind hs
      cases hs
      rw [List.forall_mem_append, List.forall_mem_append]
      exact ⟨List.forall_mem_singleton.mpr (Dialect.starless_columnDefinition h.definition hdefinition),
        starless_columnIndexes h hindexes, starless_columnComment h⟩
  | index i =>
      obtain ⟨-, -, hs⟩ := exists_of_bind hs
      change (if i.kind = .primary then _ else _) = _ at hs
      split at hs
      · cases hs
        simp
      · obtain ⟨statement, hstatement, hs⟩ := exists_of_bind hs
        cases hs
        refine List.forall_mem_singleton.mpr (Dialect.starless_createIndex ?_ hstatement)
        exact h.indexes i (List.mem_singleton_self i)
  | foreign fk =>
      obtain ⟨-, -, hs⟩ := exists_of_bind hs
      cases hs
      simp
  | _ => cases hs

/-! ### Changed tables -/

theorem mem_changes {c : Column}
    (hc : c ∈ (b.commands.takeWhile (·.changed?.isSome)).filterMap (·.changed?)) :
    .column c ∈ b.commands := by
  obtain ⟨command, hcommand, hchanged⟩ := List.mem_filterMap.mp hc
  obtain ⟨rfl, -⟩ := BlueprintCommand.of_changed? hchanged
  exact List.takeWhile_subset _ hcommand

theorem starless_rebuild (h : ∀ command ∈ b.commands, k.Harmless table command)
    (hstored : ∀ s ∈ k.stored table, k.dialect.Tame s.names s.given)
    (hs : k.rebuild table b = .ok statements) : ∀ s ∈ statements, k.dialect.Starless s := by
  unfold rebuild at hs
  dsimp only at hs
  split at hs
  · cases hs
  · obtain ⟨-, -, hs⟩ := exists_of_bind hs
    split at hs
    · rename_i snapshot hsnapshot
      refine Dialect.starless_rebuildTable (hstored snapshot hsnapshot) (fun c hc => ?_) hs
      exact (h _ (mem_changes hc)).definition
    · cases hs

theorem starless_alterColumn {rebuilt : Bool} {c : Column} (hmem : .column c ∈ b.commands)
    (h : ∀ command ∈ b.commands, k.Harmless table command)
    (hkeys : ∀ i ∈ (BlueprintCommand.column c).keys, k.dialect.Tame (i.names table) i.given)
    (hstored : ∀ s ∈ k.stored table, k.dialect.Tame s.names s.given)
    (hs : k.alterColumn table b rebuilt c = .ok statements) : ∀ s ∈ statements, k.dialect.Starless s := by
  have hcolumn := h _ hmem
  have htable : ¬Name.IsWild table := hcolumn.column.names table (by simp [Dialect.changeNames])
  obtain ⟨own, key, indexes, hown, hkey, hindexes, rfl⟩ := exists_alterColumn hs
  simp only [List.forall_mem_append]
  refine ⟨⟨⟨?_, ?_⟩, starless_columnIndexes hcolumn hindexes⟩, starless_columnComment hcolumn⟩
  · split at hown
    · unfold changeStatements at hown
      split at hown
      · split at hown
        · cases hown
          simp
        · exact starless_rebuild h hstored hown
      · exact Dialect.starless_modifyColumn hcolumn.column hown
    · obtain ⟨statement, hadded, rfl⟩ := exists_of_map_singleton hown
      exact List.forall_mem_singleton.mpr
        (Dialect.starless_addColumn htable hcolumn.definition hadded)
  · cases hprimary : c.primary with
    | none =>
        rw [hprimary] at hkey
        cases hkey
        simp
    | some flag =>
        rw [hprimary] at hkey
        obtain ⟨statement, hadded, rfl⟩ := exists_of_map_singleton hkey
        refine List.forall_mem_singleton.mpr (Dialect.starless_addPrimary (hkeys _ ?_) hadded)
        simp [BlueprintCommand.keys, hprimary]

theorem starless_alterCommand {rebuilt : Bool} (hmem : command ∈ b.commands)
    (htable : ¬Name.IsWild table) (h : ∀ command ∈ b.commands, k.Harmless table command)
    (hkeys : ∀ i ∈ command.keys, k.dialect.Tame (i.names table) i.given)
    (hstored : ∀ s ∈ k.stored table, k.dialect.Tame s.names s.given)
    (hs : k.alterCommand table b rebuilt command = .ok statements) :
    ∀ s ∈ statements, k.dialect.Starless s := by
  have hnames := (h command hmem).own.names
  cases command with
  | column c => exact starless_alterColumn hmem h hkeys hstored hs
  | index i =>
      obtain ⟨-, -, hs⟩ := exists_of_bind hs
      obtain ⟨statement, hstatement, rfl⟩ := exists_of_map_singleton hs
      refine List.forall_mem_singleton.mpr (Dialect.starless_createIndex ?_ hstatement)
      exact (h _ hmem).indexes i (List.mem_singleton_self i)
  | foreign fk =>
      obtain ⟨-, -, hs⟩ := exists_of_bind hs
      obtain ⟨statement, hstatement, rfl⟩ := exists_of_map_singleton hs
      exact List.forall_mem_singleton.mpr (Dialect.starless_addForeign htable hnames hstatement)
  | dropColumns columns =>
      intro s hdropped
      obtain ⟨column, hcolumn, hone⟩ := exists_of_mem_mapM hs hdropped
      obtain ⟨-, -, hone⟩ := exists_of_bind hone
      cases hone
      exact Dialect.starless_dropColumn htable (hnames column hcolumn)
  | renameColumn source target =>
      obtain ⟨-, -, hs⟩ := exists_of_bind hs
      obtain ⟨-, -, hs⟩ := exists_of_bind hs
      cases hs
      exact List.forall_mem_singleton.mpr (Dialect.starless_renameColumn htable
        (hnames source (by simp [commandNames])) (hnames target (by simp [commandNames])))
  | dropIndex target =>
      cases hs
      exact List.forall_mem_singleton.mpr
        (Dialect.starless_dropIndex htable (hnames _ (List.mem_singleton_self _)))
  | dropPrimary name =>
      obtain ⟨statement, hstatement, rfl⟩ := exists_of_map_singleton hs
      exact List.forall_mem_singleton.mpr
        (Dialect.starless_dropPrimary htable (hnames _ (List.mem_singleton_self _)) hstatement)
  | dropForeign target =>
      obtain ⟨statement, hstatement, rfl⟩ := exists_of_map_singleton hs
      exact List.forall_mem_singleton.mpr
        (Dialect.starless_dropForeign htable (hnames _ (List.mem_singleton_self _)) hstatement)

theorem starless_alterCommands {rebuilt : Bool} {commands : List BlueprintCommand}
    (hmem : commands ⊆ b.commands) (htable : ¬Name.IsWild table)
    (h : ∀ command ∈ b.commands, k.Harmless table command)
    (hkeys : ∀ i ∈ b.commands.flatMap (·.keys), k.dialect.Tame (i.names table) i.given)
    (hstored : ∀ s ∈ k.stored table, k.dialect.Tame s.names s.given)
    (hs : k.alterCommands table b rebuilt commands = .ok statements) :
    ∀ s ∈ statements, k.dialect.Starless s := by
  induction commands generalizing rebuilt statements with
  | nil =>
      cases hs
      simp
  | cons command rest ih =>
      obtain ⟨hcommand, hrest⟩ := List.cons_subset.mp hmem
      obtain ⟨own, hown, hs⟩ := exists_of_bind hs
      obtain ⟨later, hlater, hs⟩ := exists_of_bind hs
      cases hs
      have hasked : ∀ i ∈ command.keys, k.dialect.Tame (i.names table) i.given := fun i hi =>
        hkeys i (List.mem_flatMap.mpr ⟨command, hcommand, hi⟩)
      exact List.forall_mem_append.mpr
        ⟨starless_alterCommand hcommand htable h hasked hstored hown, ih hrest hlater⟩

/-! ### Whole changes -/

theorem starless_compileCreate (htable : ¬Name.IsWild (k.tableName b.table))
    (h : ∀ command ∈ b.commands, k.Harmless (k.tableName b.table) command)
    (hkey : ∀ i ∈ b.primaryKey?, k.dialect.Tame (i.names (k.tableName b.table)) i.given)
    (hoptions : ∀ s ∈ b.engine.toList ++ b.charset.toList ++ b.collation.toList, k.dialect.Starless s)
    (hs : k.compileCreate b = .ok statements) : ∀ s ∈ statements, k.dialect.Starless s := by
  obtain ⟨parts, hparts, -, rfl⟩ := compileCreate_eq_ok hs
  have hpart : ∀ part ∈ parts, ∀ s ∈ part.columns ++ part.trailing, k.dialect.Starless s := by
    intro part hpart
    obtain ⟨command, hcommand, hone⟩ := exists_of_mem_mapM hparts hpart
    exact starless_createPart (h command hcommand) hone
  have hbody : ∀ s ∈ parts.flatMap (·.columns) ++ k.constraintsOf b, k.dialect.Starless s := by
    unfold constraintsOf
    rw [List.forall_mem_append, List.forall_mem_append]
    refine ⟨fun s hs => ?_, fun s hs => ?_, fun s hs => ?_⟩
    · obtain ⟨part, hmem, hcolumn⟩ := List.mem_flatMap.mp hs
      exact hpart part hmem s (List.mem_append_left _ hcolumn)
    · obtain ⟨i, hi, rfl⟩ := Option.map_eq_some_iff.mp (Option.mem_toList.mp hs)
      exact Dialect.starless_primaryConstraint (hkey i hi)
    · obtain ⟨fk, hfk, rfl⟩ := List.mem_map.mp hs
      obtain ⟨command, hcommand, hforeign⟩ := List.mem_filterMap.mp hfk
      cases command with
      | foreign own =>
          cases hforeign
          exact Dialect.starless_foreignKeyClause (h _ hcommand).own.names
      | _ => cases hforeign
  refine List.forall_mem_cons.mpr ⟨?_, fun s hs => ?_⟩
  · refine (Dialect.starless_createTable htable b.ifNotExists hbody).append ?_
    unfold optionsOf
    split
    · exact Dialect.starless_tableOptions hoptions
    · exact .empty
  · obtain ⟨part, hmem, htrailing⟩ := List.mem_flatMap.mp hs
    exact hpart part hmem s (List.mem_append_right _ htrailing)

theorem starless_compile (h : k.dialect.Tame (k.namesOf (.table b)) (k.givenTo (.table b)))
    (hs : k.compile b = .ok statements) : ∀ s ∈ statements, k.dialect.Starless s := by
  have htable : ¬Name.IsWild (k.tableName b.table) := h.names _ (by simp [namesOf])
  have hindexes : ∀ i ∈ indexesOf b,
      k.dialect.Tame (i.names (k.tableName b.table)) i.given := by
    refine fun i hi => h.mono (fun n hn => ?_) fun sql hsql => ?_
    · have hmem := List.mem_flatMap.mpr ⟨i, hi, hn⟩
      simp [namesOf, hmem]
    · have hmem := List.mem_flatMap.mpr ⟨i, hi, hsql⟩
      simp [givenTo, hmem]
  have hstored : ∀ s ∈ k.stored (k.tableName b.table), k.dialect.Tame s.names s.given := by
    intro s hs
    rw [Option.mem_def] at hs
    refine h.mono (fun n hn => ?_) fun sql hsql => ?_
    · simp [namesOf, hs, hn]
    · simp [givenTo, hs, hsql]
  have hcommands : ∀ command ∈ b.commands, k.Harmless (k.tableName b.table) command := by
    refine fun command hcommand => ⟨fun i hi => hindexes i ?_, h.mono (fun n hn => ?_) fun sql hsql => ?_⟩
    · exact List.mem_append_right _ (List.mem_flatMap.mpr ⟨command, hcommand, hi⟩)
    · have hmem := List.mem_flatMap.mpr ⟨command, hcommand, hn⟩
      simp [namesOf, hmem]
    · have hmem := List.mem_flatMap.mpr ⟨command, hcommand, hsql⟩
      simp [givenTo, hmem]
  have hkeys : ∀ i ∈ b.keys, k.dialect.Tame (i.names (k.tableName b.table)) i.given := fun i hi =>
    hindexes i (List.mem_append_left _ hi)
  rcases compile_eq_ok hs with ⟨hmode, hs⟩ | ⟨hmode, hs⟩
  · rw [Blueprint.keys, hmode] at hkeys
    refine starless_compileCreate htable hcommands (fun i hi => hkeys i (Option.mem_toList.mpr hi)) ?_ hs
    exact fun s hs => h.given s (List.mem_append_left _ hs)
  · rw [Blueprint.keys, hmode] at hkeys
    exact starless_alterCommands (List.Subset.refl _) htable hcommands hkeys hstored hs

/-- No change has a star that its names and its SQL do not bring. -/
theorem starless_compileOperation {operation : SchemaOperation}
    (h : k.dialect.Tame (k.namesOf operation) (k.givenTo operation))
    (hs : k.compileOperation operation = .ok statements) :
    ∀ s ∈ statements, k.dialect.Starless s := by
  cases operation with
  | table b => exact starless_compile h hs
  | drop table =>
      obtain ⟨-, -, hs⟩ := exists_of_bind hs
      cases hs
      exact List.forall_mem_singleton.mpr
        (Dialect.starless_dropTable (h.names _ (List.mem_singleton_self _)))
  | dropIfExists table =>
      obtain ⟨-, -, hs⟩ := exists_of_bind hs
      cases hs
      exact List.forall_mem_singleton.mpr
        (Dialect.starless_dropTableIfExists (h.names _ (List.mem_singleton_self _)))
  | rename source target =>
      obtain ⟨-, -, hs⟩ := exists_of_bind hs
      obtain ⟨-, -, hs⟩ := exists_of_bind hs
      cases hs
      exact List.forall_mem_singleton.mpr (Dialect.starless_renameTable
        (h.names _ (by simp [namesOf])) (h.names _ (by simp [namesOf])))
  | raw sql =>
      cases hs
      exact List.forall_mem_singleton.mpr (h.given sql (List.mem_singleton_self sql))

end SchemaCompiler

open Query in
/-- **A star outside quotes is a wildcard segment of a name.**  A name is written with a star exactly
if one of its segments is the wildcard.  The stars of a query without raw fragments are in their
places, at the ends of the entries of its select list or as what `COUNT` is given, exactly if no
table, join, condition, grouping, ordering, cursor, assignment or inserted column has a wildcard
segment and the names of the select list have theirs last.  A change of a schema has no star if none
of the names it writes has a wildcard segment and the SQL that is given to it has no star of its
own. -/
theorem stars_are_wildcards (d : Dialect) (calls : List QueryCall) (k : SchemaCompiler)
    (operation : SchemaOperation) :
    (∀ name, '*' ∈ d.unquoted (d.quoteName name) ↔ Name.IsWild name) ∧
    ((∀ call ∈ calls, call.fragments = []) →
      ∀ kind, kind ≠ .count → ∀ st, (built calls).statement kind d = .ok st →
        (StarsPlaced (d.unquoted st.sql) ↔
          (∀ n ∈ (built calls).namesIn kind, ¬Name.IsWild n) ∧
            (kind = .read → (built calls).ListTame))) ∧
    (∀ statements, k.compileOperation operation = .ok statements →
      k.dialect.Tame (k.namesOf operation) (k.givenTo operation) →
        ∀ s ∈ statements, '*' ∉ k.dialect.unquoted s) := by
  refine ⟨fun name => Dialect.star_mem_unquoted_quoteName, ?_, ?_⟩
  · intro hraw kind hkind st hst
    exact starsPlaced_iff calls hraw hkind hst
  · intro statements hs htame s hmem
    exact (SchemaCompiler.starless_compileOperation htame hs s hmem).unquoted

/-- A wildcard segment is accepted where it says nothing: in a condition, and in the name of a table
that is dropped. -/
theorem wildcard_out_of_place :
    (∃ st, (Query.built [.source "posts", .filtered (.filter .and "t.*" (.value (.int 1)))]).statement
        .read .sqlite = .ok st ∧
      st.sql = "SELECT * FROM \"posts\" WHERE \"t\".* = ?" ∧
      ¬StarsPlaced (Dialect.sqlite.unquoted st.sql)) ∧
    ∃ s, SchemaCompiler.compileOperation { dialect := .sqlite } (.drop "t.*") = .ok [s] ∧
      s = "DROP TABLE \"t\".*" ∧ '*' ∈ Dialect.sqlite.unquoted s := by
  refine ⟨⟨⟨"SELECT * FROM \"posts\" WHERE \"t\".* = ?", [.int 1]⟩, ?_, rfl, fun h => ?_⟩, _, ?_,
    rfl, ?_⟩
  · decide +kernel
  · have hbehind := (h "SELECT * FROM  WHERE .".toList " = ?".toList (by decide +kernel)).2.1
    exact hbehind (by decide +kernel)
  · decide +kernel
  · decide +kernel

end Relational
