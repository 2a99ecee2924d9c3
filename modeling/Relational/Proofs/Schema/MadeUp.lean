import Relational.Proofs.Quoted
import Relational.Proofs.Schema.Unnamed
import Relational.Proofs.Text.Lowered
/-
Names that the compiler makes up.

A name is made up in two ways.  What is put together from a table, columns and a kind has an
underscore for each dot, so the quotes around it hold all of it.  The name of a check or of a
default, and that of the primary key in PostgreSQL, are put behind the table as it is; a dot in
the table, in its prefix or in the column then ends the identifier, and the name is written as
several.  Each name is followed here from the command that gives none to the text that holds it.
-/
namespace Relational

/-! ### Names that are put together -/

/-- No blank is in the text. -/
def Unbroken (s : String) : Prop :=
  ∀ c ∈ s.toList, Text.isBlank c = false

instance (s : String) : Decidable (Unbroken s) :=
  List.decidableBAll _ s.toList

theorem Unbroken.append {s t : String} (hs : Unbroken s) (ht : Unbroken t) : Unbroken (s ++ t) := by
  intro c hc
  rw [String.toList_append, List.mem_append] at hc
  exact hc.elim (hs c) (ht c)

theorem unbroken_of_isColumn {name : String} (h : Name.isColumn name = true) : Unbroken name := by
  rw [Name.isColumn, Bool.and_eq_true] at h
  exact fun c hc => Name.isBlank_of_isMark (Name.isMark_of_isIdentifier h.2 hc)

section DefaultName

variable (table : String) (columns : List String) (suffix : String)

theorem dot_not_mem_defaultName : '.' ∉ (defaultName table columns suffix).toList := by
  refine Text.dot_not_mem_lowercase ?_
  rw [String.toList_map]
  intro hdot
  obtain ⟨c, -, hc⟩ := List.mem_map.mp hdot
  split at hc
  · cases hc
  · rename_i hother
    exact hother (.inr hc)

theorem underscore_mem_defaultName : '_' ∈ (defaultName table columns suffix).toList := by
  refine Text.underscore_mem_lowercase ?_
  obtain ⟨next, others, hrest⟩ : ∃ next others, columns ++ [suffix] = next :: others :=
    List.exists_cons_of_ne_nil (by simp)
  rw [String.toList_map, String.toList_intercalate, hrest, List.map_cons, List.map_cons,
    List.intercalate_cons_cons]
  exact List.mem_map.mpr ⟨'_', by simp, rfl⟩

/-- Only an alias keeps a generated name from being plain. -/
theorem isPlain_defaultName_iff :
    Dialect.IsPlain (defaultName table columns suffix) ↔
      Name.splitAlias? (defaultName table columns suffix) = none := by
  refine ⟨fun h => h.2.2, fun h => ⟨fun hstar => ?_, dot_not_mem_defaultName _ _ _, h⟩⟩
  have hunderscore := underscore_mem_defaultName table columns suffix
  rw [hstar] at hunderscore
  exact absurd hunderscore (by decide)

variable {table columns suffix}

theorem unbroken_defaultName (htable : Unbroken table) (hcolumns : ∀ c ∈ columns, Unbroken c)
    (hsuffix : Unbroken suffix) : Unbroken (defaultName table columns suffix) := by
  refine Text.unbroken_lowercase fun c hc => ?_
  rw [String.toList_map] at hc
  obtain ⟨x, hx, rfl⟩ := List.mem_map.mp hc
  have hxblank : Text.isBlank x = false := by
    rw [String.toList_intercalate] at hx
    rcases Text.mem_intercalate hx with hbetween | ⟨part, hpart, hinside⟩
    · rw [List.mem_singleton.mp hbetween]
      decide
    · obtain ⟨name, hname, rfl⟩ := List.mem_map.mp hpart
      simp only [List.mem_cons, List.mem_append, List.not_mem_nil, or_false] at hname
      rcases hname with rfl | hname | rfl
      · exact htable x hinside
      · exact hcolumns name hname x hinside
      · exact hsuffix x hinside
  split
  · decide
  · exact hxblank

end DefaultName

/-! ### Where names stand -/

namespace Dialect

variable {d : Dialect} {table name s : String} {statements : List String}

/-- The name is written as one identifier in quotes. -/
def WrittenWhole (d : Dialect) (name : String) : Prop :=
  d.quoteName name = Text.enclosed d.quotes.1 d.quotes.2 name

theorem writtenWhole_iff : d.WrittenWhole name ↔ IsPlain name :=
  ⟨fun h => quoteName_eq_enclosed_iff.mp ⟨name, h⟩, quoteName_of_isPlain⟩

/-- What may stand behind a name. -/
def Follows (rest : String) : Prop :=
  rest = "" ∨ ∃ more, rest = " " ++ more

theorem follows_nothing : Follows "" :=
  .inl rfl

theorem follows_blank (more : String) : Follows (" " ++ more) :=
  .inr ⟨more, rfl⟩

/-- What a table is altered by, up to a name. -/
def nameVerbs : List String :=
  ["ADD CONSTRAINT ", "DROP CONSTRAINT ", "DROP CONSTRAINT IF EXISTS ", "DROP FOREIGN KEY "]

/-- The text of a statement that alters the table, up to a name. -/
def alterLead (d : Dialect) (table verb : String) : String :=
  d.alterTable table ++ (" " ++ verb)

/-- The name of an index or a key stands in the text: where it is made, by itself or in a table, or
where it is dropped. -/
inductive Names (d : Dialect) (table name : String) : String → Prop
  | created {keyword rest : String} (hkeyword : keyword ∈ indexKeywords) (hrest : Follows rest) :
    Names d table name ("CREATE " ++ keyword ++ " " ++ d.quoteName name ++ rest)
  | dropped {rest : String} (hrest : Follows rest) :
    Names d table name ("DROP INDEX " ++ d.quoteName name ++ rest)
  | entry {rest : String} (hrest : Follows rest) :
    Names d table name ("CONSTRAINT " ++ d.quoteName name ++ rest)
  | altered {verb rest : String} (hverb : verb ∈ nameVerbs) (hrest : Follows rest) :
    Names d table name (d.alterLead table verb ++ d.quoteName name ++ rest)

theorem MakesIndex.names (h : d.MakesIndex name s) : d.Names table name s := by
  obtain ⟨keyword, hkeyword, rest, rfl⟩ := h
  rw [String.append_assoc]
  exact .created hkeyword (follows_blank ("ON " ++ rest))

theorem names_dropIndex : d.Names table name (d.dropIndex table name) := by
  have hon : d.Names table name
      ("DROP INDEX " ++ d.quoteName name ++ " ON " ++ d.quoteName table) := by
    rw [String.append_assoc]
    exact .dropped (follows_blank ("ON " ++ d.quoteName table))
  unfold dropIndex
  split
  · exact hon
  · exact hon
  · have hend : d.Names table name ("DROP INDEX " ++ d.quoteName name ++ "") :=
      .dropped follows_nothing
    rwa [String.append_empty] at hend

theorem names_foreignKeyClause (fk : ForeignKey) :
    d.Names table fk.resolvedName (d.foreignKeyClause fk) := by
  obtain ⟨more, hclause⟩ := d.foreignKeyClause_eq fk
  rw [hclause]
  exact .entry (follows_blank ("FOREIGN KEY (" ++ more))

/-- What is an entry with a name can be added to a table. -/
theorem names_added {rest : String} (hrest : Follows rest) :
    d.Names table name
      (d.alterTable table ++ " ADD " ++ ("CONSTRAINT " ++ d.quoteName name ++ rest)) := by
  have hadd : d.alterTable table ++ " ADD " ++ ("CONSTRAINT " ++ d.quoteName name ++ rest) =
      d.alterLead table "ADD CONSTRAINT " ++ d.quoteName name ++ rest := by
    simp only [alterLead, String.append_assoc]
    rfl
  rw [hadd]
  exact .altered (by decide) hrest

theorem names_addForeign {fk : ForeignKey} (h : d.addForeign table fk = .ok s) :
    d.Names table fk.resolvedName s := by
  obtain ⟨more, hclause⟩ := d.foreignKeyClause_eq fk
  unfold addForeign at h
  split at h
  · cases h
  · cases h
    rw [hclause]
    exact names_added (follows_blank ("FOREIGN KEY (" ++ more))

/-- A statement that alters a table and ends with the name. -/
theorem names_altered {verb : String} (hverb : verb ∈ nameVerbs) :
    d.Names table name (d.alterLead table verb ++ d.quoteName name) := by
  have hend : d.Names table name (d.alterLead table verb ++ d.quoteName name ++ "") :=
    .altered hverb follows_nothing
  rwa [String.append_empty] at hend

theorem names_dropForeign (h : d.dropForeign table name = .ok s) : d.Names table name s := by
  unfold dropForeign at h
  split at h
  · cases h
  · cases h
    have hnames : mysql.Names table name
        (mysql.alterLead table "DROP FOREIGN KEY " ++ mysql.quoteName name) :=
      names_altered (by decide)
    exact hnames
  · cases h
    have hnames : d.Names table name (d.alterLead table "DROP CONSTRAINT " ++ d.quoteName name) :=
      names_altered (by decide)
    exact hnames

/-! ### Keys of SQL Server -/

/-- A key of SQL Server has a name. -/
theorem primaryConstraint_sqlServer (table : String) (i : Index) : ∃ more,
    sqlServer.primaryConstraint table i =
      "CONSTRAINT " ++ sqlServer.quoteName (i.nameOn table) ++ (" " ++ more) :=
  ⟨_, String.append_assoc⟩

theorem names_primaryConstraint (table : String) (i : Index) :
    sqlServer.Names table (i.nameOn table) (sqlServer.primaryConstraint table i) := by
  obtain ⟨more, hkey⟩ := primaryConstraint_sqlServer table i
  rw [hkey]
  exact .entry (follows_blank more)

theorem names_addPrimary {i : Index} (h : sqlServer.addPrimary table i = .ok s) :
    sqlServer.Names table (i.nameOn table) s := by
  obtain ⟨more, hkey⟩ := primaryConstraint_sqlServer table i
  cases h
  rw [hkey]
  exact names_added (follows_blank more)

theorem createIndex_primary {i : Index} (hkind : i.kind = .primary) :
    sqlServer.createIndex table i = sqlServer.addPrimary table i := by
  obtain ⟨kind, columns, given, algorithm, operatorClass⟩ := i
  cases hkind
  rfl

/-! ### Names of checks and defaults -/

theorem addConstraint_eq (d : Dialect) (table written more : String) :
    d.alterTable table ++ " ADD CONSTRAINT " ++ written ++ " " ++ more =
      d.alterLead table "ADD CONSTRAINT " ++ written ++ (" " ++ more) := by
  simp only [alterLead, String.append_assoc]
  rfl

theorem modifyColumn_postgres {c : Column} (h : postgres.modifyColumn table c = .ok statements) :
    statements = modifyPostgresColumn table c := by
  change (if c.autoIncrement then _ else _) = _ at h
  split at h
  · cases h
  · cases h
    rfl

theorem modifyColumn_sqlServer {c : Column}
    (h : sqlServer.modifyColumn table c = .ok statements) :
    modifySqlServerColumn table c = .ok statements := by
  change (if c.autoIncrement then _ else _) = _ at h
  split at h
  · cases h
  · exact h

/-- The statement that drops the check of a changed column ends with its name. -/
theorem check_dropped {c : Column} (h : postgres.modifyColumn table c = .ok statements) :
    postgres.alterLead table "DROP CONSTRAINT IF EXISTS " ++
      postgres.quoteName (checkName table c.name) ∈ statements := by
  rw [modifyColumn_postgres h]
  exact List.mem_append_left _ List.mem_cons_self

/-- The statement that adds a check to a changed column has its name. -/
theorem check_added {c : Column} {condition : String} (hdialect : d = postgres ∨ d = sqlServer)
    (h : d.modifyColumn table c = .ok statements) (hcheck : d.columnCheck c = some condition) :
    d.alterLead table "ADD CONSTRAINT " ++ d.quoteName (checkName table c.name) ++
      (" " ++ condition) ∈ statements := by
  rw [← addConstraint_eq]
  rcases hdialect with rfl | rfl
  · rw [modifyColumn_postgres h]
    refine List.mem_append_right _ ?_
    rw [hcheck]
    exact List.mem_singleton_self _
  · obtain ⟨type, -, h⟩ := exists_of_bind (modifyColumn_sqlServer h)
    cases h
    refine List.mem_append_right _ ?_
    rw [hcheck]
    exact List.mem_singleton_self _

/-- The statement that adds a default to a changed column of SQL Server has its name. -/
theorem default_added {c : Column} {v : DefaultValue}
    (h : sqlServer.modifyColumn table c = .ok statements) (hdefault : c.default = some v) :
    ∃ more, sqlServer.alterLead table "ADD CONSTRAINT " ++
      sqlServer.quoteName (defaultConstraintName table c.name) ++ (" " ++ more) ∈ statements := by
  obtain ⟨type, -, h⟩ := exists_of_bind (modifyColumn_sqlServer h)
  cases h
  refine ⟨"DEFAULT " ++ sqlServer.renderDefault v ++ " FOR " ++ sqlServer.quoteName c.name, ?_⟩
  rw [← addConstraint_eq]
  refine List.mem_append_left _ (List.mem_append_right _ ?_)
  rw [hdefault]
  simp only [List.mem_singleton, String.append_assoc]
  rfl

/-- What is bound to a column of SQL Server is dropped by what the catalogue says, where the name of
the check is a text. -/
theorem check_compared {c : Column} (h : sqlServer.modifyColumn table c = .ok statements) :
    ∃ before behind, before ++ " OR name = " ++ sqlServer.quoteText (checkName table c.name) ++
      behind ∈ statements := by
  obtain ⟨type, -, h⟩ := exists_of_bind (modifyColumn_sqlServer h)
  cases h
  have hbatch : ∃ before behind, dropBoundConstraints table c.name =
      before ++ " OR name = " ++ sqlServer.quoteText (checkName table c.name) ++ behind :=
    ⟨_, _, rfl⟩
  obtain ⟨before, behind, hbatch⟩ := hbatch
  refine ⟨before, behind, ?_⟩
  rw [← hbatch]
  exact List.mem_append_left _ (List.mem_append_left _ List.mem_cons_self)

theorem checkName_eq (table column : String) :
    checkName table column = table ++ ("_" ++ column ++ "_check") := by
  simp only [checkName, String.append_assoc]

theorem defaultConstraintName_eq (table column : String) :
    defaultConstraintName table column = table ++ ("_" ++ column ++ "_default") := by
  simp only [defaultConstraintName, String.append_assoc]

end Dialect

/-! ### What has no name of its own -/

/-- The primary keys that a command asks for. -/
def BlueprintCommand.keys : BlueprintCommand → List Index
  | .index i => if i.kind = .primary then [i] else []
  | .column c => (c.primary.map (SchemaCompiler.flaggedIndex .primary c)).toList
  | _ => []

/-- The primary keys that are made: of a new table the one it has, otherwise those of all commands.
-/
def Blueprint.keys (b : Blueprint) : List Index :=
  match b.mode with
  | .create => b.primaryKey?.toList
  | .alter => b.commands.flatMap (·.keys)

theorem Index.nameOn_of_unnamed {i : Index} (h : i.name = none) (table : String) :
    i.nameOn table = defaultName table i.columns i.kind.suffix := by
  rw [Index.nameOn, h]
  rfl

namespace SchemaCompiler

variable {k : SchemaCompiler} {b : Blueprint} {statements : List String}

/-- A text that is sent: a statement, or an entry of the table that one makes. -/
inductive Writes (k : SchemaCompiler) (b : Blueprint) (statements : List String) : String → Prop
  | statement {s : String} (hs : s ∈ statements) : Writes k b statements s
  | entry {body : List String} {options s : String}
    (htable : k.dialect.createTable (k.tableName b.table) b.ifNotExists body ++ options ∈
      statements)
    (hs : s ∈ body) : Writes k b statements s

/-- An index or a key that is made or dropped without a name: the table, the columns and the kind
that its name is put together from.  Only SQL Server has a primary key named. -/
inductive Unnamed (k : SchemaCompiler) (b : Blueprint) : String → List String → String → Prop
  | index {command : BlueprintCommand} {i : Index} (hmem : command ∈ b.commands)
    (hi : i ∈ command.indexes) (hkind : i.kind ≠ .primary) (hname : i.name = none) :
    Unnamed k b b.table i.columns i.kind.suffix
  | key {i : Index} (hdialect : k.dialect = .sqlServer) (hi : i ∈ b.keys) (hname : i.name = none) :
    Unnamed k b b.table i.columns i.kind.suffix
  | foreign {fk : ForeignKey} (hmem : .foreign fk ∈ b.commands) (hname : fk.name = none) :
    Unnamed k b fk.table fk.columns foreignSuffix
  | droppedIndex {columns : List String} {suffix : String}
    (hmem : .dropIndex (.generated columns suffix) ∈ b.commands) :
    Unnamed k b b.table columns suffix
  | droppedForeign {columns : List String} {suffix : String}
    (hmem : .dropForeign (.generated columns suffix) ∈ b.commands) :
    Unnamed k b b.table columns suffix

/-- What is put behind the table as it is to make a name: of the check or the default of a changed
column, or of the primary key that PostgreSQL drops.  It comes with the verb in front of the name.
-/
inductive Joined (k : SchemaCompiler) (b : Blueprint) : String → String → Prop
  | checkDropped {c : Column} (hdialect : k.dialect = .postgres) (hmem : .column c ∈ b.commands)
    (hchange : c.change = true) :
    Joined k b "DROP CONSTRAINT IF EXISTS " ("_" ++ c.name ++ "_check")
  | checkAdded {c : Column} {condition : String}
    (hdialect : k.dialect = .postgres ∨ k.dialect = .sqlServer) (hmem : .column c ∈ b.commands)
    (hchange : c.change = true) (hcheck : k.dialect.columnCheck c = some condition) :
    Joined k b "ADD CONSTRAINT " ("_" ++ c.name ++ "_check")
  | default {c : Column} {v : DefaultValue} (hdialect : k.dialect = .sqlServer)
    (hmem : .column c ∈ b.commands) (hchange : c.change = true) (hdefault : c.default = some v) :
    Joined k b "ADD CONSTRAINT " ("_" ++ c.name ++ "_default")
  | key (hdialect : k.dialect = .postgres) (hmem : .dropPrimary none ∈ b.commands) :
    Joined k b "DROP CONSTRAINT " "_pkey"

/-! ### Where it is written -/

theorem MakesForeign.writes {fk : ForeignKey} {s : String} (h : k.MakesForeign b statements fk s) :
    k.Writes b statements s ∧
      k.dialect.Names (k.tableName b.table) (k.prefixedForeign fk).resolvedName s := by
  cases h with
  | entry hmode htable hentry => exact ⟨.entry htable hentry, Dialect.names_foreignKeyClause _⟩
  | added hmode hs hmem => exact ⟨.statement hmem, Dialect.names_addForeign hs⟩

/-- A key of a table that is there has its statement. -/
theorem exists_addPrimary {command : BlueprintCommand} {rebuilt : Bool} {own : List String}
    (h : k.alterCommand table b rebuilt command = .ok own) (hdialect : k.dialect = .sqlServer)
    {i : Index} (hi : i ∈ command.keys) :
    ∃ s ∈ own, Dialect.sqlServer.addPrimary table i = .ok s := by
  cases command with
  | column c =>
      obtain ⟨flag, hprimary, rfl⟩ := Option.map_eq_some_iff.mp (Option.mem_toList.mp hi)
      obtain ⟨changed, key, indexes, -, hkey, -, rfl⟩ := exists_alterColumn h
      rw [hprimary, hdialect] at hkey
      cases hkey
      exact ⟨_, by simp, rfl⟩
  | index own =>
      obtain ⟨-, -, h⟩ := exists_of_bind h
      rw [BlueprintCommand.keys] at hi
      split at hi
      · rename_i hkind
        obtain rfl := List.mem_singleton.mp hi
        rw [hdialect, Dialect.createIndex_primary hkind] at h
        cases h
        exact ⟨_, List.mem_singleton_self _, rfl⟩
      · cases hi
  | _ => cases hi

/-- The key of SQL Server is written under its name, in a new table or by itself. -/
theorem exists_key (h : k.compile b = .ok statements) (hdialect : k.dialect = .sqlServer)
    {i : Index} (hi : i ∈ b.keys) : ∃ text, k.Writes b statements text ∧
      k.dialect.Names (k.tableName b.table) (i.nameOn (k.tableName b.table)) text := by
  rcases compile_eq_ok h with ⟨hmode, h⟩ | ⟨hmode, h⟩
  · obtain ⟨parts, -, -, rfl⟩ := compileCreate_eq_ok h
    rw [Blueprint.keys, hmode, Option.mem_toList] at hi
    refine ⟨k.dialect.primaryConstraint (k.tableName b.table) i, .entry List.mem_cons_self ?_, ?_⟩
    · rw [constraintsOf, hi]
      exact List.mem_append_right _ (List.mem_append_left _ (List.mem_singleton_self _))
    · rw [hdialect]
      exact Dialect.names_primaryConstraint _ i
  · rw [Blueprint.keys, hmode] at hi
    obtain ⟨command, hmem, hi⟩ := List.mem_flatMap.mp hi
    obtain ⟨_, own, hown, hsubset⟩ := exists_alterCommand h hmem
    obtain ⟨s, hs, hadd⟩ := exists_addPrimary hown hdialect hi
    rw [hdialect]
    exact ⟨s, .statement (hsubset hs), Dialect.names_addPrimary hadd⟩

/-- A name that is put together from a table, columns and a kind is written where the index or the
key is made or dropped. -/
theorem Unnamed.written (h : k.compile b = .ok statements) {table : String} {columns : List String}
    {suffix : String} (hunnamed : k.Unnamed b table columns suffix) :
    ∃ text, k.Writes b statements text ∧ k.dialect.Names (k.tableName b.table)
      (defaultName (k.tableName table) columns suffix) text := by
  cases hunnamed with
  | index hmem hi hkind hname =>
      obtain ⟨s, hs, hcreate⟩ := exists_createIndex h hmem hi hkind
      rw [← Index.nameOn_of_unnamed hname]
      exact ⟨s, .statement hs, (Dialect.makesIndex_createIndex hkind hcreate).names⟩
  | key hdialect hi hname =>
      rw [← Index.nameOn_of_unnamed hname]
      exact exists_key h hdialect hi
  | @foreign fk hmem hname =>
      obtain ⟨s, hs⟩ := exists_makesForeign h hmem
      have hresolved : (k.prefixedForeign fk).resolvedName =
          defaultName (k.tableName fk.table) fk.columns foreignSuffix := by
        rw [ForeignKey.resolvedName, prefixedForeign, hname]
        rfl
      rw [← hresolved]
      exact ⟨s, hs.writes⟩
  | droppedIndex hmem =>
      exact ⟨_, .statement (dropIndex_mem h hmem), Dialect.names_dropIndex⟩
  | droppedForeign hmem =>
      obtain ⟨s, hs, hdrop⟩ := exists_dropForeign h hmem
      exact ⟨s, .statement hs, Dialect.names_dropForeign hdrop⟩

/-- A column is changed by the statements of its dialect, and has an accepted name. -/
theorem exists_modifyColumn (h : k.compile b = .ok statements) {c : Column}
    (hmem : .column c ∈ b.commands) (hchange : c.change = true)
    (hdialect : k.dialect = .postgres ∨ k.dialect = .sqlServer) : Name.isColumn c.name = true ∧
      ∃ own ⊆ statements, k.dialect.modifyColumn (k.tableName b.table) c = .ok own := by
  have hrebuilds : k.dialect.rebuildsTables = false := by
    rcases hdialect with hdialect | hdialect
    · rw [hdialect]
      rfl
    · rw [hdialect]
      rfl
  rcases compile_eq_ok h with ⟨-, h⟩ | ⟨-, h⟩
  · obtain ⟨_, _, _, hpart, -⟩ := exists_part h hmem
    obtain ⟨-, -, hpart⟩ := exists_of_bind hpart
    rw [if_pos hchange] at hpart
    cases hpart
  · obtain ⟨_, own, hown, hsubset⟩ := exists_alterCommand h hmem
    obtain ⟨⟨⟩, hcheck, -⟩ := exists_of_bind hown
    obtain ⟨changed, more, hchanged, rfl⟩ := alterColumn_eq_ok hchange hown
    rw [changeStatements, hrebuilds] at hchanged
    exact ⟨isColumn_of_checkColumn hcheck, changed,
      List.Subset.trans (List.subset_append_left _ _) hsubset, hchanged⟩

/-- PostgreSQL drops the primary key under the name that it gives one by itself. -/
theorem dropPrimary_mem (h : k.compile b = .ok statements) (hdialect : k.dialect = .postgres)
    (hmem : .dropPrimary none ∈ b.commands) :
    Dialect.postgres.alterLead (k.tableName b.table) "DROP CONSTRAINT " ++
      Dialect.postgres.quoteName (k.tableName b.table ++ "_pkey") ∈ statements := by
  rcases compile_eq_ok h with ⟨-, h⟩ | ⟨-, h⟩
  · obtain ⟨_, _, _, hpart, -⟩ := exists_part h hmem
    cases hpart
  · obtain ⟨_, own, hown, hsubset⟩ := exists_alterCommand h hmem
    change (k.dialect.dropPrimary _ _).map _ = _ at hown
    rw [hdialect] at hown
    cases hown
    exact hsubset (List.mem_singleton_self _)

/-- A name that is put behind the table as it is stands in a statement that alters the table. -/
theorem Joined.written (h : k.compile b = .ok statements) {verb tail : String}
    (hjoined : k.Joined b verb tail) : ∃ rest, Dialect.Follows rest ∧
      k.dialect.alterLead (k.tableName b.table) verb ++
        k.dialect.quoteName (k.tableName b.table ++ tail) ++ rest ∈ statements := by
  cases hjoined with
  | @checkDropped c hdialect hmem hchange =>
      obtain ⟨-, own, hsubset, hown⟩ := exists_modifyColumn h hmem hchange (.inl hdialect)
      refine ⟨"", Dialect.follows_nothing, ?_⟩
      rw [hdialect] at hown ⊢
      rw [← Dialect.checkName_eq, String.append_empty]
      exact hsubset (Dialect.check_dropped hown)
  | @checkAdded c condition hdialect hmem hchange hcheck =>
      obtain ⟨-, own, hsubset, hown⟩ := exists_modifyColumn h hmem hchange hdialect
      rw [← Dialect.checkName_eq]
      exact ⟨_, Dialect.follows_blank condition,
        hsubset (Dialect.check_added hdialect hown hcheck)⟩
  | @default c v hdialect hmem hchange hdefault =>
      obtain ⟨-, own, hsubset, hown⟩ := exists_modifyColumn h hmem hchange (.inr hdialect)
      rw [hdialect] at hown ⊢
      obtain ⟨more, hadded⟩ := Dialect.default_added hown hdefault
      rw [← Dialect.defaultConstraintName_eq]
      exact ⟨_, Dialect.follows_blank more, hsubset hadded⟩
  | key hdialect hmem =>
      refine ⟨"", Dialect.follows_nothing, ?_⟩
      have hdropped := dropPrimary_mem h hdialect hmem
      rwa [hdialect, String.append_empty]

/-! ### One identifier or several -/

theorem isColumn_table (h : k.compile b = .ok statements) : Name.isColumn b.table = true := by
  obtain ⟨⟨⟩, hname, -⟩ := exists_of_bind h
  exact isColumn_of_checkName hname

/-- What is put behind a table has an underscore and no blanks. -/
theorem Joined.tail (h : k.compile b = .ok statements) {verb tail : String}
    (hjoined : k.Joined b verb tail) : '_' ∈ tail.toList ∧ Unbroken tail := by
  have hbehind : ∀ (column last : String), Name.isColumn column = true → Unbroken last →
      '_' ∈ ("_" ++ column ++ last).toList ∧ Unbroken ("_" ++ column ++ last) := by
    intro column last hcolumn hlast
    refine ⟨by simp, .append (.append (by decide) (unbroken_of_isColumn hcolumn)) hlast⟩
  cases hjoined with
  | checkDropped hdialect hmem hchange =>
      exact hbehind _ _ (exists_modifyColumn h hmem hchange (.inl hdialect)).1 (by decide)
  | checkAdded hdialect hmem hchange hcheck =>
      exact hbehind _ _ (exists_modifyColumn h hmem hchange hdialect).1 (by decide)
  | default hdialect hmem hchange hdefault =>
      exact hbehind _ _ (exists_modifyColumn h hmem hchange (.inr hdialect)).1 (by decide)
  | key hdialect hmem => exact ⟨by decide, by decide⟩

/-- **A made-up name is one identifier if it was put together with underscores.**  Whenever a
blueprint compiles, each index, unique index, foreign key and primary key that it makes or drops
without a name is written under the name that is put together from its table, its columns and its
kind.  This name is written as one identifier unless it has an alias in it, which takes a blank in
the prefix, as no accepted name has one; the dots of a table are underscores in it.  The names of
the checks and defaults of changed columns and of the primary key that is dropped without a name
are put behind the table as it is.  Such a name is one identifier exactly if it has no alias in
it, and neither the prefix nor the table nor the column has a dot.  SQL Server drops checks and
defaults by its catalogue, where the name of the check is a text. -/
theorem made_up_names_written (k : SchemaCompiler) (b : Blueprint) (statements : List String)
    (h : k.compile b = .ok statements) :
    (∀ table columns suffix, k.Unnamed b table columns suffix →
      let name := defaultName (k.tableName table) columns suffix
      (∃ text, k.Writes b statements text ∧ k.dialect.Names (k.tableName b.table) name text) ∧
      (k.dialect.WrittenWhole name ↔ Name.splitAlias? name = none) ∧
      (Unbroken k.tablePrefix → Unbroken table → (∀ c ∈ columns, Unbroken c) → Unbroken suffix →
        k.dialect.WrittenWhole name)) ∧
    (∀ verb tail, k.Joined b verb tail →
      let name := k.tableName b.table ++ tail
      (∃ rest, Dialect.Follows rest ∧ k.dialect.alterLead (k.tableName b.table) verb ++
        k.dialect.quoteName name ++ rest ∈ statements) ∧
      (k.dialect.WrittenWhole name ↔ '.' ∉ k.tablePrefix.toList ∧ '.' ∉ b.table.toList ∧
        '.' ∉ tail.toList ∧ Name.splitAlias? name = none) ∧
      (Unbroken k.tablePrefix → Name.splitAlias? name = none)) ∧
    ∀ c, .column c ∈ b.commands → c.change = true → k.dialect = .sqlServer →
      ∃ before behind, before ++ " OR name = " ++
        k.dialect.quoteText (Dialect.checkName (k.tableName b.table) c.name) ++ behind ∈
          statements := by
  refine ⟨fun table columns suffix hunnamed => ?_, fun verb tail hjoined => ?_,
    fun c hmem hchange hdialect => ?_⟩
  · intro name
    have hwhole : k.dialect.WrittenWhole name ↔ Name.splitAlias? name = none :=
      Dialect.writtenWhole_iff.trans (isPlain_defaultName_iff _ _ _)
    refine ⟨hunnamed.written h, hwhole, fun hlead htable hcolumns hsuffix => ?_⟩
    exact hwhole.mpr (Name.splitAlias?_eq_none
      (unbroken_defaultName (hlead.append htable) hcolumns hsuffix))
  · intro name
    obtain ⟨hunderscore, htail⟩ := hjoined.tail h
    refine ⟨hjoined.written h, ?_, fun hlead => Name.splitAlias?_eq_none ?_⟩
    · have hstar : name ≠ "*" := by
        intro hname
        have hmem : '_' ∈ name.toList := by
          rw [String.toList_append]
          exact List.mem_append_right _ hunderscore
        rw [hname] at hmem
        exact absurd hmem (by decide)
      have hdot : '.' ∉ name.toList ↔
          '.' ∉ k.tablePrefix.toList ∧ '.' ∉ b.table.toList ∧ '.' ∉ tail.toList := by
        rw [String.toList_append, tableName, String.toList_append, List.mem_append, List.mem_append,
          not_or, not_or, and_assoc]
      rw [Dialect.writtenWhole_iff, Dialect.IsPlain, hdot, and_assoc, and_assoc]
      exact and_iff_right hstar
    · exact (hlead.append (unbroken_of_isColumn (isColumn_table h))).append htail
  · obtain ⟨-, own, hsubset, hown⟩ := exists_modifyColumn h hmem hchange (.inr hdialect)
    rw [hdialect] at hown ⊢
    obtain ⟨before, behind, hbatch⟩ := Dialect.check_compared hown
    exact ⟨before, behind, hsubset hbatch⟩

/-- A change of a column that needs a check. -/
def quantity : Column :=
  { name := "qty", type := .integer, unsigned := true, index := some .generated, change := true }

/-- The changed column, and a primary key. -/
def stockChange : Blueprint :=
  { table := "stock"
    mode := .alter
    commands := [.column quantity, .index { kind := .primary, columns := ["sku"] }] }

/-- Under a prefix with a dot the names of the index and of the key are one identifier each, and the
name of the check is two. -/
theorem stock_names_written :
    let k : SchemaCompiler := { dialect := .sqlServer, tablePrefix := "Shop." }
    ∃ statements, k.compile stockChange = .ok statements ∧
      (∃ text, k.Writes stockChange statements text ∧
        k.dialect.Names "Shop.stock" "shop_stock_qty_index" text) ∧
      k.dialect.WrittenWhole "shop_stock_qty_index" ∧
      (∃ text, k.Writes stockChange statements text ∧
        k.dialect.Names "Shop.stock" "shop_stock_sku_primary" text) ∧
      k.dialect.WrittenWhole "shop_stock_sku_primary" ∧
      (∃ rest, Dialect.Follows rest ∧ k.dialect.alterLead "Shop.stock" "ADD CONSTRAINT " ++
        "[Shop].[stock_qty_check]" ++ rest ∈ statements) ∧
      ¬ k.dialect.WrittenWhole "Shop.stock_qty_check" ∧
      ∃ before behind, before ++ " OR name = " ++ "N'Shop.stock_qty_check'" ++ behind ∈
        statements := by
  intro k
  have hok : (k.compile stockChange).toOption.isSome = true := by
    decide +kernel
  obtain ⟨statements, h⟩ : ∃ statements, k.compile stockChange = .ok statements := by
    cases hcompiled : k.compile stockChange with
    | error e =>
        rw [hcompiled] at hok
        cases hok
    | ok statements => exact ⟨statements, rfl⟩
  have hqty : defaultName (k.tableName "stock") ["qty"] "index" = "shop_stock_qty_index" := by
    decide +kernel
  have hsku : defaultName (k.tableName "stock") ["sku"] "primary" = "shop_stock_sku_primary" := by
    decide +kernel
  have hquoted : k.dialect.quoteName "Shop.stock_qty_check" = "[Shop].[stock_qty_check]" := by
    decide +kernel
  have htext : k.dialect.quoteText "Shop.stock_qty_check" = "N'Shop.stock_qty_check'" := by
    decide +kernel
  have hcondition : k.dialect.columnCheck quantity = some "CHECK ([qty] >= 0)" := by
    decide +kernel
  obtain ⟨hunnamed, hjoined, hbatch⟩ := made_up_names_written k stockChange statements h
  obtain ⟨hindex, -, hindexWhole⟩ := hunnamed "stock" ["qty"] "index"
    (.index List.mem_cons_self (i := { kind := .index, columns := ["qty"] })
      (by decide) (by decide) rfl)
  obtain ⟨hkey, -, hkeyWhole⟩ := hunnamed "stock" ["sku"] "primary"
    (.key rfl (i := { kind := .primary, columns := ["sku"] }) (by decide) rfl)
  obtain ⟨hcheck, hcheckWhole, -⟩ := hjoined "ADD CONSTRAINT " "_qty_check"
    (.checkAdded (.inr rfl) List.mem_cons_self rfl hcondition)
  rw [hqty] at hindex hindexWhole
  rw [hsku] at hkey hkeyWhole
  refine ⟨statements, h, hindex,
    hindexWhole (by decide) (by decide) (by decide) (by decide), hkey,
    hkeyWhole (by decide) (by decide) (by decide) (by decide), hquoted ▸ hcheck, fun hwhole => ?_,
    htext ▸ hbatch quantity List.mem_cons_self rfl rfl⟩
  exact absurd (hcheckWhole.mp hwhole).1 (by decide)

/-- A dotted table: the check of a changed column is dropped under a name of two identifiers. -/
theorem check_of_dotted_table_split :
    let k : SchemaCompiler := { dialect := .postgres }
    k.compile
        { table := "app.users"
          mode := .alter
          commands := [.column
            { name := "name", type := .string 50, nullable := true, change := true }] } =
      .ok [
        "ALTER TABLE \"app\".\"users\" DROP CONSTRAINT IF EXISTS \"app\".\"users_name_check\"",
        "ALTER TABLE \"app\".\"users\" ALTER COLUMN \"name\" TYPE VARCHAR(50) USING " ++
          "\"name\"::VARCHAR(50)",
        "ALTER TABLE \"app\".\"users\" ALTER COLUMN \"name\" DROP NOT NULL",
        "ALTER TABLE \"app\".\"users\" ALTER COLUMN \"name\" DROP DEFAULT"] ∧
      Name.isColumn "app.users" = true ∧ Name.isColumn "name" = true ∧
      k.dialect.quoteName (Dialect.checkName "app.users" "name") =
        "\"app\".\"users_name_check\"" ∧
      ¬ ∃ whole, k.dialect.quoteName (Dialect.checkName "app.users" "name") =
        Text.enclosed k.dialect.quotes.1 k.dialect.quotes.2 whole := by
  intro k
  refine ⟨by decide +kernel, by decide +kernel, by decide +kernel, by decide +kernel, ?_⟩
  rw [Dialect.quoteName_eq_enclosed_iff]
  decide +kernel

end SchemaCompiler

end Relational
