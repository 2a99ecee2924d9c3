import Relational.Proofs.Schema.Creation
import Relational.Proofs.Schema.Merged
import Relational.Proofs.Schema.Naming
/-
What is made without a name can be dropped without one.

An index or a foreign key that gets no name is given one when it is compiled, and a
command that drops it says no more than its columns and its kind.  The two names are made
up in different places: for an index from its definition or from the mark of a column, for
a foreign key from the table it belongs to, and for what is dropped from the table of the
blueprint.  They are read off the statements here, and they are the same.
-/
namespace Relational

/-- The indexes that a command asks for, by themselves or as marks of a column. -/
def BlueprintCommand.indexes : BlueprintCommand → List Index
  | .index i => [i]
  | .column c =>
    (c.unique.map (SchemaCompiler.flaggedIndex .unique c)).toList ++
      (c.index.map (SchemaCompiler.flaggedIndex .index c)).toList
  | _ => []

namespace SchemaCompiler

variable {k : SchemaCompiler} {b : Blueprint} {command : BlueprintCommand} {table : String}
  {statements : List String}

/-! ### One command -/

theorem exists_columnIndexes {c : Column} (h : k.columnIndexes table c = .ok statements)
    {i : Index} (hi : i ∈ (BlueprintCommand.column c).indexes) :
    ∃ s ∈ statements, k.dialect.createIndex table i = .ok s :=
  exists_mapM_of_mem h hi

/-- A new table's part holds the statements for the indexes behind the table. -/
theorem exists_trailing {part : CreatePart} (h : k.createPart table command = .ok part)
    {i : Index} (hi : i ∈ command.indexes) (hkind : i.kind ≠ .primary) :
    ∃ s ∈ part.trailing, k.dialect.createIndex table i = .ok s := by
  cases command with
  | column c =>
      obtain ⟨-, -, h⟩ := exists_of_bind h
      change (if c.change then _ else _) = _ at h
      split at h
      · cases h
      obtain ⟨definition, -, h⟩ := exists_of_bind h
      obtain ⟨indexes, hindexes, h⟩ := exists_of_bind h
      cases h
      obtain ⟨s, hs, hstatement⟩ := exists_columnIndexes hindexes hi
      exact ⟨s, List.mem_append_left _ hs, hstatement⟩
  | index own =>
      obtain rfl := List.mem_singleton.mp hi
      obtain ⟨-, -, h⟩ := exists_of_bind h
      change (if i.kind = .primary then _ else _) = _ at h
      rw [if_neg hkind] at h
      obtain ⟨s, hs, h⟩ := exists_of_bind h
      cases h
      exact ⟨s, List.mem_singleton_self s, hs⟩
  | _ => cases hi

/-- A changed table has a statement for each index. -/
theorem exists_own {rebuilt : Bool} {own : List String}
    (h : k.alterCommand table b rebuilt command = .ok own) {i : Index}
    (hi : i ∈ command.indexes) : ∃ s ∈ own, k.dialect.createIndex table i = .ok s := by
  cases command with
  | column c =>
      obtain ⟨changed, key, indexes, -, -, hindexes, rfl⟩ := exists_alterColumn h
      obtain ⟨s, hs, hstatement⟩ := exists_columnIndexes hindexes hi
      exact ⟨s, by simp [hs], hstatement⟩
  | index own =>
      obtain rfl := List.mem_singleton.mp hi
      obtain ⟨-, -, h⟩ := exists_of_bind h
      cases hs : k.dialect.createIndex table i with
      | error e =>
          rw [hs] at h
          cases h
      | ok s =>
          rw [hs] at h
          cases h
          exact ⟨s, List.mem_singleton_self s, rfl⟩
  | _ => cases hi

/-! ### All commands -/

theorem compile_eq_ok (h : k.compile b = .ok statements) :
    (b.mode = .create ∧ k.compileCreate b = .ok statements) ∨
      (b.mode = .alter ∧ k.compileAlter b = .ok statements) := by
  obtain ⟨-, -, h⟩ := exists_of_bind h
  cases hmode : b.mode with
  | create =>
      rw [hmode] at h
      exact .inl ⟨rfl, h⟩
  | alter =>
      rw [hmode] at h
      exact .inr ⟨rfl, h⟩

/-- Every command has its part in a new table and behind it. -/
theorem exists_part (h : k.compileCreate b = .ok statements) (hmem : command ∈ b.commands) :
    ∃ part body options, k.createPart (k.tableName b.table) command = .ok part ∧
      k.dialect.createTable (k.tableName b.table) b.ifNotExists body ++ options ∈ statements ∧
      part.constraints ⊆ body ∧ part.trailing ⊆ statements := by
  obtain ⟨parts, hparts, -, rfl⟩ := compileCreate_eq_ok h
  obtain ⟨part, hpart, hcommand⟩ := exists_mapM_of_mem hparts hmem
  refine ⟨part, _, _, hcommand, List.mem_cons_self, fun s hs => ?_, fun s hs => ?_⟩
  · rw [(marks_createPart hcommand).2.2, Option.mem_toList, Option.map_eq_some_iff] at hs
    obtain ⟨fk, hfk, rfl⟩ := hs
    have hkey : fk ∈ b.foreignKeys := List.mem_filterMap.mpr ⟨command, hmem, hfk⟩
    exact List.mem_append_right _ (List.mem_append_right _ (List.mem_map_of_mem hkey))
  · exact List.mem_cons_of_mem _ (List.mem_flatMap.mpr ⟨part, hpart, hs⟩)

/-- Every command has its own statements among those that change a table. -/
theorem exists_alterCommand {rebuilt : Bool} {commands : List BlueprintCommand}
    (h : k.alterCommands table b rebuilt commands = .ok statements) (hmem : command ∈ commands) :
    ∃ already own, k.alterCommand table b already command = .ok own ∧ own ⊆ statements := by
  induction commands generalizing rebuilt statements with
  | nil => cases hmem
  | cons first rest ih =>
      obtain ⟨own, hown, h⟩ := exists_of_bind h
      obtain ⟨later, hlater, h⟩ := exists_of_bind h
      cases h
      rcases List.mem_cons.mp hmem with rfl | hmem
      · exact ⟨rebuilt, own, hown, List.subset_append_left _ _⟩
      · obtain ⟨already, others, hothers, hsubset⟩ := ih hlater hmem
        exact ⟨already, others, hothers, List.subset_append_of_subset_right _ hsubset⟩

/-! ### What is made -/

theorem exists_createIndex (h : k.compile b = .ok statements) (hmem : command ∈ b.commands)
    {i : Index} (hi : i ∈ command.indexes) (hkind : i.kind ≠ .primary) :
    ∃ s ∈ statements, k.dialect.createIndex (k.tableName b.table) i = .ok s := by
  rcases compile_eq_ok h with ⟨-, h⟩ | ⟨-, h⟩
  · obtain ⟨part, _, _, hpart, -, -, htrailing⟩ := exists_part h hmem
    obtain ⟨s, hs, hstatement⟩ := exists_trailing hpart hi hkind
    exact ⟨s, htrailing hs, hstatement⟩
  · obtain ⟨_, own, hown, hsubset⟩ := exists_alterCommand h hmem
    obtain ⟨s, hs, hstatement⟩ := exists_own hown hi
    exact ⟨s, hsubset hs, hstatement⟩

/-- The text that makes a foreign key: an entry of the table that is made, or a statement on a table
that is there. -/
inductive MakesForeign (k : SchemaCompiler) (b : Blueprint) (statements : List String)
    (fk : ForeignKey) : String → Prop
  | entry {body : List String} {options : String} (hmode : b.mode = .create)
    (htable : k.dialect.createTable (k.tableName b.table) b.ifNotExists body ++ options ∈ statements)
    (hentry : k.foreignClause fk ∈ body) : MakesForeign k b statements fk (k.foreignClause fk)
  | added {s : String} (hmode : b.mode = .alter)
    (hs : k.dialect.addForeign (k.tableName b.table) (k.prefixedForeign fk) = .ok s)
    (hmem : s ∈ statements) : MakesForeign k b statements fk s

theorem exists_makesForeign (h : k.compile b = .ok statements) {fk : ForeignKey}
    (hmem : .foreign fk ∈ b.commands) : ∃ s, k.MakesForeign b statements fk s := by
  rcases compile_eq_ok h with ⟨hmode, h⟩ | ⟨hmode, h⟩
  · obtain ⟨part, body, options, hpart, htable, hbody, -⟩ := exists_part h hmem
    obtain ⟨-, -, hpart⟩ := exists_of_bind hpart
    cases hpart
    exact ⟨_, .entry hmode htable (hbody (List.mem_singleton_self _))⟩
  · obtain ⟨_, own, hown, hsubset⟩ := exists_alterCommand h hmem
    obtain ⟨-, -, hown⟩ := exists_of_bind hown
    cases hs : k.dialect.addForeign (k.tableName b.table) (k.prefixedForeign fk) with
    | error e =>
        rw [hs] at hown
        cases hown
    | ok s =>
        rw [hs] at hown
        cases hown
        exact ⟨s, .added hmode hs (hsubset (List.mem_singleton_self s))⟩

theorem MakesForeign.nameIn?_eq {fk : ForeignKey} {s : String}
    (h : k.MakesForeign b statements fk s) :
    k.dialect.nameIn? s = some (k.dialect.quoteName (k.prefixedForeign fk).resolvedName) := by
  cases h with
  | entry hmode htable hentry => exact Dialect.nameIn?_foreignKeyClause _
  | added hmode hs hmem => exact Dialect.nameIn?_addForeign hs

/-! ### What is dropped -/

theorem dropIndex_mem (h : k.compile b = .ok statements) {target : ConstraintRef}
    (hmem : .dropIndex target ∈ b.commands) :
    k.dialect.dropIndex (k.tableName b.table) (target.nameOn (k.tableName b.table)) ∈
      statements := by
  rcases compile_eq_ok h with ⟨-, h⟩ | ⟨-, h⟩
  · obtain ⟨_, _, _, hpart, -⟩ := exists_part h hmem
    cases hpart
  · obtain ⟨_, own, hown, hsubset⟩ := exists_alterCommand h hmem
    cases hown
    exact hsubset (List.mem_singleton_self _)

theorem exists_dropForeign (h : k.compile b = .ok statements) {target : ConstraintRef}
    (hmem : .dropForeign target ∈ b.commands) :
    ∃ s ∈ statements, k.dialect.dropForeign (k.tableName b.table)
      (target.nameOn (k.tableName b.table)) = .ok s := by
  rcases compile_eq_ok h with ⟨-, h⟩ | ⟨-, h⟩
  · obtain ⟨_, _, _, hpart, -⟩ := exists_part h hmem
    cases hpart
  · obtain ⟨_, own, hown, hsubset⟩ := exists_alterCommand h hmem
    change (k.dialect.dropForeign _ _).map _ = _ at hown
    cases hs : k.dialect.dropForeign (k.tableName b.table)
        (target.nameOn (k.tableName b.table)) with
    | error e =>
        rw [hs] at hown
        cases hown
    | ok s =>
        rw [hs] at hown
        cases hown
        exact ⟨s, hsubset (List.mem_singleton_self s), rfl⟩

/-! ### The two names -/

/-- **What is made without a name can be dropped without one.**  Whenever a blueprint makes an index,
by itself or as the mark of a column, or a foreign key of its table, and gives it no name, and a
blueprint of the same table drops what was generated for these columns, then both compile to a
statement on it, and the name that is read in the one is the name that is read in the other. -/
theorem unnamed_dropped_by_columns (k : SchemaCompiler) (later : Option TableSnapshot)
    (made dropped : Blueprint) (htable : dropped.table = made.table)
    (statements removals : List String) (hmade : k.compile made = .ok statements)
    (hdropped : ({ k with snapshot := later } : SchemaCompiler).compile dropped = .ok removals) :
    let table := k.tableName made.table
    (∀ command ∈ made.commands, ∀ i ∈ command.indexes, i.kind ≠ .primary → i.name = none →
      .dropIndex (.generated i.columns i.kind.suffix) ∈ dropped.commands →
      let name := defaultName table i.columns i.kind.suffix
      ∃ s ∈ statements, ∃ r ∈ removals,
        k.dialect.createIndex table i = .ok s ∧ r = k.dialect.dropIndex table name ∧
        k.dialect.nameIn? s = some (k.dialect.quoteName name) ∧
        k.dialect.nameIn? r = some (k.dialect.quoteName name)) ∧
    ∀ fk, .foreign fk ∈ made.commands → fk.table = made.table → fk.name = none →
      .dropForeign (.generated fk.columns foreignSuffix) ∈ dropped.commands →
      let name := defaultName table fk.columns foreignSuffix
      ∃ s, k.MakesForeign made statements fk s ∧ ∃ r ∈ removals,
        k.dialect.dropForeign table name = .ok r ∧
        k.dialect.nameIn? s = some (k.dialect.quoteName name) ∧
        k.dialect.nameIn? r = some (k.dialect.quoteName name) := by
  intro table
  refine ⟨fun command hmem i hi hkind hunnamed hdrop => ?_, fun fk hmem howner hunnamed hdrop => ?_⟩
  · intro name
    obtain ⟨s, hs, hcreate⟩ := exists_createIndex hmade hmem hi hkind
    have hremoval := dropIndex_mem hdropped hdrop
    rw [htable] at hremoval
    have hname : i.nameOn table = name := by
      rw [Index.nameOn, hunnamed]
      rfl
    have hread := (Dialect.makesIndex_createIndex hkind hcreate).nameIn?_eq
    rw [hname] at hread
    exact ⟨s, hs, _, hremoval, hcreate, rfl, hread, Dialect.nameIn?_dropIndex name⟩
  · intro name
    obtain ⟨s, hs⟩ := exists_makesForeign hmade hmem
    obtain ⟨r, hr, hremoval⟩ := exists_dropForeign hdropped hdrop
    rw [htable] at hremoval
    have hname : (k.prefixedForeign fk).resolvedName = name := by
      rw [ForeignKey.resolvedName, prefixedForeign, hunnamed, howner]
      rfl
    have hread := hs.nameIn?_eq
    rw [hname] at hread
    exact ⟨s, hs, r, hr, hremoval, hread, Dialect.nameIn?_dropForeign hremoval⟩

/-- A table with a mark on a column, and a foreign key. -/
def bookTable : Blueprint :=
  { table := "books"
    mode := .create
    commands := [
      .column { name := "title", type := .string 100, unique := some .generated },
      .column { name := "author", type := .integer },
      .foreign
        { table := "books", columns := ["author"], referencedTable := "authors"
          referencedColumns := ["id"] }] }

/-- What drops both by their columns. -/
def bookRemovals : Blueprint :=
  { table := "books"
    mode := .alter
    commands := [
      .dropIndex (.generated ["title"] "unique"),
      .dropForeign (.generated ["author"] "foreign")] }

/-- The table of books is made under a prefix that has to change for the generated names. -/
theorem book_title_dropped_by_columns :
    let k : SchemaCompiler := { dialect := .sqlServer, tablePrefix := "Shop." }
    let statements := [
      "CREATE TABLE [Shop].[books] ([title] NVARCHAR(100) NOT NULL, [author] INT NOT NULL, " ++
        "CONSTRAINT [shop_books_author_foreign] FOREIGN KEY ([author]) " ++
        "REFERENCES [Shop].[authors] ([id]))",
      "CREATE UNIQUE INDEX [shop_books_title_unique] ON [Shop].[books] ([title])"]
    let removals := [
      "DROP INDEX [shop_books_title_unique] ON [Shop].[books]",
      "ALTER TABLE [Shop].[books] DROP CONSTRAINT [shop_books_author_foreign]"]
    k.compile bookTable = .ok statements ∧ k.compile bookRemovals = .ok removals ∧
      (∃ s ∈ statements, ∃ r ∈ removals,
        k.dialect.nameIn? s = some "[shop_books_title_unique]" ∧
        k.dialect.nameIn? r = some "[shop_books_title_unique]") ∧
      ∃ fk s, k.MakesForeign bookTable statements fk s ∧ ∃ r ∈ removals,
        k.dialect.nameIn? s = some "[shop_books_author_foreign]" ∧
        k.dialect.nameIn? r = some "[shop_books_author_foreign]" := by
  intro k statements removals
  have hmade : k.compile bookTable = .ok statements := by decide +kernel
  have hdropped : k.compile bookRemovals = .ok removals := by decide +kernel
  obtain ⟨hindexes, hforeign⟩ :=
    unnamed_dropped_by_columns k none bookTable bookRemovals rfl statements removals hmade hdropped
  have htitle : k.dialect.quoteName (defaultName (k.tableName "books") ["title"] "unique") =
      "[shop_books_title_unique]" := by decide +kernel
  have hauthor : k.dialect.quoteName (defaultName (k.tableName "books") ["author"] "foreign") =
      "[shop_books_author_foreign]" := by decide +kernel
  refine ⟨hmade, hdropped, ?_, ?_⟩
  · obtain ⟨s, hs, r, hr, -, -, hread⟩ := hindexes
      (.column { name := "title", type := .string 100, unique := some .generated })
      (by simp [bookTable]) { kind := .unique, columns := ["title"] }
      (by simp [BlueprintCommand.indexes, flaggedIndex, IndexFlag.name?]) (by decide) rfl
      (by simp [bookRemovals, IndexKind.suffix])
    exact ⟨s, hs, r, hr, htitle ▸ hread⟩
  · obtain ⟨s, hs, r, hr, -, hread⟩ := hforeign
      { table := "books", columns := ["author"], referencedTable := "authors"
        referencedColumns := ["id"] }
      (by simp [bookTable]) rfl rfl (by simp [bookRemovals, foreignSuffix])
    exact ⟨_, s, hs, r, hr, hauthor ▸ hread⟩

end SchemaCompiler

end Relational
