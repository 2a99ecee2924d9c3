import Relational.Proofs.Schema.Merged
import Relational.Proofs.Session.Keeping
import Relational.Proofs.Session.Rebuild
/-
The verbs that statements open with.

Everything a query or a schema change compiles to in SQLite opens with one of seven verbs,
none of which asks anything of a session: what stands behind the verb does not matter for
that, so names, values and raw fragments need not be looked at.  What is left is the
script of a rebuild, the one that drops all tables, and texts that are handed in whole.
-/
namespace Relational

namespace SessionCommand

/-- The verbs of statements that are for the database alone. -/
def plainVerbs : List String :=
  ["SELECT", "INSERT", "UPDATE", "DELETE", "CREATE", "ALTER", "DROP"]

/-- The text opens with a verb that is for the database alone. -/
def IsPlain (sql : String) : Prop :=
  ∃ verb ∈ plainVerbs, Opens verb sql

theorem IsPlain.append {sql : String} (h : IsPlain sql) (more : String) : IsPlain (sql ++ more) := by
  obtain ⟨verb, hverb, hopens⟩ := h
  exact ⟨verb, hverb, hopens.append more⟩

theorem Opens.isPlain {verb sql : String} (h : Opens verb sql) (hverb : verb ∈ plainVerbs) :
    IsPlain sql :=
  ⟨verb, hverb, h⟩

/-- Told from the first characters, so that the rest of a long text need not be read. -/
theorem opens_ofList (verb rest : List Char) :
    Opens (String.ofList verb) (String.ofList (verb ++ ' ' :: rest)) :=
  ⟨rest, by simp⟩

theorem isPlain_select (rest : List Char) :
    IsPlain (String.ofList (['S', 'E', 'L', 'E', 'C', 'T'] ++ ' ' :: rest)) :=
  Opens.isPlain (opens_ofList _ rest) (by decide)

/-- The statement is about the switch for foreign keys: a pragma that names it. -/
def isSwitch (sql : String) : Bool :=
  match wordsOf sql with
  | "pragma" :: rest => rest.any fun word => Text.contains word.toList "foreign_keys".toList
  | _ => false

theorem wordsOf_of_mem_plainVerbs :
    ∀ verb ∈ plainVerbs, wordsOf verb ≠ [] ∧ (wordsOf verb).head? ≠ some "pragma" := by
  decide

theorem isSwitch_of_isPlain {sql : String} (h : IsPlain sql) : isSwitch sql = false := by
  obtain ⟨verb, hverb, hopens⟩ := h
  obtain ⟨rest, hrest⟩ := wordsOf_of_opens hopens
  obtain ⟨hne, hother⟩ := wordsOf_of_mem_plainVerbs verb hverb
  obtain ⟨word, words, hwords⟩ := List.exists_cons_of_ne_nil hne
  rw [hwords] at hrest hother
  rw [isSwitch, hrest]
  split
  · rename_i heq
    exact absurd (congrArg some (List.cons.inj heq).1) hother
  · rfl

end SessionCommand

open SessionCommand

/-! ### Queries -/

namespace Query

variable {q : Query} {d : Dialect} {s : Statement}

/-- A statement opens as its first words do. -/
theorem isPlain_render {pieces : Except QueryError (List Piece)} {verb words : String}
    (hopens : Opens verb words) (hverb : verb ∈ plainVerbs)
    (hpieces : ∀ found, pieces = .ok found → ∃ rest, found = .words words :: rest)
    (h : pieces.map (Sql.render d) = .ok s) : IsPlain s.sql := by
  cases hfound : pieces with
  | error e =>
      rw [hfound] at h
      cases h
  | ok found =>
      rw [hfound] at h
      cases h
      obtain ⟨rest, rfl⟩ := hpieces found hfound
      exact (hopens.append _).isPlain hverb

theorem opens_select : Opens "SELECT" "SELECT " :=
  ⟨_, rfl⟩

theorem pieces_of_select {found : List Piece} (h : q.pieces d = .ok found) :
    ∃ rest, found = .words "SELECT " :: rest := by
  obtain ⟨table, -, h⟩ := exists_of_bind h
  obtain ⟨joins, -, h⟩ := exists_of_bind h
  cases h
  exact ⟨_, rfl⟩

theorem isPlain_toSql (h : q.toSql d = .ok s) : IsPlain s.sql :=
  isPlain_render opens_select (by decide) (fun _ => pieces_of_select) h

theorem isPlain_toCountSql (h : q.toCountSql d = .ok s) : IsPlain s.sql := by
  rw [toCountSql, countPieces] at h
  split at h
  · have hopens : Opens "SELECT" "SELECT COUNT(*) AS " := ⟨_, rfl⟩
    refine isPlain_render hopens (by decide) (fun found hfound => ?_) h
    cases hinner : q.unordered.pieces d with
    | error e =>
        rw [hinner] at hfound
        cases hfound
    | ok inner =>
        rw [hinner] at hfound
        cases hfound
        exact ⟨_, rfl⟩
  · exact isPlain_toSql h

theorem isPlain_insertSql {rows : List Row} (h : q.insertSql d rows = .ok s) : IsPlain s.sql := by
  have hopens : Opens "INSERT" "INSERT INTO " := ⟨_, rfl⟩
  refine isPlain_render hopens (by decide) (fun found hfound => ?_) h
  obtain ⟨table, -, hfound⟩ := exists_of_bind hfound
  cases rows with
  | nil => cases hfound
  | cons first rest =>
      dsimp only at hfound
      split at hfound
      · cases hfound
      · obtain ⟨-, -, hfound⟩ := exists_of_bind hfound
        obtain ⟨groups, -, hfound⟩ := exists_of_bind hfound
        cases hfound
        exact ⟨_, rfl⟩

theorem isPlain_updateSql {values : Row} (h : q.updateSql d values = .ok s) : IsPlain s.sql := by
  have hopens : Opens "UPDATE" "UPDATE " := ⟨_, rfl⟩
  refine isPlain_render hopens (by decide) (fun found hfound => ?_) h
  obtain ⟨table, -, hfound⟩ := exists_of_bind hfound
  split at hfound
  · cases hfound
  · obtain ⟨-, -, hfound⟩ := exists_of_bind hfound
    cases hfound
    exact ⟨_, rfl⟩

theorem isPlain_deleteSql (h : q.deleteSql d = .ok s) : IsPlain s.sql := by
  have hopens : Opens "DELETE" "DELETE FROM " := ⟨_, rfl⟩
  refine isPlain_render hopens (by decide) (fun found hfound => ?_) h
  obtain ⟨table, -, hfound⟩ := exists_of_bind hfound
  cases hfound
  exact ⟨_, rfl⟩

end Query

/-! ### The catalog of SQLite -/

namespace Dialect

theorem isPlain_hasTable (table : String) : SessionCommand.IsPlain (sqlite.hasTable table).sql :=
  isPlain_select _

theorem isPlain_hasColumn (table column : String) :
    SessionCommand.IsPlain (sqlite.hasColumn table column).sql :=
  isPlain_select _

theorem isPlain_listTables : SessionCommand.IsPlain sqlite.listTables :=
  isPlain_select _

theorem isPlain_tableDefinition {table : String} {s : Statement}
    (h : sqlite.tableDefinition table = some s) : SessionCommand.IsPlain s.sql := by
  cases h
  exact isPlain_select _

end Dialect

/-! ### Schema changes in SQLite -/

/-- The texts that a schema change is handed to pass on. -/
def SchemaOperation.ownTexts : SchemaOperation → List String
  | raw sql => [sql]
  | _ => []

namespace Dialect

theorem isPlain_alterTable (table : String) : SessionCommand.IsPlain (sqlite.alterTable table) :=
  have h : Opens "ALTER" "ALTER TABLE " := ⟨_, rfl⟩
  (h.append _).isPlain (by decide)

theorem isPlain_createIndexAs (keyword table : String) (i : Index) :
    SessionCommand.IsPlain (sqlite.createIndexAs keyword table i) :=
  have h : Opens "CREATE" "CREATE " := ⟨_, rfl⟩
  ((((((((h.append _).append _).append _).append _).append _).append _).append _).append _).isPlain
    (by decide)

theorem isPlain_createIndex {table sql : String} {i : Index}
    (h : sqlite.createIndex table i = .ok sql) : SessionCommand.IsPlain sql := by
  unfold createIndex at h
  cases hkind : i.kind with
  | index | unique =>
      rw [hkind] at h
      cases h
      exact isPlain_createIndexAs ..
  | _ =>
      rw [hkind] at h
      cases h

theorem isPlain_addColumn {table sql : String} {c : Column}
    (h : sqlite.addColumn table c = .ok sql) : SessionCommand.IsPlain sql := by
  unfold addColumn at h
  dsimp only at h
  split at h
  · cases h
  split at h
  · cases h
  obtain ⟨definition, -, h⟩ := exists_of_bind h
  cases h
  exact ((isPlain_alterTable table).append _).append _

end Dialect

open Dialect (isPlain_hasTable isPlain_hasColumn isPlain_listTables isPlain_tableDefinition
  isPlain_alterTable isPlain_createIndex isPlain_addColumn opens_createTable opens_dropTable
  opens_dropTableIfExists opens_renameTable)

namespace SchemaCompiler

variable {k : SchemaCompiler} {table : String} {statements : List String}

section Sqlite

variable (hdialect : k.dialect = .sqlite)

include hdialect

theorem isPlain_columnIndexes {c : Column} (h : k.columnIndexes table c = .ok statements) :
    ∀ sql ∈ statements, IsPlain sql := by
  intro sql hsql
  obtain ⟨i, -, hi⟩ := exists_of_mem_mapM h hsql
  rw [hdialect] at hi
  exact isPlain_createIndex hi

theorem columnComment_eq_nil (c : Column) : k.columnComment table c = [] := by
  unfold columnComment
  rw [hdialect]
  split
  · rfl
  · split
    · rfl
    · rfl

theorem isPlain_createPart {command : BlueprintCommand} {part : CreatePart}
    (h : k.createPart table command = .ok part) : ∀ sql ∈ part.trailing, IsPlain sql := by
  cases command with
  | column c =>
      obtain ⟨-, -, h⟩ := exists_of_bind h
      change (if c.change then _ else _) = _ at h
      split at h
      · cases h
      obtain ⟨definition, -, h⟩ := exists_of_bind h
      obtain ⟨indexes, hindexes, h⟩ := exists_of_bind h
      cases h
      rw [columnComment_eq_nil hdialect, List.append_nil]
      exact isPlain_columnIndexes hdialect hindexes
  | index i =>
      obtain ⟨-, -, h⟩ := exists_of_bind h
      change (if i.kind = .primary then _ else _) = _ at h
      split at h
      · cases h
        exact List.forall_mem_nil _
      · obtain ⟨statement, hstatement, h⟩ := exists_of_bind h
        cases h
        rw [hdialect] at hstatement
        exact List.forall_mem_singleton.mpr (isPlain_createIndex hstatement)
  | foreign fk =>
      obtain ⟨-, -, h⟩ := exists_of_bind h
      cases h
      exact List.forall_mem_nil _
  | _ => cases h

theorem isPlain_compileCreate {b : Blueprint} (h : k.compileCreate b = .ok statements) :
    ∀ sql ∈ statements, IsPlain sql := by
  unfold compileCreate at h
  dsimp only at h
  split at h
  · cases h
  obtain ⟨parts, hparts, h⟩ := exists_of_bind h
  split at h
  · cases h
  cases h
  refine List.forall_mem_cons.mpr ⟨?_, fun sql hsql => ?_⟩
  · rw [hdialect]
    exact ((opens_createTable ..).append _).isPlain (by decide)
  · obtain ⟨part, hpart, hsql⟩ := List.mem_flatMap.mp hsql
    obtain ⟨command, -, hcommand⟩ := exists_of_mem_mapM hparts hpart
    exact isPlain_createPart hdialect hcommand sql hsql

variable (hsnapshot : k.snapshot = none)

include hsnapshot

theorem rebuild_ne_ok {b : Blueprint} : k.rebuild table b ≠ .ok statements := by
  intro h
  obtain ⟨-, snapshot, hs, -⟩ := rebuild_eq_ok hdialect h
  rw [hsnapshot] at hs
  cases hs

theorem isPlain_alterColumn {b : Blueprint} {rebuilt : Bool} {c : Column}
    (h : k.alterColumn table b rebuilt c = .ok statements) : ∀ sql ∈ statements, IsPlain sql := by
  obtain ⟨own, key, indexes, hown, hkey, hindexes, rfl⟩ := exists_alterColumn h
  have hownPlain : ∀ sql ∈ own, IsPlain sql := by
    split at hown
    · rw [changeStatements, hdialect] at hown
      cases rebuilt with
      | true =>
          cases hown
          exact List.forall_mem_nil _
      | false => exact absurd hown (rebuild_ne_ok hdialect hsnapshot)
    · rw [hdialect] at hown
      obtain ⟨sql, hsql, hsingle⟩ := exists_of_bind hown
      cases hsingle
      exact List.forall_mem_singleton.mpr (isPlain_addColumn hsql)
  have hkeyNil : key = [] := by
    split at hkey
    · rw [hdialect] at hkey
      cases hkey
    · cases hkey
      rfl
  rw [hkeyNil, columnComment_eq_nil hdialect, List.append_nil, List.append_nil]
  intro sql hsql
  rcases List.mem_append.mp hsql with hsql | hsql
  · exact hownPlain sql hsql
  · exact isPlain_columnIndexes hdialect hindexes sql hsql

theorem isPlain_alterCommand {b : Blueprint} {rebuilt : Bool} {command : BlueprintCommand}
    (h : k.alterCommand table b rebuilt command = .ok statements) :
    ∀ sql ∈ statements, IsPlain sql := by
  cases command with
  | column c => exact isPlain_alterColumn hdialect hsnapshot h
  | index i =>
      obtain ⟨-, -, h⟩ := exists_of_bind h
      obtain ⟨sql, hsql, h⟩ := exists_of_bind h
      cases h
      rw [hdialect] at hsql
      exact List.forall_mem_singleton.mpr (isPlain_createIndex hsql)
  | foreign fk =>
      obtain ⟨-, -, h⟩ := exists_of_bind h
      rw [hdialect] at h
      cases h
  | dropColumns columns =>
      intro sql hsql
      obtain ⟨column, -, hcolumn⟩ := exists_of_mem_mapM h hsql
      obtain ⟨-, -, hcolumn⟩ := exists_of_bind hcolumn
      cases hcolumn
      rw [hdialect]
      exact ((isPlain_alterTable table).append _).append _
  | renameColumn source target =>
      obtain ⟨-, -, h⟩ := exists_of_bind h
      obtain ⟨-, -, h⟩ := exists_of_bind h
      cases h
      rw [hdialect]
      exact List.forall_mem_singleton.mpr
        ((((isPlain_alterTable table).append _).append _).append _ |>.append _)
  | dropIndex target =>
      cases h
      rw [hdialect]
      have hopens : Opens "DROP" "DROP INDEX " := ⟨_, rfl⟩
      exact List.forall_mem_singleton.mpr ((hopens.append _).isPlain (by decide))
  | dropPrimary name =>
      change Except.map _ (k.dialect.dropPrimary table name) = _ at h
      rw [hdialect] at h
      cases h
  | dropForeign target =>
      change Except.map _ (k.dialect.dropForeign table _) = _ at h
      rw [hdialect] at h
      cases h

theorem isPlain_alterCommands {b : Blueprint} {rebuilt : Bool} {commands : List BlueprintCommand}
    (h : k.alterCommands table b rebuilt commands = .ok statements) :
    ∀ sql ∈ statements, IsPlain sql := by
  induction commands generalizing rebuilt statements with
  | nil =>
      cases h
      exact List.forall_mem_nil _
  | cons command rest ih =>
      obtain ⟨own, hown, h⟩ := exists_of_bind h
      obtain ⟨later, hlater, h⟩ := exists_of_bind h
      cases h
      exact List.forall_mem_append.mpr
        ⟨isPlain_alterCommand hdialect hsnapshot hown, ih hlater⟩

/-- Without a stored definition a blueprint compiles to statements for the database alone. -/
theorem isPlain_compile {b : Blueprint} (h : k.compile b = .ok statements) :
    ∀ sql ∈ statements, IsPlain sql := by
  obtain ⟨-, -, h⟩ := exists_of_bind h
  cases hmode : b.mode with
  | create =>
      rw [hmode] at h
      exact isPlain_compileCreate hdialect h
  | alter =>
      rw [hmode] at h
      exact isPlain_alterCommands hdialect hsnapshot h

theorem isPlain_compileOperation {operation : SchemaOperation}
    (h : k.compileOperation operation = .ok statements) :
    ∀ sql ∈ statements, sql ∉ operation.ownTexts → IsPlain sql := by
  intro sql hsql hown
  cases operation with
  | table b => exact isPlain_compile hdialect hsnapshot h sql hsql
  | drop table =>
      obtain ⟨-, -, h⟩ := exists_of_bind h
      cases h
      rw [hdialect] at hsql
      exact List.mem_singleton.mp hsql ▸ (opens_dropTable _).isPlain (by decide)
  | dropIfExists table =>
      obtain ⟨-, -, h⟩ := exists_of_bind h
      cases h
      rw [hdialect] at hsql
      exact List.mem_singleton.mp hsql ▸ (opens_dropTableIfExists _).isPlain (by decide)
  | rename source target =>
      obtain ⟨-, -, h⟩ := exists_of_bind h
      obtain ⟨-, -, h⟩ := exists_of_bind h
      cases h
      rw [hdialect] at hsql
      exact List.mem_singleton.mp hsql ▸ (opens_renameTable ..).isPlain (by decide)
  | raw own =>
      cases h
      exact absurd hsql hown

theorem isPlain_compilePlan {plan : SchemaPlan} (h : k.compilePlan plan = .ok statements) :
    ∀ sql ∈ statements, sql ∉ plan.flatMap SchemaOperation.ownTexts → IsPlain sql := by
  intro sql hsql hown
  obtain ⟨parts, hparts, h⟩ := exists_of_bind h
  cases h
  obtain ⟨part, hpart, hsql⟩ := List.mem_flatten.mp hsql
  obtain ⟨operation, hoperation, hcompiled⟩ := exists_of_mem_mapM hparts hpart
  refine isPlain_compileOperation hdialect hsnapshot hcompiled sql hsql fun hmem => hown ?_
  exact List.mem_flatMap.mpr ⟨operation, hoperation, hmem⟩

end Sqlite

end SchemaCompiler

/-! ### Calls -/

namespace SchemaCall

/-- The texts that the call is handed to pass on. -/
def ownTexts : SchemaCall → List String
  | statement sql => [sql]
  | apply operation => operation.ownTexts
  | run plan => plan.flatMap SchemaOperation.ownTexts
  | _ => []

/-- A call that neither builds a table anew nor drops all tables sends statements for the database
alone, besides the texts it is handed. -/
theorem isPlain_of_maySend {σ : Type} {s : Schema σ} (hdialect : s.executor.dialect = .sqlite)
    {c : SchemaCall} (hplain : c.rebuilt? s.executor.dialect = none) (hall : c ≠ .dropAll)
    {sql : String} (hown : sql ∉ c.ownTexts) (h : c.MaySend s sql) : IsPlain sql := by
  have hk : s.compiler.dialect = .sqlite := hdialect
  cases c with
  | blueprint b =>
      have hrebuilds : ¬ b.Rebuilds s.executor.dialect := by simpa [rebuilt?] using hplain
      simp only [MaySend, if_neg hrebuilds] at h
      obtain ⟨statements, hstatements, hsql⟩ := h
      exact SchemaCompiler.isPlain_compile hk rfl hstatements sql hsql
  | apply operation =>
      obtain ⟨statements, hstatements, hsql⟩ := h
      exact SchemaCompiler.isPlain_compileOperation hk rfl hstatements sql hsql hown
  | run plan =>
      obtain ⟨statements, hstatements, hsql⟩ := h
      exact SchemaCompiler.isPlain_compilePlan hk rfl hstatements sql hsql hown
  | statement own => exact absurd (List.mem_singleton.mpr h.symm) hown
  | hasTable table =>
      obtain rfl := h
      rw [hdialect]
      exact isPlain_hasTable _
  | hasColumn table column =>
      obtain rfl := h
      rw [hdialect]
      exact isPlain_hasColumn ..
  | tables =>
      obtain rfl := h
      rw [hdialect]
      exact isPlain_listTables
  | dropAll => exact absurd rfl hall
  | snapshot table =>
      obtain ⟨statement, hstatement, rfl⟩ := h
      rw [hdialect] at hstatement
      exact isPlain_tableDefinition hstatement
  | get q | first q | hasRows q | value q column | aggregate q function column =>
      obtain ⟨statement, hstatement, rfl⟩ := h
      exact Query.isPlain_toSql hstatement
  | count q =>
      obtain ⟨statement, hstatement, rfl⟩ := h
      exact Query.isPlain_toCountSql hstatement
  | insert q rows =>
      obtain ⟨statement, hstatement, rfl⟩ := h
      exact Query.isPlain_insertSql hstatement
  | update q values =>
      obtain ⟨statement, hstatement, rfl⟩ := h
      exact Query.isPlain_updateSql hstatement
  | delete q =>
      obtain ⟨statement, hstatement, rfl⟩ := h
      exact Query.isPlain_deleteSql hstatement
  | page q pager =>
      obtain ⟨statement, hstatement, rfl⟩ | ⟨statement, hstatement, rfl⟩ := h
      · exact Query.isPlain_toCountSql hstatement
      · exact Query.isPlain_toSql hstatement
  | pageAfter q pager token =>
      obtain ⟨past, -, statement, hstatement, rfl⟩ := h
      exact Query.isPlain_toSql hstatement

end SchemaCall

end Relational
