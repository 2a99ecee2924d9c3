import Relational.Proofs.Schema.Creation
/-
A new table's definition is read back entry for entry.

The statement of a new table lists the definitions of its columns and then its
constraints.  Whatever names, literals and values stand in them, the definition is cut
where one entry ends and the next begins, each entry comes back as the text it was, and
columns and constraints are told apart.
-/
namespace Relational

namespace Column

theorem openingName_eq {c : Column} (h : '.' ∉ c.name.toList) : c.openingName = c.name := by
  rw [openingName, Name.splitOn_of_not_mem h, List.headD_cons, String.ofList_toList]

/-- The entry of a column: its definition, read as a column of its name.  Of a dotted name only what
stands in front of the first dot is read. -/
structure EntryOf (c : Column) (item : TableItem) : Prop where
  definition : Dialect.sqlite.columnDefinition c = .ok item.sql
  column : item = .column c.openingName item.sql
  name : '.' ∉ c.name.toList → item.name? = some c.name

theorem entries_read {columns : List Column} {definitions : List String}
    (h : List.Forall₂ SchemaCompiler.Defines columns definitions) :
    List.Forall₂ EntryOf columns
        (List.zipWith (fun c s => .column c.openingName s) columns definitions) ∧
      (List.zipWith (fun c s => TableItem.column c.openingName s) columns definitions).map
        TableItem.sql = definitions := by
  induction h with
  | nil => exact ⟨.nil, rfl⟩
  | @cons c s columns definitions hfirst _ ih =>
      obtain ⟨hentries, htexts⟩ := ih
      have hentry : c.EntryOf (.column c.openingName s) :=
        { definition := hfirst.2
          column := rfl
          name := fun hdot => congrArg some (openingName_eq hdot) }
      rw [List.zipWith_cons_cons]
      exact ⟨.cons hentry hentries, congrArg (s :: ·) htexts⟩

end Column

theorem TableItem.map_sql_constraint (constraints : List String) :
    (constraints.map TableItem.constraint).map TableItem.sql = constraints := by
  rw [List.map_map]
  exact List.map_id constraints

namespace SchemaCompiler

/-- **A new table is read back entry for entry.**  Without expressions as defaults, the statement of
a new table can be read, and its entries come back in their order and as they were written: one
column for each column, under its name, then the primary key, if it is no counter, and the foreign
keys as constraints, with nothing behind them. -/
theorem created_table_read_back {k : SchemaCompiler} (hdialect : k.dialect = .sqlite)
    {b : Blueprint} (hmode : b.mode = .create) (hliteral : ∀ c ∈ b.columns, c.HasLiteral)
    {statements : List String} (h : k.compile b = .ok statements) (table : String)
    (dependents : List String) :
    ∃ body trailing columns snapshot,
      statements = Dialect.sqlite.createTable (k.tableName b.table) b.ifNotExists body :: trailing ∧
      TableSnapshot.parse table
        (Dialect.sqlite.createTable (k.tableName b.table) b.ifNotExists body) dependents =
          .ok snapshot ∧
      snapshot.items.map TableItem.sql = body ∧
      snapshot.items = columns ++ (k.constraintsOf b).map TableItem.constraint ∧
      List.Forall₂ Column.EntryOf b.columns columns ∧
      snapshot.options = "" ∧ snapshot.table = table ∧ snapshot.dependents = dependents := by
  obtain ⟨definitions, trailing, hdefinitions, rfl, hparse⟩ :=
    parse_created_body hdialect hmode hliteral h table dependents
  obtain ⟨hentries, htexts⟩ := Column.entries_read hdefinitions
  refine ⟨_, trailing, _, _, rfl, hparse, ?_, rfl, hentries, rfl, rfl, rfl⟩
  show List.map TableItem.sql (_ ++ _) = definitions ++ k.constraintsOf b
  rw [List.map_append, htexts, TableItem.map_sql_constraint]

/-- Orders whose texts hold all that the cutter looks for. -/
def ordersBlueprint : Blueprint :=
  { table := "orders"
    mode := .create
    commands := [
      .column { name := "code", type := .string 20, primary := some (.named "key, of (orders") },
      .foreign
        { table := "orders", columns := ["code"], referencedTable := "codes"
          referencedColumns := ["id"], name := some "code's \"owner" },
      .column
        { name := "state", type := .enum ["it's", "a, b", "[c"]
          default := some (.literal (.text "x), /* -- ('")) }] }

/-- The compiler for SQLite, with a prefix in front of table names. -/
def prefixedSqlite : SchemaCompiler :=
  { dialect := .sqlite, tablePrefix := "shop_" }

/-- The statement that makes the orders. -/
def ordersStatement : String :=
  "CREATE TABLE \"shop_orders\" (\"code\" TEXT NOT NULL, \"state\" TEXT NOT NULL DEFAULT " ++
    "'x), /* -- (''' CHECK (\"state\" IN ('it''s', 'a, b', '[c')), CONSTRAINT \"key, of (orders\" " ++
    "PRIMARY KEY (\"code\"), CONSTRAINT \"code's \"\"owner\" FOREIGN KEY (\"code\") REFERENCES " ++
    "\"shop_codes\" (\"id\"))"

theorem compile_orders : prefixedSqlite.compile ordersBlueprint = .ok [ordersStatement] := by
  decide +kernel

theorem hasLiteral_orders : ∀ c ∈ ordersBlueprint.columns, c.HasLiteral := by
  intro c hc sql
  simp only [ordersBlueprint, Blueprint.columns, List.filterMap_cons, List.filterMap_nil,
    BlueprintCommand.column?, List.mem_cons, List.not_mem_nil, or_false] at hc
  rcases hc with rfl | rfl
  · simp
  · simp

/-- The orders come back as two columns, a key and a reference. -/
theorem orders_read_back :
    (∀ c ∈ ordersBlueprint.columns, c.HasLiteral) ∧
    prefixedSqlite.compile ordersBlueprint = .ok [ordersStatement] ∧
    ∃ body trailing columns snapshot,
      [ordersStatement] =
        Dialect.sqlite.createTable "shop_orders" ordersBlueprint.ifNotExists body :: trailing ∧
      TableSnapshot.parse "shop_orders"
        (Dialect.sqlite.createTable "shop_orders" ordersBlueprint.ifNotExists body) [] =
          .ok snapshot ∧
      snapshot.items.map TableItem.sql = body ∧
      snapshot.items = columns ++ [
        TableItem.constraint "CONSTRAINT \"key, of (orders\" PRIMARY KEY (\"code\")",
        TableItem.constraint
          ("CONSTRAINT \"code's \"\"owner\" FOREIGN KEY (\"code\") REFERENCES \"shop_codes\" " ++
            "(\"id\")")] ∧
      List.Forall₂ Column.EntryOf ordersBlueprint.columns columns ∧
      snapshot.options = "" ∧ snapshot.table = "shop_orders" ∧ snapshot.dependents = [] := by
  have hconstraints : prefixedSqlite.constraintsOf ordersBlueprint =
      ["CONSTRAINT \"key, of (orders\" PRIMARY KEY (\"code\")",
        "CONSTRAINT \"code's \"\"owner\" FOREIGN KEY (\"code\") REFERENCES \"shop_codes\" " ++
          "(\"id\")"] := by
    decide +kernel
  have htable : prefixedSqlite.tableName ordersBlueprint.table = "shop_orders" := by
    decide
  have hread := created_table_read_back (k := prefixedSqlite) rfl rfl hasLiteral_orders
    compile_orders "shop_orders" []
  rw [hconstraints, htable] at hread
  exact ⟨hasLiteral_orders, compile_orders, hread⟩

end SchemaCompiler

end Relational
