import Mathlib.Data.List.Sort
import Relational.Proofs.Decimal.Digits
import Relational.Proofs.Migration.Database
/-
A database in memory that serves migrations.

It keeps what migrations can tell apart and nothing else: for every connection the rows
of the ledger and the units that are installed, and one copy of such a database for the
transaction that is open.  It understands the statements of a SQLite ledger named
`migrations`, and of every unit one statement that installs it and one that removes it.
Which steps fail is told beforehand; a step that fails changes nothing.
-/
namespace Relational

open Action

/-- Databases in memory. -/
structure Memory where
  /-- The database of each connection. -/
  databases : String → Database
  /-- What the open transaction works on. -/
  work : Database := {}
  /-- Whether the next steps fail; behind the last of them none does. -/
  faults : List Bool := []

namespace Memory

variable {α : Type}

/-! ### The statements it understands -/

/-- The table the statements are for. -/
def table : String := "migrations"

def rowsText : String :=
  "SELECT \"identifier\", \"batch\", \"applied_at\" FROM \"migrations\" ORDER BY \"batch\" ASC, " ++
    "\"identifier\" ASC"

def highestText : String :=
  "SELECT MAX(\"batch\") AS \"aggregate\" FROM \"migrations\""

def batchText : String :=
  "SELECT \"identifier\", \"batch\", \"applied_at\" FROM \"migrations\" WHERE \"batch\" = ? " ++
    "ORDER BY \"identifier\" ASC"

/-- The text in front of the number of rows. -/
def newestText : String :=
  "SELECT \"identifier\", \"batch\", \"applied_at\" FROM \"migrations\" ORDER BY \"batch\" DESC, " ++
    "\"identifier\" DESC LIMIT "

def insertText : String :=
  "INSERT INTO \"migrations\" (\"identifier\", \"batch\", \"applied_at\") VALUES (?, ?, ?)"

def deleteText : String :=
  "DELETE FROM \"migrations\" WHERE \"identifier\" = ?"

def createTexts : List String :=
  ["CREATE TABLE \"migrations\" (\"id\" INTEGER NOT NULL PRIMARY KEY AUTOINCREMENT " ++
      "CHECK (\"id\" >= 0), \"identifier\" TEXT NOT NULL, \"batch\" INTEGER NOT NULL, " ++
      "\"applied_at\" TEXT NOT NULL)",
    "CREATE UNIQUE INDEX \"migrations_identifier_unique\" ON \"migrations\" (\"identifier\")"]

theorem accepted : Name.isAliased table = true ∧ Name.isAliased "identifier" = true ∧
    Name.isAliased "batch" = true ∧ Name.isAliased "applied_at" = true ∧
    Name.isColumn "identifier" = true ∧ Name.isColumn "batch" = true ∧
    Name.isColumn "applied_at" = true ∧ Name.splitAlias? table = none := by
  decide +kernel

theorem quoted : Dialect.quoteName .sqlite table = "\"migrations\"" ∧
    Dialect.quoteName .sqlite "identifier" = "\"identifier\"" ∧
    Dialect.quoteName .sqlite "batch" = "\"batch\"" ∧
    Dialect.quoteName .sqlite "applied_at" = "\"applied_at\"" := by
  decide +kernel

theorem ofTable_eq : Query.ofTable table = { table := some table } := by
  decide +kernel

theorem statement_rows :
    LedgerQuery.statement .sqlite table .rows = .ok ⟨rowsText, []⟩ := by
  decide +kernel

theorem statement_highest :
    LedgerQuery.statement .sqlite table .highest = .ok ⟨highestText, []⟩ := by
  decide +kernel

theorem query_batch (n : Int64) :
    ((((Query.ofTable table).filtered (·.filter "batch" (toOperand n))).orderBy "identifier" .asc).select
      LedgerQuery.columns) =
    { table := some table
      selections := [.column "identifier", .column "batch", .column "applied_at"]
      filters := ⟨[.leaf (.compare "batch" .equal (.int n))], none⟩
      orders := [.column "identifier" .asc] } := by
  simp [ofTable_eq, accepted, LedgerQuery.columns, Query.filtered, Conditions.filter,
    Conditions.compareBy, Conditions.checkColumn, bind, Except.bind, toOperand, toValue,
    Conditions.shape, Conditions.add, Conditions.push, Conditions.joint, Conditions.atStart,
    Conditions.empty, Query.orderBy, Query.select, Query.addSelect, Query.addColumn,
    Query.whenAliased]

theorem statement_batch (n : Int64) :
    LedgerQuery.statement .sqlite table (.batch n) = .ok ⟨batchText, [.int n]⟩ := by
  show (((Query.ofTable table).filtered (·.filter "batch" (toOperand n))).orderBy "identifier"
    .asc |>.select LedgerQuery.columns).toSql .sqlite = _
  rw [query_batch]
  show Except.ok (Sql.render .sqlite
    [.words "SELECT ", .name "identifier", .words ", ", .name "batch", .words ", ",
      .name "applied_at", .words " FROM ", .name table, .words " WHERE ", .name "batch",
      .words " = ", .bound (.int n), .words " ORDER BY ", .name "identifier", .words " ASC",
      .words ""]) = _
  simp only [Sql.render, Sql.text, Piece.text, quoted]
  rfl

theorem query_newest (n : UInt64) :
    (((((Query.ofTable table).orderBy "batch" .desc).orderBy "identifier" .desc).take n).select
      LedgerQuery.columns) =
    { table := some table
      selections := [.column "identifier", .column "batch", .column "applied_at"]
      orders := [.column "batch" .desc, .column "identifier" .desc]
      limit := some n } := by
  simp [ofTable_eq, accepted, LedgerQuery.columns, Query.orderBy, Query.take, Query.select,
    Query.addSelect, Query.addColumn, Query.whenAliased]

theorem statement_newest (n : UInt64) :
    LedgerQuery.statement .sqlite table (.newest n) = .ok ⟨newestText ++ toString n, []⟩ := by
  show (((((Query.ofTable table).orderBy "batch" .desc).orderBy "identifier" .desc).take n).select
      LedgerQuery.columns).toSql .sqlite = _
  rw [query_newest]
  show Except.ok (Sql.render .sqlite
    [.words "SELECT ", .name "identifier", .words ", ", .name "batch", .words ", ",
      .name "applied_at", .words " FROM ", .name table, .words " ORDER BY ", .name "batch",
      .words " DESC", .words ", ", .name "identifier", .words " DESC",
      .words (" LIMIT " ++ toString n)]) = _
  simp only [Sql.render, Sql.text, Piece.text, quoted, ← String.append_assoc]
  rw [String.append_empty]
  rfl

theorem insertSql_row (r : LedgerRow) :
    (Query.ofTable table).insertSql .sqlite [r.row] =
      .ok ⟨insertText, [.text r.identifier, .int r.batch, .text r.appliedAt]⟩ := by
  simp [ofTable_eq, accepted, Query.insertSql, Query.insertPieces, Query.writableTable,
    Query.validTable, Query.error, Conditions.empty, bind, Except.bind, pure, Except.pure,
    LedgerRow.row, Row.ofList, Row.columns, Row.insert, Row.put, Row.empty, Row.get?, Row.size,
    List.lookup_cons, Query.checkColumns, Conditions.checkColumn, Query.valueGroups,
    Query.groupPiecesOf, Query.valueIn, Except.map, Sql.separated, List.intercalate, Sql.render,
    Sql.text, Sql.bindings, Piece.bindings, Piece.text, quoted, Dialect.placeholder]
  rfl

theorem deleteSql_id (id : String) :
    ((Query.ofTable table).filtered (·.filter "identifier" (toOperand id))).deleteSql .sqlite =
      .ok ⟨deleteText, [.text id]⟩ := by
  have hquery : (Query.ofTable table).filtered (·.filter "identifier" (toOperand id)) =
      { table := some table
        filters := ⟨[.leaf (.compare "identifier" .equal (.text id))], none⟩ } := by
    simp [ofTable_eq, accepted, Query.filtered, Conditions.filter, Conditions.compareBy,
      Conditions.checkColumn, bind, Except.bind, toOperand, toValue, Conditions.shape,
      Conditions.add, Conditions.push, Conditions.joint, Conditions.atStart, Conditions.empty]
  rw [hquery]
  simp [Query.deleteSql, Query.deletePieces, Query.writableTable, accepted, Query.validTable,
    Query.error, Conditions.empty, bind, Except.bind, pure, Except.pure, Except.map,
    Query.filterPieces, Conditions.isEmpty, Conditions.pieces, Conditions.isShared, Token.isLeaf,
    Token.pieces, Leaf.pieces, Comparison.sql, Sql.render, Sql.text, Sql.bindings, Piece.bindings,
    Piece.text, quoted, Dialect.placeholder]
  rfl

theorem compile_blueprint {l : Ledger α} (hd : l.executor.dialect = .sqlite)
    (htable : l.table = table) : l.schema.compiler.compile l.blueprint = .ok createTexts := by
  unfold Ledger.schema Schema.compiler Ledger.blueprint
  rw [hd, htable]
  show SchemaCompiler.compile { dialect := .sqlite }
    ([Column.increments "id",
      { name := "identifier", type := .string 255, unique := some .generated },
      { name := "batch", type := .integer },
      { name := "applied_at", type := .timestampTz }].foldl Blueprint.add
        (Blueprint.create table)) = .ok createTexts
  decide +kernel

/-! ### What it does -/

/-- The rows of a ledger in order. -/
def inOrder (a b : LedgerRow) : Bool :=
  decide (a.batch < b.batch) || (a.batch == b.batch && decide (a.identifier ≤ b.identifier))

/-- The rows a statement finds, if it is one that is understood and there is a table to read. -/
def answer (db : Database) (sql : String) (bindings : List Value) : Option (List Row) :=
  if sql = (Dialect.hasTable .sqlite table).sql then
    some [Row.ofList [("aggregate", .int (if db.ledger.isSome then 1 else 0))]]
  else db.ledger.bind fun stored =>
    if sql = highestText then
      some [Row.ofList [("aggregate", LedgerQuery.maxBatch stored)]]
    else if sql = rowsText then some ((stored.mergeSort inOrder).map LedgerRow.row)
    else match bindings with
      | [.int n] =>
        if sql = batchText then
          some (((stored.filter (·.batch = n)).mergeSort inOrder).map LedgerRow.row)
        else none
      | _ =>
        if newestText.toList.isPrefixOf sql.toList then
          let n := Decimal.natOfDigits (sql.toList.drop newestText.length)
          some (((stored.mergeSort fun a b => inOrder b a).take n).map LedgerRow.row)
        else none

/-- The statements that install and remove each unit. -/
def effects : List (String × String × String) :=
  [("001_people", "CREATE TABLE people (id INTEGER)", "DROP TABLE people"),
    ("002_events", "CREATE TABLE events (id INTEGER)", "DROP TABLE events")]

/-- What a statement makes of a database, if it is one that is understood and there is a table to
write to. -/
def change (db : Database) (sql : String) (bindings : List Value) : Option Database :=
  match bindings with
  | [.text id, .int batch, .text appliedAt] =>
    if sql = insertText then
      db.ledger.map fun stored => { db with ledger := some (stored ++ [⟨id, batch, appliedAt⟩]) }
    else none
  | [.text id] =>
    if sql = deleteText then
      db.ledger.map fun stored => { db with ledger := some (stored.filter (·.identifier ≠ id)) }
    else none
  | _ =>
    match effects.find? (·.2.1 = sql), effects.find? (·.2.2 = sql) with
    | some (id, _), _ => some { db with installed := insert id db.installed }
    | none, some (id, _) => some { db with installed := db.installed \ {id} }
    | none, none => if createTexts.contains sql then some { db with ledger := some db.rows } else none

/-- A step, if it is not to fail and something comes of it. -/
def step (f : Memory → Option (α × Memory)) : Action Memory α :=
  ExceptT.mk fun s =>
    let next := { s with faults := s.faults.drop 1 }
    match if s.faults.head? = some true then none else f next with
    | some (x, t) => (.ok x, t)
    | none => (.error (.statement "the step failed" "" 0), next)

/-- Where statements act: on a connection's database, or inside the transaction. -/
inductive Place where
  | shared (name : String)
  | inside

namespace Place

def database : Place → Memory → Database
  | shared name, s => s.databases name
  | inside, s => s.work

def store : Place → Database → Memory → Memory
  | shared name, db, s => { s with databases := Function.update s.databases name db }
  | inside, db, s => { s with work := db }

@[simp] theorem database_store (place : Place) (db : Database) (s : Memory) :
    place.database (place.store db s) = db := by
  cases place with
  | shared name => simp [database, store]
  | inside => rfl

end Place

/-- Runs statements in a place. -/
def executor (place : Place) : Executor Memory where
  dialect := .sqlite
  query := fun sql bindings =>
    step fun s => (answer (place.database s) sql bindings).map (·, s)
  execute := fun sql bindings =>
    step fun s => (change (place.database s) sql bindings).map fun db => (1, place.store db s)

/-- The open transaction. -/
def transaction (name : String) : Transaction Memory where
  executor := executor .inside
  commit := step fun s => some ((), Place.store (.shared name) s.work s)
  rollback := step fun s => some ((), s)

def connection (name : String) : Connection Memory where
  name := name
  executor := executor (.shared name)
  begin := step fun s => some (transaction name, { s with work := s.databases name })

/-! ### It serves migrations -/

/-- Texts in the order of their characters. -/
def textOrder (a b : String) : Bool :=
  decide (a ≤ b)

theorem precedes_iff (a b : LedgerRow) : a.Precedes textOrder b ↔ inOrder a b = true := by
  simp [LedgerRow.Precedes, textOrder, inOrder]

theorem inOrder_trans (a b c : LedgerRow) (hab : inOrder a b = true) (hbc : inOrder b c = true) :
    inOrder a c = true := by
  simp only [inOrder, Bool.or_eq_true, Bool.and_eq_true, decide_eq_true_eq, beq_iff_eq] at *
  rcases hab with hab | ⟨hab, hab'⟩
  · rcases hbc with hbc | ⟨hbc, -⟩
    · exact Or.inl (Int64.lt_trans hab hbc)
    · exact Or.inl (hbc ▸ hab)
  · rcases hbc with hbc | ⟨hbc, hbc'⟩
    · exact Or.inl (hab ▸ hbc)
    · exact Or.inr ⟨hab.trans hbc, String.le_trans hab' hbc'⟩

theorem inOrder_total (a b : LedgerRow) : (inOrder a b || inOrder b a) = true := by
  simp only [inOrder, Bool.or_eq_true, Bool.and_eq_true, decide_eq_true_eq, beq_iff_eq]
  by_cases hab : a.batch = b.batch
  · rcases String.le_total a.identifier b.identifier with h | h
    · exact Or.inl (Or.inr ⟨hab, h⟩)
    · exact Or.inr (Or.inr ⟨hab.symm, h⟩)
  · by_cases hle : a.batch ≤ b.batch
    · exact Or.inl (Or.inl (Int64.lt_of_le_of_ne hle hab))
    · exact Or.inr (Or.inl (Int64.not_le.mp hle))

theorem pairwise_inOrder (stored : List LedgerRow) :
    (stored.mergeSort inOrder).Pairwise (LedgerRow.Precedes textOrder) :=
  (List.pairwise_mergeSort inOrder_trans inOrder_total stored).imp fun h => (precedes_iff _ _).mpr h

theorem pairwise_inOrder_flip (stored : List LedgerRow) :
    (stored.mergeSort fun a b => inOrder b a).Pairwise
      fun a b => LedgerRow.Precedes textOrder b a :=
  (List.pairwise_mergeSort (fun a b c hab hbc => inOrder_trans c b a hbc hab)
    (fun a b => inOrder_total b a) stored).imp fun h => (precedes_iff _ _).mpr h

theorem texts_differ : newestText.toList.isPrefixOf (Dialect.hasTable .sqlite table).sql.toList = false ∧
    newestText.toList.isPrefixOf highestText.toList = false ∧
    newestText.toList.isPrefixOf rowsText.toList = false ∧
    highestText ≠ (Dialect.hasTable .sqlite table).sql ∧
    rowsText ≠ (Dialect.hasTable .sqlite table).sql ∧ rowsText ≠ highestText ∧
    batchText ≠ (Dialect.hasTable .sqlite table).sql ∧ batchText ≠ highestText ∧
    batchText ≠ rowsText := by
  decide +kernel

/-- The number behind the text is the number that was written. -/
theorem newest_text (n : UInt64) :
    newestText.toList.isPrefixOf (newestText ++ toString n).toList = true ∧
      Decimal.natOfDigits ((newestText ++ toString n).toList.drop newestText.length) = n.toNat := by
  rw [String.toList_append, ← String.length_toList, List.drop_left]
  refine ⟨by simp, ?_⟩
  show Decimal.natOfDigits (toString n.toNat).toList = _
  rw [Nat.toString_eq_repr, Nat.toList_repr]
  exact Decimal.natOfDigits_digitsOf n.toNat

theorem answered {k : LedgerQuery} {s : Statement} {db : Database} {rows : List Row}
    (hs : LedgerQuery.statement .sqlite table k = .ok s)
    (hrows : answer db s.sql s.bindings = some rows) : k.Answered textOrder db.ledger rows := by
  obtain ⟨hp, hh, hr, h1, h2, h3, h4, h5, h6⟩ := texts_differ
  cases k with
  | presence =>
      cases hs
      simp only [answer, if_true, Option.some.injEq] at hrows
      subst hrows
      refine ⟨_, rfl, ?_⟩
      cases db.ledger <;> simp
  | rows =>
      rw [statement_rows] at hs
      cases hs
      rw [answer, if_neg h2, Option.bind_eq_some_iff] at hrows
      obtain ⟨stored, hstored, hrows⟩ := hrows
      rw [if_neg h3, if_pos rfl, Option.some.injEq] at hrows
      rw [hstored]
      exact ⟨_, List.mergeSort_perm _ _, pairwise_inOrder stored, hrows.symm⟩
  | highest =>
      rw [statement_highest] at hs
      cases hs
      rw [answer, if_neg h1, Option.bind_eq_some_iff] at hrows
      obtain ⟨stored, hstored, hrows⟩ := hrows
      rw [if_pos rfl, Option.some.injEq] at hrows
      rw [hstored, ← hrows]
      rfl
  | batch n =>
      rw [statement_batch] at hs
      cases hs
      rw [answer, if_neg h4, Option.bind_eq_some_iff] at hrows
      obtain ⟨stored, hstored, hrows⟩ := hrows
      simp only [if_neg h5, if_neg h6, if_true, Option.some.injEq] at hrows
      rw [hstored]
      exact ⟨_, List.mergeSort_perm _ _, pairwise_inOrder _, hrows.symm⟩
  | newest n =>
      rw [statement_newest] at hs
      cases hs
      obtain ⟨hfront, hn⟩ := newest_text n
      have hne : ∀ {text : String}, newestText.toList.isPrefixOf text.toList = false →
          newestText ++ toString n ≠ text := by
        intro text htext heq
        rw [heq, htext] at hfront
        cases hfront
      rw [answer, if_neg (hne hp), Option.bind_eq_some_iff] at hrows
      obtain ⟨stored, hstored, hrows⟩ := hrows
      simp only [if_neg (hne hh), if_neg (hne hr), hfront, if_true, hn, Option.some.injEq] at hrows
      rw [hstored]
      exact ⟨_, List.mergeSort_perm _ _, pairwise_inOrder_flip stored, hrows.symm⟩

/-- What stays the same while the plan for the next steps is used up. -/
def Steady {β : Type} (see : Memory → β) : Prop :=
  ∀ s faults, see { s with faults } = see s

theorem outcome_step (f : Memory → Option (α × Memory)) (s : Memory) :
    (step f).outcome s =
      match if s.faults.head? = some true then none else f { s with faults := s.faults.drop 1 } with
      | some (x, t) => (.ok x, t)
      | none =>
        (.error (.statement "the step failed" "" 0), { s with faults := s.faults.drop 1 }) :=
  rfl

theorem ensures_step {β : Type} {see : Memory → β} (hsteady : Steady see)
    {f : Memory → Option (α × Memory)} {d : β} {ok : α → Memory → Prop}
    (h : ∀ s x t, see s = d → f s = some (x, t) → ok x t) :
    Ensures (see · = d) (step f) ok (fun _ t => see t = d) := by
  intro s hs
  have hnext : see { s with faults := s.faults.drop 1 } = d := (hsteady s _).trans hs
  rw [outcome_step]
  rcases hend : (if s.faults.head? = some true then none
    else f { s with faults := s.faults.drop 1 }) with _ | ⟨x, t⟩
  · exact hnext
  · split at hend
    · cases hend
    · exact h _ x t hnext hend

theorem keeps_step {β : Type} {see : Memory → β} (hsteady : Steady see)
    {f : Memory → Option (α × Memory)} (h : ∀ s x t, f s = some (x, t) → see t = see s) :
    Keeps see (step f) :=
  keeps_of_ensures fun _ => ensures_step hsteady fun s x t hs hf => (h s x t hf).trans hs

theorem Place.steady (place : Place) : Steady place.database := by
  intro s faults
  cases place with
  | shared name => rfl
  | inside => rfl

/-- A statement changes the database it acts on as `change` says, or fails and changes nothing. -/
theorem ensures_execute (place : Place) (sql : String) (bindings : List Value) (db : Database) :
    Ensures (place.database · = db) ((executor place).execute sql bindings)
      (fun _ t => change db sql bindings = some (place.database t))
      (fun _ t => place.database t = db) := by
  simp only [executor]
  refine ensures_step place.steady ?_
  intro s n t hs hstep
  obtain ⟨db', hchange, hend⟩ := Option.map_eq_some_iff.mp hstep
  cases hend
  rw [← hs, hchange, Place.database_store]

theorem keeps_executor {β : Type} {place : Place} {see : Memory → β} (hsteady : Steady see)
    (hstore : ∀ db s, see (place.store db s) = see s) : (executor place).Keeping see := by
  refine ⟨fun sql bindings => keeps_step hsteady ?_, fun sql bindings => keeps_step hsteady ?_⟩
  · intro s x t hstep
    obtain ⟨rows, -, hend⟩ := Option.map_eq_some_iff.mp hstep
    cases hend
    rfl
  · intro s x t hstep
    obtain ⟨db, -, hend⟩ := Option.map_eq_some_iff.mp hstep
    cases hend
    exact hstore db s

theorem change_create {db db' : Database} {sql : String} (hsql : sql ∈ createTexts)
    (h : change db sql [] = some db') :
    db' = db ∨ db.ledger = none ∧ db' = { db with ledger := some [] } := by
  have hother : ∀ sql ∈ createTexts, effects.find? (·.2.1 = sql) = none ∧
      effects.find? (·.2.2 = sql) = none ∧ createTexts.contains sql = true := by
    decide +kernel
  obtain ⟨hup, hdown, hcreate⟩ := hother sql hsql
  simp only [change, hup, hdown, hcreate, if_true, Option.some.injEq] at h
  subst h
  cases hledger : db.ledger with
  | none => exact Or.inr ⟨rfl, by simp [Database.rows, hledger]⟩
  | some stored =>
      refine Or.inl ?_
      obtain ⟨ledger, installed⟩ := db
      cases hledger
      rfl

theorem serves (place : Place) : (executor place).Serves table textOrder place.database where
  reads k s hs db := by
    simp only [executor]
    refine ensures_step place.steady ?_
    intro m rows t hm hstep
    obtain ⟨found, hfound, hend⟩ := Option.map_eq_some_iff.mp hstep
    cases hend
    exact ⟨hm, answered hs (hm ▸ hfound)⟩
  creates l hl htable statements hcompile sql hsql db := by
    rw [compile_blueprint (by rw [hl]; rfl) htable] at hcompile
    cases hcompile
    refine (ensures_execute place sql [] db).weaken (fun _ hs => hs) ?_ (fun _ _ hs => hs)
    exact fun _ t ht => change_create hsql ht
  inserts r s hs db := by
    have := (insertSql_row r).symm.trans hs
    cases this
    refine (ensures_execute place _ _ db).weaken (fun _ hs => hs) ?_ (fun _ _ hs => hs)
    intro _ t ht
    rw [change, if_pos rfl, Option.map_eq_some_iff] at ht
    obtain ⟨stored, hstored, ht⟩ := ht
    exact ⟨stored, hstored, ht.symm⟩
  deletes id s hs db := by
    have := (deleteSql_id id).symm.trans hs
    cases this
    refine (ensures_execute place _ _ db).weaken (fun _ hs => hs) ?_ (fun _ _ hs => hs)
    intro _ t ht
    rw [change, if_pos rfl, Option.map_eq_some_iff] at ht
    obtain ⟨stored, hstored, ht⟩ := ht
    exact ⟨stored, hstored, ht.symm⟩

theorem transaction_serves (name : String) :
    (transaction name).Serves name table textOrder databases work where
  executor := serves .inside
  hidden := keeps_executor (fun _ _ => rfl) fun _ _ => rfl
  commit v db := by
    simp only [transaction]
    have hcommit : Ensures (fun s => (s.databases, s.work) = (v, db))
        (step fun s => some ((), Place.store (.shared name) s.work s))
        (fun _ t => t.databases = Function.update v name db)
        (fun _ t => (t.databases, t.work) = (v, db)) := by
      refine ensures_step (fun _ _ => rfl) ?_
      intro s x t hs hstep
      cases hstep
      cases hs
      rfl
    exact hcommit.weaken (fun s hs => Prod.ext hs.1 hs.2) (fun _ _ ht => ht)
      fun _ t ht => congrArg Prod.fst ht
  rollback := keeps_step (fun _ _ => rfl) fun s x t hstep => by
    cases hstep
    rfl

/-- The unit that one statement installs and another removes. -/
def unitOf (connection : Option String) (effect : String × String × String) : MigrationUnit where
  id := effect.1
  connection := connection
  transaction := true
  up := .ofStatements [effect.2.1]
  down := .ofStatements [effect.2.2]

theorem acts {connection : Option String} {effect : String × String × String}
    (heffect : effect ∈ effects) {schema : Schema Memory}
    (hschema : schema.executor = executor .inside) :
    (unitOf connection effect).Acts schema work := by
  have hchange : ∀ e ∈ effects, (∀ db, change db e.2.1 [] =
        some { db with installed := insert e.1 db.installed }) ∧
      ∀ db, change db e.2.2 [] = some { db with installed := db.installed \ {e.1} } := by
    simp only [effects, List.mem_cons, List.not_mem_nil, or_false]
    rintro e (rfl | rfl)
    · exact ⟨fun db => rfl, fun db => rfl⟩
    · exact ⟨fun db => rfl, fun db => rfl⟩
  have hrun : ∀ sql db db', change db sql [] = some db' →
      Ensures (work · = db) ((Procedure.ofStatements [sql]).perform schema)
        (fun _ t => work t = db') (fun _ _ => True) := by
    intro sql db db' hsql
    have hexecute : Ensures (work · = db) ((executor .inside).execute sql [])
        (fun _ t => work t = db') (fun _ _ => True) :=
      (ensures_execute .inside sql [] db).weaken (fun _ hs => hs)
        (fun _ t ht => Option.some.inj (ht.symm.trans hsql)) (fun _ _ _ => trivial)
    rw [← hschema] at hexecute
    exact hexecute.bind fun _ => ensures_pure fun _ ht => ht
  exact ⟨fun db => hrun _ db _ ((hchange effect heffect).1 db),
    fun db => hrun _ db _ ((hchange effect heffect).2 db)⟩

/-! ### A migrator on two connections -/

/-- Two units, one on each of two connections. -/
def units : List MigrationUnit :=
  [unitOf none ("001_people", "CREATE TABLE people (id INTEGER)", "DROP TABLE people"),
    unitOf (some "archive") ("002_events", "CREATE TABLE events (id INTEGER)", "DROP TABLE events")]

def migrator : Migrator Memory where
  registry := {
    config := {
      default := "main"
      connections := [("main", { dialect := .sqlite }), ("archive", { dialect := .sqlite })] }
    opened := [("main", connection "main"), ("archive", connection "archive")] }
  registered := units
  now := ⟨0, 0⟩

theorem units_migrator : migrator.units = .ok units :=
  Migrator.units_of_registered (by decide +kernel) (by decide)
    (by simp only [migrator, units, List.pairwise_pair]; decide) (by decide)

theorem known_migrator : migrator.known = units := by
  rw [Migrator.known, units_migrator]

theorem served {name : String} (htable : migrator.config.ledgerTableFor name = table) :
    migrator.Served textOrder databases name (connection name) where
  executor := by
    rw [htable]
    exact serves (.shared name)
  apart := by
    refine keeps_executor (fun _ _ => rfl) fun db s => ?_
    funext other
    exact Function.update_of_ne other.2 _ _
  begin v := by
    simp only [connection]
    refine ensures_step (fun _ _ => rfl) ?_
    intro s tx t hs hstep
    cases hstep
    refine ⟨hs, work, congrFun hs name, ?_, ?_⟩
    · rw [htable]
      exact transaction_serves name
    · intro u hu _
      rw [known_migrator] at hu
      simp only [units, List.mem_cons, List.not_mem_nil, or_false] at hu
      rcases hu with rfl | rfl
      · exact acts (by decide) rfl
      · exact acts (by decide) rfl

/-- A connection that is found under a name is the one of that name. -/
theorem lookup_opened {connection : String → α} (names : List String) {name : String} {c : α}
    (h : (names.map fun n => (n, connection n)).lookup name = some c) :
    name ∈ names ∧ c = connection name := by
  induction names with
  | nil => cases h
  | cons n rest ih =>
      rw [List.map_cons, List.lookup_cons] at h
      split at h
      · rename_i heq
        cases h
        rw [beq_iff_eq] at heq
        exact ⟨by simp [heq], by rw [heq]⟩
      · exact ⟨List.mem_cons_of_mem n (ih h).1, (ih h).2⟩

theorem environment : migrator.Environment textOrder databases := by
  intro name v
  have htable : ∀ n ∈ ["main", "archive"], migrator.config.ledgerTableFor n = table := by
    decide
  unfold Registry.get
  split
  · rename_i c hc
    obtain ⟨hname, rfl⟩ := lookup_opened ["main", "archive"] hc
    exact ensures_pure fun s hs => ⟨hs, served (htable name hname)⟩
  · refine ensures_ofExcept_bind (fun found _ => ?_) fun _ _ hs => hs
    exact ensures_throw fun _ hs => hs

end Memory

end Relational
