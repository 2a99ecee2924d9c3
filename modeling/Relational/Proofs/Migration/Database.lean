import Mathlib.Data.Set.Insert
import Mathlib.Data.List.Basic
import Relational.Migration.Migrator
import Relational.Proofs.Session.Keeping
/-
What migrations expect of a database.

A database is seen through two things only: the rows of the ledger's table, and the
units whose effect is installed.  `Executor.Serves` says that the ledger's own
statements act on that table as statements on a table do, and that one that fails
changes nothing.  It says nothing about any other statement.  `Transaction.Serves`
adds that what runs inside a transaction works on a copy, which a commit that
succeeds makes the database.  The state behind all this is left open, and so is when
a statement fails, so whatever holds here holds for every pattern of failures.
-/
namespace Relational

open Action

/-! ### Databases -/

/-- A row of a ledger's table. -/
structure LedgerRow where
  identifier : String
  batch : Int64
  appliedAt : String
  deriving DecidableEq, Repr

namespace LedgerRow

/-- The row with the names of its columns. -/
def row (r : LedgerRow) : Row :=
  Row.ofList [("identifier", .text r.identifier), ("batch", .int r.batch),
    ("applied_at", .text r.appliedAt)]

/-- Earlier batches first, and the rows of one batch by the order of texts. -/
def Precedes (le : String → String → Bool) (a b : LedgerRow) : Prop :=
  a.batch < b.batch ∨ a.batch = b.batch ∧ le a.identifier b.identifier = true

/-- The number of the last batch among rows, zero without rows. -/
def lastBatch (rows : List LedgerRow) : Int64 :=
  ((rows.map (·.batch)).max?).getD 0

end LedgerRow

/-- What a connection's database holds, as far as migrations go. -/
structure Database where
  /-- The rows of the ledger's table, if there is such a table. -/
  ledger : Option (List LedgerRow) := none
  /-- The units whose effect is there. -/
  installed : Set String := ∅

namespace Database

/-- The rows of the ledger; a missing table has none. -/
def rows (db : Database) : List LedgerRow :=
  db.ledger.getD []

/-- The units the ledger lists. -/
def recorded (db : Database) : List String :=
  db.rows.map (·.identifier)

/-- The same rows and the same effects, although a table without rows may have been made. -/
def SameContent (a b : Database) : Prop :=
  b.rows = a.rows ∧ b.installed = a.installed

theorem SameContent.refl (db : Database) : db.SameContent db := ⟨rfl, rfl⟩

theorem SameContent.trans {a b c : Database} (hab : a.SameContent b) (hbc : b.SameContent c) :
    a.SameContent c :=
  ⟨hbc.1.trans hab.1, hbc.2.trans hab.2⟩

end Database

/-! ### The ledger's statements -/

/-- What a ledger asks its database for. -/
inductive LedgerQuery where
  /-- Whether there is a table. -/
  | presence
  /-- All rows, the first batch first. -/
  | rows
  /-- The number of the last batch. -/
  | highest
  /-- The rows of one batch. -/
  | batch (n : Int64)
  /-- So many rows, the last one first. -/
  | newest (n : UInt64)

namespace LedgerQuery

/-- The columns of a ledger's row. -/
def columns : List String :=
  ["identifier", "batch", "applied_at"]

/-- The statement that asks. -/
def statement (d : Dialect) (table : String) : LedgerQuery → Except QueryError Statement
  | presence => .ok (d.hasTable table)
  | rows =>
    ((((Query.ofTable table).orderBy "batch" .asc).orderBy "identifier" .asc).select columns).toSql d
  | highest => ((Query.ofTable table).reorder.withoutLimits.aggregateOf .max "batch").toSql d
  | batch n =>
    ((((Query.ofTable table).filtered (·.filter "batch" (toOperand n))).orderBy "identifier" .asc).select
      columns).toSql d
  | newest n =>
    (((((Query.ofTable table).orderBy "batch" .desc).orderBy "identifier" .desc).take n).select
      columns).toSql d

/-- The highest batch number, `NULL` without rows. -/
def maxBatch (stored : List LedgerRow) : Value :=
  match (stored.map (·.batch)).max? with
  | some n => .int n
  | none => .null

/-- Whether rows are the answer of a table that holds `stored`.  A table that is missing is only
asked whether it is there. -/
def Answered (le : String → String → Bool) :
    LedgerQuery → Option (List LedgerRow) → List Row → Prop
  | presence, ledger, answer =>
    ∃ n, answer.head?.bind Row.first? = some (.int n) ∧ (0 < n ↔ ledger.isSome = true)
  | rows, some stored, answer =>
    ∃ listed : List LedgerRow, listed.Perm stored ∧ listed.Pairwise (LedgerRow.Precedes le) ∧
      answer = listed.map LedgerRow.row
  | highest, some stored, answer => answer.head?.bind Row.first? = some (maxBatch stored)
  | batch n, some stored, answer =>
    ∃ listed : List LedgerRow, listed.Perm (stored.filter (·.batch = n)) ∧
      listed.Pairwise (LedgerRow.Precedes le) ∧ answer = listed.map LedgerRow.row
  | newest n, some stored, answer =>
    ∃ listed : List LedgerRow, listed.Perm stored ∧
      listed.Pairwise (fun a b => LedgerRow.Precedes le b a) ∧
      answer = (listed.take n.toNat).map LedgerRow.row
  | _, none, _ => False

end LedgerQuery

variable {σ : Type}

/-- The ledger's statements act on the database that `see` shows: the queries answer from its
table, the statements that make the table leave a table that is there as it is, and the statements
that write add and remove rows.  One that fails changes nothing. -/
structure Executor.Serves (e : Executor σ) (table : String) (le : String → String → Bool)
    (see : σ → Database) : Prop where
  reads : ∀ k s, LedgerQuery.statement e.dialect table k = .ok s → ∀ db,
    Ensures (see · = db) (e.query s.sql s.bindings)
      (fun answer t => see t = db ∧ k.Answered le db.ledger answer) (fun _ t => see t = db)
  creates : ∀ l : Ledger σ, l.executor = e → l.table = table → ∀ statements,
    l.schema.compiler.compile l.blueprint = .ok statements → ∀ sql ∈ statements, ∀ db,
      Ensures (see · = db) (e.execute sql [])
        (fun _ t => see t = db ∨ db.ledger = none ∧ see t = { db with ledger := some [] })
        (fun _ t => see t = db)
  inserts : ∀ (r : LedgerRow) s, (Query.ofTable table).insertSql e.dialect [r.row] = .ok s → ∀ db,
    Ensures (see · = db) (e.execute s.sql s.bindings)
      (fun _ t => ∃ stored, db.ledger = some stored ∧
        see t = { db with ledger := some (stored ++ [r]) }) (fun _ t => see t = db)
  deletes : ∀ (id : String) s,
    ((Query.ofTable table).filtered (·.filter "identifier" (toOperand id))).deleteSql e.dialect = .ok s →
    ∀ db, Ensures (see · = db) (e.execute s.sql s.bindings)
      (fun _ t => ∃ stored, db.ledger = some stored ∧
        see t = { db with ledger := some (stored.filter (·.identifier ≠ id)) })
      (fun _ t => see t = db)

/-- What runs inside the transaction works on the copy `work` and is hidden from `view`, which
shows the databases of all connections.  A commit that succeeds puts the copy in place of the
connection's database; one that fails, and a rollback whatever becomes of it, change nothing. -/
structure Transaction.Serves (tx : Transaction σ) (name table : String)
    (le : String → String → Bool) (view : σ → String → Database) (work : σ → Database) : Prop where
  executor : tx.executor.Serves table le work
  hidden : tx.executor.Keeping view
  commit : ∀ v db, Ensures (fun s => view s = v ∧ work s = db) tx.commit
    (fun _ t => view t = Function.update v name db) (fun _ t => view t = v)
  rollback : Keeps view tx.rollback

/-- A unit succeeds only by having installed its effect, or removed it, in the database that the
schema reaches, and nothing else.  What is left of it when it fails is open. -/
structure MigrationUnit.Acts (u : MigrationUnit) (schema : Schema σ) (see : σ → Database) :
    Prop where
  up : ∀ db, Ensures (see · = db) (u.up.perform schema)
    (fun _ t => see t = { db with installed := insert u.id db.installed }) (fun _ _ => True)
  down : ∀ db, Ensures (see · = db) (u.down.perform schema)
    (fun _ t => see t = { db with installed := db.installed \ {u.id} }) (fun _ _ => True)

namespace Migrator

/-- The units there are; none if they cannot be found. -/
def known (m : Migrator σ) : List MigrationUnit :=
  match m.units with
  | .ok units => units
  | .error _ => []

theorem checked_of_forall {f : MigrationUnit → Except Failure Unit} (units : List MigrationUnit)
    (h : ∀ u ∈ units, f u = .ok ()) : units.forM f = .ok () := by
  induction units with
  | nil => rfl
  | cons u rest ih =>
      show f u >>= (fun _ => rest.forM f) = _
      rw [h u (by simp)]
      exact ih fun v hv => h v (by simp [hv])

/-- Without scripts, the units are those that are written in code, if these can stay as they
are. -/
theorem units_of_registered {m : Migrator σ}
    (hscripts : Discovery.scripts m.config m.files = .ok [])
    (hnew : MigrationUnit.firstRepeated? [] (m.registered.map (·.id)) = none)
    (hsorted : m.registered.Pairwise fun a b => (!decide (b.id < a.id)) = true)
    (hcheck : ∀ u ∈ m.registered, m.checkUnit u = .ok ()) : m.units = .ok m.registered := by
  have hcollect : MigrationUnit.collect m.registered = .ok m.registered := by
    rw [MigrationUnit.collect, hnew, List.mergeSort_of_pairwise hsorted]
  have hchecked : (m.registered.forM fun u => (m.checkUnit u).mapError Failure.configuration) =
      .ok () :=
    checked_of_forall _ fun u hu => by
      rw [hcheck u hu]
      rfl
  rw [Migrator.units, hscripts]
  show (do
    let found ← (MigrationUnit.collect m.registered).mapError Failure.configuration
    found.forM fun u => (m.checkUnit u).mapError Failure.configuration
    return found) = _
  rw [hcollect]
  show (m.registered.forM fun u => (m.checkUnit u).mapError Failure.configuration) >>= _ = _
  rw [hchecked]
  rfl

/-- The schema that a unit is given on a connection. -/
def schemaOn (m : Migrator σ) (name : String) (executor : Executor σ) : Schema σ :=
  { executor
    tablePrefix := m.config.tablePrefixFor name
    normalizeNumeric := m.config.normalizeNumeric }

/-- A connection that serves the migrator under a name: its statements reach only the database of
that name, and a transaction starts with a copy of it.  A beginning that fails changes
nothing. -/
structure Served (m : Migrator σ) (le : String → String → Bool) (view : σ → String → Database)
    (name : String) (c : Connection σ) : Prop where
  executor : c.executor.Serves (m.config.ledgerTableFor name) le (view · name)
  apart : c.executor.Keeping fun s => fun other : { n // n ≠ name } => view s other
  begin : ∀ v, Ensures (view · = v) c.begin
    (fun tx s => view s = v ∧ ∃ work, work s = v name ∧
      tx.Serves name (m.config.ledgerTableFor name) le view work ∧
      ∀ u ∈ m.known, m.connectionName u = name → u.Acts (m.schemaOn name tx.executor) work)
    (fun _ s => view s = v)

/-- Every connection the registry hands out serves the migrator; getting it changes nothing. -/
def Environment (m : Migrator σ) (le : String → String → Bool) (view : σ → String → Database) :
    Prop :=
  ∀ name v, Ensures (view · = v) (m.registry.get name)
    (fun c s => view s = v ∧ m.Served le view name c) (fun _ s => view s = v)

end Migrator

end Relational
