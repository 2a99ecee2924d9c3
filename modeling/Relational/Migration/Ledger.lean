import Relational.Session.Schema
import Relational.Time.Stamp
/-
The ledger: which units are applied, in which batch and since when.

The ledger is a table of its own on each connection, without the prefix of other tables.  It is
read and written by queries like any other, so it works in every dialect.
-/
namespace Relational

/-- A row of the ledger. -/
structure AppliedUnit where
  identifier : String
  batch : Int64
  /-- When the unit was applied, if the stored text says so. -/
  appliedAt : Option Stamp
  deriving DecidableEq, Repr

namespace AppliedUnit

/-- A column that does not hold what a ledger writes. -/
def malformed (row : Row) (column : String) : ConfigError :=
  .malformedLedger column (((row.get? column).map Value.typeName).getD "missing")

/-- The name of the unit. -/
def identifierOf (row : Row) : Except ConfigError String :=
  match row.get? "identifier" with
  | some (.text s) => .ok s
  | _ => .error (malformed row "identifier")

/-- The number of the batch; it may be text. -/
def batchOf (row : Row) : Except ConfigError Int64 :=
  match row.get? "batch" with
  | some (.int n) => .ok n
  | some (.text s) =>
    match Decimal.signed64? s.toList with
    | some n => .ok n
    | none => .error (malformed row "batch")
  | _ => .error (malformed row "batch")

/-- Reads a row of the ledger. -/
def ofRow (row : Row) : Except ConfigError AppliedUnit := do
  let identifier ← identifierOf row
  let batch ← batchOf row
  let appliedAt := match row.get? "applied_at" with
    | some (.text s) => Stamp.ofText? s
    | _ => none
  return { identifier, batch, appliedAt }

/-- Rows with the last batch first, and inside a batch the last name first. -/
def newestFirst (units : List AppliedUnit) : List AppliedUnit :=
  units.mergeSort fun a b =>
    decide (b.batch < a.batch) || (a.batch == b.batch && !decide (a.identifier < b.identifier))

end AppliedUnit

/-- A ledger, and what its new rows are stamped with. -/
structure Ledger (σ : Type) where
  executor : Executor σ
  table : String
  offset : Offset
  now : Instant

namespace Ledger

variable {σ : Type}

/-- Runs schema changes on the ledger's executor. -/
def schema (l : Ledger σ) : Schema σ :=
  { executor := l.executor }

/-- Runs queries on the ledger's executor. -/
def queries (l : Ledger σ) : QueryRunner σ :=
  { executor := l.executor }

/-- The ledger's table as a query. -/
def query (l : Ledger σ) : Query :=
  Query.ofTable l.table

/-! ### The table -/

/-- Whether the table exists. -/
def isPresent (l : Ledger σ) : Action σ Bool :=
  l.schema.hasTable l.table

/-- The table as it is made. -/
def blueprint (l : Ledger σ) : Blueprint :=
  [Column.increments "id",
    { name := "identifier", type := .string 255, unique := some .generated },
    { name := "batch", type := .integer },
    { name := "applied_at", type := .timestampTz }].foldl Blueprint.add (Blueprint.create l.table)

/-- Makes the table unless it exists. -/
def ensure (l : Ledger σ) : Action σ Unit := do
  if ← l.isPresent then return ()
  else l.schema.blueprint l.blueprint

/-! ### Reading -/

/-- The rows that a query on the ledger's table finds. -/
def fetch (l : Ledger σ) (q : Query) : Action σ (List AppliedUnit) := do
  let rows ← l.queries.get (q.select ["identifier", "batch", "applied_at"])
  Action.ofExcept .configuration (rows.mapM AppliedUnit.ofRow)

/-- All rows, the first batch first. -/
def applied (l : Ledger σ) : Action σ (List AppliedUnit) :=
  l.fetch ((l.query.orderBy "batch" .asc).orderBy "identifier" .asc)

/-- The names of all units that are applied, those of the first batch first. -/
def appliedIds (l : Ledger σ) : Action σ (List String) := do
  return (← l.applied).map (·.identifier)

/-- The number of the last batch, zero before the first. -/
def lastBatchNumber (l : Ledger σ) : Action σ Int64 := do
  match ← l.queries.aggregate l.query .max "batch" with
  | some (.int n) => return n
  | some (.text s) => return (Decimal.signed64? s.toList).getD 0
  | _ => return 0

/-- The number of the batch to come. -/
def nextBatchNumber (l : Ledger σ) : Action σ Int64 := do
  return (← l.lastBatchNumber) + 1

/-- The rows of the last batch. -/
def lastBatch (l : Ledger σ) : Action σ (List AppliedUnit) := do
  let batch ← l.lastBatchNumber
  if batch = 0 then return []
  else
    l.fetch ((l.query.filtered (·.filter "batch" (toOperand batch))).orderBy "identifier" .asc)

/-- The rows of the units applied last, the last one first. -/
def lastSteps (l : Ledger σ) (steps : UInt64) : Action σ (List AppliedUnit) :=
  l.fetch (((l.query.orderBy "batch" .desc).orderBy "identifier" .desc).take steps)

/-! ### Writing -/

/-- Notes that a unit is applied. -/
def record (l : Ledger σ) (identifier : String) (batch : Int64) : Action σ Unit :=
  let row := Row.ofList [("identifier", .text identifier), ("batch", .int batch),
    ("applied_at", .text (Stamp.ofInstant l.now l.offset).text)]
  discard (l.queries.insert l.query [row])

/-- Notes that a unit is no longer applied. -/
def remove (l : Ledger σ) (identifier : String) : Action σ Unit :=
  discard (l.queries.delete (l.query.filtered (·.filter "identifier" (toOperand identifier))))

end Ledger

end Relational
