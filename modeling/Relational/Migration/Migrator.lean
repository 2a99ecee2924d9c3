import Relational.Migration.Discovery
import Relational.Migration.Registry
import Relational.Migration.Report
import Relational.Migration.Unit
/-
Applying and reverting migrations.

Every connection has a ledger of its own.  What a unit's ledger does not know is pending; one run
applies all that is pending, in the order of the units' names, under one batch number for each
connection.  Reverting goes by what the ledgers say.  When nothing is to be changed, ledgers are
read but never written, and the units' statements are only noted.
-/
namespace Relational

/-- What there is to migrate, and how. -/
structure Migrator (σ : Type) where
  registry : Registry σ
  files : FileSystem := {}
  /-- Units that are written in code. -/
  registered : List MigrationUnit := []
  /-- Whether statements are only noted. -/
  pretend : Bool := false
  /-- The time new rows of a ledger are stamped with. -/
  now : Instant

/-- Which of the applied units are reverted. -/
inductive Scope where
  | lastBatch
  /-- So many units, the last one first. -/
  | steps (n : UInt64)
  | all
  deriving DecidableEq, Repr

namespace Migrator

variable {σ : Type}

/-- The configuration. -/
def config (m : Migrator σ) : Config :=
  m.registry.config

/-! ### Units -/

/-- Refuses a unit on a connection that is not configured. -/
def checkUnit (m : Migrator σ) (u : MigrationUnit) : Except ConfigError Unit :=
  match u.connection with
  | some name =>
    if (m.config.settings? name).isSome then .ok () else .error (.unitOnUndefined u.id name)
  | none => .ok ()

/-- All units, in the order of their names. -/
def units (m : Migrator σ) : Except Failure (List MigrationUnit) := do
  let scripts ← Discovery.scripts m.config m.files
  let found := scripts.map fun s => MigrationUnit.ofScript s.id s.script
  let units ← (MigrationUnit.collect (found ++ m.registered)).mapError .configuration
  units.forM fun u => (m.checkUnit u).mapError .configuration
  return units

/-- The connection a unit runs on. -/
def connectionName (m : Migrator σ) (u : MigrationUnit) : String :=
  u.connection.getD m.config.default

/-- The connections of some units, behind the default one. -/
def involved (m : Migrator σ) (units : List MigrationUnit) : List String :=
  (m.config.default :: units.map m.connectionName).eraseDups

/-- The ledger of a connection. -/
def ledger (m : Migrator σ) (name : String) (executor : Executor σ) : Ledger σ :=
  { executor
    table := m.config.ledgerTableFor name
    offset := m.config.offsetFor name
    now := m.now }

/-! ### One unit -/

/-- Does what a unit does, and notes it in the ledger. -/
def carryOut (m : Migrator σ) (u : MigrationUnit) (name : String) (executor : Executor σ)
    (way : Way) (batch : Int64) : Action σ Unit := do
  (u.procedure way).perform
    { executor
      tablePrefix := m.config.tablePrefixFor name
      normalizeNumeric := m.config.normalizeNumeric }
  match way with
  | .up => (m.ledger name executor).record u.id batch
  | .down => (m.ledger name executor).remove u.id

/-- The statements a unit would run. -/
def rehearse (m : Migrator σ) (u : MigrationUnit) (name : String) (d : Dialect) (way : Way) :
    Except Failure (List String) :=
  let schema : Schema (List String) :=
    { executor := .recorder d
      tablePrefix := m.config.tablePrefixFor name
      normalizeNumeric := m.config.normalizeNumeric }
  let (result, statements) := ((u.procedure way).perform schema).run.run []
  result.map fun () => statements

/-- Does what a unit does inside a transaction, together with the note in the ledger. -/
def carryOutWhole (m : Migrator σ) (u : MigrationUnit) (name : String) (c : Connection σ)
    (way : Way) (batch : Int64) : Action σ Unit := do
  let tx ← c.begin
  tryCatch (m.carryOut u name tx.executor way batch) fun failure => do
    tx.rollback.regardless
    throw failure
  tx.commit

/-- Runs a unit, and returns what is to be told about it if it was only to be noted. -/
def runUnit (m : Migrator σ) (u : MigrationUnit) (name : String) (c : Connection σ) (way : Way)
    (batch : Int64) : Action σ (List PretendedUnit) := do
  if m.pretend then
    let statements ← Action.ofExcept id (m.rehearse u name c.executor.dialect way)
    return [⟨u.id, name, statements⟩]
  else if u.transaction then
    m.carryOutWhole u name c way batch
    return []
  else
    m.carryOut u name c.executor way batch
    return []

/-- Runs a unit; `done` are those that were run before it. -/
def runNext (m : Migrator σ) (u : MigrationUnit) (name : String) (c : Connection σ) (way : Way)
    (batch : Int64) (done : List String) : Action σ (List PretendedUnit) :=
  tryCatch (m.runUnit u name c way batch) fun cause => throw (.unit u.id batch done cause)

/-! ### Applying -/

/-- What is known about a connection before a run. -/
structure Standing where
  connection : String
  applied : List String
  nextBatch : Int64

/-- Looks up what a connection's ledger says, which is made if it is missing.  A ledger that is
assumed to be empty is not read. -/
def standing (m : Migrator σ) (assumeEmpty : Bool) (name : String) : Action σ Standing := do
  let c ← m.registry.get name
  let ledger := m.ledger name c.executor
  if m.pretend then pure () else ledger.ensure
  let known ← if assumeEmpty then pure false else ledger.isPresent
  if known then
    let applied ← ledger.appliedIds
    return ⟨name, applied, ← ledger.nextBatchNumber⟩
  else return ⟨name, [], 1⟩

/-- What is known about the connection of a unit. -/
def standingOf? (m : Migrator σ) (standings : List Standing) (u : MigrationUnit) :
    Option Standing :=
  standings.find? (·.connection == m.connectionName u)

/-- Whether a unit has not been applied yet. -/
def isPending (m : Migrator σ) (standings : List Standing) (u : MigrationUnit) : Bool :=
  !(m.standingOf? standings u).any (·.applied.contains u.id)

/-- Applies units one after the other. -/
def applyAll (m : Migrator σ) (standings : List Standing) (report : MigrationReport) :
    List MigrationUnit → Action σ MigrationReport
  | [] => return report
  | u :: rest => do
    let name := m.connectionName u
    let batch := ((m.standingOf? standings u).map (·.nextBatch)).getD 1
    let c ← m.registry.get name
    let pretended ← m.runNext u name c .up batch report.migrated
    let report := { report with
      migrated := report.migrated ++ [u.id]
      pretended := report.pretended ++ pretended }
    m.applyAll standings report rest

/-- Applies the units that are pending. -/
def applyPending (m : Migrator σ) (units : List MigrationUnit) (assumeEmpty : Bool) :
    Action σ MigrationReport := do
  let standings ← (m.involved units).mapM (m.standing assumeEmpty)
  m.applyAll standings {} (units.filter (m.isPending standings))

/-! ### Reverting -/

/-- The rows of a ledger that are to be reverted, in that order. -/
def targets (l : Ledger σ) : Scope → Action σ (List AppliedUnit)
  | .lastBatch => return AppliedUnit.newestFirst (← l.lastBatch)
  | .steps n => l.lastSteps n
  | .all => return AppliedUnit.newestFirst (← l.applied)

/-- The unit a row of a connection's ledger speaks of. -/
def unitOf? (m : Migrator σ) (units : List MigrationUnit) (name : String) (row : AppliedUnit) :
    Option MigrationUnit :=
  units.find? fun u => u.id == row.identifier && m.connectionName u == name

/-- Reverts the units of some rows one after the other.  Units that nothing is known about are
skipped. -/
def revertAll (m : Migrator σ) (units : List MigrationUnit) (name : String) (c : Connection σ)
    (report : MigrationReport) : List AppliedUnit → Action σ MigrationReport
  | [] => return report
  | row :: rest =>
    match m.unitOf? units name row with
    | none => m.revertAll units name c report rest
    | some u => do
      let pretended ← m.runNext u name c .down row.batch report.rolledBack
      let report := { report with
        rolledBack := report.rolledBack ++ [u.id]
        pretended := report.pretended ++ pretended }
      m.revertAll units name c report rest

/-- Reverts what is in scope on one connection. -/
def revertOn (m : Migrator σ) (units : List MigrationUnit) (scope : Scope)
    (report : MigrationReport) (name : String) : Action σ MigrationReport := do
  let c ← m.registry.get name
  let ledger := m.ledger name c.executor
  if ← ledger.isPresent then
    let rows ← targets ledger scope
    m.revertAll units name c report rows
  else return report

/-- Reverts what is in scope, one connection after the other. -/
def revert (m : Migrator σ) (units : List MigrationUnit) (scope : Scope) :
    Action σ MigrationReport :=
  (m.involved units).foldlM (m.revertOn units scope) {}

/-! ### Dropping -/

/-- Drops all tables of a connection, or only lists them. -/
def dropTables (m : Migrator σ) (name : String) : Action σ (List String) := do
  let c ← m.registry.get name
  let schema : Schema σ := { executor := c.executor }
  if m.pretend then schema.tables else schema.dropAll

/-! ### Runs -/

/-- All units, or the failure to find them. -/
def loadUnits (m : Migrator σ) : Action σ (List MigrationUnit) :=
  Action.ofExcept id m.units

/-- Applies all that is pending. -/
def migrate (m : Migrator σ) : Action σ MigrationReport := do
  m.applyPending (← m.loadUnits) false

/-- Reverts the last batch of each connection, or the units applied last, if a number of them is
given that is not zero. -/
def rollback (m : Migrator σ) (steps : Option UInt64) : Action σ MigrationReport := do
  let scope := match steps with
    | some n => if n = 0 then Scope.lastBatch else .steps n
    | none => .lastBatch
  m.revert (← m.loadUnits) scope

/-- Reverts all that is applied. -/
def reset (m : Migrator σ) : Action σ MigrationReport := do
  m.revert (← m.loadUnits) .all

/-- Reverts all that is applied and applies everything again. -/
def refresh (m : Migrator σ) : Action σ MigrationReport := do
  let units ← m.loadUnits
  let reverted ← m.revert units .all
  return reverted ++ (← m.applyPending units m.pretend)

/-- Drops all tables and applies everything again. -/
def fresh (m : Migrator σ) : Action σ MigrationReport := do
  let units ← m.loadUnits
  let dropped ← (m.involved units).mapM m.dropTables
  return { dropped := dropped.flatten } ++ (← m.applyPending units m.pretend)

/-! ### Status -/

/-- The rows of a connection's ledger, none if it is missing. -/
def rowsOn (m : Migrator σ) (name : String) : Action σ (String × List AppliedUnit) := do
  let c ← m.registry.get name
  let ledger := m.ledger name c.executor
  let rows ← if ← ledger.isPresent then ledger.applied else pure []
  return (name, rows)

/-- How things stand with a unit. -/
def unitStatus (m : Migrator σ) (ledgers : List (String × List AppliedUnit)) (u : MigrationUnit) :
    StatusEntry :=
  let name := m.connectionName u
  { id := u.id
    connection := name
    row := (ledgers.lookup name).bind fun rows => rows.find? (·.identifier == u.id)
    missing := false }

/-- The rows of a connection's ledger that no unit stands behind. -/
def missingOn (m : Migrator σ) (units : List MigrationUnit) (name : String)
    (rows : List AppliedUnit) : List StatusEntry :=
  (rows.filter fun row => (m.unitOf? units name row).isNone).map fun row =>
    { id := row.identifier, connection := name, row := some row, missing := true }

/-- How things stand with every unit, and after them the rows that no unit stands behind. -/
def status (m : Migrator σ) : Action σ (List StatusEntry) := do
  let units ← m.loadUnits
  let ledgers ← (m.involved units).mapM m.rowsOn
  return units.map (m.unitStatus ledgers) ++
    ledgers.flatMap fun (name, rows) => m.missingOn units name rows

end Migrator

end Relational
