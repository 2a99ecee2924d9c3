import Relational.Session.Procedure
/-
Migration units: what can be applied and reverted as a whole.
-/
namespace Relational

/-- Whether a unit is applied or reverted. -/
inductive Way where
  | up
  | down
  deriving DecidableEq, Repr

/-- One versioned change. -/
structure MigrationUnit where
  /-- Names the unit, and says where it stands among the others. -/
  id : String
  /-- Where it runs, unless on the default connection. -/
  connection : Option String := none
  /-- Whether its steps and the note in the ledger share a transaction. -/
  transaction : Bool := false
  up : Procedure Unit
  down : Procedure Unit

namespace MigrationUnit

/-- What the unit does. -/
def procedure (u : MigrationUnit) : Way → Procedure Unit
  | .up => u.up
  | .down => u.down

/-- The unit of a script. -/
def ofScript (id : String) (s : Script) : MigrationUnit :=
  { id
    connection := s.connection
    transaction := s.transaction
    up := .ofStatements s.up
    down := .ofStatements s.down }

/-- The first text that occurs a second time. -/
def firstRepeated? : List String → List String → Option String
  | _, [] => none
  | seen, id :: rest => if seen.contains id then some id else firstRepeated? (id :: seen) rest

/-- Units in the order of their names, which have to differ. -/
def collect (units : List MigrationUnit) : Except ConfigError (List MigrationUnit) :=
  match firstRepeated? [] (units.map (·.id)) with
  | some id => .error (.duplicateUnit id)
  | none => .ok (units.mergeSort fun a b => !decide (b.id < a.id))

end MigrationUnit

end Relational
