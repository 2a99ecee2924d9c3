import Relational.Migration.Ledger
/-
What is told about a run of migrations, and about how things stand.
-/
namespace Relational

/-- What a unit would have run. -/
structure PretendedUnit where
  id : String
  connection : String
  statements : List String
  deriving DecidableEq, Repr

/-- What a run did. -/
structure MigrationReport where
  /-- Units that were applied, in order. -/
  migrated : List String := []
  /-- Units that were reverted, in order. -/
  rolledBack : List String := []
  /-- Tables that were dropped. -/
  dropped : List String := []
  /-- What would have run, if nothing was to. -/
  pretended : List PretendedUnit := []
  deriving DecidableEq, Repr

namespace MigrationReport

/-- One report after the other. -/
def append (a b : MigrationReport) : MigrationReport :=
  { migrated := a.migrated ++ b.migrated
    rolledBack := a.rolledBack ++ b.rolledBack
    dropped := a.dropped ++ b.dropped
    pretended := a.pretended ++ b.pretended }

instance : Append MigrationReport := ⟨append⟩

end MigrationReport

/-- How things stand with one unit. -/
structure StatusEntry where
  id : String
  connection : String
  /-- Its row in the ledger, if it is applied. -/
  row : Option AppliedUnit
  /-- Whether the ledger knows the unit but nothing else does. -/
  missing : Bool
  deriving DecidableEq, Repr

end Relational
