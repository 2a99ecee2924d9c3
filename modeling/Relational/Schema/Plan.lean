import Relational.Schema.Blueprint
/-
Plans: schema changes in the order they are to run.
-/
namespace Relational

/-- One schema change. -/
inductive SchemaOperation where
  /-- Makes or changes a table. -/
  | table (b : Blueprint)
  | drop (table : String)
  | dropIfExists (table : String)
  | rename (source target : String)
  /-- SQL, as it is. -/
  | raw (sql : String)
  deriving DecidableEq, Repr

/-- Schema changes in order. -/
abbrev SchemaPlan := List SchemaOperation

end Relational
