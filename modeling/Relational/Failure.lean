import Relational.Migration.Script
import Relational.Paging.Error
import Relational.Schema.Error
import Relational.Text.Casing
/-
Why running something failed.
-/
namespace Relational

/-- Why a query, a schema change or a migration failed. -/
inductive Failure where
  | configuration (e : ConfigError)
  | schema (e : SchemaError)
  | query (e : QueryError)
  | paging (e : PagingError)
  /-- The engine refused a statement.  Of its bound values only the number is told. -/
  | statement (message sql : String) (bindings : Nat)
  | script (path : String) (fault : ScriptFault)
  | fileExists (path : String)
  /-- A path could not be read or written. -/
  | file (path : String)
  /-- A unit failed; those applied before it in the same run stay applied. -/
  | unit (id : String) (batch : Int64) (applied : List String) (cause : Failure)
  deriving DecidableEq, Repr

namespace Failure

/-- What to tell the user. -/
def message : Failure → String
  | configuration e => "Configuration error: " ++ e.message
  | schema e => e.message
  | query e => e.message
  | paging e => e.message
  | statement message sql bindings =>
    "Database error: " ++ message ++ " (SQL: " ++ sql ++ "; " ++ toString bindings ++ " binding(s))"
  | script path fault => "Failed to parse migration file '" ++ path ++ "': " ++ fault.message
  | fileExists path => "Migration file already exists: " ++ path
  | file path => "IO error: " ++ path
  | unit id batch applied cause =>
    "Migration '" ++ id ++ "' failed in batch " ++ toString batch ++ " after applying [" ++
      String.intercalate ", " applied ++ "]: " ++ cause.message

/-- What engines say when a statement had to give way to another session. -/
def contentionMarks : List String :=
  ["deadlock", "database is locked", "database table is locked", "lock wait timeout",
    "serialization failure", "could not serialize access"]

/-- Whether a statement had to give way to another session, so that it may work the next time. -/
def isContention : Failure → Bool
  | statement message _ _ =>
    let said := (Text.lowercase message).toList
    contentionMarks.any fun mark => Text.contains said mark.toList
  | _ => false

end Failure

end Relational
