import Relational.Dialect.Basic
/-
What can be wrong with a configuration, or with how it is used.
-/
namespace Relational

/-- Something that is wrong with a configuration or with the units and ledgers it is used on. -/
inductive ConfigError where
  | undefinedDefault (connection : String)
  | directoryOfUndefined (connection : String)
  | emptyPool (connection : String)
  | invalidTimezone (connection timezone : String)
  | unknownConnection (connection : String)
  | noDatabase (d : Dialect)
  | noAdapter (d : Dialect)
  | duplicateUnit (id : String)
  | unitOnUndefined (id connection : String)
  | malformedLedger (column kind : String)
  | unusableName (name : String)
  /-- What a migration written in code has to say for itself. -/
  | other (message : String)
  deriving DecidableEq, Repr

/-- A text between the quotes that mark code. -/
def inCode (s : String) : String :=
  Dialect.backtick.toString ++ s ++ Dialect.backtick.toString

/-- What to tell the user. -/
def ConfigError.message : ConfigError → String
  | undefinedDefault connection => "default connection '" ++ connection ++ "' is not defined"
  | directoryOfUndefined connection =>
    "migration directory mapped to undefined connection '" ++ connection ++ "'"
  | emptyPool connection => "connection '" ++ connection ++ "' has a pool size of 0"
  | invalidTimezone connection timezone =>
    "connection '" ++ connection ++ "' has an invalid timezone '" ++ timezone ++ "'"
  | unknownConnection connection => "unknown connection '" ++ connection ++ "'"
  | noDatabase d =>
    d.id ++ " connection needs either " ++ inCode "url" ++ " or " ++ inCode "database"
  | noAdapter d =>
    "no built-in adapter for the " ++ d.id ++ " driver; register one with Connections::insert"
  | duplicateUnit id => "duplicate migration identifier '" ++ id ++ "'"
  | unitOnUndefined id connection =>
    "migration '" ++ id ++ "' targets undefined connection '" ++ connection ++ "'"
  | malformedLedger column kind => "ledger column '" ++ column ++ "' holds a " ++ kind ++ " value"
  | unusableName name => "migration name '" ++ name ++ "' has no usable characters"
  | other message => message

end Relational
