import Relational.Config.Error
import Relational.Files.Path
import Relational.Time.Offset
/-
Configuration: named connections, and where the migrations are.

What a connection does not say for itself, the configuration says for all of them.
-/
namespace Relational

/-- The settings of one connection. -/
structure ConnectionConfig where
  dialect : Dialect
  /-- A whole address; it goes before the fields below. -/
  url : Option String := none
  host : Option String := none
  port : Option UInt16 := none
  /-- The name of the database, or the path of its file. -/
  database : Option String := none
  username : Option String := none
  password : Option String := none
  poolSize : UInt32 := 5
  ledgerTable : Option String := none
  /-- Stands in front of every table name. -/
  tablePrefix : Option String := none
  timezone : Option String := none
  deriving DecidableEq, Repr

namespace ConnectionConfig

/-- The first part of an address. -/
def scheme : Dialect → String
  | .sqlite => "sqlite"
  | .postgres => "postgres"
  | .mysql => "mysql"
  | .sqlServer => "mssql"

/-- User and password in an address; without a user there are none. -/
def credentials (c : ConnectionConfig) : String :=
  match c.username, c.password with
  | some user, some password => user ++ ":" ++ password ++ "@"
  | some user, none => user ++ "@"
  | none, _ => ""

/-- The address, put together from the fields unless it is given as a whole. -/
def address (c : ConnectionConfig) : Except ConfigError String :=
  match c.url, c.database with
  | some url, _ => .ok url
  | none, none => .error (.noDatabase c.dialect)
  | none, some database =>
    if c.dialect = .sqlite then .ok (scheme c.dialect ++ ":" ++ database)
    else
      let port := match c.port with
        | some port => ":" ++ toString port
        | none => ""
      .ok (scheme c.dialect ++ "://" ++ c.credentials ++ c.host.getD "localhost" ++ port ++ "/" ++
        database)

end ConnectionConfig

/-- Where the migrations are, and where it is noted that they ran. -/
structure MigrationsConfig where
  root : String := "migrations"
  /-- Whether directories inside the root are searched. -/
  recursive : Bool := false
  ledgerTable : String := "migrations"
  /-- Connections, each with the directory of its migrations. -/
  directories : List (String × String) := []
  deriving DecidableEq, Repr

/-- A configuration. -/
structure Config where
  /-- The name of the connection that is meant where none is named. -/
  default : String := "default"
  connections : List (String × ConnectionConfig) := []
  migrations : MigrationsConfig := {}
  /-- Whether text that looks like a number is read as one in result rows. -/
  normalizeNumeric : Bool := false
  deriving DecidableEq, Repr

namespace Config

/-! ### Lookups -/

/-- The settings of a connection. -/
def settings? (c : Config) (name : String) : Option ConnectionConfig :=
  c.connections.lookup name

/-- The name and the settings of a connection, of the default one if none is named. -/
def connection (c : Config) (name : Option String) :
    Except ConfigError (String × ConnectionConfig) :=
  let name := name.getD c.default
  match c.settings? name with
  | some settings => .ok (name, settings)
  | none => .error (.unknownConnection name)

/-- The ledger table of a connection. -/
def ledgerTableFor (c : Config) (name : String) : String :=
  ((c.settings? name).bind (·.ledgerTable)).getD c.migrations.ledgerTable

/-- What stands in front of a connection's table names. -/
def tablePrefixFor (c : Config) (name : String) : String :=
  ((c.settings? name).bind (·.tablePrefix)).getD ""

/-- The offset from UTC of a connection's timestamps. -/
def offsetFor (c : Config) (name : String) : Offset :=
  (((c.settings? name).bind (·.timezone)).bind Offset.ofSetting?).getD .utc

/-- The directory of a connection's migrations, if it has one of its own. -/
def directoryFor (c : Config) (name : String) : Option String :=
  (c.migrations.directories.lookup name).map (Path.join c.migrations.root)

/-! ### Validation -/

/-- Refuses a connection without sessions or with a time zone nobody knows. -/
def checkConnection (name : String) (settings : ConnectionConfig) : Except ConfigError Unit :=
  if settings.poolSize = 0 then .error (.emptyPool name)
  else match settings.timezone with
    | some timezone =>
      if (Offset.ofSetting? timezone).isSome then .ok ()
      else .error (.invalidTimezone name timezone)
    | none => .ok ()

/-- Refuses names of connections that are not there, then connections that cannot be used. -/
def validate (c : Config) : Except ConfigError Unit := do
  if (c.settings? c.default).isNone then .error (.undefinedDefault c.default)
  else
    c.migrations.directories.forM fun (name, _) =>
      if (c.settings? name).isSome then .ok () else .error (.directoryOfUndefined name)
    c.connections.forM fun (name, settings) => checkConnection name settings

end Config

end Relational
