import Relational.Config.Basic
import Relational.Toml.Reader
/-
Reading a configuration from a TOML document.

Each record knows its keys and refuses others.  Instead of a table, a record may be an array of its
values in the order of the keys; those left out at the end are missing.
-/
namespace Relational.Toml.Value

/-! ### Typed values -/

/-- A text. -/
def asText? : Value → Option String
  | text s => some s
  | _ => none

/-- A truth value. -/
def asBool? : Value → Option Bool
  | bool b => some b
  | _ => none

/-- A whole number that is not negative and less than `bound`. -/
def asNatBelow? (bound : Nat) : Value → Option Nat
  | integer n => if 0 ≤ n.toInt ∧ n.toInt < bound then some n.toInt.toNat else none
  | _ => none

/-- The values of a record in the order of its keys. -/
def fields? (keys : List String) (v : Value) : Option (List (Option Value)) :=
  match v.items?, v.entries? with
  | some items, _ => some ((List.range keys.length).map (items[·]?))
  | none, some entries =>
    if entries.all fun (key, _) => keys.contains key then some (keys.map (entries.lookup ·))
    else none
  | none, none => none

/-- A field that may be missing. -/
def optional? {α : Type} (read : Value → Option α) : Option Value → Option (Option α)
  | some v => (read v).map some
  | none => some none

/-- A field with a value of its own when it is missing. -/
def orElse? {α : Type} (read : Value → Option α) (missing : α) : Option Value → Option α
  | some v => read v
  | none => some missing

/-- The entries of a table, each with its value read. -/
def mapping? {α : Type} (read : Value → Option α) (v : Value) : Option (List (String × α)) := do
  (← v.entries?).mapM fun (key, v) => (read v).map fun a => (key, a)

end Relational.Toml.Value

namespace Relational.Config

open Toml.Value

/-- The names by which a document may call a dialect. -/
def dialectNamed? (name : String) : Option Dialect :=
  if name == "sqlite" then some .sqlite
  else if ["pgsql", "postgres", "postgresql"].contains name then some .postgres
  else if ["mysql", "mariadb"].contains name then some .mysql
  else if ["sqlsrv", "sqlserver", "mssql"].contains name then some .sqlServer
  else none

/-- Reads a dialect: its name, or a table with the name as its only key and nothing under it. -/
def dialect? (v : Toml.Value) : Option Dialect :=
  match v with
  | .text name => dialectNamed? name
  | .table _ [(name, content)] =>
    match content.items?, content.entries? with
    | some [], _ | _, some [] => dialectNamed? name
    | _, _ => none
  | _ => none

/-- The keys of a connection. -/
def connectionKeys : List String :=
  ["driver", "url", "host", "port", "database", "username", "password", "pool_size",
    "ledger_table", "prefix", "timezone"]

/-- Reads the settings of a connection. -/
def connection? (v : Toml.Value) : Option ConnectionConfig := do
  match ← v.fields? connectionKeys with
  | [some driver, url, host, port, database, username, password, poolSize, ledgerTable, tablePrefix,
      timezone] =>
    return {
      dialect := ← dialect? driver
      url := ← optional? asText? url
      host := ← optional? asText? host
      port := (← optional? (asNatBelow? UInt16.size) port).map UInt16.ofNat
      database := ← optional? asText? database
      username := ← optional? asText? username
      password := ← optional? asText? password
      poolSize := UInt32.ofNat (← orElse? (asNatBelow? UInt32.size) 5 poolSize)
      ledgerTable := ← optional? asText? ledgerTable
      tablePrefix := ← optional? asText? tablePrefix
      timezone := ← optional? asText? timezone }
  | _ => none

/-- Reads where the migrations are. -/
def migrations? (v : Toml.Value) : Option MigrationsConfig := do
  match ← v.fields? ["root", "recursive", "ledger_table", "directories"] with
  | [root, recursive, ledgerTable, directories] =>
    return {
      root := ← orElse? asText? "migrations" root
      recursive := ← orElse? asBool? false recursive
      ledgerTable := ← orElse? asText? "migrations" ledgerTable
      directories := ← orElse? (mapping? asText?) [] directories }
  | _ => none

/-- Reads a configuration, without checking that its parts agree. -/
def ofEntries? (entries : Toml.Entries) : Option Config := do
  let v : Toml.Value := .table .declared entries
  match ← v.fields? ["default", "connections", "migrations", "normalize_numeric"] with
  | [default, connections, migrations, normalizeNumeric] =>
    return {
      default := ← orElse? asText? "default" default
      connections := ← orElse? (mapping? connection?) [] connections
      migrations := ← orElse? migrations? {} migrations
      normalizeNumeric := ← orElse? asBool? false normalizeNumeric }
  | _ => none

/-- Why a document is no usable configuration. -/
inductive DocumentError where
  /-- It is no TOML, or not of the form a configuration has. -/
  | unreadable
  | invalid (e : ConfigError)
  deriving DecidableEq, Repr

/-- Reads a configuration and checks that its parts agree. -/
def ofToml (source : String) : Except DocumentError Config :=
  match (Toml.parse? source).bind ofEntries? with
  | none => .error .unreadable
  | some c =>
    match c.validate with
    | .ok () => .ok c
    | .error e => .error (.invalid e)

end Relational.Config
