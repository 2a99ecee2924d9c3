import Relational.Name
import Relational.Value
/-
The four SQL dialects, and how each writes names, texts, placeholders and the paging clause.

A dialect is picked once and handed to whatever writes SQL.  Names are always quoted, with the
closing quote doubled inside them, so a name that contains a quote still denotes itself.
-/
namespace Relational

/-- A SQL dialect, named for the engine that speaks it. -/
inductive Dialect where
  | sqlite
  | postgres
  | mysql
  | sqlServer
  deriving DecidableEq, Repr, Inhabited

/-- The name of an engine nobody knows, in lower case. -/
structure UnknownDialect where
  name : String
  deriving DecidableEq, Repr

/-- What to tell the user. -/
def UnknownDialect.message (e : UnknownDialect) : String :=
  "unknown driver '" ++ e.name ++ "'"

namespace Dialect

/-- Every dialect. -/
def all : List Dialect :=
  [sqlite, postgres, mysql, sqlServer]

/-- The canonical id. -/
def id : Dialect → String
  | sqlite => "sqlite"
  | postgres => "pgsql"
  | mysql => "mysql"
  | sqlServer => "sqlsrv"

/-- Reads an id or another name of the engine, in any letter case. -/
def parse (name : String) : Except UnknownDialect Dialect :=
  let lower := name.toLower
  if lower == "sqlite" || lower == "sqlite3" then .ok sqlite
  else if lower == "pgsql" || lower == "postgres" || lower == "postgresql" then .ok postgres
  else if lower == "mysql" || lower == "mariadb" then .ok mysql
  else if lower == "sqlsrv" || lower == "sqlserver" || lower == "mssql" then .ok sqlServer
  else .error ⟨lower⟩

/-! ### Names -/

/-- The character MySQL quotes names with. -/
def backtick : Char := Char.ofNat 96

/-- Opening and closing quote of a name. -/
def quotes : Dialect → Char × Char
  | sqlite | postgres => ('"', '"')
  | mysql => (backtick, backtick)
  | sqlServer => ('[', ']')

/-- One segment of a name, quoted; the wildcard stays bare. -/
def quoteSegment (d : Dialect) (segment : String) : String :=
  if segment == "*" then "*" else Text.enclosed d.quotes.1 d.quotes.2 segment

/-- The dotted segments of a name, each quoted. -/
def quoteDotted (d : Dialect) (name : String) : String :=
  String.intercalate "." ((name.toList.splitOn '.').map fun s => d.quoteSegment (String.ofList s))

/-- A dotted name with its alias, if it has one. -/
def quoteName (d : Dialect) (name : String) : String :=
  match _h : Name.splitAlias? name with
  | some (expression, label) => d.quoteName expression ++ " AS " ++ d.quoteSegment label
  | none => d.quoteDotted name
termination_by name.length
decreasing_by exact Name.length_splitAlias? (by assumption)

/-- Quoted names with commas between them. -/
def quoteNames (d : Dialect) (names : List String) : String :=
  String.intercalate ", " (names.map d.quoteName)

/-! ### Literals and placeholders -/

/-- A text inside a statement. -/
def quoteText (d : Dialect) (s : String) : String :=
  match d with
  | sqlServer => "N" ++ Text.enclosed '\'' '\'' s
  | _ => Text.enclosed '\'' '\'' s

/-- Texts with commas between them. -/
def quoteTexts (d : Dialect) (texts : List String) : String :=
  String.intercalate ", " (texts.map d.quoteText)

/-- The placeholder of a parameter, counted from one. -/
def placeholder (d : Dialect) (position : Nat) : String :=
  match d with
  | sqlite | mysql => "?"
  | postgres => "$" ++ toString position
  | sqlServer => "@p" ++ toString position

/-- The word for a truth value in a default. -/
def boolLiteral : Dialect → Bool → String
  | postgres, true => "TRUE"
  | postgres, false => "FALSE"
  | _, true => "1"
  | _, false => "0"

/-! ### Paging clause -/

/-- The clause that cuts a result down, with a space in front.  SQLite and MySQL have no offset
without a limit, so an offset alone gets a limit that takes everything. -/
def limitOffset (d : Dialect) (limit offset : Option UInt64) : String :=
  match d, limit, offset with
  | _, none, none => ""
  | sqlServer, limit, offset =>
    " OFFSET " ++ toString (offset.getD 0) ++ " ROWS" ++
      (match limit with
        | some n => " FETCH NEXT " ++ toString n ++ " ROWS ONLY"
        | none => "")
  | _, some n, some m => " LIMIT " ++ toString n ++ " OFFSET " ++ toString m
  | _, some n, none => " LIMIT " ++ toString n
  | sqlite, none, some m => " LIMIT -1 OFFSET " ++ toString m
  | mysql, none, some m => " LIMIT 18446744073709551615 OFFSET " ++ toString m
  | postgres, none, some m => " OFFSET " ++ toString m

/-- Whether the paging clause is only valid behind an ordering. -/
def needsOrderForOffset : Dialect → Bool
  | sqlServer => true
  | _ => false

/-! ### What an engine can do by itself -/

/-- Whether a column can be declared unsigned; otherwise a check stands in. -/
def hasUnsigned : Dialect → Bool
  | mysql => true
  | _ => false

/-- Whether a column can list its values in its type; otherwise a check stands in. -/
def hasEnum : Dialect → Bool
  | mysql => true
  | _ => false

/-- Whether a new column can be placed behind another. -/
def placesColumns : Dialect → Bool
  | mysql => true
  | _ => false

/-- Whether columns are changed by building the table anew. -/
def rebuildsTables : Dialect → Bool
  | sqlite => true
  | _ => false

end Dialect

end Relational
