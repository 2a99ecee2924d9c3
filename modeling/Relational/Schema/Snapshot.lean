import Relational.Row
import Relational.Schema.Error
/-
The definition of a table as the engine stored it.

An engine that cannot change a column builds a copy of the table from the stored `CREATE TABLE`
text, so that constraints, indexes and triggers no blueprint mentions survive.  The text is cut at
the commas of its outermost parentheses; quoted text and comments hold no commas or parentheses.
-/
namespace Relational

/-- One entry between the outermost parentheses. -/
inductive TableItem where
  /-- A column: its name without quotes, and its definition. -/
  | column (name definition : String)
  /-- A constraint on the table. -/
  | constraint (sql : String)
  deriving DecidableEq, Repr

namespace TableItem

/-! ### Reading an entry -/

/-- Words that open a constraint rather than a column. -/
def constraintWords : List String :=
  ["CONSTRAINT", "PRIMARY", "UNIQUE", "CHECK", "FOREIGN"]

/-- The name in front of `close`, where a doubled `close` stands for one, if it can be doubled. -/
def closedName? (close : Char) (doubles : Bool) : List Char → Option (List Char)
  | [] => none
  | [c] => if c = close then some [] else none
  | c :: d :: rest =>
    if c = close then
      if doubles && d == close then (closedName? close doubles rest).map (c :: ·) else some []
    else (closedName? close doubles (d :: rest)).map (c :: ·)

/-- The first word of an entry without its quotes, and whether it had any. -/
def leadingName? (item : List Char) : Option (List Char × Bool) :=
  match item with
  | [] => none
  | first :: rest =>
    if first = '"' ∨ first = '\'' ∨ first = Dialect.backtick then
      (closedName? first true rest).map fun name => (name, true)
    else if first = '[' then (closedName? ']' false rest).map fun name => (name, true)
    else some (item.takeWhile fun c => !Text.isBlank c && c != '(', false)

/-- An entry: a column, unless an unquoted constraint word opens it or its name has no end. -/
def ofChars (item : List Char) : TableItem :=
  let text := String.ofList item
  match leadingName? item with
  | some (name, quoted) =>
    if quoted || !constraintWords.any (Text.eqIgnoringCase · (String.ofList name)) then
      .column (String.ofList name) text
    else .constraint text
  | none => .constraint text

/-! ### What an entry says -/

/-- The name of a column. -/
def name? : TableItem → Option String
  | column name _ => some name
  | constraint _ => none

/-- The text of the entry. -/
def sql : TableItem → String
  | column _ definition => definition
  | constraint sql => sql

/-- A definition in upper case with single spaces. -/
def normalized (definition : String) : List Char :=
  Text.asciiUpper (Text.squeezed definition.toList)

/-- Whether the column is computed, so that nothing can be copied into it. -/
def isGenerated : TableItem → Bool
  | column _ definition =>
    let upper := normalized definition
    Text.contains upper " GENERATED ALWAYS ".toList || Text.contains upper " AS (".toList ||
      Text.contains upper " AS(".toList
  | constraint _ => false

/-- Whether the column is declared the primary key in its own definition. -/
def isInlinePrimary : TableItem → Bool
  | column _ definition => Text.contains (normalized definition) " PRIMARY KEY".toList
  | constraint _ => false

/-- The text from the first keyword on that has a blank in front of it; `blank` says whether one
stands in front of this text. -/
def referencesFrom? (blank : Bool) : List Char → Option (List Char)
  | [] => none
  | c :: rest =>
    if blank && (Text.afterLead? "REFERENCES".toList (Text.asciiUpper (c :: rest))).isSome then
      some (c :: rest)
    else referencesFrom? (Text.isBlank c) rest

/-- The column's own reference to another table, from its keyword on. -/
def references? : TableItem → Option String
  | column _ definition => (referencesFrom? false definition.toList).map String.ofList
  | constraint _ => none

end TableItem

/-- The stored definition of a table, and the statements for what hangs on it. -/
structure TableSnapshot where
  table : String
  items : List TableItem
  /-- The text behind the outermost parentheses. -/
  options : String
  dependents : List String
  deriving DecidableEq, Repr

namespace TableSnapshot

/-! ### Cutting a definition -/

/-- What the next character belongs to. -/
inductive Region where
  | plain
  | quoted (close : Char)
  | lineComment
  /-- A block comment; whether its last character was a star. -/
  | blockComment (star : Bool)
  deriving DecidableEq, Repr

/-- Cuts the rest of a definition at `depth` open parentheses; `current` is the entry so far and
`items` those before it, both backwards.  Text outside the parentheses is dropped, and a comment
counts as a space. -/
def cutItems (region : Region) (depth : Nat) (current : List Char) (items : List (List Char)) :
    List Char → Option (List (List Char) × List Char)
  | [] => none
  | c :: rest =>
    let kept := if 0 < depth then c :: current else current
    let finished := Text.trim current.reverse :: items
    match region with
    | .quoted close =>
      cutItems (if c = close then .plain else .quoted close) depth kept items rest
    | .lineComment =>
      cutItems (if c = '\n' then .plain else .lineComment) depth current items rest
    | .blockComment star =>
      cutItems (if star && c == '/' then .plain else .blockComment (c == '*')) depth current items
        rest
    | .plain =>
      if c = '\'' ∨ c = '"' ∨ c = Dialect.backtick then
        cutItems (.quoted c) depth kept items rest
      else if c = '[' then cutItems (.quoted ']') depth kept items rest
      else if c = '(' then cutItems .plain (depth + 1) kept items rest
      else if c = ')' then
        match depth with
        | 0 => none
        | 1 => some (finished.reverse, rest)
        | depth + 2 => cutItems .plain (depth + 1) kept items rest
      else if c = ',' ∧ depth = 1 then cutItems .plain depth [] finished rest
      else if c = '-' ∧ rest.head? = some '-' then
        cutItems .lineComment depth (' ' :: current) items rest
      else match c, rest with
        | '/', '*' :: rest => cutItems (.blockComment false) depth (' ' :: current) items rest
        | _, rest => cutItems .plain depth kept items rest

/-- The text behind the parentheses, without a final run of semicolons and blanks around it. -/
def optionsOf (rest : List Char) : List Char :=
  Text.trimEnd (Text.dropEndWhile (· == ';') (Text.trim rest))

/-- The entries of a definition and the text behind them. -/
def splitDefinition? (sql : String) : Option (List (List Char) × List Char) :=
  (cutItems .plain 0 [] [] sql.toList).map fun (items, rest) => (items, optionsOf rest)

/-! ### Snapshots -/

/-- Reads a stored `CREATE TABLE` statement. -/
def parse (table sql : String) (dependents : List String) : Except SchemaError TableSnapshot :=
  match splitDefinition? sql with
  | some (items, options) =>
    .ok { table, items := items.map TableItem.ofChars, options := String.ofList options, dependents }
  | none => .error (.invalidBlueprint table .unreadableDefinition)

/-- Kind and text of a row that holds both as text. -/
def storedText? (row : Row) : Option (String × String) :=
  match row.get? "type", row.get? "sql" with
  | some (.text kind), some (.text sql) => some (kind, sql)
  | _, _ => none

/-- Reads the rows in which an engine lists a table and what hangs on it. -/
def ofRows (table : String) (rows : List Row) : Except SchemaError TableSnapshot :=
  let stored := rows.filterMap storedText?
  match (stored.filter (·.1 == "table")).getLast? with
  | some (_, sql) => parse table sql ((stored.filter (·.1 != "table")).map Prod.snd)
  | none => .error (.invalidBlueprint table .noSuchTable)

/-- The column of that name, in any letter case. -/
def column? (s : TableSnapshot) (name : String) : Option TableItem :=
  s.items.find? fun item => item.name?.any (Text.eqIgnoringCase · name)

end TableSnapshot

end Relational
