import Relational.Config.Error
import Relational.Migration.Statements
/-
Migrations written in SQL.

Directives cut the text into a header, the part that applies the migration and the part that
reverts it.  Only the header says where and how the migration runs, and no statement stands in it.
-/
namespace Relational

/-- What is wrong with the text of a migration. -/
inductive ScriptFault where
  | repeatedUp
  | downBeforeUp
  | unnamedConnection
  | unexpectedDirective (line : Nat) (name : String)
  | statementInHeader (line : Nat)
  | missingUp
  deriving DecidableEq, Repr

namespace Script

/-- What opens a directive. -/
def directiveMark : String := "-- migrate:"

/-- A directive as it is written. -/
def written (name : String) : String :=
  inCode (directiveMark ++ name)

end Script

/-- What to tell the user. -/
def ScriptFault.message : ScriptFault → String
  | repeatedUp => "duplicate " ++ Script.written "up" ++ " section"
  | downBeforeUp => Script.written "down" ++ " must follow " ++ Script.written "up"
  | unnamedConnection => Script.written "connection" ++ " needs a name"
  | unexpectedDirective line name =>
    "line " ++ toString line ++ ": unexpected directive " ++ Script.written name
  | statementInHeader line => "line " ++ toString line ++ ": SQL before " ++ Script.written "up"
  | missingUp => "missing " ++ Script.written "up" ++ " section"

/-- A migration written in SQL. -/
structure Script where
  /-- Where it runs, unless on the default connection. -/
  connection : Option String := none
  /-- Whether its statements and the note in the ledger share a transaction. -/
  transaction : Bool := false
  up : List String
  down : List String
  deriving DecidableEq, Repr

namespace Script

/-! ### Lines -/

/-- The lines of a text.  A carriage return in front of a line feed belongs to the line end; the
last line needs no end. -/
def lines : List Char → List (List Char)
  | [] => []
  | '\n' :: rest => [] :: lines rest
  | '\r' :: '\n' :: rest => [] :: lines rest
  | c :: rest =>
    match lines rest with
    | [] => [[c]]
    | line :: more => (c :: line) :: more

/-- A line that directs the reader: a name, and what follows it. -/
structure Directive where
  name : String
  argument : String
  deriving DecidableEq, Repr

/-- What a line says. -/
inductive Line where
  | directive (d : Directive)
  /-- Nothing, or a comment. -/
  | remark
  | sql
  deriving DecidableEq, Repr

/-- Reads a line. -/
def Line.ofChars (line : List Char) : Line :=
  let line := Text.trim line
  match Text.afterLead? directiveMark.toList line with
  | some rest =>
    match Text.cutAt Text.isBlank rest with
    | some (name, argument) =>
      .directive ⟨String.ofList name, String.ofList (Text.trim argument)⟩
    | none => .directive ⟨String.ofList rest, ""⟩
  | none =>
    if line.isEmpty || (Text.afterLead? "--".toList line).isSome then .remark else .sql

/-! ### Sections -/

/-- The part of a migration a line belongs to. -/
inductive Part where
  | header
  | up
  | down
  deriving DecidableEq, Repr

/-- What has been read so far. -/
structure Draft where
  part : Part := .header
  connection : Option String := none
  transaction : Bool := false
  up : List Char := []
  down : List Char := []

/-- Follows a directive. -/
def Draft.direct (d : Draft) (line : Nat) (directive : Directive) : Except ScriptFault Draft :=
  match directive.name, d.part with
  | "up", .header => .ok { d with part := .up }
  | "up", _ => .error .repeatedUp
  | "down", .header => .error .downBeforeUp
  | "down", _ => .ok { d with part := .down }
  | "connection", .header =>
    if directive.argument.isEmpty then .error .unnamedConnection
    else .ok { d with connection := some directive.argument }
  | "transaction", .header => .ok { d with transaction := true }
  | name, _ => .error (.unexpectedDirective line name)

/-- Reads one more line; lines are counted from one. -/
def Draft.next (d : Draft) (numbered : List Char × Nat) : Except ScriptFault Draft :=
  let (text, line) := numbered
  match Line.ofChars text, d.part with
  | .directive directive, _ => d.direct line directive
  | .sql, .header => .error (.statementInHeader line)
  | .remark, .header => .ok d
  | _, .up => .ok { d with up := d.up ++ text ++ ['\n'] }
  | _, .down => .ok { d with down := d.down ++ text ++ ['\n'] }

/-- What was read, once all lines are. -/
def Draft.finish (d : Draft) : Except ScriptFault Script :=
  if d.part = .header then .error .missingUp
  else .ok {
    connection := d.connection
    transaction := d.transaction
    up := statements (String.ofList d.up)
    down := statements (String.ofList d.down) }

/-- Reads the text of a migration. -/
def parse (source : String) : Except ScriptFault Script := do
  let draft ← ((lines source.toList).zipIdx 1).foldlM Draft.next {}
  draft.finish

/-- The script on a connection, unless it names one itself. -/
def withDefaultConnection (s : Script) (connection : Option String) : Script :=
  { s with connection := s.connection.or connection }

end Script

end Relational
