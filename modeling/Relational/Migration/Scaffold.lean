import Relational.Files.Writing
import Relational.Migration.Discovery
import Relational.Time.Calendar
/-
Starting a new migration script.

The name of the file is the time, so that scripts run in the order they were started in, and the
migration's name.  That name has no capitals and no gaps but underscores.
-/
namespace Relational.Scaffold

/-! ### Names -/

/-- A character of a name, given what stands in front of it and whether that ends in a small
letter or a digit.  The text is built backwards. -/
def appendChar (name : List Char × Bool) (c : Char) : List Char × Bool :=
  let (text, small) := name
  let gap := match text with
    | [] | '_' :: _ => text
    | _ => '_' :: text
  if c.isAlphanum then
    (c.toLower :: (if c.isUpper && small then gap else text), c.isLower || c.isDigit)
  else (gap, false)

/-- A name in small letters and digits, with one underscore for every run of other characters and
in front of every capital behind a small letter or a digit. -/
def snakeCase (name : String) : String :=
  let text := (name.toList.foldl appendChar ([], false)).1
  String.ofList (text.dropWhile (· == '_')).reverse

/-! ### Files -/

/-- The text a script starts with. -/
def skeleton (connection : Option String) : String :=
  let header := match connection with
    | some name => Script.directiveMark ++ "connection " ++ name ++ "\n"
    | none => ""
  header ++ Script.directiveMark ++ "up\n\n\n" ++ Script.directiveMark ++ "down\n\n"

/-- A time as it stands in the name of a file. -/
def timeText (date : Date) (clock : Clock) : String :=
  date.text "_" ++ "_" ++ clock.text ""

/-- A file that was started. -/
structure Started where
  path : String
  content : String
  deriving DecidableEq, Repr

/-- Starts a script for a connection, in the directory that belongs to it or else in the root with
a header that names it.  A directory holds one script of a name only, whatever its time. -/
def start (c : Config) (name : String) (connection : Option String) (date : Date) (clock : Clock) :
    Action FileSystem Started := do
  let snake := snakeCase name
  if snake.isEmpty then throw (.configuration (.unusableName name))
  else
    match connection with
    | some _ => discard (Action.ofExcept .configuration (c.connection connection))
    | none => pure ()
    let own := connection.bind c.directoryFor
    let directory := own.getD c.migrations.root
    let place ← FileSystem.makeDirectories directory
    let ending := "_" ++ snake ++ "." ++ Discovery.extension
    match ((← get).namesIn place).find? fun other => other.endsWith ending with
    | some other => throw (.fileExists (Path.join directory other))
    | none =>
      let file := timeText date clock ++ ending
      let path := Path.join directory file
      let content := skeleton (if own.isSome then none else connection)
      FileSystem.writeInto place file path content
      return ⟨path, content⟩

end Relational.Scaffold
