import Relational.Config.Basic
import Relational.Failure
import Relational.Files.FileSystem
/-
Finding migration scripts.

A directory that belongs to a connection gives it to the scripts inside; other directories are only
searched if the configuration says so.  Scripts are found in the order of their paths.
-/
namespace Relational

/-- A script and where it was found. -/
structure FoundScript where
  path : String
  id : String
  script : Script
  deriving DecidableEq, Repr

namespace Discovery

/-- The extension of migration scripts. -/
def extension : String := "sql"

/-- The connection a directory belongs to, if it belongs to one. -/
def owner? (c : Config) (place : List String) : Option String :=
  (c.migrations.directories.find? fun (_, directory) =>
    Path.names (Path.join c.migrations.root directory) == place).map Prod.fst

/-- Follows the names to a file through the directories on the way.  The result is the connection
of the innermost directory that belongs to one; there is none if the search does not get to the
file. -/
def follow? (c : Config) (connection : Option String) (place : List String) :
    List String → Option (Option String)
  | [] | [_] => some connection
  | directory :: inner :: rest =>
    let place := place ++ [directory]
    match owner? c place with
    | some name => follow? c (some name) place (inner :: rest)
    | none =>
      if c.migrations.recursive then follow? c connection place (inner :: rest) else none

/-- The script in a file, on a connection unless it names one itself. -/
def load (path content : String) (connection : Option String) : Except Failure Script :=
  match Script.parse content with
  | .ok script => .ok (script.withDefaultConnection connection)
  | .error fault => .error (.script path fault)

/-- Reads a file of that name, unless it is no script. -/
def read (c : Config) (connection : Option String) (names : List String) (content : String) :
    Except Failure (Option FoundScript) :=
  match Path.splitExtension (names.getLastD "") with
  | (id, some e) =>
    if e = extension then
      let path := Path.join c.migrations.root (String.intercalate "/" names)
      (load path content connection).map fun script => some ⟨path, id, script⟩
    else .ok none
  | (_, none) => .ok none

/-- All scripts below the root of a configuration.  Without that directory there are none. -/
def scripts (c : Config) (fs : FileSystem) : Except Failure (List FoundScript) := do
  let files := ((fs.directoryAt? c.migrations.root).map fs.filesBelow).getD []
  let found ← files.mapM fun (names, content) =>
    match follow? c none (Path.names c.migrations.root) names with
    | some connection => read c connection names content
    | none => .ok none
  return found.filterMap id

end Discovery

end Relational
