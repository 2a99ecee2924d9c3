import Relational.Action
import Relational.Files.FileSystem
/-
Making directories and writing files by their paths.

The directories of a path are made one after another, so those in front of the one that fails are
there afterwards.
-/
namespace Relational.FileSystem

/-- Makes a directory and those on the way to it, up to the first whose name is too long.  No file
may be in the way. -/
def reach (path : String) (place : List String) : Action FileSystem Unit := do
  let usable := place.takeWhile Path.isUsableName
  if (← get).isBlocked usable then throw (.file path)
  else
    modify (·.makeDirectory usable)
    if usable.length < place.length then throw (.file path)

/-- Makes the directory that names lead to from a place, and those on the way, also where two dots
lead out of one again. -/
def makeSteps (path : String) : List String → List String → Action FileSystem (List String)
  | place, [] => do
    reach path place
    return place
  | place, name :: rest => do
    if name = Path.above then
      reach path place
      makeSteps path (Path.around place) rest
    else makeSteps path (place ++ [name]) rest

/-- Makes the directory that a path leads to, and those on the way.  A dot at the end of the path
asks for a directory that is there already. -/
def makeDirectories (path : String) : Action FileSystem (List String) := do
  let steps := Path.steps path
  if !Path.isUsable path then throw (.file path)
  else if Path.endsHere path then
    discard (makeSteps path [] steps.dropLast)
    match (← get).follow? [] steps with
    | some place => return place
    | none => throw (.file path)
  else makeSteps path [] steps

/-- Writes a file into a directory, in place of one of its name; `path` is the path of the file. -/
def writeInto (place : List String) (name path content : String) : Action FileSystem Unit :=
  if Path.isUsable path && Path.isUsableName name then
    modify (·.writeFile (place ++ [name]) content)
  else throw (.file path)

/-- Writes a file, and makes the directories on the way to it. -/
def writePath (path content : String) : Action FileSystem Unit := do
  let steps := Path.steps path
  let place ← makeSteps path [] steps.dropLast
  writeInto place (steps.getLastD "") path content

/-- A directory with files and directories inside, by their paths from there.  Of several files at
one place the last stays. -/
def ofTexts (root : String) (files : List (String × String)) (directories : List String) :
    FileSystem :=
  let fill : Action FileSystem Unit := do
    (root :: directories.map (Path.join root)).forM fun path => discard (makeDirectories path)
    files.forM fun (path, content) => writePath (Path.join root path) content
  (fill.run.run {}).2

end Relational.FileSystem
