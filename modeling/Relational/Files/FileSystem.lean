import Relational.Files.Path
/-
Files and directories.

A file system is told by the files in it, each under the names that lead to it, and by directories
that may have no files.  Every name on the way to something is a directory too.
-/
namespace Relational

/-- Files with their contents, and directories. -/
structure FileSystem where
  files : List (List String × String) := []
  directories : List (List String) := []
  deriving DecidableEq, Repr

namespace FileSystem

/-! ### Places -/

/-- Everything there is, by the names that lead to it. -/
def entries (fs : FileSystem) : List (List String) :=
  fs.files.map Prod.fst ++ fs.directories

/-- What is below a place, by the names that lead there from it. -/
def below (place entry : List String) : Option (List String) :=
  if place.isPrefixOf entry ∧ place.length < entry.length then some (entry.drop place.length)
  else none

/-- Whether a place is a directory. -/
def isDirectory (fs : FileSystem) (place : List String) : Bool :=
  fs.directories.contains place || fs.entries.any fun entry => (below place entry).isSome

/-- Whether a file stands where a place, or a directory on the way to it, should be. -/
def isBlocked (fs : FileSystem) (place : List String) : Bool :=
  fs.files.any fun (entry, _) => entry.isPrefixOf place

/-- The files below a place, in the order of the names that lead to them. -/
def filesBelow (fs : FileSystem) (place : List String) : List (List String × String) :=
  let found := fs.files.filterMap fun (entry, content) =>
    (below place entry).map fun names => (names, content)
  found.mergeSort fun a b => !decide (b.1 < a.1)

/-- The names of what is directly inside a directory. -/
def namesIn (fs : FileSystem) (place : List String) : List String :=
  fs.entries.filterMap fun entry => (below place entry).bind List.head?

/-- The content of a file. -/
def read? (fs : FileSystem) (place : List String) : Option String :=
  fs.files.lookup place

/-! ### Following paths -/

/-- The directory that names lead to from a place.  Two dots lead out of a directory, so there has
to be one. -/
def follow? (fs : FileSystem) : List String → List String → Option (List String)
  | place, [] => if fs.isDirectory place then some place else none
  | place, name :: rest =>
    if name = Path.above then
      if fs.isDirectory place then fs.follow? (Path.around place) rest else none
    else fs.follow? (place ++ [name]) rest

/-- The directory that a path leads to. -/
def directoryAt? (fs : FileSystem) (path : String) : Option (List String) :=
  if Path.isUsable path then fs.follow? [] (Path.steps path) else none

/-! ### Changes -/

/-- The file system with a directory, and those on the way to it. -/
def makeDirectory (fs : FileSystem) (place : List String) : FileSystem :=
  if fs.isDirectory place then fs else { fs with directories := fs.directories ++ [place] }

/-- The file system with a file, in place of one that stood there before. -/
def writeFile (fs : FileSystem) (place : List String) (content : String) : FileSystem :=
  { fs with files := fs.files.filter (·.1 != place) ++ [(place, content)] }

end FileSystem

end Relational
