import Relational.Text.Blank
/-
Paths: texts in which slashes separate the names of directories.

A path is shown as it was written.  Two paths lead to the same place if their names agree; repeated
slashes, a slash at the end and dots that stand for the directory itself do not count.
-/
namespace Relational.Path

/-! ### Names -/

/-- The name of the directory that absolute paths start from. -/
def rootName : String := "/"

/-- The directory itself. -/
def here : String := "."

/-- The directory around. -/
def above : String := ".."

/-- What stands between the slashes of a path. -/
def parts (path : String) : List String :=
  ((path.toList.splitOn '/').map String.ofList).filter (!·.isEmpty)

/-- The names on the way, outermost first.  An absolute path starts with the root; a dot only
counts at the start of a path that is not absolute. -/
def names (path : String) : List String :=
  if path.startsWith "/" then rootName :: (parts path).filter (· != here)
  else match parts path with
    | [] => []
    | first :: rest => first :: rest.filter (· != here)

/-- The names to follow to get where a path leads. -/
def steps (path : String) : List String :=
  (names path).filter (· != here)

/-- Whether a path ends in a dot that stands for the directory itself. -/
def endsHere (path : String) : Bool :=
  (parts path).getLast? == some here

/-- The names that lead to the directory around a place. -/
def around : List String → List String
  | [] => []
  | [name] => if name = rootName then [name] else []
  | place => place.dropLast

/-- A file's name up to its last dot, and what follows that dot.  A dot in front of all else
separates nothing. -/
def splitExtension (name : String) : String × Option String :=
  match Text.cutAt (· == '.') name.toList.reverse with
  | some (extension, stem) =>
    if stem.isEmpty then (name, none)
    else (String.ofList stem.reverse, some (String.ofList extension.reverse))
  | none => (name, none)

/-! ### Relative paths -/

/-- The path of `inner` seen from `outer`; an absolute path stays what it is. -/
def join (outer inner : String) : String :=
  if inner.startsWith "/" then inner
  else if outer.isEmpty || outer.endsWith "/" then outer ++ inner
  else outer ++ "/" ++ inner

/-- The text of a path without slashes and dots in front of its first name. -/
def skipHere : List Char → List Char
  | '/' :: rest => skipHere rest
  | '.' :: '/' :: rest => skipHere rest
  | ['.'] => []
  | s => s

/-- A path seen from the directory `outer` that it starts with; another path stays what it is. -/
def seenFrom (outer path : String) : String :=
  match Text.afterLead? outer.toList path.toList with
  | some ('/' :: rest) => String.ofList (skipHere rest)
  | _ => path

/-! ### Limits -/

/-- The number of bytes of the longest name. -/
def longestName : Nat := 255

/-- The number of bytes of the longest path. -/
def longestPath : Nat := 4095

/-- Whether something may have that name. -/
def isUsableName (name : String) : Bool :=
  name.utf8ByteSize ≤ longestName

/-- Whether a path can lead anywhere: it says something, is not too long and holds no zero
character. -/
def isUsable (path : String) : Bool :=
  !path.isEmpty && path.utf8ByteSize ≤ longestPath && !path.toList.contains '\x00'

end Relational.Path
