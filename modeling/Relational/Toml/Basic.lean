import Relational.Text.Blank
/-
TOML values, and what may be added to a table.

A table is a list of entries in the order they were first mentioned.  It remembers how it came to
be, since that decides what may still be added: a table with a header of its own is complete once
its section ends, one that dotted keys made can only grow by dotted keys, and one that is merely
implied by the header of a table inside it may still get a header, but once.
-/
namespace Relational.Toml

/-- How a table came to be. -/
inductive Origin where
  /-- By the header of a table inside it. -/
  | implied
  /-- By a dotted key. -/
  | dotted
  /-- By a header of its own. -/
  | declared
  /-- In braces, as a value. -/
  | inline
  deriving DecidableEq, Repr

/-- A value.  Fractions are kept as they were written, points in time in a form of their own. -/
inductive Value where
  | text (s : String)
  | integer (n : Int64)
  | fraction (digits : String)
  | bool (b : Bool)
  | moment (text : String)
  | array (items : List Value)
  | table (origin : Origin) (entries : List (String × Value))
  /-- An array of tables, each under a header of its own. -/
  | tables (items : List (List (String × Value)))
  deriving Repr

/-- The entries of a table. -/
abbrev Entries := List (String × Value)

namespace Value

/-- The elements of an array of either kind. -/
def items? : Value → Option (List Value)
  | array items => some items
  | tables items => some (items.map (table .declared))
  | _ => none

/-- The key under which a point in time stands where entries are asked for. -/
def momentKey : String := "$__toml_private_datetime"

/-- The entries of a table of any origin.  A point in time has its text as the only entry. -/
def entries? : Value → Option Entries
  | table _ entries => some entries
  | moment s => some [(momentKey, text s)]
  | _ => none

end Value

namespace Entries

/-- Changes the value under a key, or adds one behind the others. -/
def alter? (f : Option Value → Option Value) (key : String) : Entries → Option Entries
  | [] => (f none).map fun v => [(key, v)]
  | (k, v) :: rest =>
    if k = key then (f (some v)).map fun v => (k, v) :: rest
    else (alter? f key rest).map ((k, v) :: ·)

/-- Adds a value under a key that is new. -/
def add? (key : String) (v : Value) : Entries → Option Entries :=
  alter? (fun old => if old.isNone then some v else none) key

/-- Gives a value to a dotted key.  The tables on the way are made as needed; the last of them has
to be one that dotted keys made, those before it may be implied by headers. -/
def assign? : List String → Value → Entries → Option Entries
  | [], _, _ => none
  | [key], v, entries => add? key v entries
  | key :: next :: path, v, entries =>
    let inner (origin : Origin) (es : Entries) : Option Value :=
      (assign? (next :: path) v es).map (.table origin)
    alter? (fun
      | none => inner .dotted []
      | some (.table .dotted es) => inner .dotted es
      | some (.table .implied es) => if path.isEmpty then none else inner .implied es
      | some (.tables items) =>
        match items.getLast?, path with
        | some last, _ :: _ =>
          (assign? (next :: path) v last).map fun es => .tables (items.dropLast ++ [es])
        | _, _ => none
      | some _ => none) key entries

/-- Changes the table that the keys of a header lead to.  Missing tables are implied, and of an
array of tables the last one is meant. -/
def within? (f : Entries → Option Entries) : List String → Entries → Option Entries
  | [], entries => f entries
  | key :: path, entries =>
    alter? (fun
      | none => (within? f path []).map (.table .implied)
      | some (.table .inline _) => none
      | some (.table origin es) => (within? f path es).map (.table origin)
      | some (.tables items) =>
        match items.getLast? with
        | some last => (within? f path last).map fun es => .tables (items.dropLast ++ [es])
        | none => none
      | some _ => none) key entries

/-! ### Sections -/

/-- A line that gives a value to a dotted key. -/
structure Assignment where
  path : List String
  value : Value
  deriving Repr

/-- The entries with a number of assignments carried out. -/
def assignAll? (entries : Entries) (assignments : List Assignment) : Option Entries :=
  assignments.foldlM (fun es a => assign? a.path a.value es) entries

/-- Adds the table of a header.  If its key is there already it has to be an implied table, which
then moves behind the others. -/
def declare? (key : String) (assignments : List Assignment) (entries : Entries) :
    Option Entries := do
  let start ← match entries.lookup key with
    | none => some []
    | some (.table .implied es) => some es
    | some _ => none
  let es ← assignAll? start assignments
  return entries.filter (·.1 != key) ++ [(key, .table .declared es)]

/-- Adds a table to an array of tables, which is made if it is missing. -/
def append? (key : String) (assignments : List Assignment) (entries : Entries) :
    Option Entries := do
  let es ← assignAll? [] assignments
  alter? (fun
    | none => some (.tables [es])
    | some (.tables items) => some (.tables (items ++ [es]))
    | some _ => none) key entries

end Entries

/-- A header and the assignments below it. -/
structure Section where
  path : List String
  /-- Whether the header stands in double brackets and so adds to an array. -/
  repeated : Bool
  assignments : List Entries.Assignment
  deriving Repr

/-- Adds a section to a document. -/
def Section.apply? (s : Section) (root : Entries) : Option Entries :=
  match s.path.getLast? with
  | none => none
  | some key =>
    let add := if s.repeated then Entries.append? else Entries.declare?
    Entries.within? (add key s.assignments) s.path.dropLast root

end Relational.Toml
