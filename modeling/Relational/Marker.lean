import Relational.Value
/-
The `?` markers of a raw fragment.

A raw fragment comes with one value for each marker.  A marker inside a quoted text is text; a
single quote opens and closes such a text, so a doubled quote inside it closes and opens again.
-/
namespace Relational.Marker

/-- The markers from here on; `quoted` says whether the fragment starts inside a text. -/
def countFrom (quoted : Bool) : List Char → Nat
  | [] => 0
  | c :: rest =>
    if c = '\'' then countFrom (!quoted) rest
    else if c = '?' ∧ !quoted then countFrom quoted rest + 1
    else countFrom quoted rest

/-- Number of markers. -/
def count (sql : String) : Nat :=
  countFrom false sql.toList

/-- Writes `placeholder (n + 1)`, `placeholder (n + 2)`, … for the markers from here on. -/
def renumberFrom (placeholder : Nat → String) (quoted : Bool) (n : Nat) : List Char → List Char
  | [] => []
  | c :: rest =>
    if c = '\'' then c :: renumberFrom placeholder (!quoted) n rest
    else if c = '?' ∧ !quoted then
      (placeholder (n + 1)).toList ++ renumberFrom placeholder quoted (n + 1) rest
    else c :: renumberFrom placeholder quoted n rest

/-- The fragment with its markers replaced by the placeholders of the positions behind
`start`. -/
def renumber (placeholder : Nat → String) (start : Nat) (sql : String) : String :=
  String.ofList (renumberFrom placeholder false start sql.toList)

end Relational.Marker
