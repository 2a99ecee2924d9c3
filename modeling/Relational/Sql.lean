import Relational.Dialect.Basic
import Relational.Marker
/-
A statement before it is text.

Statements are put together from pieces: fixed words, names to quote, raw fragments and bound
values.  Only the last step makes text of them, and it numbers the placeholders as it goes, so the
n-th placeholder belongs to the n-th value whatever the dialect.
-/
namespace Relational

/-- SQL text and the values bound to its placeholders, in order. -/
structure Statement where
  sql : String
  bindings : List Value
  deriving DecidableEq, Repr, Inhabited

/-- A piece of a statement. -/
inductive Piece where
  /-- Words and punctuation, as they are. -/
  | words (s : String)
  /-- A name to quote. -/
  | name (n : String)
  /-- A fragment with one value per marker. -/
  | raw (sql : String) (bindings : List Value)
  /-- A placeholder for a value. -/
  | bound (v : Value)
  deriving DecidableEq, Repr

namespace Piece

/-- The values that belong to the piece's placeholders. -/
def bindings : Piece → List Value
  | words _ | name _ => []
  | raw _ bindings => bindings
  | bound v => [v]

/-- The text of the piece when `count` values are bound in front of it. -/
def text (d : Dialect) (count : Nat) : Piece → String
  | words s => s
  | name n => d.quoteName n
  | raw sql _ => Marker.renumber d.placeholder count sql
  | bound _ => d.placeholder (count + 1)

end Piece

namespace Sql

/-- The text of a sequence of pieces when `count` values are bound in front of it. -/
def text (d : Dialect) (count : Nat) : List Piece → String
  | [] => ""
  | p :: rest => p.text d count ++ text d (count + p.bindings.length) rest

/-- The values of a sequence of pieces. -/
def bindings (pieces : List Piece) : List Value :=
  pieces.flatMap Piece.bindings

/-- The finished statement. -/
def render (d : Dialect) (pieces : List Piece) : Statement :=
  ⟨text d 0 pieces, bindings pieces⟩

/-- The parts with `separator` between neighbours. -/
def separated (separator : String) (parts : List (List Piece)) : List Piece :=
  List.intercalate [.words separator] parts

theorem text_append (d : Dialect) (count : Nat) (a b : List Piece) :
    text d count (a ++ b) = text d count a ++ text d (count + (bindings a).length) b := by
  induction a generalizing count with
  | nil => simp [text, bindings]
  | cons p rest ih => simp [text, ih, bindings, String.append_assoc, Nat.add_assoc]

theorem bindings_append (a b : List Piece) : bindings (a ++ b) = bindings a ++ bindings b := by
  simp [bindings]

end Sql

end Relational
