import Relational.Dialect.Basic
/-
Cutting a script into statements.

A semicolon ends a statement unless it stands in quotes or in a comment.  Quotes run to the next
closing character, so a doubled quote closes and opens again, which comes to the same.  The pieces
between the semicolons are all of the script; those that hold nothing but blanks and comments are
no statements.
-/
namespace Relational.Script

/-- What a character of a script belongs to. -/
inductive Region where
  | plain
  | quoted (close : Char)
  | lineComment
  /-- A block comment; whether the character before was a star. -/
  | blockComment (star : Bool)
  deriving DecidableEq, Repr

/-- What the character behind `c` belongs to; `ahead` is that character. -/
def Region.after (region : Region) (c : Char) (ahead : Option Char) : Region :=
  match region with
  | quoted close => if c = close then plain else region
  | lineComment => if c = '\n' then plain else region
  | blockComment star => if star ∧ c = '/' then plain else blockComment (c == '*')
  | plain =>
    if c = '\'' ∨ c = '"' ∨ c = Dialect.backtick then quoted c
    else if c = '[' then quoted ']'
    else if c = '-' ∧ ahead = some '-' then lineComment
    else if c = '/' ∧ ahead = some '*' then blockComment false
    else plain

/-- The pieces between the semicolons that end statements. -/
def pieces (region : Region) : List Char → List (List Char)
  | [] => [[]]
  | c :: rest =>
    let later := pieces (region.after c rest.head?) rest
    if region = .plain ∧ c = ';' then [] :: later
    else match later with
      | [] => [[c]]
      | piece :: more => (c :: piece) :: more

/-! ### Pieces without a statement -/

/-- Where a search for a statement is. -/
inductive Gap where
  | blank
  | lineComment
  /-- Before the star that opens a block comment. -/
  | opening
  /-- A block comment behind its two opening characters; whether the character before was a star
  behind them. -/
  | blockComment (star : Bool)
  deriving DecidableEq, Repr

/-- Where the search is behind `c`, or nothing where `c` begins a statement; `ahead` is the
character behind `c`. -/
def Gap.after? (gap : Gap) (c : Char) (ahead : Option Char) : Option Gap :=
  match gap with
  | lineComment => some (if c = '\n' then blank else lineComment)
  | opening => some (blockComment false)
  | blockComment star => some (if star ∧ c = '/' then blank else blockComment (c == '*'))
  | blank =>
    if Text.isBlank c then some blank
    else if c = '-' ∧ ahead = some '-' then some lineComment
    else if c = '/' ∧ ahead = some '*' then some opening
    else none

/-- Whether anything but blanks and comments follows.  A block comment ends at the first star and
slash behind the two characters that open it. -/
def holdsSqlFrom (gap : Gap) : List Char → Bool
  | [] => false
  | c :: rest =>
    match gap.after? c rest.head? with
    | none => true
    | some later => holdsSqlFrom later rest

/-- Whether a piece holds more than blanks and comments. -/
def holdsSql (piece : List Char) : Bool :=
  holdsSqlFrom .blank piece

/-- The statements of a script, without the blanks around them. -/
def statements (script : String) : List String :=
  (((pieces .plain script.toList).map Text.trim).filter holdsSql).map String.ofList

end Relational.Script
