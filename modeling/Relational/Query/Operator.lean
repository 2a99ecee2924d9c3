import Relational.Text.Blank
/-
Comparison operators.

Three shapes of comparison exist: with one value, with a list, and with a range.  The shape is
part of the type, so that a condition cannot pair an operator with an operand it does not take.
-/
namespace Relational

/-- A comparison of two single values. -/
inductive Comparison where
  | equal
  | notEqual
  | less
  | lessEqual
  | greater
  | greaterEqual
  | like
  | notLike
  deriving DecidableEq, Repr

/-- The operator in SQL. -/
def Comparison.sql : Comparison → String
  | equal => "="
  | notEqual => "<>"
  | less => "<"
  | lessEqual => "<="
  | greater => ">"
  | greaterEqual => ">="
  | like => "LIKE"
  | notLike => "NOT LIKE"

/-- An operator of any shape. -/
inductive Operator where
  | single (c : Comparison)
  /-- Member of a list, or not. -/
  | member (negated : Bool)
  /-- Inside a closed range, or not. -/
  | range (negated : Bool)
  deriving DecidableEq, Repr

namespace Operator

/-- The keyword for membership. -/
def memberSql (negated : Bool) : String :=
  if negated then "NOT IN" else "IN"

/-- The keyword for a range. -/
def rangeSql (negated : Bool) : String :=
  if negated then "NOT BETWEEN" else "BETWEEN"

/-- The operator in SQL. -/
def sql : Operator → String
  | single c => c.sql
  | member negated => memberSql negated
  | range negated => rangeSql negated

/-- Every spelling of an operator, in lower case with single spaces. -/
def spellings : List (String × Operator) :=
  [("=", single .equal), ("==", single .equal), ("!=", single .notEqual),
   ("<>", single .notEqual), ("<", single .less), ("<=", single .lessEqual),
   (">", single .greater), (">=", single .greaterEqual), ("like", single .like),
   ("not like", single .notLike), ("in", member false), ("not in", member true),
   ("between", range false), ("not between", range true)]

/-- Reads an operator in any letter case and with any blanks between its words. -/
def parse? (text : String) : Option Operator :=
  spellings.lookup (String.ofList (Text.asciiLower (Text.squeezed text.toList)))

end Operator

end Relational
