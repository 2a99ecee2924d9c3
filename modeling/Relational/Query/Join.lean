import Relational.Query.Condition
/-
Joins: a kind, a table and the conditions under which rows meet.
-/
namespace Relational

/-- How rows without a partner are treated. -/
inductive JoinKind where
  | inner
  | left
  | right
  | cross
  deriving DecidableEq, Repr

/-- The keyword of the join. -/
def JoinKind.sql : JoinKind → String
  | inner => "INNER JOIN"
  | left => "LEFT JOIN"
  | right => "RIGHT JOIN"
  | cross => "CROSS JOIN"

/-- A joined table, which may carry an alias, and its conditions. -/
structure Join where
  kind : JoinKind
  table : String
  conditions : Conditions := .empty
  deriving DecidableEq, Repr

namespace Join

/-- `first operator second`, both columns. -/
def on (j : Join) (first operator second : String) : Join :=
  { j with conditions := j.conditions.compareColumns .on .and first operator second }

/-- `OR first operator second`. -/
def orOn (j : Join) (first operator second : String) : Join :=
  { j with conditions := j.conditions.compareColumns .orOn .or first operator second }

/-- `column = value`. -/
def filter (j : Join) (column : String) (operand : Operand) : Join :=
  { j with conditions := j.conditions.compareBy .joinFilter .and column (.single .equal) operand }

/-- `column operator value`. -/
def filterOp (j : Join) (column operator : String) (operand : Operand) : Join :=
  { j with conditions := j.conditions.compare .joinFilter .and column operator operand }

/-- `OR column = value`. -/
def orFilter (j : Join) (column : String) (operand : Operand) : Join :=
  { j with
    conditions := j.conditions.compareBy .orJoinFilter .or column (.single .equal) operand }

end Join

end Relational
