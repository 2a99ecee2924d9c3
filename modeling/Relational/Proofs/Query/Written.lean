import Relational.Proofs.Query.Checked
import Relational.Proofs.Query.Grammar
/-
Whatever writes conditions writes them well.

Conditions are written by calls of their own, by the calls of a join and by those of a query, and
the three hand each other on: a group and a join are written by whatever the caller likes, as long
as it starts with nothing and makes calls.  `Written` is closed under all of them, with calls that
fail.  Everything written is reached by the few steps that the calls are made of, and these only
ever add a condition that was checked, or a group, behind the connector that is due.
-/
namespace Relational

/-! ### What can be written -/

mutual

/-- Conditions that calls can lead to. -/
inductive Conditions.Written : Conditions → Prop
  | empty : Conditions.Written .empty
  | call {c : Conditions} (h : Conditions.Written c) (call : ConditionCall) :
    Conditions.Written (call.run c)
  | filterGroup {c : Conditions} (h : Conditions.Written c) {build : Conditions → Conditions}
    (hbuild : Conditions.Written (build .empty)) : Conditions.Written (c.filterGroup build)
  | orFilterGroup {c : Conditions} (h : Conditions.Written c) {build : Conditions → Conditions}
    (hbuild : Conditions.Written (build .empty)) : Conditions.Written (c.orFilterGroup build)
  | join {j : Join} (h : Join.Written j) : Conditions.Written j.conditions
  | filters {q : Query} (h : Query.Written q) : Conditions.Written q.filters
  | havings {q : Query} (h : Query.Written q) : Conditions.Written q.havings

/-- Joins that calls can lead to. -/
inductive Join.Written : Join → Prop
  | start (kind : JoinKind) (table : String) : Join.Written { kind, table }
  | call {j : Join} (h : Join.Written j) (call : JoinCall) : Join.Written (call.run j)
  | query {q : Query} (h : Query.Written q) {j : Join} (hj : j ∈ q.joins) : Join.Written j

/-- Queries that calls can lead to. -/
inductive Query.Written : Query → Prop
  | empty : Query.Written .empty
  | call {q : Query} (h : Query.Written q) (call : QueryCall) : Query.Written (call.run q)
  | filterGroup {q : Query} (h : Query.Written q) {build : Conditions → Conditions}
    (hbuild : Conditions.Written (build .empty)) :
    Query.Written (q.filtered (·.filterGroup build))
  | orFilterGroup {q : Query} (h : Query.Written q) {build : Conditions → Conditions}
    (hbuild : Conditions.Written (build .empty)) :
    Query.Written (q.filtered (·.orFilterGroup build))
  | joinWith {q : Query} (h : Query.Written q) (kind : JoinKind) (table : String)
    {build : Join → Join} (hbuild : Join.Written (build { kind, table })) :
    Query.Written (q.joinWith kind table build)

end

/-- Any fragment. -/
abbrev AnyText (_ : String) : Prop :=
  True

mutual

theorem Conditions.Written.reached : ∀ {c : Conditions}, c.Written → c.Reached AnyText
  | _, .empty => .empty
  | _, .call h call => ConditionCall.reached_run h.reached call fun _ _ => trivial
  | _, .filterGroup h hbuild => h.reached.addGroup .and hbuild.reached
  | _, .orFilterGroup h hbuild => h.reached.addGroup .or hbuild.reached
  | _, .join h => h.reached
  | _, .filters h => h.checked.filters
  | _, .havings h => h.checked.havings

theorem Join.Written.reached : ∀ {j : Join}, j.Written → j.conditions.Reached AnyText
  | _, .start kind table => .empty
  | _, .call h call => JoinCall.reached_run h.reached call
  | _, .query h hj => (h.checked.joins _ hj).2

theorem Query.Written.checked : ∀ {q : Query}, q.Written → q.Checked AnyText
  | _, .empty => .empty
  | _, .call h call => h.checked.run call fun _ _ => trivial
  | _, .filterGroup h hbuild =>
    { h.checked with filters := h.checked.filters.addGroup .and hbuild.reached }
  | _, .orFilterGroup h hbuild =>
    { h.checked with filters := h.checked.filters.addGroup .or hbuild.reached }
  | _, .joinWith h kind table hbuild => h.checked.addJoin hbuild.reached

end

/-! ### What is well formed -/

namespace Operator

/-- The operator goes with a list or a range of values. -/
def takesList : Operator → Bool
  | single _ => false
  | member _ | range _ => true

/-- The operands an operator goes with: membership with a list, a range with its two ends, any other
operator with a single value that is not `NULL`. -/
def Takes : Operator → Operand → Prop
  | single _, .value v => v ≠ .null
  | member _, .list _ => True
  | range _, .list vs => vs.length = 2
  | _, _ => False

end Operator

namespace Leaf

/-- The column, the operator and the operand of a condition that compares a column with values. -/
def comparison? : Leaf → Option (String × Operator × Operand)
  | compare column comparison v => some (column, .single comparison, .value v)
  | member column negated vs => some (column, .member negated, .list vs)
  | range column negated low high => some (column, .range negated, .list [low, high])
  | _ => none

/-- The operator between two columns. -/
def columnOperator? : Leaf → Option Operator
  | columns _ comparison _ => some (.single comparison)
  | _ => none

/-- The text and the values of a raw fragment. -/
def fragment? : Leaf → Option (String × List Value)
  | raw sql bindings => some (sql, bindings)
  | _ => none

/-- Operators stand with operands they take, and fragments with one value for each marker. -/
structure WellFormed (l : Leaf) : Prop where
  comparison : ∀ column operator operand, l.comparison? = some (column, operator, operand) →
    operator.Takes operand
  columns : ∀ operator, l.columnOperator? = some operator → operator.takesList = false
  fragment : ∀ sql bindings, l.fragment? = some (sql, bindings) →
    sql.toList.all Text.isBlank = false ∧ Marker.count sql = bindings.length

end Leaf

namespace Conditions

/-- The tokens are none, or operands with connectors between them, and each condition is well
formed. -/
structure WellFormed (c : Conditions) : Prop where
  tokens : c.tokens = [] ∨ IsChain c.tokens
  leaves : ∀ l, .leaf l ∈ c.tokens → l.WellFormed

/-- A range of one value, which is refused, then a group in a group. -/
def nested : Conditions :=
  ((empty.filterOp "id" "between" (.list [.int 1])).filter "id"
    (.list [.int 1, .null])).orFilterGroup fun inner =>
      (inner.filterRaw "likes > ?" [.int 2]).filterGroup fun inner =>
        inner.orFilter "title" (.value .null)

end Conditions

end Relational
