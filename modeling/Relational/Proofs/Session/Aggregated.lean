import Relational.Proofs.Paging.Returned
import Relational.Proofs.Query.Clauses
import Relational.Proofs.Query.Counting
import Relational.Session.Mock
/-
What is asked for when a query is aggregated.

An aggregate is over all rows of a query, so the query is asked without its ordering and its
limits.  A cursor is an ordering too, but it is kept in a place of its own: counting drops it, and
an aggregate does not.  So what is asked for ends behind the conditions on groups, unless there is
a cursor, and then it is ordered by the cursor's column.
-/
namespace Relational

open Action

namespace Query

variable {q : Query}

/-! ### The query that is asked -/

/-- The query with an aggregate in place of its rows. -/
def aggregated (q : Query) (function : Aggregate) (column : String) : Query :=
  q.reorder.withoutLimits.aggregateOf function column

/-- There is no statement for the rows, or the column cannot be named. -/
def LacksAggregate (q : Query) (column : String) : Prop :=
  q.Refused ∨ Name.isAliased column = false

theorem aggregateOf_of_isAliased {column : String} (h : Name.isAliased column = true)
    (function : Aggregate) :
    q.aggregateOf function column = { q with aggregate := some (function, column) } := by
  unfold aggregateOf whenAliased
  rw [if_pos h, ite_self]

theorem error_aggregateOf_ne_none {column : String} (h : Name.isAliased column = false)
    (function : Aggregate) : (q.aggregateOf function column).error ≠ none := by
  have hstar : ¬(column == "*") = true := by
    intro hstar
    rw [beq_iff_eq.mp hstar] at h
    exact absurd h (by decide +kernel)
  rw [aggregateOf, if_neg hstar, whenAliased, h]
  exact q.error_fail_ne_none _

theorem refused_aggregated_iff {function : Aggregate} {column : String} :
    (q.aggregated function column).Refused ↔ q.LacksAggregate column := by
  cases h : Name.isAliased column with
  | true =>
      have hnamed : ¬true = false := by decide
      rw [aggregated, aggregateOf_of_isAliased h, LacksAggregate, h, or_iff_left hnamed]
      rfl
  | false =>
      simp only [LacksAggregate, h, or_true, iff_true]
      exact Or.inl (error_aggregateOf_ne_none h function)

/-- Of an arrangement, only the cursor is left. -/
theorem aggregated_foldl {calls : List QueryCall} (h : ∀ call ∈ calls, call.arranges = true)
    (function : Aggregate) (column : String) :
    let arranged := calls.foldl QueryCall.run q
    arranged.aggregated function column =
      aggregated { q with cursor := arranged.cursor } function column := by
  intro arranged
  have hbare : arranged.unarranged = q.unarranged := unarranged_foldl h
  have hasked : ∀ q' : Query,
      q'.reorder.withoutLimits = { q'.unarranged with cursor := q'.cursor } := fun _ => rfl
  rw [aggregated, aggregated, hasked, hasked, hbare]
  rfl

/-! ### The statement that asks it -/

/-- The ordering by the cursor alone. -/
def cursorPieces (q : Query) : List Piece :=
  match q.cursor with
  | none => []
  | some c => [.words " ORDER BY ", .name c.column, .words (" " ++ c.direction.sql)]

/-- The aggregate, and the clauses that say over which rows it is. -/
def aggregatedPieces (q : Query) (table : String) (function : Aggregate) (column : String) :
    List Piece :=
  .words "SELECT " :: (aggregatePieces q.distinct function column ++
    [.words " FROM ", .name table] ++
    q.joins.flatMap (fun j => [.words (" " ++ j.kind.sql ++ " "), .name j.table] ++ onPieces j) ++
    q.wherePieces ++ q.groupPieces ++ q.havingPieces)

theorem orderPieces_of_orders (h : q.orders = []) : q.orderPieces = q.cursorPieces := by
  rw [orderPieces, orderings, cursorPieces, h]
  cases q.cursor with
  | none => rfl
  | some c => simp [Sql.separated, orderingPieces]

theorem limitPieces_of_unlimited (hlimit : q.limit = none) (hoffset : q.offset = none)
    (d : Dialect) : q.limitPieces d = [.words ""] := by
  rw [limitPieces, hlimit, hoffset]
  cases d <;> rfl

/-- Nothing else orders what is asked for, and no limit is left. -/
theorem readPieces_aggregated {column : String} (h : Name.isAliased column = true)
    (function : Aggregate) (table : String) (d : Dialect) :
    (q.aggregated function column).readPieces table d =
      q.aggregatedPieces table function column ++ q.cursorPieces ++ [.words ""] := by
  rw [aggregated, aggregateOf_of_isAliased h, readPieces, orderPieces_of_orders rfl,
    limitPieces_of_unlimited rfl rfl]
  rfl

theorem render_append_empty (d : Dialect) (pieces : List Piece) :
    Sql.render d (pieces ++ [.words ""]) = Sql.render d pieces := by
  simp [Sql.render, Sql.text_append, Sql.text, Sql.bindings, Piece.text, Piece.bindings]

/-- A query has a statement for an aggregate, unless there is none. -/
theorem toSql_aggregated (function : Aggregate) {column : String} (h : ¬q.LacksAggregate column)
    (d : Dialect) :
    ∃ table, q.table = some table ∧ (q.aggregated function column).toSql d =
      .ok (Sql.render d (q.aggregatedPieces table function column ++ q.cursorPieces)) := by
  have hcolumn : Name.isAliased column = true := by
    by_contra hcolumn
    exact h (.inr (by simpa using hcolumn))
  have hallowed : ¬(q.aggregated function column).Refused :=
    fun hrefused => h (refused_aggregated_iff.mp hrefused)
  obtain ⟨table, htable, hsql⟩ := (refused_or_toSql_eq _ d).resolve_left hallowed
  refine ⟨table, ?_, ?_⟩
  · rw [aggregated, aggregateOf_of_isAliased hcolumn] at htable
    exact htable
  · rw [hsql, readPieces_aggregated hcolumn, render_append_empty]

theorem toSql_aggregated_eq_error (function : Aggregate) {column : String}
    (h : q.LacksAggregate column) (d : Dialect) :
    ∃ e, (q.aggregated function column).toSql d = .error e := by
  cases hsql : (q.aggregated function column).toSql d with
  | error e => exact ⟨e, rfl⟩
  | ok s => exact absurd (refused_aggregated_iff.mpr h) (not_refused_of_toSql hsql)

end Query

namespace QueryRunner

variable {σ : Type}

/-- The aggregate in the rows that come back: the first value, in shape, unless it is `NULL`. -/
def aggregateIn (r : QueryRunner σ) (rows : List Row) : Option Value :=
  ((rows.head?.bind Row.first?).filter fun v => !v.isNull).map r.shape

theorem aggregate_of_error {r : QueryRunner σ} {q : Query} {function : Aggregate}
    {column : String} {e : QueryError}
    (h : (q.aggregated function column).toSql r.executor.dialect = .error e) :
    r.aggregate q function column = throw (.query e) := by
  show (compiled ((q.aggregated function column).toSql r.executor.dialect) >>= _) = _
  rw [h]
  rfl

theorem aggregate_of_ok {r : QueryRunner σ} {q : Query} {function : Aggregate}
    {column : String} {s : Statement}
    (h : (q.aggregated function column).toSql r.executor.dialect = .ok s) :
    r.aggregate q function column = do
      return r.aggregateIn (← r.executor.query s.sql s.bindings) := by
  show (compiled ((q.aggregated function column).toSql r.executor.dialect) >>= _) = _
  rw [h]
  show ((pure s : Action σ Statement) >>= _) = _
  rw [pure_bind, Executor.fetchValue, Executor.fetchRow]
  simp only [bind_assoc, pure_bind]
  rfl

/-- **An aggregate is asked for without an ordering, but for that of a cursor.**  If the query has
no statement for its rows or the column cannot be named, the aggregate fails and nothing is sent.
Otherwise the one thing sent is the aggregate, with the clauses that say over which rows it is and,
if the query has a cursor, an ordering by the cursor's column behind them.  No other ordering, no
limit and no offset is part of it, whatever calls order the query and cut it down: of all they do,
only the cursor is left. -/
theorem aggregate_ordered_by_cursor_alone (r : QueryRunner σ) (q : Query) (function : Aggregate)
    (column : String) :
    (q.LacksAggregate column → ∃ e, r.aggregate q function column = throw (.query e)) ∧
    (¬q.LacksAggregate column → ∃ table, q.table = some table ∧
      let s := Sql.render r.executor.dialect
        (q.aggregatedPieces table function column ++ q.cursorPieces)
      r.aggregate q function column = do
        return r.aggregateIn (← r.executor.query s.sql s.bindings)) ∧
    ∀ calls : List QueryCall, (∀ call ∈ calls, call.arranges = true) →
      let arranged := calls.foldl QueryCall.run q
      r.aggregate arranged function column =
        r.aggregate { q with cursor := arranged.cursor } function column := by
  refine ⟨fun h => ?_, fun h => ?_, fun calls hcalls => ?_⟩
  · obtain ⟨e, he⟩ := Query.toSql_aggregated_eq_error function h r.executor.dialect
    exact ⟨e, aggregate_of_error he⟩
  · obtain ⟨table, htable, hsql⟩ := Query.toSql_aggregated function h r.executor.dialect
    exact ⟨table, htable, aggregate_of_ok hsql⟩
  · have hasked := Query.aggregated_foldl (q := q) hcalls function column
    unfold Query.aggregated at hasked
    simp only [aggregate, hasked]

/-- The total of all orders is asked for in the order of their identifiers, if the query is ordered
by a cursor. -/
theorem total_ordered_by_cursor :
    let r : QueryRunner Mock := { executor := Mock.executor "db" "" .sqlite }
    let q := Query.built [.source "orders", .startAfter "id" .asc none]
    let sql := "SELECT SUM(\"total\") AS \"aggregate\" FROM \"orders\" ORDER BY \"id\" ASC"
    q.error = none ∧
      ((r.aggregate q .sum "total").outcome {}).2.log = [.asked "db" "query" sql [] false] := by
  decide +kernel

end QueryRunner

end Relational
