import Relational.Paging.Cursor
import Relational.Query.Write
import Relational.Session.Executor
/-
Running queries, and bringing their results into shape.
-/
namespace Relational

/-- Runs queries. -/
structure QueryRunner (σ : Type) where
  executor : Executor σ
  /-- Whether text that looks like a number is read as one. -/
  normalizeNumeric : Bool := false

namespace QueryRunner

variable {σ : Type}

/-- A finished statement, or the query's error. -/
def compiled {α : Type} (statement : Except QueryError α) : Action σ α :=
  Action.ofExcept .query statement

/-! ### Reading -/

/-- The rows of a query. -/
def get (r : QueryRunner σ) (q : Query) : Action σ (List Row) := do
  let s ← compiled (q.toSql r.executor.dialect)
  let rows ← r.executor.query s.sql s.bindings
  return if r.normalizeNumeric then rows.map Row.normalized else rows

/-- The first row of a query. -/
def first (r : QueryRunner σ) (q : Query) : Action σ (Option Row) := do
  return (← r.get (q.take 1)).head?

/-- A column of the first row. -/
def value (r : QueryRunner σ) (q : Query) (column : String) : Action σ (Option Value) := do
  return (← r.first (q.select [column])).bind Row.first?

/-- Whether a query has a row. -/
def hasRows (r : QueryRunner σ) (q : Query) : Action σ Bool := do
  return (← r.first q).isSome

/-- An aggregate over all rows of a query, whatever part of them it was limited to. -/
def aggregate (r : QueryRunner σ) (q : Query) (function : Aggregate) (column : String) :
    Action σ (Option Value) := do
  let s ← compiled ((q.reorder.withoutLimits.aggregateOf function column).toSql r.executor.dialect)
  let v ← r.executor.fetchValue s
  return (v.filter fun v => !v.isNull).map fun v => if r.normalizeNumeric then v.normalized else v

/-- The number a count came back as. -/
def countOf : Option Value → UInt64
  | some (.int n) => if 0 ≤ n then n.toUInt64 else 0
  | some (.text s) =>
    match Decimal.unsigned? UInt64.size (Text.trim s.toList) with
    | some n => UInt64.ofNat n
    | none => 0
  | _ => 0

/-- Number of rows of a query. -/
def count (r : QueryRunner σ) (q : Query) : Action σ UInt64 := do
  let s ← compiled (q.toCountSql r.executor.dialect)
  return countOf (← r.executor.fetchValue s)

/-! ### Writing -/

/-- Inserts rows into the query's table. -/
def insert (r : QueryRunner σ) (q : Query) (rows : List Row) : Action σ UInt64 := do
  let s ← compiled (q.insertSql r.executor.dialect rows)
  r.executor.execute s.sql s.bindings

/-- Sets columns in the query's rows. -/
def update (r : QueryRunner σ) (q : Query) (values : Row) : Action σ UInt64 := do
  let s ← compiled (q.updateSql r.executor.dialect values)
  r.executor.execute s.sql s.bindings

/-- Deletes the query's rows. -/
def delete (r : QueryRunner σ) (q : Query) : Action σ UInt64 := do
  let s ← compiled (q.deleteSql r.executor.dialect)
  r.executor.execute s.sql s.bindings

/-! ### Pages -/

/-- One page of a query, by number. -/
def page (r : QueryRunner σ) (q : Query) (pager : OffsetPager) : Action σ OffsetPage := do
  let total ← r.count q
  let items ← r.get (pager.apply q)
  return pager.pageOf items total

/-- One page of a query, by cursor. -/
def pageAfter (r : QueryRunner σ) (q : Query) (pager : CursorPager) (token : Option String) :
    Action σ CursorPage := do
  let q ← Action.ofExcept .paging (pager.apply q token)
  let rows ← r.get q
  Action.ofExcept .paging (pager.pageOf rows)

end QueryRunner

end Relational
