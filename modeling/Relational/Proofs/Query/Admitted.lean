import Relational.Proofs.Query.Clauses
import Relational.Proofs.Query.Statement
/-
Which rows an update or a delete reaches.

A write is compiled from a query that was built to read rows, and a query can ask for more
than a write can say.  An alias, a join and a paging clause are refused.  The conditions
are written as the read writes them, so they admit the same rows.  A cursor is the place
where a page starts, and a write has no pages: its position is not a condition, and a
write goes past it.
-/
namespace Relational

/-- A write to rows that a query selects. -/
inductive RowWrite where
  | update (assignments : Row)
  | delete

namespace RowWrite

/-- What the query is compiled for. -/
def kind : RowWrite → StatementKind
  | update assignments => .update assignments
  | delete => .delete

/-- The pieces in front of the conditions. -/
def front (table : String) : RowWrite → List Piece
  | update assignments =>
    [.words "UPDATE ", .name table, .words " SET "] ++
      Sql.separated ", "
        (assignments.toList.map fun (column, v) => [.name column, .words " = ", .bound v])
  | delete => [.words "DELETE FROM ", .name table]

end RowWrite

namespace Query

variable {q : Query} {table : String}

/-! ### Queries that can be compiled to a write -/

/-- All rows of one plain table, as far as the conditions admit them. -/
structure IsWritable (q : Query) (table : String) : Prop where
  faultless : q.error = none
  source : q.table = some table
  unaliased : Name.splitAlias? table = none
  unjoined : q.joins = []
  unlimited : q.limit = none
  unskipped : q.offset = none

theorem isWritable_of_writableTable {kind : WriteKind} (h : q.writableTable kind = .ok table) :
    q.IsWritable table := by
  unfold writableTable validTable at h
  rcases herror : q.error with _ | e
  · rcases htable : q.table with _ | found
    · rw [herror, htable] at h
      cases h
    · rw [herror, htable] at h
      change (if _ then _ else if _ then _ else if _ then _ else Except.ok found) = _ at h
      split at h
      · cases h
      · split at h
        · cases h
        · split at h
          · cases h
          · rename_i halias hjoins hpaging
            cases h
            simp only [Bool.or_eq_true, not_or, Bool.not_eq_true, Option.isSome_eq_false_iff,
              Option.isNone_iff_eq_none] at halias hpaging
            exact ⟨herror, htable, halias, by simpa using hjoins, hpaging.1, hpaging.2⟩
  · rw [herror] at h
    cases h

namespace IsWritable

end IsWritable

end Query

end Relational
