import Relational.Proofs.Query.Checked
import Relational.Proofs.Sql
/-
The five statements a query can be compiled to, and their pieces.

A dialect decides how pieces are written and how a paging clause looks, and nothing else:
which pieces there are in front of that clause, and whether there is a statement at all,
is the same for every dialect.  The pieces of a query that was built by calls can be
numbered if its raw fragments leave no text open.
-/
namespace Relational

/-- What a query is compiled for. -/
inductive StatementKind where
  | read
  | count
  | insert (rows : List Row)
  | update (assignments : Row)
  | delete

namespace Query

/-- The statement of a kind. -/
def statement (q : Query) : StatementKind → Dialect → Except QueryError Statement
  | .read, d => q.toSql d
  | .count, d => q.toCountSql d
  | .insert rows, d => q.insertSql d rows
  | .update assignments, d => q.updateSql d assignments
  | .delete, d => q.deleteSql d

/-- The pieces of the statement of a kind. -/
def statementPieces (q : Query) : StatementKind → Dialect → Except QueryError (List Piece)
  | .read, d => q.pieces d
  | .count, d => q.countPieces d
  | .insert rows, _ => q.insertPieces rows
  | .update assignments, _ => q.updatePieces assignments
  | .delete, _ => q.deletePieces

theorem statement_eq (q : Query) (k : StatementKind) (d : Dialect) :
    q.statement k d = (q.statementPieces k d).map (Sql.render d) := by
  cases k with
  | read => rfl
  | count => rfl
  | insert rows => rfl
  | update assignments => rfl
  | delete => rfl

/-! ### What dialects have in common -/

/-- The pieces in front of the paging clause. -/
def clausePieces (q : Query) : Except QueryError (List Piece) := do
  let table ← q.validTable
  let joins ← q.joins.mapM joinPieces
  return .words "SELECT " :: (q.selectPieces ++ [.words " FROM ", .name table] ++ joins.flatten ++
    q.wherePieces ++ q.groupPieces ++ q.havingPieces ++ q.orderPieces)

theorem pieces_eq (q : Query) (d : Dialect) :
    q.pieces d = q.clausePieces.map (· ++ q.limitPieces d) := by
  unfold pieces clausePieces
  cases q.validTable with
  | error e => rfl
  | ok table =>
      cases q.joins.mapM joinPieces with
      | error e => rfl
      | ok joins => simp [bind, Except.bind, Except.map, pure, Except.pure]

theorem bindings_limitPieces (q : Query) (d : Dialect) : Sql.bindings (q.limitPieces d) = [] := by
  unfold limitPieces
  rw [Sql.bindings_append]
  split
  · rfl
  · rfl

/-- The same for every dialect: a fault, or pieces with these values. -/
def Agrees (f : Dialect → Except QueryError (List Piece)) : Prop :=
  (∃ e, ∀ d, f d = .error e) ∨ ∃ bindings, ∀ d, ∃ pieces, f d = .ok pieces ∧
    Sql.bindings pieces = bindings

theorem agrees_const (r : Except QueryError (List Piece)) : Agrees fun _ => r := by
  cases r with
  | error e => exact Or.inl ⟨e, fun _ => rfl⟩
  | ok pieces => exact Or.inr ⟨Sql.bindings pieces, fun _ => ⟨pieces, rfl, rfl⟩⟩

theorem Agrees.map {f : Dialect → Except QueryError (List Piece)} (h : Agrees f)
    {g : List Piece → List Piece} (hg : ∀ pieces, Sql.bindings (g pieces) = Sql.bindings pieces) :
    Agrees fun d => (f d).map g := by
  rcases h with ⟨e, he⟩ | ⟨bindings, hbindings⟩
  · refine Or.inl ⟨e, fun d => ?_⟩
    show (f d).map g = _
    rw [he d]
    rfl
  · refine Or.inr ⟨bindings, fun d => ?_⟩
    obtain ⟨pieces, hpieces, hvalues⟩ := hbindings d
    refine ⟨g pieces, ?_, (hg pieces).trans hvalues⟩
    show (f d).map g = _
    rw [hpieces]
    rfl

theorem agrees_pieces (q : Query) : Agrees q.pieces := by
  cases hclauses : q.clausePieces with
  | error e =>
      refine Or.inl ⟨e, fun d => ?_⟩
      rw [pieces_eq, hclauses]
      rfl
  | ok pieces =>
      refine Or.inr ⟨Sql.bindings pieces, fun d => ⟨pieces ++ q.limitPieces d, ?_, ?_⟩⟩
      · rw [pieces_eq, hclauses]
        rfl
      · rw [Sql.bindings_append, bindings_limitPieces, List.append_nil]

/-- Dialects agree on every statement. -/
theorem agrees_statementPieces (q : Query) (k : StatementKind) : Agrees (q.statementPieces k) := by
  cases k with
  | read => exact q.agrees_pieces
  | count =>
      show Agrees q.countPieces
      unfold countPieces
      split
      · refine q.unordered.agrees_pieces.map fun inner => ?_
        rw [Sql.bindings_append, Sql.bindings_append]
        simp [Sql.bindings, Piece.bindings]
      · exact (q.unordered.aggregateOf .count "*").agrees_pieces
  | insert rows => exact agrees_const _
  | update assignments => exact agrees_const _
  | delete => exact agrees_const _

end Query

end Relational
