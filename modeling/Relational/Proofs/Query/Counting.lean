import Mathlib.Control.Monad.Basic
import Relational.Proofs.Query.Call
import Relational.Query.Select
/-
Counting looks past the order and the extent.

How the rows are ordered, which of them are asked for and where they start after does not
change how many match.  A call that says something of these only changes what counting drops
before anything is compiled, so after any number of them the same statement is compiled.  That
statement is the one that reads the rows without them, counted in one of two ways: in place of
the select list, or through a derived table if a result row may stand for several rows.  The
values of a raw select expression go with its text: they are gone in the first way and stay,
in front of all others, in the second.
-/
namespace Relational

/-! ### Calls that arrange -/

/-- Whether the call orders the rows or cuts the result down, with a name or a fragment that is
accepted. -/
def QueryCall.arranges : QueryCall → Bool
  | orderBy column _ => Name.isAliased column
  | orderByRaw sql bindings => Marker.count sql == bindings.length
  | startAfter column _ _ => Name.isAliased column
  | reorder | take _ | skip _ | withoutLimits => true
  | _ => false

/-- Between pieces without values, pieces are rendered as they are by themselves. -/
theorem Sql.render_between {front back : List Piece} (hfront : bindings front = [])
    (hback : bindings back = []) (d : Dialect) (inner : List Piece) :
    render d (front ++ inner ++ back) =
      ⟨text d 0 front ++ (render d inner).sql ++ text d (bindings inner).length back,
        (render d inner).bindings⟩ := by
  have hinner : bindings (front ++ inner) = bindings inner := by
    rw [bindings_append, hfront, List.nil_append]
  have hall : bindings (front ++ inner ++ back) = bindings inner := by
    rw [bindings_append, hinner, hback, List.append_nil]
  rw [render, hall, text_append, text_append, hinner, hfront, List.length_nil, Nat.add_zero,
    Nat.zero_add]
  rfl

namespace Query

variable {q : Query}

/-- The query without its ordering, limit, offset and cursor. -/
def unarranged (q : Query) : Query :=
  { q with orders := [], limit := none, offset := none, cursor := none }

theorem unarranged_run {call : QueryCall} (h : call.arranges = true) :
    (call.run q).unarranged = q.unarranged := by
  cases call with
  | orderBy column direction =>
      have hname : Name.isAliased column = true := h
      rw [QueryCall.run, orderBy, whenAliased, if_pos hname]
      rfl
  | orderByRaw sql bindings =>
      have hbalanced : Marker.count sql = bindings.length := beq_iff_eq.mp h
      rw [QueryCall.run, orderByRaw, whenBalanced, if_pos hbalanced]
      rfl
  | startAfter column direction after =>
      have hname : Name.isAliased column = true := h
      rw [QueryCall.run, startAfter, whenAliased, if_pos hname]
      rfl
  | reorder => rfl
  | take n => rfl
  | skip n => rfl
  | withoutLimits => rfl
  | _ => cases h

/-- Whatever is arranged, the rest of the query stays as it was. -/
theorem unarranged_foldl {calls : List QueryCall} (h : ∀ call ∈ calls, call.arranges = true) :
    (calls.foldl QueryCall.run q).unarranged = q.unarranged := by
  induction calls generalizing q with
  | nil => rfl
  | cons call rest ih =>
      rw [List.foldl_cons, ih fun c hc => h c (by simp [hc]), unarranged_run (h call (by simp))]

/-- Faults are no part of the arrangement. -/
theorem error_unarranged (q : Query) : q.unarranged.error = q.error :=
  rfl

theorem isFolded_unarranged (q : Query) : q.unarranged.isFolded = q.isFolded :=
  rfl

/-! ### The two ways to count -/

/-- The clauses behind the select list. -/
def restPieces (q : Query) (d : Dialect) : Except QueryError (List Piece) := do
  let table ← q.validTable
  let joins ← q.joins.mapM joinPieces
  return [.words " FROM ", .name table] ++ joins.flatten ++ q.wherePieces ++ q.groupPieces ++
    q.havingPieces ++ q.orderPieces ++ q.limitPieces d

/-- A statement that reads what is selected from the rest of a query. -/
def reading (d : Dialect) (selected rest : List Piece) : Statement :=
  Sql.render d (.words "SELECT " :: (selected ++ rest))

/-- The statement that counts the rows of another, which it wraps. -/
def countingRowsOf (d : Dialect) (inner : Statement) : Statement :=
  { sql := "SELECT COUNT(*) AS " ++ d.quoteName aggregateName ++ " FROM (" ++ inner.sql ++
      ") AS " ++ d.quoteName aggregateTable
    bindings := inner.bindings }

theorem toSql_eq_reading (q : Query) (d : Dialect) :
    q.toSql d = (q.restPieces d).map (reading d q.selectPieces) := by
  unfold toSql pieces restPieces
  cases q.validTable with
  | error e => rfl
  | ok table =>
      cases q.joins.mapM joinPieces with
      | error e => rfl
      | ok joins => simp [bind, Except.bind, Except.map, pure, Except.pure, reading]

/-- The number of rows, in place of a select list. -/
def rowCount : List Piece :=
  [.words "COUNT(*) AS ", .name aggregateName]

/-- The query whose select list is the number of rows. -/
def rowsCounted (q : Query) : Query :=
  { q with aggregate := some (.count, "*") }

theorem reading_rowsCounted (q : Query) (d : Dialect) (rest : List Piece) :
    reading d q.rowsCounted.selectPieces rest = reading d rowCount rest := by
  have hwords : ∀ x, "COUNT(" ++ ("*" ++ (") AS " ++ x)) = "COUNT(*) AS " ++ x := by
    intro x
    rw [← String.append_assoc, ← String.append_assoc]
    rfl
  simp [reading, Sql.render, Sql.text, Sql.bindings, Piece.text, Piece.bindings, rowsCounted,
    selectPieces, aggregatePieces, rowCount, Aggregate.sql, hwords]

theorem toSql_rowsCounted (q : Query) (d : Dialect) :
    q.rowsCounted.toSql d = (q.restPieces d).map (reading d rowCount) := by
  have hrest : q.rowsCounted.restPieces d = q.restPieces d := rfl
  rw [toSql_eq_reading, hrest]
  exact congrArg (Except.map · _) (funext (reading_rowsCounted q d))

theorem toCountSql_of_not_isFolded (h : q.isFolded = false) (d : Dialect) :
    q.toCountSql d = q.unarranged.rowsCounted.toSql d := by
  have hfolded : q.unordered.isFolded = false := h
  have hcounted : q.unordered.aggregateOf .count "*" = q.unarranged.rowsCounted :=
    if_pos (by decide)
  rw [toCountSql, countPieces, if_neg (by simp [hfolded]), hcounted, toSql]

/-- No value stands in front of the statement that is wrapped, so it is numbered from one on. -/
theorem render_wrapped (d : Dialect) (inner : List Piece) :
    Sql.render d ([.words "SELECT COUNT(*) AS ", .name aggregateName, .words " FROM ("] ++ inner ++
      [.words ") AS ", .name aggregateTable]) = countingRowsOf d (Sql.render d inner) := by
  refine (Sql.render_between rfl rfl d inner).trans (congrArg (Statement.mk · _) ?_)
  simp only [Sql.text, Piece.text, String.append_empty, String.append_assoc]

theorem toCountSql_of_isFolded (h : q.isFolded = true) (d : Dialect) :
    q.toCountSql d = (q.unarranged.toSql d).map (countingRowsOf d) := by
  have hfolded : q.unordered.isFolded = true := h
  have hbare : q.unordered = q.unarranged := rfl
  rw [toCountSql, countPieces, if_pos hfolded, hbare, toSql]
  cases q.unarranged.pieces d with
  | error e => simp only [Except.map]
  | ok inner => simp only [Except.map, render_wrapped]

theorem toCountSql_congr {q' : Query} (h : q'.unarranged = q.unarranged) (d : Dialect) :
    q'.toCountSql d = q.toCountSql d := by
  have hfolded : q'.isFolded = q.isFolded := by
    rw [← isFolded_unarranged q', h, isFolded_unarranged]
  cases hq : q.isFolded with
  | false => rw [toCountSql_of_not_isFolded hq, toCountSql_of_not_isFolded (hfolded.trans hq), h]
  | true => rw [toCountSql_of_isFolded hq, toCountSql_of_isFolded (hfolded.trans hq), h]

/-! ### Every arrangement is counted alike -/

/-- **Counting looks past the arrangement.**  Whatever accepted calls order the rows of a query
without a fault, cut them down or start behind one of them, it stays without a fault and is
counted by the same statement.  If no result row stands for several rows, this is the statement
that reads the query without its arrangement, with the number of rows in place of the select list
and all else as it is.  Otherwise it wraps that statement, with its text and its values
unchanged. -/
theorem count_of_any_arrangement (q : Query) (hq : q.error = none) (calls : List QueryCall)
    (hcalls : ∀ call ∈ calls, call.arranges = true) (d : Dialect) :
    let arranged := calls.foldl QueryCall.run q
    arranged.error = none ∧ arranged.toCountSql d = q.toCountSql d ∧
      (q.isFolded = false →
        q.toCountSql d = q.unarranged.rowsCounted.toSql d ∧
        q.unarranged.toSql d = (q.unarranged.restPieces d).map (reading d q.selectPieces) ∧
        q.toCountSql d = (q.unarranged.restPieces d).map (reading d rowCount)) ∧
      (q.isFolded = true → q.toCountSql d = (q.unarranged.toSql d).map (countingRowsOf d)) := by
  intro arranged
  have hbare : arranged.unarranged = q.unarranged := unarranged_foldl hcalls
  refine ⟨?_, toCountSql_congr hbare d, fun h => ?_, fun h => toCountSql_of_isFolded h d⟩
  · rw [← error_unarranged, hbare]
    exact hq
  · have hcount := toCountSql_of_not_isFolded h d
    exact ⟨hcount, toSql_eq_reading q.unarranged d, hcount.trans (toSql_rowsCounted _ d)⟩

/-- A page of grouped rows, ordered by an expression with a value and behind a cursor: the values
of both are gone from the count, that of the selected expression is not. -/
theorem grouped_page_counted :
    let q := built [.source "posts", .selectRaw "price * ? AS gross" [.int 2],
      .filtered (.filter .and "published" (.value (.bool true))), .groupBy ["author_id"]]
    let calls : List QueryCall := [.orderByRaw "position(? in title)" [.text "a"],
      .startAfter "id" .desc (some (.int 10)), .take 10, .skip 5]
    let count : Statement := {
      sql := "SELECT COUNT(*) AS \"aggregate\" FROM (SELECT price * $1 AS gross FROM \"posts\" " ++
        "WHERE \"published\" = $2 GROUP BY \"author_id\") AS \"aggregate_table\""
      bindings := [.int 2, .bool true] }
    q.error = none ∧ (∀ call ∈ calls, call.arranges = true) ∧ q.isFolded = true ∧
      (calls.foldl QueryCall.run q).error = none ∧
      (calls.foldl QueryCall.run q).toCountSql .postgres = .ok count := by
  intro q calls count
  have herror : q.error = none := by decide +kernel
  have hcalls : ∀ call ∈ calls, call.arranges = true := by decide +kernel
  have hfolded : q.isFolded = true := by decide +kernel
  obtain ⟨hvalid, hcount, -, hwrapped⟩ := count_of_any_arrangement q herror calls hcalls .postgres
  refine ⟨herror, hcalls, hfolded, hvalid, (hcount.trans (hwrapped hfolded)).trans ?_⟩
  decide +kernel

end Query

end Relational
