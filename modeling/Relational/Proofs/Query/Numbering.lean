import Relational.Proofs.Decimal.Digits
import Relational.Proofs.Query.Statement
/-
The n-th placeholder belongs to the n-th value.

Values come from select lists, joins, conditions, groups, orderings and cursors, and each
of these writes its own pieces.  It is enough that every piece that can come up is `Fit`:
then the whole statement is numbered from left to right, whatever it is put together from.
-/
namespace Relational

open Marker (Silent Even)

/-! ### Every piece can be numbered -/

theorem Piece.fit_column {column : String} (h : Name.isColumn column = true) :
    (Piece.name column).Fit :=
  fun d => d.silent_quoteName (Name.silent_of_isColumn h)

theorem Piece.fit_aliased {name : String} (h : Name.isAliased name = true) :
    (Piece.name name).Fit :=
  fun d => d.silent_of_isAliased h

theorem Piece.fit_raw {sql : String} {bindings : List Value} (h : Even sql)
    (hcount : Marker.count sql = bindings.length) : (Piece.raw sql bindings).Fit :=
  ⟨h.quotedAfter_eq, hcount⟩

theorem Comparison.silent_sql (c : Comparison) : Silent (" " ++ c.sql ++ " ").toList := by
  cases c <;> decide

/-- Values in a row, with commas between them. -/
theorem Sql.fit_values (values : List Value) :
    Sql.Fit (Sql.separated ", " (values.map fun v => [.bound v])) := by
  refine Sql.Fit.separated (by decide) fun part hpart => ?_
  obtain ⟨v, -, rfl⟩ := List.mem_map.mp hpart
  exact .cons trivial .nil

theorem Leaf.fit_pieces {l : Leaf} (h : l.Checked Even) : Sql.Fit l.pieces := by
  cases l with
  | compare column comparison v =>
      exact .cons (Piece.fit_column h.1) (.cons comparison.silent_sql (.cons trivial .nil))
  | member column negated values =>
      have hwords : ∀ negated, Silent (" " ++ Operator.memberSql negated ++ " (").toList := by
        decide
      unfold Leaf.pieces
      split
      · cases ‹_ = _›
      · exact .cons (by decide : Silent "1 = 0".toList) .nil
      · exact .cons (by decide : Silent "1 = 1".toList) .nil
      · rename_i hmember
        cases hmember
        refine Sql.Fit.append (.append ?_ (Sql.fit_values _)) (.cons (by decide : Silent ")".toList) .nil)
        exact .cons (Piece.fit_column h) (.cons (hwords _) .nil)
      all_goals cases ‹_ = _›
  | range column negated low high =>
      have hwords : ∀ negated, Silent (" " ++ Operator.rangeSql negated ++ " ").toList := by
        decide
      exact .cons (Piece.fit_column h) (.cons (hwords negated) (.cons trivial
        (.cons (by decide : Silent " AND ".toList) (.cons trivial .nil))))
  | columns first comparison second =>
      exact .cons (Piece.fit_column h.1) (.cons comparison.silent_sql
        (.cons (Piece.fit_column h.2) .nil))
  | null column negated =>
      have hwords : ∀ negated : Bool, Silent (if negated then " IS NOT NULL" else " IS NULL").toList := by
        decide
      exact .cons (Piece.fit_column h) (.cons (hwords negated) .nil)
  | raw sql bindings => exact .cons (Piece.fit_raw h.2.2 h.2.1) .nil

theorem Token.fit_pieces {t : Token} (ht : ∀ l, t = .leaf l → l.Checked Even) (shared : Bool) :
    Sql.Fit (t.pieces shared) := by
  have hopening : Silent "(".toList := by decide
  have hclosing : Silent ")".toList := by decide
  cases t with
  | leaf l =>
      have hl := (ht l rfl)
      cases l with
      | raw sql bindings =>
          have hraw := Piece.fit_raw hl.2.2 hl.2.1
          cases shared with
          | true => exact .cons hopening (.cons hraw (.cons hclosing .nil))
          | false => exact .cons hraw .nil
      | _ => exact Leaf.fit_pieces hl
  | connector c => cases c <;> exact .cons (by decide : Silent _) .nil
  | groupOpen => exact .cons hopening .nil
  | groupClose => exact .cons hclosing .nil

theorem Conditions.Reached.fit_pieces {c : Conditions} (h : c.Reached Even) :
    Sql.Fit c.pieces :=
  Sql.Fit.flatMap fun _ ht => Token.fit_pieces (fun _ hl => h.checked_leaf (hl ▸ ht)) _

namespace Query.Checked

variable {q : Query}

theorem fit_selectPieces (h : q.Checked Even) : Sql.Fit q.selectPieces := by
  unfold selectPieces
  split
  · rename_i function column haggregate
    have hfunction : Silent (function.sql ++ "(").toList := by
      cases function <;> decide
    have hargument : Sql.Fit (if column == "*" then [Piece.words "*"]
        else if q.distinct then [.words "DISTINCT ", .name column] else [.name column]) := by
      by_cases hstar : column = "*"
      · rw [if_pos (by simpa using hstar)]
        exact .cons (by decide : Silent "*".toList) .nil
      · rw [if_neg (by simpa using hstar)]
        have hcolumn := Piece.fit_aliased ((h.aggregate function column haggregate).resolve_left hstar)
        split
        · exact .cons (by decide : Silent "DISTINCT ".toList) (.cons hcolumn .nil)
        · exact .cons hcolumn .nil
    refine .append (.append (.cons hfunction .nil) hargument) ?_
    exact .cons (by decide : Silent ") AS ".toList) (.cons (Piece.fit_aliased (by decide +kernel)) .nil)
  · refine .append ?_ ?_
    · split
      · exact .cons (by decide : Silent "DISTINCT ".toList) .nil
      · exact .nil
    · split
      · exact .cons (by decide : Silent "*".toList) .nil
      · refine .separated (by decide) fun part hpart => ?_
        obtain ⟨s, hs, rfl⟩ := List.mem_map.mp hpart
        have hchecked := h.selections s hs
        cases s with
        | column name => exact .cons (Piece.fit_aliased hchecked) .nil
        | raw sql bindings => exact .cons (Piece.fit_raw hchecked.2 hchecked.1) .nil

theorem fit_joinPieces {j : Join} (htable : Name.isAliased j.table = true)
    (hconditions : j.conditions.Reached Even) {pieces : List Piece}
    (hpieces : joinPieces j = .ok pieces) : Sql.Fit pieces := by
  have hkind : Silent (" " ++ j.kind.sql ++ " ").toList := by
    cases j.kind <;> decide
  unfold joinPieces at hpieces
  split at hpieces
  · cases hpieces
  · cases hpieces
    refine .append (.cons hkind (.cons (Piece.fit_aliased htable) .nil)) ?_
    split
    · exact .nil
    · exact .cons (by decide : Silent " ON ".toList) hconditions.fit_pieces

theorem fit_joins (h : q.Checked Even) {pieces : List (List Piece)}
    (hpieces : q.joins.mapM joinPieces = .ok pieces) : Sql.Fit pieces.flatten := by
  have hjoins := h.joins
  generalize q.joins = joins at hpieces hjoins
  induction joins generalizing pieces with
  | nil =>
      cases hpieces
      exact .nil
  | cons j rest ih =>
      rw [List.mapM_cons] at hpieces
      cases hj : joinPieces j with
      | error e =>
          rw [hj] at hpieces
          cases hpieces
      | ok first =>
          cases hrest : rest.mapM joinPieces with
          | error e =>
              rw [hj, hrest] at hpieces
              cases hpieces
          | ok others =>
              rw [hj, hrest] at hpieces
              cases hpieces
              obtain ⟨htable, hconditions⟩ := hjoins j (by simp)
              exact .append (fit_joinPieces htable hconditions hj)
                (ih hrest fun x hx => hjoins x (by simp [hx]))

theorem fit_filterPieces (h : q.Checked Even) : Sql.Fit q.filterPieces := by
  unfold filterPieces
  split
  · exact .nil
  · exact .cons (by decide : Silent " WHERE ".toList) h.filters.fit_pieces

theorem fit_wherePieces (h : q.Checked Even) : Sql.Fit q.wherePieces := by
  unfold wherePieces
  split
  · exact h.fit_filterPieces
  · rename_i cursor v hbound
    have hcursor : q.cursor = some cursor := by
      obtain ⟨c, hc, hv⟩ := Option.bind_eq_some_iff.mp hbound
      obtain ⟨w, -, hpair⟩ := Option.map_eq_some_iff.mp hv
      cases hpair
      exact hc
    refine .append (.append (.cons (by decide : Silent " WHERE ".toList) .nil) ?_) ?_
    · split
      · exact .nil
      · exact .append (.append (.cons (by decide : Silent "(".toList) .nil) h.filters.fit_pieces)
          (.cons (by decide : Silent ") AND ".toList) .nil)
    · exact .cons (Piece.fit_aliased (h.cursor cursor hcursor))
        (.cons cursor.direction.past.silent_sql (.cons trivial .nil))

theorem fit_groupPieces (h : q.Checked Even) : Sql.Fit q.groupPieces := by
  unfold groupPieces
  split
  · exact .nil
  · refine .cons (by decide : Silent " GROUP BY ".toList) (.separated (by decide) fun part hpart => ?_)
    obtain ⟨g, hg, rfl⟩ := List.mem_map.mp hpart
    exact .cons (Piece.fit_aliased (h.groups g hg)) .nil

theorem fit_havingPieces (h : q.Checked Even) : Sql.Fit q.havingPieces := by
  unfold havingPieces
  split
  · exact .nil
  · exact .cons (by decide : Silent " HAVING ".toList) h.havings.fit_pieces

theorem checked_orderings (h : q.Checked Even) : ∀ o ∈ q.orderings, o.Checked Even := by
  unfold orderings
  split
  · exact h.orders
  · rename_i c hc
    intro o ho
    rcases List.mem_cons.mp ho with rfl | ho
    · exact h.cursor c hc
    · exact h.orders o (List.mem_filter.mp ho).1

theorem fit_orderPieces (h : q.Checked Even) : Sql.Fit q.orderPieces := by
  unfold orderPieces
  split
  · exact .nil
  · refine .cons (by decide : Silent " ORDER BY ".toList) (.separated (by decide) fun part hpart => ?_)
    obtain ⟨o, ho, rfl⟩ := List.mem_map.mp hpart
    have hchecked := h.checked_orderings o ho
    cases o with
    | column name direction =>
        have hdirection : Silent (" " ++ direction.sql).toList := by
          cases direction <;> decide
        exact .cons (Piece.fit_aliased hchecked) (.cons hdirection .nil)
    | raw sql bindings => exact .cons (Piece.fit_raw hchecked.2 hchecked.1) .nil

end Query.Checked

/-! ### Whole statements -/

theorem silent_number (n : UInt64) : Silent (toString n).toList := by
  show Silent (toString n.toNat).toList
  rw [Nat.toString_eq_repr, Nat.toList_repr]
  intro c hc
  have hdigit := Decimal.isDigit_of_mem_digitsOf hc
  constructor
  · rintro rfl
    exact absurd hdigit (by decide)
  · rintro rfl
    exact absurd hdigit (by decide)

theorem Dialect.silent_limitOffset (d : Dialect) (limit offset : Option UInt64) :
    Silent (d.limitOffset limit offset).toList := by
  have hlimit : Silent " LIMIT ".toList ∧ Silent " OFFSET ".toList ∧ Silent " ROWS".toList ∧
      Silent " FETCH NEXT ".toList ∧ Silent " ROWS ONLY".toList ∧
      Silent " LIMIT -1 OFFSET ".toList ∧ Silent " LIMIT 18446744073709551615 OFFSET ".toList := by
    decide
  obtain ⟨h1, h2, h3, h4, h5, h6, h7⟩ := hlimit
  unfold limitOffset
  split
  · exact .nil
  · simp only [String.toList_append]
    refine ((h2.append (silent_number _)).append h3).append ?_
    split
    · simp only [String.toList_append]
      exact (h4.append (silent_number _)).append h5
    · exact .nil
  · simp only [String.toList_append]
    exact ((h1.append (silent_number _)).append h2).append (silent_number _)
  · simp only [String.toList_append]
    exact h1.append (silent_number _)
  · simp only [String.toList_append]
    exact h6.append (silent_number _)
  · simp only [String.toList_append]
    exact h7.append (silent_number _)
  · simp only [String.toList_append]
    exact h2.append (silent_number _)

namespace Query

variable {q : Query}

theorem fit_limitPieces (q : Query) (d : Dialect) : Sql.Fit (q.limitPieces d) := by
  unfold limitPieces
  refine .append ?_ (.cons (d.silent_limitOffset _ _) .nil)
  split
  · exact .cons (by decide : Silent " ORDER BY (SELECT NULL)".toList) .nil
  · exact .nil

theorem table_of_validTable {table : String} (h : q.validTable = .ok table) :
    q.table = some table := by
  unfold validTable at h
  split at h
  · cases h
  · cases h
  · cases h
    assumption

theorem table_of_writableTable {kind : WriteKind} {table : String}
    (h : q.writableTable kind = .ok table) : q.table = some table := by
  unfold writableTable at h
  cases hvalid : q.validTable with
  | error e =>
      rw [hvalid] at h
      cases h
  | ok found =>
      rw [hvalid] at h
      change (if _ then _ else if _ then _ else if _ then _ else Except.ok found) = _ at h
      split at h
      · cases h
      · split at h
        · cases h
        · split at h
          · cases h
          · cases h
            exact table_of_validTable hvalid

theorem isColumn_of_checkColumns {clause : Clause} {columns : List String} {done : Unit}
    (h : checkColumns clause columns = .ok done) : ∀ c ∈ columns, Name.isColumn c = true := by
  induction columns with
  | nil => simp
  | cons column rest ih =>
      obtain ⟨hcolumn, hrest⟩ := Conditions.isColumn_of_bind h
      intro c hc
      rcases List.mem_cons.mp hc with rfl | hc
      · exact hcolumn
      · exact ih hrest c hc

theorem fit_groupPiecesOf {columns : List String} {n : Nat} {row : Row} {pieces : List Piece}
    (h : groupPiecesOf columns n row = .ok pieces) : Sql.Fit pieces := by
  unfold groupPiecesOf at h
  split at h
  · cases h
  · cases hvalues : columns.mapM (valueIn n row) with
    | error e =>
        rw [hvalues] at h
        cases h
    | ok values =>
        rw [hvalues] at h
        cases h
        exact .append (.append (.cons (by decide : Silent "(".toList) .nil) (Sql.fit_values values))
          (.cons (by decide : Silent ")".toList) .nil)

theorem fit_valueGroups {columns : List String} {n : Nat} {rows : List Row}
    {groups : List (List Piece)} (h : valueGroups columns n rows = .ok groups) :
    ∀ group ∈ groups, Sql.Fit group := by
  induction rows generalizing n groups with
  | nil =>
      cases h
      simp
  | cons row rest ih =>
      unfold valueGroups at h
      cases hfirst : groupPiecesOf columns n row with
      | error e =>
          rw [hfirst] at h
          cases h
      | ok first =>
          cases hothers : valueGroups columns (n + 1) rest with
          | error e =>
              rw [hfirst, hothers] at h
              cases h
          | ok others =>
              rw [hfirst, hothers] at h
              cases h
              intro group hgroup
              rcases List.mem_cons.mp hgroup with rfl | hgroup
              · exact fit_groupPiecesOf hfirst
              · exact ih hothers group hgroup

namespace Checked

theorem fit_table (h : q.Checked Even) {table : String} (htable : q.table = some table) :
    (Piece.name table).Fit :=
  Piece.fit_aliased (h.table table htable).1

theorem fit_pieces (h : q.Checked Even) {d : Dialect} {pieces : List Piece}
    (hpieces : q.pieces d = .ok pieces) : Sql.Fit pieces := by
  rw [pieces_eq] at hpieces
  unfold clausePieces at hpieces
  cases hvalid : q.validTable with
  | error e =>
      rw [hvalid] at hpieces
      cases hpieces
  | ok table =>
      cases hjoins : q.joins.mapM joinPieces with
      | error e =>
          rw [hvalid, hjoins] at hpieces
          cases hpieces
      | ok joins =>
          rw [hvalid, hjoins] at hpieces
          cases hpieces
          have hname := h.fit_table (table_of_validTable hvalid)
          refine .append (.cons (by decide : Silent "SELECT ".toList) ?_) (q.fit_limitPieces d)
          have hfrom : Sql.Fit [Piece.words " FROM ", .name table] :=
            .cons (by decide : Silent " FROM ".toList) (.cons hname .nil)
          exact (((((h.fit_selectPieces.append hfrom).append (h.fit_joins hjoins)).append
            h.fit_wherePieces).append h.fit_groupPieces).append h.fit_havingPieces).append
            h.fit_orderPieces

theorem unordered (h : q.Checked Even) : q.unordered.Checked Even :=
  { h.reorder.withoutLimits with cursor := fun _ hc => nomatch hc }

theorem fit_countPieces (h : q.Checked Even) {d : Dialect} {pieces : List Piece}
    (hpieces : q.countPieces d = .ok pieces) : Sql.Fit pieces := by
  unfold countPieces at hpieces
  split at hpieces
  · cases hinner : q.unordered.pieces d with
    | error e =>
        rw [hinner] at hpieces
        cases hpieces
    | ok inner =>
        rw [hinner] at hpieces
        cases hpieces
        have hfront : Sql.Fit [Piece.words "SELECT COUNT(*) AS ", .name aggregateName, .words " FROM ("] :=
          .cons (by decide : Silent "SELECT COUNT(*) AS ".toList)
            (.cons (Piece.fit_aliased (by decide +kernel)) (.cons (by decide : Silent " FROM (".toList) .nil))
        have hback : Sql.Fit [Piece.words ") AS ", .name aggregateTable] :=
          .cons (by decide : Silent ") AS ".toList) (.cons (Piece.fit_aliased (by decide +kernel)) .nil)
        exact (hfront.append (h.unordered.fit_pieces hinner)).append hback
  · exact (h.unordered.aggregateOf .count "*").fit_pieces hpieces

theorem fit_deletePieces (h : q.Checked Even) {pieces : List Piece}
    (hpieces : q.deletePieces = .ok pieces) : Sql.Fit pieces := by
  unfold deletePieces at hpieces
  cases htable : q.writableTable .delete with
  | error e =>
      rw [htable] at hpieces
      cases hpieces
  | ok table =>
      rw [htable] at hpieces
      cases hpieces
      exact .cons (by decide : Silent "DELETE FROM ".toList)
        (.cons (h.fit_table (table_of_writableTable htable)) h.fit_filterPieces)

theorem fit_updatePieces (h : q.Checked Even) {assignments : Row} {pieces : List Piece}
    (hpieces : q.updatePieces assignments = .ok pieces) : Sql.Fit pieces := by
  unfold updatePieces at hpieces
  cases htable : q.writableTable .update with
  | error e =>
      rw [htable] at hpieces
      cases hpieces
  | ok table =>
      rw [htable] at hpieces
      change (if _ then _ else _) = _ at hpieces
      split at hpieces
      · cases hpieces
      · cases hcolumns : checkColumns .update assignments.columns with
        | error e =>
            rw [hcolumns] at hpieces
            cases hpieces
        | ok done =>
            rw [hcolumns] at hpieces
            cases hpieces
            have hname := h.fit_table (table_of_writableTable htable)
            refine .append (.append ?_ (.separated (by decide) fun part hpart => ?_)) h.fit_filterPieces
            · exact .cons (by decide : Silent "UPDATE ".toList)
                (.cons hname (.cons (by decide : Silent " SET ".toList) .nil))
            · obtain ⟨⟨column, v⟩, hmem, rfl⟩ := List.mem_map.mp hpart
              have hcolumn := isColumn_of_checkColumns hcolumns column
                (List.mem_map.mpr ⟨_, hmem, rfl⟩)
              exact .cons (Piece.fit_column hcolumn)
                (.cons (by decide : Silent " = ".toList) (.cons trivial .nil))

theorem fit_insertPieces (h : q.Checked Even) {rows : List Row} {pieces : List Piece}
    (hpieces : q.insertPieces rows = .ok pieces) : Sql.Fit pieces := by
  unfold insertPieces at hpieces
  cases htable : q.writableTable .insert with
  | error e =>
      rw [htable] at hpieces
      cases hpieces
  | ok table =>
      rw [htable] at hpieces
      cases rows with
      | nil => cases hpieces
      | cons first rest =>
          change (if _ then _ else _) = _ at hpieces
          split at hpieces
          · cases hpieces
          · cases hcolumns : checkColumns .insert first.columns with
            | error e =>
                rw [hcolumns] at hpieces
                cases hpieces
            | ok done =>
                cases hgroups : valueGroups first.columns 0 (first :: rest) with
                | error e =>
                    rw [hcolumns, hgroups] at hpieces
                    cases hpieces
                | ok groups =>
                    rw [hcolumns, hgroups] at hpieces
                    cases hpieces
                    have hname := h.fit_table (table_of_writableTable htable)
                    refine .append (.append (.append ?_ (.separated (by decide) fun part hpart => ?_))
                      (.cons (by decide : Silent ") VALUES ".toList) .nil))
                      (.separated (by decide) (fit_valueGroups hgroups))
                    · exact .cons (by decide : Silent "INSERT INTO ".toList)
                        (.cons hname (.cons (by decide : Silent " (".toList) .nil))
                    · obtain ⟨column, hmem, rfl⟩ := List.mem_map.mp hpart
                      exact .cons (Piece.fit_column (isColumn_of_checkColumns hcolumns column hmem))
                        .nil

/-- Whatever a checked query is compiled to, its pieces can be numbered. -/
theorem fit_statementPieces (h : q.Checked Even) {k : StatementKind} {d : Dialect}
    {pieces : List Piece} (hpieces : q.statementPieces k d = .ok pieces) : Sql.Fit pieces := by
  cases k with
  | read => exact h.fit_pieces hpieces
  | count => exact h.fit_countPieces hpieces
  | insert rows => exact h.fit_insertPieces hpieces
  | update assignments => exact h.fit_updatePieces hpieces
  | delete => exact h.fit_deletePieces hpieces

end Checked

end Query

end Relational
