import Relational.Proofs.Query.Alike
/-
Statements that differ in nothing but their values.

Alike queries have alike clauses, piece by piece, and alike pieces are one text: a piece takes as
many placeholders as it has values, whatever these are.  So alike queries are refused for the same
fault, or they are compiled to one text, with values that stand in the relation place by place.
-/
namespace Relational

open List (Forall₂)

variable {R : Value → Value → Prop}

/-! ### Pieces -/

/-- Pieces that are alike. -/
inductive Piece.Alike (R : Value → Value → Prop) : Piece → Piece → Prop
  | words (s : String) : Alike R (.words s) (.words s)
  | name (n : String) : Alike R (.name n) (.name n)
  | raw (sql : String) {vs ws : List Value} (h : Forall₂ R vs ws) :
    Alike R (.raw sql vs) (.raw sql ws)
  | bound {v w : Value} (h : R v w) : Alike R (.bound v) (.bound w)

namespace Piece

@[simp] theorem alike_words (s : String) : (words s).Alike R (words s) :=
  .words s

@[simp] theorem alike_name (n : String) : (name n).Alike R (name n) :=
  .name n

@[simp] theorem alike_raw {sql : String} {vs ws : List Value} :
    (raw sql vs).Alike R (raw sql ws) ↔ Forall₂ R vs ws :=
  ⟨fun h => by cases h; assumption, .raw sql⟩

@[simp] theorem alike_bound {v w : Value} : (bound v).Alike R (bound w) ↔ R v w :=
  ⟨fun h => by cases h; assumption, .bound⟩

/-- A piece without values is alike itself. -/
theorem alike_same {p : Piece} (h : p.bindings = []) : p.Alike R p := by
  cases p with
  | words s => exact .words s
  | name n => exact .name n
  | raw sql vs =>
      obtain rfl : vs = [] := h
      exact .raw sql .nil
  | bound v => cases h

end Piece

namespace Sql

/-- Sequences of pieces that are alike. -/
abbrev Alike (R : Value → Value → Prop) : List Piece → List Piece → Prop :=
  Forall₂ (Piece.Alike R)

variable {ps ps' rs rs' : List Piece}

theorem Alike.append (h : Alike R ps ps') (hr : Alike R rs rs') : Alike R (ps ++ rs) (ps' ++ rs') :=
  List.rel_append h hr

theorem alike_same (h : bindings ps = []) : Alike R ps ps := by
  rw [bindings, List.flatMap_eq_nil_iff] at h
  exact List.forall₂_same.mpr fun p hp => Piece.alike_same (h p hp)

theorem separated_alike (separator : String) {parts parts' : List (List Piece)}
    (h : Forall₂ (Alike R) parts parts') :
    Alike R (separated separator parts) (separated separator parts') := by
  unfold separated
  induction h with
  | nil => exact .nil
  | cons hpart hrest ih =>
      cases hrest with
      | nil => simpa using hpart
      | cons hnext hrest =>
          rw [List.intercalate_cons_cons, List.intercalate_cons_cons]
          exact (hpart.append (alike_same rfl)).append ih

/-- The values of a list, one placeholder each. -/
theorem values_alike {vs ws : List Value} (h : Forall₂ R vs ws) :
    Alike R (separated ", " (vs.map fun v => [.bound v]))
      (separated ", " (ws.map fun v => [.bound v])) := by
  refine separated_alike ", " (List.rel_map (fun v w hv => ?_) h)
  exact .cons (.bound hv) .nil

/-- Names, which have no values. -/
theorem names_alike (names : List String) :
    Alike R (separated ", " (names.map fun n => [.name n]))
      (separated ", " (names.map fun n => [.name n])) := by
  refine separated_alike ", " (List.forall₂_same.mpr fun part hpart => ?_)
  obtain ⟨n, -, rfl⟩ := List.mem_map.mp hpart
  exact .cons (.name n) .nil

theorem bindings_alike (h : Alike R ps ps') : Forall₂ R (bindings ps) (bindings ps') := by
  refine List.rel_flatMap h fun p p' hp => ?_
  cases hp with
  | words => exact .nil
  | name => exact .nil
  | raw sql hvs => exact hvs
  | bound hv => exact .cons hv .nil

/-- The text tells how many values there are, and nothing else of them. -/
theorem text_alike (d : Dialect) (count : Nat) (h : Alike R ps ps') :
    text d count ps = text d count ps' := by
  induction h generalizing count with
  | nil => rfl
  | cons hp hrest ih =>
      rw [text, text, ih]
      cases hp with
      | words => rfl
      | name => rfl
      | raw sql hvs => rw [Piece.bindings, Piece.bindings, hvs.length_eq, Piece.text, Piece.text]
      | bound hv => rfl

end Sql

open Sql (alike_same separated_alike values_alike names_alike)

/-! ### Conditions -/

theorem Leaf.pieces_alike {l l' : Leaf} (h : l.Alike R l') : Sql.Alike R l.pieces l'.pieces := by
  cases h with
  | compare column comparison h => simp [pieces, h]
  | member column negated h =>
      cases h with
      | nil => cases negated <;> simp [pieces]
      | cons hv hvs =>
          have hbound := values_alike (.cons hv hvs)
          cases negated with
          | false => exact (((alike_same rfl).append hbound).append (alike_same rfl))
          | true => exact (((alike_same rfl).append hbound).append (alike_same rfl))
  | range column negated hlow hhigh => simp [pieces, hlow, hhigh]
  | columns => simp [pieces]
  | null => simp [pieces]
  | raw sql h => simp [pieces, h]

theorem Token.pieces_alike (shared : Bool) {t t' : Token} (h : t.Alike R t') :
    Sql.Alike R (t.pieces shared) (t'.pieces shared) := by
  cases h with
  | leaf h =>
      cases h with
      | raw sql h => cases shared <;> simp [pieces, h]
      | compare column comparison h => exact Leaf.pieces_alike (.compare column comparison h)
      | member column negated h => exact Leaf.pieces_alike (.member column negated h)
      | range column negated hlow hhigh =>
          exact Leaf.pieces_alike (.range column negated hlow hhigh)
      | columns => exact Leaf.pieces_alike (.columns _ _ _)
      | null => exact Leaf.pieces_alike (.null _ _)
  | connector => simp [pieces]
  | groupOpen => simp [pieces]
  | groupClose => simp [pieces]

theorem Token.isLeaf_alike {t t' : Token} (h : t.Alike R t') : t.isLeaf = t'.isLeaf := by
  cases h with
  | leaf => rfl
  | connector => rfl
  | groupOpen => rfl
  | groupClose => rfl

namespace Conditions.Alike

variable {c c' : Conditions}

theorem isShared_eq (h : c.Alike R c') : c.isShared = c'.isShared := by
  have hcount : ∀ {ts ts' : List Token}, Forall₂ (Token.Alike R) ts ts' →
      ts.countP Token.isLeaf = ts'.countP Token.isLeaf := by
    intro ts ts' hts
    induction hts with
    | nil => rfl
    | cons ht hrest ih => rw [List.countP_cons, List.countP_cons, ih, Token.isLeaf_alike ht]
  rw [isShared, isShared, hcount h.tokens]

theorem pieces (h : c.Alike R c') : Sql.Alike R c.pieces c'.pieces := by
  rw [Conditions.pieces, Conditions.pieces, h.isShared_eq]
  exact List.rel_flatMap h.tokens fun t t' ht => Token.pieces_alike _ ht

end Conditions.Alike

/-! ### Clauses -/

namespace Query

theorem selectionPieces_alike {s s' : Selection} (h : s.Alike R s') :
    Sql.Alike R (selectionPieces s) (selectionPieces s') := by
  cases h with
  | column => simp [selectionPieces]
  | raw sql h => simp [selectionPieces, h]

theorem orderingPieces_alike {o o' : Ordering} (h : o.Alike R o') :
    Sql.Alike R (orderingPieces o) (orderingPieces o') := by
  cases h with
  | column => simp [orderingPieces]
  | raw sql h => simp [orderingPieces, h]

theorem ordersBy_alike (column : String) {o o' : Ordering} (h : o.Alike R o') :
    ordersBy column o = ordersBy column o' := by
  cases h with
  | column => rfl
  | raw => rfl

theorem bindings_aggregatePieces (distinct : Bool) (function : Aggregate) (column : String) :
    Sql.bindings (aggregatePieces distinct function column) = [] := by
  unfold aggregatePieces
  split
  · rfl
  · split
    · rfl
    · rfl

theorem joinPieces_alike {j j' : Join} (h : j.Alike R j') :
    Both (Sql.Alike R) (joinPieces j) (joinPieces j') := by
  unfold joinPieces
  rw [h.kind, h.table, h.conditions.isEmpty_eq]
  split
  · exact .error _
  · refine .ok (.append (alike_same rfl) ?_)
    split
    · exact .nil
    · exact .cons (.words _) h.conditions.pieces

namespace Alike

variable {q q' : Query}

theorem selectPieces (h : q.Alike R q') : Sql.Alike R q.selectPieces q'.selectPieces := by
  unfold Query.selectPieces
  rw [h.aggregate, h.distinct, isEmpty_eq_of_forall₂ h.selections]
  split
  · exact alike_same (bindings_aggregatePieces _ _ _)
  · refine .append ?_ ?_
    · split <;> exact alike_same rfl
    · split
      · exact alike_same rfl
      · refine separated_alike ", " (List.rel_map ?_ h.selections)
        exact fun _ _ hs => selectionPieces_alike hs

theorem filterPieces (h : q.Alike R q') : Sql.Alike R q.filterPieces q'.filterPieces := by
  unfold Query.filterPieces
  rw [h.filters.isEmpty_eq]
  split
  · exact .nil
  · exact .cons (.words _) h.filters.pieces

theorem bound? (h : q.Alike R q') :
    Option.Rel (fun b b' => b.1.Alike R b'.1 ∧ R b.2 b'.2) q.bound? q'.bound? := by
  unfold Query.bound?
  have hcursor := h.cursor
  generalize q.cursor = cursor, q'.cursor = cursor' at hcursor ⊢
  cases hcursor with
  | none => exact .none
  | some hc =>
      rename_i c c'
      have hafter := hc.after
      rw [Option.bind_some, Option.bind_some]
      generalize c.after = v, c'.after = v' at hafter ⊢
      cases hafter with
      | none => exact .none
      | some hv => exact .some ⟨hc, hv⟩

theorem wherePieces (h : q.Alike R q') : Sql.Alike R q.wherePieces q'.wherePieces := by
  unfold Query.wherePieces
  have hbound := h.bound?
  generalize q.bound? = b, q'.bound? = b' at hbound ⊢
  cases hbound with
  | none => exact h.filterPieces
  | some hb =>
      obtain ⟨hcursor, hv⟩ := hb
      dsimp only
      rw [h.filters.isEmpty_eq, hcursor.column, hcursor.direction]
      refine .append (.append (alike_same rfl) ?_) ?_
      · split
        · exact .nil
        · exact .append (.append (alike_same rfl) h.filters.pieces) (alike_same rfl)
      · simp [hv]

theorem groupPieces (h : q.Alike R q') : Sql.Alike R q.groupPieces q'.groupPieces := by
  unfold Query.groupPieces
  rw [h.groups]
  split
  · exact .nil
  · exact .cons (.words _) (names_alike _)

theorem havingPieces (h : q.Alike R q') : Sql.Alike R q.havingPieces q'.havingPieces := by
  unfold Query.havingPieces
  rw [h.havings.isEmpty_eq]
  split
  · exact .nil
  · exact .cons (.words _) h.havings.pieces

theorem orderings (h : q.Alike R q') : Forall₂ (Ordering.Alike R) q.orderings q'.orderings := by
  unfold Query.orderings
  have hcursor := h.cursor
  generalize q.cursor = cursor, q'.cursor = cursor' at hcursor ⊢
  cases hcursor with
  | none => exact h.orders
  | some hc =>
      dsimp only
      rw [hc.column, hc.direction]
      refine .cons (.column _ _) (List.rel_filter (fun o o' ho => ?_) h.orders)
      show (!_) = true ↔ (!_) = true
      rw [ordersBy_alike _ ho]

theorem orderPieces (h : q.Alike R q') : Sql.Alike R q.orderPieces q'.orderPieces := by
  unfold Query.orderPieces
  rw [isEmpty_eq_of_forall₂ h.orderings]
  split
  · exact .nil
  · refine .cons (.words _) (separated_alike ", " (List.rel_map ?_ h.orderings))
    exact fun _ _ ho => orderingPieces_alike ho

theorem limitPieces (h : q.Alike R q') (d : Dialect) :
    Sql.Alike R (q.limitPieces d) (q'.limitPieces d) := by
  have hsame : q.limitPieces d = q'.limitPieces d := by
    unfold Query.limitPieces
    rw [h.limit, h.offset, isEmpty_eq_of_forall₂ h.orderings]
  rw [hsame]
  exact alike_same (bindings_limitPieces q' d)

/-! ### Statements -/

theorem error_eq (h : q.Alike R q') : q.error = q'.error := by
  have hjoins : ∀ {js js' : List Join}, Forall₂ (Join.Alike R) js js' →
      js.findSome? (·.conditions.error) = js'.findSome? (·.conditions.error) := by
    intro js js' hjs
    induction hjs with
    | nil => rfl
    | cons hj hrest ih => rw [List.findSome?_cons, List.findSome?_cons, hj.conditions.error, ih]
  rw [Query.error, Query.error, h.fault, h.filters.error, h.havings.error, hjoins h.joins]

theorem validTable_eq (h : q.Alike R q') : q.validTable = q'.validTable := by
  unfold Query.validTable
  rw [h.error_eq, h.table]

theorem pieces (h : q.Alike R q') (d : Dialect) :
    Both (Sql.Alike R) (q.pieces d) (q'.pieces d) := by
  unfold Query.pieces
  rw [h.validTable_eq]
  refine .after _ fun table => ?_
  refine (Both.mapM (fun _ _ hj => joinPieces_alike hj) h.joins).bind fun joins joins' hjoins => ?_
  refine .ok (.cons (.words _) ?_)
  exact ((((((h.selectPieces.append (alike_same rfl)).append (List.rel_flatten hjoins)).append
    h.wherePieces).append h.groupPieces).append h.havingPieces).append h.orderPieces).append
    (h.limitPieces d)

/-- Counting drops the cursor, and its value with it. -/
theorem unordered (h : q.Alike R q') : q.unordered.Alike R q'.unordered :=
  { h.reorder.withoutLimits with cursor := .none }

theorem countPieces (h : q.Alike R q') (d : Dialect) :
    Both (Sql.Alike R) (q.countPieces d) (q'.countPieces d) := by
  have hfolded : q.unordered.isFolded = q'.unordered.isFolded := by
    rw [isFolded, isFolded, h.unordered.distinct, h.unordered.groups]
  unfold Query.countPieces
  rw [hfolded]
  split
  · refine (h.unordered.pieces d).map fun ps ps' hps => ?_
    exact .append (.append (alike_same rfl) hps) (alike_same rfl)
  · exact (h.unordered.aggregateOf .count "*").pieces d

theorem writableTable_eq (h : q.Alike R q') (kind : WriteKind) :
    q.writableTable kind = q'.writableTable kind := by
  unfold Query.writableTable
  rw [h.validTable_eq, isEmpty_eq_of_forall₂ h.joins, h.limit, h.offset]

theorem deletePieces (h : q.Alike R q') : Both (Sql.Alike R) q.deletePieces q'.deletePieces := by
  unfold Query.deletePieces
  rw [h.writableTable_eq]
  exact .after _ fun table => .ok (.append (alike_same rfl) h.filterPieces)

end Alike

end Query

/-- Rows that are alike: the same columns in the same order. -/
def Row.Alike (R : Value → Value → Prop) (row row' : Row) : Prop :=
  Forall₂ (fun e e' => e.1 = e'.1 ∧ R e.2 e'.2) row.entries row'.entries

namespace Row.Alike

variable {row row' : Row}

theorem columns_eq (h : row.Alike R row') : row.columns = row'.columns := by
  unfold Row.Alike at h
  unfold columns
  generalize row.entries = es, row'.entries = es' at h ⊢
  induction h with
  | nil => rfl
  | cons he hrest ih => rw [List.map_cons, List.map_cons, he.1, ih]

theorem get? (h : row.Alike R row') (column : String) :
    Option.Rel R (row.get? column) (row'.get? column) := by
  unfold Row.Alike at h
  unfold Row.get?
  generalize row.entries = es, row'.entries = es' at h ⊢
  induction h with
  | nil => exact .none
  | cons he hrest ih =>
      rw [List.lookup_cons, List.lookup_cons, he.1]
      split
      · exact .some he.2
      · exact ih

end Row.Alike

namespace Query

theorem valueIn_alike (n : Nat) {row row' : Row} (h : row.Alike R row') (column : String) :
    Both R (valueIn n row column) (valueIn n row' column) := by
  unfold valueIn
  have hvalue := h.get? column
  generalize row.get? column = v, row'.get? column = v' at hvalue ⊢
  cases hvalue with
  | none => exact .error _
  | some hv => exact .ok hv

theorem groupPiecesOf_alike (columns : List String) (n : Nat) {row row' : Row}
    (h : row.Alike R row') :
    Both (Sql.Alike R) (groupPiecesOf columns n row) (groupPiecesOf columns n row') := by
  unfold groupPiecesOf
  rw [Row.size, Row.size, List.Forall₂.length_eq h]
  split
  · exact .error _
  · have hcolumns : Forall₂ Eq columns columns := List.forall₂_same.mpr fun _ _ => rfl
    have hvalues : Both (Forall₂ R) (columns.mapM (valueIn n row))
        (columns.mapM (valueIn n row')) :=
      .mapM (fun c c' hc => hc ▸ valueIn_alike n h c) hcolumns
    refine hvalues.bind fun vs ws hvs => ?_
    exact .ok (.append (.append (alike_same rfl) (values_alike hvs)) (alike_same rfl))

theorem valueGroups_alike (columns : List String) (n : Nat) {rows rows' : List Row}
    (h : Forall₂ (Row.Alike R) rows rows') :
    Both (Forall₂ (Sql.Alike R)) (valueGroups columns n rows) (valueGroups columns n rows') := by
  induction h generalizing n with
  | nil => exact .ok .nil
  | cons hrow hrest ih =>
      refine (groupPiecesOf_alike columns n hrow).bind fun ps ps' hps => ?_
      exact (ih (n + 1)).bind fun groups groups' hgroups => .ok (.cons hps hgroups)

namespace Alike

variable {q q' : Query}

theorem insertPieces (h : q.Alike R q') {rows rows' : List Row}
    (hrows : Forall₂ (Row.Alike R) rows rows') :
    Both (Sql.Alike R) (q.insertPieces rows) (q'.insertPieces rows') := by
  unfold Query.insertPieces
  rw [h.writableTable_eq]
  refine .after _ fun table => ?_
  have hgroups := fun columns => valueGroups_alike columns 0 hrows
  cases hrows with
  | nil => exact .error _
  | cons hfirst hrest =>
      dsimp only
      rw [hfirst.columns_eq]
      split
      · exact .error _
      · refine .after _ fun _ => (hgroups _).bind fun groups groups' hgs => .ok ?_
        exact (((alike_same rfl).append (names_alike _)).append (alike_same rfl)).append
          (separated_alike ", " hgs)

theorem updatePieces (h : q.Alike R q') {row row' : Row} (hrow : row.Alike R row') :
    Both (Sql.Alike R) (q.updatePieces row) (q'.updatePieces row') := by
  unfold Query.updatePieces
  rw [h.writableTable_eq, hrow.columns_eq]
  refine .after _ fun table => ?_
  split
  · exact .error _
  · refine .after _ fun _ => .ok (.append (.append (alike_same rfl) ?_) h.filterPieces)
    refine separated_alike ", " (List.rel_map (fun e e' he => ?_) hrow)
    simp [he.1, he.2]

end Alike

end Query

/-- Statements of a kind that are alike. -/
inductive StatementKind.Alike (R : Value → Value → Prop) : StatementKind → StatementKind → Prop
  | read : Alike R .read .read
  | count : Alike R .count .count
  | insert {rows rows' : List Row} (h : Forall₂ (Row.Alike R) rows rows') :
    Alike R (.insert rows) (.insert rows')
  | update {row row' : Row} (h : row.Alike R row') : Alike R (.update row) (.update row')
  | delete : Alike R .delete .delete

/-- Statements that are alike: one text, and values that stand in the relation place by place. -/
structure Statement.Alike (R : Value → Value → Prop) (s s' : Statement) : Prop where
  sql : s.sql = s'.sql
  bindings : Forall₂ R s.bindings s'.bindings

/-- Alike queries are compiled to alike statements. -/
theorem Query.Alike.statement {q q' : Query} (h : q.Alike R q') {k k' : StatementKind}
    (hk : k.Alike R k') (d : Dialect) :
    Both (Statement.Alike R) (q.statement k d) (q'.statement k' d) := by
  have hpieces : Both (Sql.Alike R) (q.statementPieces k d) (q'.statementPieces k' d) := by
    cases hk with
    | read => exact h.pieces d
    | count => exact h.countPieces d
    | insert hrows => exact h.insertPieces hrows
    | update hrow => exact h.updatePieces hrow
    | delete => exact h.deletePieces
  rw [statement_eq, statement_eq]
  exact hpieces.map fun ps ps' hps => ⟨Sql.text_alike d 0 hps, Sql.bindings_alike hps⟩

end Relational
