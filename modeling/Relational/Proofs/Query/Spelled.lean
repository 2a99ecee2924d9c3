import Relational.Proofs.Query.Clauses
import Relational.Proofs.Query.Numbering
import Relational.Proofs.Unquoted
/-
Statements and the names in them.

A query without raw fragments has no star in its values and in the words of its clauses.  So the
clauses leave a star outside quotes exactly if one of their names has a wildcard segment.
-/
namespace Relational

/-! ### Pieces with names -/

/-- In any place of a statement the pieces leave this outside quotes. -/
def Sql.Leaves (d : Dialect) (pieces : List Piece) (left : List Char) : Prop :=
  ∀ count, d.Leaves (Sql.text d count pieces).toList left

namespace Sql.Leaves

variable {d : Dialect} {pieces others : List Piece} {left left' : List Char}

theorem nil : Sql.Leaves d [] [] :=
  fun _ => .nil

theorem append (h : Sql.Leaves d pieces left) (h' : Sql.Leaves d others left') :
    Sql.Leaves d (pieces ++ others) (left ++ left') := by
  intro count
  rw [Sql.text_append, String.toList_append]
  exact (h count).append (h' _)

theorem words (s : String) (h : Dialect.AllPlain s.toList) :
    Sql.Leaves d [.words s] s.toList := by
  intro count
  rw [Sql.text, Sql.text, String.append_empty]
  exact .plain h

theorem star : Sql.Leaves d [.words "*"] ['*'] := by
  have hstar : "*".toList = ['*'] := by decide
  rw [← hstar]
  exact .words "*" (by decide)

theorem name (n : String) : Sql.Leaves d [.name n] (Name.bare n) := by
  intro count
  rw [Sql.text, Sql.text, String.append_empty]
  exact Dialect.leaves_quoteName n

/-- Names with commas between them. -/
theorem names {ns : List String} :
    Sql.Leaves d (Sql.separated ", " (ns.map fun n => [.name n]))
      (List.intercalate ", ".toList (ns.map Name.bare)) := by
  induction ns with
  | nil => exact .nil
  | cons n ns ih =>
      cases ns with
      | nil => simpa [Sql.separated] using name n
      | cons next ns =>
          have hcomma : Sql.Leaves d [.words ", "] ", ".toList := .words _ (by decide)
          simp only [Sql.separated, List.map_cons, List.intercalate_cons_cons] at ih ⊢
          exact ((name n).append hcomma).append ih

end Sql.Leaves

/-- In any place of a statement the pieces leave a star outside quotes exactly if one of these names
is wild. -/
def Sql.Spells (d : Dialect) (pieces : List Piece) (names : List String) : Prop :=
  ∀ count, ∃ left, d.Leaves (Sql.text d count pieces).toList left ∧
    ('*' ∈ left ↔ ∃ n ∈ names, Name.IsWild n)

namespace Sql.Spells

variable {d : Dialect} {pieces others : List Piece} {names more : List String}

theorem nil : Sql.Spells d [] [] :=
  fun _ => ⟨[], .nil, by simp⟩

theorem append (h : Sql.Spells d pieces names) (h' : Sql.Spells d others more) :
    Sql.Spells d (pieces ++ others) (names ++ more) := by
  intro count
  obtain ⟨left, hleaves, hstar⟩ := h count
  obtain ⟨left', hleaves', hstar'⟩ := h' (count + (Sql.bindings pieces).length)
  refine ⟨left ++ left', ?_, ?_⟩
  · rw [Sql.text_append, String.toList_append]
    exact hleaves.append hleaves'
  · simp only [List.mem_append, hstar, hstar', or_and_right, exists_or]

theorem words (s : String) (h : Dialect.AllTame s.toList) :
    Sql.Spells d [.words s] [] := by
  have hleaves : Sql.Leaves d [.words s] s.toList := .words s fun c hc => (h c hc).2
  exact fun count => ⟨_, hleaves count, by simpa using Dialect.star_not_mem_of_tame h⟩

theorem name (n : String) : Sql.Spells d [.name n] [n] :=
  fun count => ⟨_, Sql.Leaves.name n count, by simpa using Name.star_mem_bare⟩

theorem bound (v : Value) : Sql.Spells d [.bound v] [] := by
  intro count
  have htame : Dialect.AllTame (d.placeholder (count + 1)).toList := by
    have hnumber := Dialect.allTame_number (count + 1)
    cases d with
    | sqlite => exact (by decide : Dialect.AllTame "?".toList)
    | mysql => exact (by decide : Dialect.AllTame "?".toList)
    | postgres =>
        rw [Dialect.placeholder, String.toList_append]
        exact .append (by decide) hnumber
    | sqlServer =>
        rw [Dialect.placeholder, String.toList_append]
        exact .append (by decide) hnumber
  refine ⟨_, ?_, by simpa using Dialect.star_not_mem_of_tame htame⟩
  rw [Sql.text, Sql.text, String.append_empty]
  exact .tame htame

theorem flatMap {α : Type} {f : α → List Piece} {g : α → List String} {as : List α}
    (h : ∀ a ∈ as, Sql.Spells d (f a) (g a)) : Sql.Spells d (as.flatMap f) (as.flatMap g) := by
  induction as with
  | nil => exact .nil
  | cons a as ih =>
      rw [List.flatMap_cons, List.flatMap_cons]
      exact (h a List.mem_cons_self).append (ih fun x hx => h x (List.mem_cons_of_mem a hx))

theorem separated {separator : String} (hseparator : Dialect.AllTame separator.toList)
    {α : Type} {f : α → List Piece} {g : α → List String} {as : List α}
    (h : ∀ a ∈ as, Sql.Spells d (f a) (g a)) :
    Sql.Spells d (Sql.separated separator (as.map f)) (as.flatMap g) := by
  induction as with
  | nil => exact .nil
  | cons a as ih =>
      cases as with
      | nil => simpa [Sql.separated] using h a List.mem_cons_self
      | cons b as =>
          have hrest := ih fun x hx => h x (List.mem_cons_of_mem a hx)
          have hfirst := ((h a List.mem_cons_self).append (words _ hseparator)).append hrest
          rw [List.append_nil] at hfirst
          simpa [Sql.separated, List.intercalate_cons_cons] using hfirst

/-- Values with commas between them have no names. -/
theorem values (vs : List Value) :
    Sql.Spells d (Sql.separated ", " (vs.map fun v => [.bound v])) [] := by
  have h : Sql.Spells d (Sql.separated ", " (vs.map fun v => [.bound v])) (vs.flatMap fun _ => []) :=
    separated (by decide) fun v _ => bound v
  rwa [List.flatMap_eq_nil_iff.mpr fun _ _ => rfl] at h

end Sql.Spells

/-! ### Names of clauses -/

/-- The names of a condition; membership in no values has none. -/
def Leaf.names : Leaf → List String
  | compare column _ _ => [column]
  | member _ _ [] => []
  | member column _ _ => [column]
  | range column _ _ _ => [column]
  | columns first _ second => [first, second]
  | null column _ => [column]
  | raw .. => []

/-- The names of a condition that a token is. -/
def Token.names : Token → List String
  | leaf l => l.names
  | connector _ | groupOpen | groupClose => []

/-- The names of a sequence of conditions. -/
def Conditions.names (c : Conditions) : List String :=
  c.tokens.flatMap Token.names

/-- The names of a join: the table, then those of its conditions. -/
def Join.names (j : Join) : List String :=
  j.table :: j.conditions.names

/-- The name of an entry of the ordering. -/
def Ordering.names : Ordering → List String
  | column name _ => [name]
  | raw .. => []

/-- No raw fragment is given. -/
def NoText (_ : String) : Prop :=
  False

/-! ### Pieces of clauses -/

open Sql (Spells)

variable {d : Dialect}

theorem Comparison.tame_sql (c : Comparison) :
    Dialect.AllTame (" " ++ c.sql ++ " ").toList := by
  cases c <;> decide

theorem Leaf.spells {l : Leaf} (h : l.Checked NoText) : Spells d l.pieces l.names := by
  cases l with
  | compare column comparison v =>
      exact (Spells.name column).append ((Spells.words _ comparison.tame_sql).append (.bound v))
  | member column negated values =>
      cases values with
      | nil =>
          cases negated with
          | false => exact .words _ (by decide)
          | true => exact .words _ (by decide)
      | cons v vs =>
          have hwords : ∀ negated, Dialect.AllTame (" " ++ Operator.memberSql negated ++ " (").toList := by
            decide
          have hwhole := (((Spells.name (d := d) column).append (.words _ (hwords negated))).append
            (.values (v :: vs))).append (.words ")" (by decide))
          cases negated with
          | false => exact hwhole
          | true => exact hwhole
  | range column negated low high =>
      have hwords : ∀ negated, Dialect.AllTame (" " ++ Operator.rangeSql negated ++ " ").toList := by
        decide
      exact (Spells.name column).append ((Spells.words _ (hwords negated)).append
        ((Spells.bound low).append ((Spells.words _ (by decide)).append (.bound high))))
  | columns first comparison second =>
      exact (Spells.name first).append ((Spells.words _ comparison.tame_sql).append (.name second))
  | null column negated =>
      have hwords : ∀ negated : Bool,
          Dialect.AllTame (if negated then " IS NOT NULL" else " IS NULL").toList := by
        decide
      exact (Spells.name column).append (.words _ (hwords negated))
  | raw sql bindings => exact h.2.2.elim

theorem Token.spells {t : Token} (ht : ∀ l, t = .leaf l → l.Checked NoText) (shared : Bool) :
    Spells d (t.pieces shared) t.names := by
  cases t with
  | leaf l =>
      have hl := ht l rfl
      have hpieces : (leaf l).pieces shared = l.pieces := by
        cases l with
        | raw sql bindings => exact hl.2.2.elim
        | _ => rfl
      rw [hpieces]
      exact Leaf.spells hl
  | connector c =>
      have hconnector : Dialect.AllTame c.sql.toList := by
        cases c <;> decide
      exact .words _ hconnector
  | groupOpen => exact .words "(" (by decide)
  | groupClose => exact .words ")" (by decide)

theorem Conditions.Reached.spells {c : Conditions} (h : c.Reached NoText) :
    Spells d c.pieces c.names :=
  .flatMap fun _ ht => Token.spells (fun _ hl => h.checked_leaf (hl ▸ ht)) _

/-- A clause of conditions, if there are any. -/
theorem Conditions.Reached.spells_clause {c : Conditions} (h : c.Reached NoText) {keyword : String}
    (hkeyword : Dialect.AllTame keyword.toList) :
    Spells d (if c.isEmpty then [] else .words keyword :: c.pieces) c.names := by
  by_cases hempty : c.isEmpty = true
  · rw [if_pos hempty, Conditions.names, List.isEmpty_iff.mp hempty]
    exact .nil
  · rw [if_neg hempty]
    exact (Spells.words _ hkeyword).append h.spells

theorem Dialect.tame_limitOffset (d : Dialect) (limit offset : Option UInt64) :
    Dialect.AllTame (d.limitOffset limit offset).toList := by
  have hnumber : ∀ n : UInt64, AllTame (toString n).toList := fun n => allTame_number n.toNat
  have hbehind : ∀ {words : String}, AllTame words.toList → ∀ n : UInt64,
      AllTame (words ++ toString n).toList := fun hwords n => by
    rw [String.toList_append]
    exact hwords.append (hnumber n)
  unfold limitOffset
  split
  · decide
  · simp only [String.toList_append]
    refine (((by decide : AllTame " OFFSET ".toList).append (hnumber _)).append (by decide)).append ?_
    split
    · simp only [String.toList_append]
      exact ((by decide : AllTame " FETCH NEXT ".toList).append (hnumber _)).append (by decide)
    · decide
  · simp only [String.toList_append]
    exact (((by decide : AllTame " LIMIT ".toList).append (hnumber _)).append (by decide)).append
      (hnumber _)
  · exact hbehind (by decide) _
  · exact hbehind (by decide) _
  · exact hbehind (by decide) _
  · exact hbehind (by decide) _

namespace Query

variable {q : Query}

/-- The names behind the select list of the statement that reads, in their order. -/
def namesBehind (q : Query) : List String :=
  q.table.toList ++ q.joins.flatMap Join.names ++ q.filters.names ++
    (q.bound?.map (·.1.column)).toList ++ q.groups ++ q.havings.names ++
    q.orderings.flatMap Ordering.names

namespace Checked

theorem spells_join (h : q.Checked NoText) {j : Join} (hj : j ∈ q.joins) :
    Spells d ([.words (" " ++ j.kind.sql ++ " "), .name j.table] ++ onPieces j) j.names := by
  have hkind : Dialect.AllTame (" " ++ j.kind.sql ++ " ").toList := by
    cases j.kind <;> decide
  exact ((Spells.words _ hkind).append (.name j.table)).append
    ((h.joins j hj).2.spells_clause (by decide))

theorem spells_filterPieces (h : q.Checked NoText) : Spells d q.filterPieces q.filters.names :=
  h.filters.spells_clause (by decide)

theorem spells_wherePieces (h : q.Checked NoText) :
    Spells d q.wherePieces (q.filters.names ++ (q.bound?.map (·.1.column)).toList) := by
  unfold wherePieces
  split
  · rename_i hbound
    rw [hbound, Option.map_none, Option.toList_none, List.append_nil]
    exact h.spells_filterPieces
  · rename_i cursor v hbound
    rw [hbound]
    have hpast : Spells d [.name cursor.column, .words (" " ++ cursor.direction.past.sql ++ " "),
        .bound v] [cursor.column] :=
      (Spells.name cursor.column).append
        ((Spells.words _ cursor.direction.past.tame_sql).append (.bound v))
    have hwhere : Spells d [.words " WHERE "] [] := .words _ (by decide)
    by_cases hempty : q.filters.isEmpty = true
    · rw [if_pos hempty, Conditions.names, List.isEmpty_iff.mp hempty]
      exact (hwhere.append .nil).append hpast
    · rw [if_neg hempty]
      have hopening : Spells d [.words "("] [] := .words _ (by decide)
      have hclosing : Spells d [.words ") AND "] [] := .words _ (by decide)
      have hfilters := (hopening.append h.filters.spells).append hclosing
      rw [List.nil_append, List.append_nil] at hfilters
      exact (hwhere.append hfilters).append hpast

theorem spells_groupPieces (q : Query) : Spells d q.groupPieces q.groups := by
  unfold groupPieces
  split
  · rename_i hempty
    rw [List.isEmpty_iff.mp hempty]
    exact .nil
  · have hgroups : Spells d (Sql.separated ", " (q.groups.map fun g => [.name g]))
        (q.groups.flatMap fun g => [g]) :=
      .separated (by decide) fun g _ => .name g
    rw [List.flatMap_singleton'] at hgroups
    exact (Spells.words _ (by decide)).append hgroups

theorem spells_orderPieces (h : q.Checked NoText) :
    Spells d q.orderPieces (q.orderings.flatMap Ordering.names) := by
  have hchecked : ∀ o ∈ q.orderings, o.Checked NoText := by
    unfold orderings
    split
    · exact h.orders
    · rename_i c hc
      refine List.forall_mem_cons.mpr ⟨h.cursor c hc, fun o ho => ?_⟩
      exact h.orders o (List.mem_filter.mp ho).1
  unfold orderPieces
  split
  · rename_i hempty
    rw [List.isEmpty_iff.mp hempty]
    exact .nil
  · refine (Spells.words _ (by decide)).append (.separated (by decide) fun o ho => ?_)
    cases o with
    | column name direction =>
        have hdirection : Dialect.AllTame (" " ++ direction.sql).toList := by
          cases direction <;> decide
        exact (Spells.name name).append (.words _ hdirection)
    | raw sql bindings => exact (hchecked _ ho).2.elim

end Checked

theorem spells_limitPieces (q : Query) (d : Dialect) : Spells d (q.limitPieces d) [] := by
  unfold limitPieces
  have hlimit : Spells d [.words (d.limitOffset q.limit q.offset)] [] :=
    .words _ (d.tame_limitOffset q.limit q.offset)
  refine Spells.append (?_ : Spells d _ []) hlimit
  split
  · exact .words _ (by decide)
  · exact .nil

/-- What stands behind the select list. -/
def behindPieces (q : Query) (table : String) (d : Dialect) : List Piece :=
  [.name table] ++
    q.joins.flatMap (fun j => [.words (" " ++ j.kind.sql ++ " "), .name j.table] ++ onPieces j) ++
    q.wherePieces ++ q.groupPieces ++ q.havingPieces ++ q.orderPieces ++ q.limitPieces d

theorem Checked.spells_behind (h : q.Checked NoText) {table : String} (htable : q.table = some table) :
    Spells d (q.behindPieces table d) q.namesBehind := by
  have hjoins : Spells d (q.joins.flatMap fun j =>
      [.words (" " ++ j.kind.sql ++ " "), .name j.table] ++ onPieces j) (q.joins.flatMap Join.names) :=
    .flatMap fun j hj => h.spells_join hj
  have hhavings : Spells d q.havingPieces q.havings.names :=
    h.havings.spells_clause (by decide)
  have hwhole := ((((((Spells.name (d := d) table).append hjoins).append
    h.spells_wherePieces).append (spells_groupPieces q)).append hhavings).append
    h.spells_orderPieces).append (q.spells_limitPieces d)
  rw [List.append_nil, ← List.append_assoc] at hwhole
  rw [namesBehind, htable]
  exact hwhole

/-! ### Statements that write -/

/-- The names of a statement besides those of its select list. -/
def namesIn (q : Query) : StatementKind → List String
  | .read | .count => q.namesBehind
  | .insert rows => q.table.toList ++ rows.head?.toList.flatMap Row.columns
  | .update assignments => q.table.toList ++ assignments.columns ++ q.filters.names
  | .delete => q.table.toList ++ q.filters.names

theorem spells_groupPiecesOf {columns : List String} {n : Nat} {row : Row} {pieces : List Piece}
    (h : groupPiecesOf columns n row = .ok pieces) : Spells d pieces [] := by
  unfold groupPiecesOf at h
  split at h
  · cases h
  · obtain ⟨values, -, h⟩ := exists_of_bind h
    cases h
    have hopening : Spells d [.words "("] [] := .words _ (by decide)
    have hclosing : Spells d [.words ")"] [] := .words _ (by decide)
    exact (hopening.append (.values values)).append hclosing

theorem spells_valueGroups {columns : List String} {n : Nat} {rows : List Row}
    {groups : List (List Piece)} (h : valueGroups columns n rows = .ok groups) :
    ∀ group ∈ groups, Spells d group [] := by
  induction rows generalizing n groups with
  | nil =>
      cases h
      simp
  | cons row rest ih =>
      obtain ⟨first, hfirst, h⟩ := exists_of_bind h
      obtain ⟨others, hothers, h⟩ := exists_of_bind h
      cases h
      exact List.forall_mem_cons.mpr ⟨spells_groupPiecesOf hfirst, ih hothers⟩

/-- A statement opens with words that are none of `SELECT`, and has these names behind them. -/
def Writes (d : Dialect) (pieces : List Piece) (names : List String) : Prop :=
  ∃ verb rest, pieces = .words verb :: rest ∧ Dialect.AllTame verb.toList ∧
    (∃ c ∈ verb.toList.head?, c ≠ 'S') ∧ Spells d rest names

namespace Checked

theorem writes_deletePieces (h : q.Checked NoText) {pieces : List Piece}
    (hpieces : q.deletePieces = .ok pieces) : Writes d pieces (q.namesIn .delete) := by
  obtain ⟨table, htable, hpieces⟩ := exists_of_bind hpieces
  cases hpieces
  refine ⟨"DELETE FROM ", _, rfl, by decide, ⟨'D', by decide⟩, ?_⟩
  rw [namesIn, table_of_writableTable htable]
  exact (Spells.name table).append h.spells_filterPieces

theorem writes_updatePieces (h : q.Checked NoText) {assignments : Row} {pieces : List Piece}
    (hpieces : q.updatePieces assignments = .ok pieces) :
    Writes d pieces (q.namesIn (.update assignments)) := by
  obtain ⟨table, htable, hpieces⟩ := exists_of_bind hpieces
  split at hpieces
  · cases hpieces
  · obtain ⟨-, -, hpieces⟩ := exists_of_bind hpieces
    cases hpieces
    have hset : Spells d [.words " SET "] [] := .words _ (by decide)
    have hequals : Spells d [.words " = "] [] := .words _ (by decide)
    have hassigned : Spells d (Sql.separated ", " (assignments.toList.map fun a =>
        [.name a.1, .words " = ", .bound a.2])) (assignments.toList.flatMap fun a => [a.1]) :=
      .separated (by decide) fun a _ => (Spells.name a.1).append (hequals.append (.bound a.2))
    rw [← List.map_eq_flatMap] at hassigned
    refine ⟨"UPDATE ", _, rfl, by decide, ⟨'U', by decide⟩, ?_⟩
    rw [namesIn, table_of_writableTable htable]
    exact (((Spells.name table).append hset).append hassigned).append h.spells_filterPieces

theorem writes_insertPieces (q : Query) {rows : List Row} {pieces : List Piece}
    (hpieces : q.insertPieces rows = .ok pieces) :
    Writes d pieces (q.namesIn (.insert rows)) := by
  obtain ⟨table, htable, hpieces⟩ := exists_of_bind hpieces
  cases rows with
  | nil => cases hpieces
  | cons first rest =>
      change (if _ then _ else _) = _ at hpieces
      split at hpieces
      · cases hpieces
      · obtain ⟨-, -, hpieces⟩ := exists_of_bind hpieces
        obtain ⟨groups, hgroups, hpieces⟩ := exists_of_bind hpieces
        cases hpieces
        have hopening : Spells d [.words " ("] [] := .words _ (by decide)
        have hbetween : Spells d [.words ") VALUES "] [] := .words _ (by decide)
        have hcolumns : Spells d (Sql.separated ", " (first.columns.map fun c => [.name c]))
            (first.columns.flatMap fun c => [c]) :=
          .separated (by decide) fun c _ => .name c
        have hvalues : Spells d (Sql.separated ", " (groups.map id)) (groups.flatMap fun _ => []) :=
          .separated (by decide) (spells_valueGroups hgroups)
        rw [List.flatMap_singleton'] at hcolumns
        rw [List.map_id, List.flatMap_eq_nil_iff.mpr fun _ _ => rfl] at hvalues
        refine ⟨"INSERT INTO ", _, rfl, by decide, ⟨'I', by decide⟩, ?_⟩
        rw [namesIn, table_of_writableTable htable]
        have hwhole := ((((Spells.name (d := d) table).append hopening).append hcolumns).append
          hbetween).append hvalues
        simpa using hwhole

theorem writes_statementPieces (h : q.Checked NoText) {k : StatementKind} (hread : k ≠ .read)
    (hcount : k ≠ .count) {pieces : List Piece} (hpieces : q.statementPieces k d = .ok pieces) :
    Writes d pieces (q.namesIn k) := by
  cases k with
  | read => exact absurd rfl hread
  | count => exact absurd rfl hcount
  | insert rows => exact writes_insertPieces q hpieces
  | update assignments => exact h.writes_updatePieces hpieces
  | delete => exact h.writes_deletePieces hpieces

end Checked

end Query

end Relational
