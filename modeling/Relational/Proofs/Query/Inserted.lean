import Mathlib.Data.List.Perm.Subperm
import Relational.Proofs.Query.Admitted
import Relational.Proofs.Query.Numbering
import Relational.Proofs.Results
/-
Which rows can be inserted, and where their values go.

The first row names the columns.  Another row may name them in another order, but it has to name
the same ones.  A row has no column twice, so it is enough that it has as many columns as the first
and all of those: then it has no others.  The values are bound row by row, each row in the order of
the first.
-/
namespace Relational

open List (Forall₂)

/-! ### Lists of one length, one behind the other -/

section Rows

variable {α β : Type} {f : α → List β} {m : Nat} {xs : List α}

theorem length_flatMap_eq (h : ∀ x ∈ xs, (f x).length = m) :
    (xs.flatMap f).length = xs.length * m := by
  induction xs with
  | nil => simp
  | cons x rest ih =>
      obtain ⟨hx, hrest⟩ := List.forall_mem_cons.mp h
      rw [List.flatMap_cons, List.length_append, hx, ih hrest, List.length_cons, Nat.succ_mul,
        Nat.add_comm]

theorem getElem?_flatMap_eq (h : ∀ x ∈ xs, (f x).length = m) {i j : Nat} {x : α}
    (hi : xs[i]? = some x) (hj : j < m) : (xs.flatMap f)[i * m + j]? = (f x)[j]? := by
  induction xs generalizing i with
  | nil => simp at hi
  | cons y rest ih =>
      obtain ⟨hy, hrest⟩ := List.forall_mem_cons.mp h
      rw [List.flatMap_cons]
      cases i with
      | zero =>
          obtain rfl : y = x := by simpa using hi
          rw [Nat.zero_mul, Nat.zero_add, List.getElem?_append_left (by omega)]
      | succ i =>
          have hplace : (i + 1) * m + j = m + (i * m + j) := by
            rw [Nat.succ_mul]
            omega
          rw [hplace, List.getElem?_append_right (by omega), hy, Nat.add_sub_cancel_left]
          exact ih hrest (by simpa using hi)

theorem mapIdx_eq_of_length {ys : List β} (g : Nat → String) (h : xs.length = ys.length) :
    (xs.mapIdx fun i _ => g i) = ys.mapIdx fun i _ => g i := by
  refine List.ext_getElem (by simpa using h) fun i hx hy => ?_
  rw [List.getElem_mapIdx, List.getElem_mapIdx]

end Rows

/-! ### The values of a row for given columns -/

namespace Row

/-- The values of the given columns, as far as the row has them. -/
def valuesOf (row : Row) (columns : List String) : List Value :=
  columns.filterMap row.get?

/-- The row has the given columns and no others. -/
def HasExactly (row : Row) (columns : List String) : Prop :=
  ∀ c, c ∈ row.columns ↔ c ∈ columns

variable {row : Row} {columns : List String}

theorem nodup_columns (row : Row) : row.columns.Nodup :=
  row.nodup

theorem exists_get?_iff {column : String} :
    (∃ v, row.get? column = some v) ↔ column ∈ row.columns := by
  rw [← Option.isSome_iff_exists, get?, List.lookup_isSome_iff, columns, List.mem_map]
  simp only [beq_iff_eq, eq_comm (a := column)]

/-- Each value stands in the place of its column. -/
theorem forall₂_valuesOf_iff {values : List Value} :
    Forall₂ (fun c v => row.get? c = some v) columns values ↔
      columns ⊆ row.columns ∧ values = row.valuesOf columns := by
  constructor
  · intro h
    induction h with
    | nil => exact ⟨List.nil_subset _, rfl⟩
    | cons hv _ ih =>
        obtain ⟨hsubset, rfl⟩ := ih
        refine ⟨List.cons_subset.mpr ⟨exists_get?_iff.mp ⟨_, hv⟩, hsubset⟩, ?_⟩
        rw [valuesOf, valuesOf, List.filterMap_cons_some hv]
  · rintro ⟨hsubset, rfl⟩
    induction columns with
    | nil => exact .nil
    | cons c rest ih =>
        obtain ⟨hc, hrest⟩ := List.cons_subset.mp hsubset
        obtain ⟨v, hv⟩ := exists_get?_iff.mpr hc
        rw [valuesOf, List.filterMap_cons_some hv]
        exact .cons hv (ih hrest)

/-- A row with as many columns that has all of these has no others. -/
theorem hasExactly_iff (h : columns.Nodup) :
    row.HasExactly columns ↔ row.size = columns.length ∧ columns ⊆ row.columns := by
  rw [show row.size = row.columns.length from (List.length_map _).symm]
  constructor
  · intro hexactly
    have hperm := (List.perm_ext_iff_of_nodup row.nodup_columns h).mpr hexactly
    exact ⟨hperm.length_eq, fun c => (hexactly c).mpr⟩
  · rintro ⟨hsize, hsubset⟩ c
    have hperm := (List.subperm_of_subset h hsubset).perm_of_length_le (Nat.le_of_eq hsize)
    exact hperm.mem_iff.symm

namespace HasExactly

theorem forall₂_valuesOf (h : row.HasExactly columns) :
    Forall₂ (fun c v => row.get? c = some v) columns (row.valuesOf columns) :=
  forall₂_valuesOf_iff.mpr ⟨fun c => (h c).mpr, rfl⟩

theorem length_valuesOf (h : row.HasExactly columns) :
    (row.valuesOf columns).length = columns.length :=
  h.forall₂_valuesOf.length_eq.symm

end HasExactly

end Row

/-! ### Texts and values of parts with a separator -/

namespace Sql

variable {α : Type} {f : α → List Piece}

theorem bindings_separated (separator : String) (xs : List α) :
    bindings (separated separator (xs.map f)) = xs.flatMap fun x => bindings (f x) := by
  unfold separated
  induction xs with
  | nil => rfl
  | cons x rest ih =>
      cases rest with
      | nil => simp
      | cons y rest =>
          have hwords : bindings [.words separator] = [] := rfl
          rw [List.map_cons, List.map_cons, List.intercalate_cons_cons, bindings_append,
            bindings_append, hwords, List.append_nil, List.flatMap_cons, ← ih, List.map_cons]

/-- Parts that have the same number of values each. -/
theorem text_separated (d : Dialect) (separator : String) {k : Nat} {xs : List α}
    (h : ∀ x ∈ xs, (bindings (f x)).length = k) (count : Nat) :
    text d count (separated separator (xs.map f)) =
      String.intercalate separator (xs.mapIdx fun i x => text d (count + i * k) (f x)) := by
  unfold separated
  induction xs generalizing count with
  | nil => rfl
  | cons x rest ih =>
      obtain ⟨hx, hrest⟩ := List.forall_mem_cons.mp h
      cases rest with
      | nil => simp
      | cons y rest =>
          have hwords : bindings [.words separator] = [] := rfl
          have hseparator : text d (count + k) [.words separator] = separator := by
            simp [text, Piece.text]
          have hshift : ∀ i, count + k + i * k = count + (i + 1) * k := by
            intro i
            rw [Nat.succ_mul]
            omega
          have hbehind := ih hrest (count + k)
          simp only [hshift] at hbehind
          rw [List.mapIdx_cons, String.intercalate_cons_of_ne_nil (by simp), ← hbehind,
            List.map_cons, List.map_cons, List.intercalate_cons_cons, text_append, text_append,
            bindings_append, hwords, List.append_nil, hx, hseparator, Nat.zero_mul, Nat.add_zero]

theorem text_names (d : Dialect) (count : Nat) (names : List String) :
    text d count (separated ", " (names.map fun n => [.name n])) = d.quoteNames names := by
  have hname : names.mapIdx (fun i n => text d (count + i * 0) [.name n]) =
      names.map d.quoteName := by
    refine List.mapIdx_eq_iff.mpr fun i => ?_
    simp [text, Piece.text]
  have hnone : ∀ n ∈ names, (bindings [.name n]).length = 0 := fun _ _ => rfl
  rw [text_separated d ", " hnone, hname, Dialect.quoteNames]

/-- The values in parentheses. -/
def group (values : List Value) : List Piece :=
  [.words "("] ++ separated ", " (values.map fun v => [.bound v]) ++ [.words ")"]

theorem bindings_group (values : List Value) : bindings (group values) = values := by
  rw [group, bindings_append, bindings_append, bindings_separated]
  simp [bindings, Piece.bindings]

theorem text_group (d : Dialect) (count : Nat) (values : List Value) :
    text d count (group values) =
      "(" ++ String.intercalate ", " (values.mapIdx fun j _ => d.placeholder (count + j + 1)) ++
        ")" := by
  have hopening : bindings [.words "("] = [] := rfl
  have hone : ∀ v ∈ values, (bindings [.bound v]).length = 1 := fun _ _ => rfl
  rw [group, text_append, text_append, hopening, List.length_nil, Nat.add_zero,
    text_separated d ", " hone]
  simp [text, Piece.text]

end Sql

namespace Query

/-! ### Value groups -/

variable {columns : List String} {row : Row} {n : Nat}

theorem valueIn_eq_ok_iff {column : String} {v : Value} :
    valueIn n row column = .ok v ↔ row.get? column = some v := by
  unfold valueIn
  cases row.get? column <;> simp

theorem groupPiecesOf_eq_ok_iff (h : columns.Nodup) {pieces : List Piece} :
    groupPiecesOf columns n row = .ok pieces ↔
      row.HasExactly columns ∧ pieces = Sql.group (row.valuesOf columns) := by
  rw [Row.hasExactly_iff h]
  unfold groupPiecesOf
  constructor
  · intro hok
    split at hok
    · cases hok
    · obtain ⟨values, hvalues, hok⟩ := exists_of_bind hok
      cases hok
      have hall := (forall₂_of_mapM hvalues).imp fun _ _ => valueIn_eq_ok_iff.mp
      obtain ⟨hsubset, rfl⟩ := Row.forall₂_valuesOf_iff.mp hall
      exact ⟨⟨not_not.mp ‹_›, hsubset⟩, rfl⟩
  · rintro ⟨⟨hsize, hsubset⟩, rfl⟩
    have hall := Row.forall₂_valuesOf_iff.mpr ⟨hsubset, rfl⟩
    rw [if_neg (not_not.mpr hsize),
      mapM_of_forall₂ (hall.imp fun _ _ => (valueIn_eq_ok_iff (n := n)).mpr)]
    rfl

theorem valueGroups_eq_ok_iff (h : columns.Nodup) {rows : List Row} {groups : List (List Piece)} :
    valueGroups columns n rows = .ok groups ↔
      (∀ row ∈ rows, row.HasExactly columns) ∧
        groups = rows.map fun row => Sql.group (row.valuesOf columns) := by
  induction rows generalizing n groups with
  | nil => simp [valueGroups, eq_comm]
  | cons row rest ih =>
      rw [List.forall_mem_cons, List.map_cons]
      constructor
      · intro hok
        obtain ⟨first, hfirst, hok⟩ := exists_of_bind hok
        obtain ⟨others, hothers, hok⟩ := exists_of_bind hok
        cases hok
        obtain ⟨hexactly, rfl⟩ := (groupPiecesOf_eq_ok_iff h).mp hfirst
        obtain ⟨hall, rfl⟩ := ih.mp hothers
        exact ⟨⟨hexactly, hall⟩, rfl⟩
      · rintro ⟨⟨hexactly, hall⟩, rfl⟩
        rw [valueGroups, (groupPiecesOf_eq_ok_iff h).mpr ⟨hexactly, rfl⟩, ih.mpr ⟨hall, rfl⟩]
        rfl

/-! ### The insert as a whole -/

variable {q : Query} {table : String}

theorem writableTable_eq_ok_iff {kind : WriteKind} :
    q.writableTable kind = .ok table ↔ q.IsWritable table := by
  refine ⟨isWritable_of_writableTable, fun h => ?_⟩
  rw [writableTable, validTable, h.faultless, h.source]
  simp [bind, Except.bind, h.unaliased, h.unjoined, h.unlimited, h.unskipped]

theorem checkColumns_eq_ok_iff {clause : Clause} :
    checkColumns clause columns = .ok () ↔ ∀ c ∈ columns, Name.isColumn c = true := by
  refine ⟨isColumn_of_checkColumns, fun h => ?_⟩
  unfold checkColumns
  induction columns with
  | nil => rfl
  | cons c rest ih =>
      obtain ⟨hc, hrest⟩ := List.forall_mem_cons.mp h
      rw [List.forM, Conditions.checkColumn, if_pos hc]
      exact ih hrest

/-- The rows can be inserted into the table; `first` is the first of them. -/
structure CanInsert (q : Query) (rows : List Row) (table : String) (first : Row) : Prop where
  writable : q.IsWritable table
  head : rows.head? = some first
  named : first.columns ≠ []
  columns : ∀ c ∈ first.columns, c ≠ "*" ∧ Name.isIdentifier c = true
  matching : ∀ row ∈ rows, row.HasExactly first.columns

/-- The pieces in front of the value groups. -/
def insertFront (table : String) (first : Row) : List Piece :=
  [.words "INSERT INTO ", .name table, .words " ("] ++
    Sql.separated ", " (first.columns.map fun c => [.name c]) ++ [.words ") VALUES "]

/-- The pieces of the statement that inserts the rows. -/
def insertion (rows : List Row) (table : String) (first : Row) : List Piece :=
  insertFront table first ++
    Sql.separated ", " (rows.map fun row => Sql.group (row.valuesOf first.columns))

theorem bindings_insertFront (table : String) (first : Row) :
    Sql.bindings (insertFront table first) = [] := by
  rw [insertFront, Sql.bindings_append, Sql.bindings_append, Sql.bindings_separated]
  simp [Sql.bindings, Piece.bindings]

/-- The values stand row by row, each row in the order of the first. -/
theorem bindings_insertion (rows : List Row) (table : String) (first : Row) :
    Sql.bindings (insertion rows table first) =
      rows.flatMap fun row => row.valuesOf first.columns := by
  rw [insertion, Sql.bindings_append, bindings_insertFront, Sql.bindings_separated,
    List.nil_append]
  exact List.flatMap_congr fun row _ => Sql.bindings_group _

theorem insertPieces_eq_ok_iff {rows : List Row} {pieces : List Piece} :
    q.insertPieces rows = .ok pieces ↔
      ∃ table first, q.CanInsert rows table first ∧ pieces = insertion rows table first := by
  constructor
  · intro hok
    obtain ⟨table, htable, hok⟩ := exists_of_bind hok
    cases rows with
    | nil => cases hok
    | cons first rest =>
        change (if _ then _ else _) = _ at hok
        split at hok
        · cases hok
        · rename_i hnamed
          obtain ⟨⟨⟩, hcolumns, hok⟩ := exists_of_bind hok
          obtain ⟨groups, hgroups, hok⟩ := exists_of_bind hok
          cases hok
          obtain ⟨hall, rfl⟩ := (valueGroups_eq_ok_iff first.nodup_columns).mp hgroups
          refine ⟨table, first, ⟨writableTable_eq_ok_iff.mp htable, rfl, ?_, ?_, hall⟩, rfl⟩
          · simpa using hnamed
          · simpa [Name.isColumn] using checkColumns_eq_ok_iff.mp hcolumns
  · rintro ⟨table, first, h, rfl⟩
    obtain ⟨rest, rfl⟩ := List.head?_eq_some_iff.mp h.head
    have hcolumns : ∀ c ∈ first.columns, Name.isColumn c = true := by
      simpa [Name.isColumn] using h.columns
    have hnamed : ¬first.columns.isEmpty = true := by
      simpa using h.named
    unfold insertPieces
    rw [writableTable_eq_ok_iff.mpr h.writable]
    show (if _ then _ else _) = _
    rw [if_neg hnamed, checkColumns_eq_ok_iff.mpr hcolumns]
    show (valueGroups first.columns 0 (first :: rest) >>= _) = _
    rw [(valueGroups_eq_ok_iff first.nodup_columns).mpr ⟨h.matching, rfl⟩]
    rfl

namespace CanInsert

variable {rows : List Row} {first : Row}

theorem text_insertion (h : q.CanInsert rows table first) (d : Dialect) :
    let m := first.columns.length
    Sql.text d 0 (insertion rows table first) =
      "INSERT INTO " ++ d.quoteName table ++ " (" ++ d.quoteNames first.columns ++ ") VALUES " ++
        String.intercalate ", " (rows.mapIdx fun i _ =>
          "(" ++ String.intercalate ", " (first.columns.mapIdx fun j _ =>
            d.placeholder (i * m + j + 1)) ++ ")") := by
  intro m
  have hgroup : ∀ row ∈ rows,
      (Sql.bindings (Sql.group (row.valuesOf first.columns))).length = m := by
    intro row hrow
    rw [Sql.bindings_group, (h.matching row hrow).length_valuesOf]
  have hgroups : rows.mapIdx (fun i row =>
        Sql.text d (0 + i * m) (Sql.group (row.valuesOf first.columns))) =
      rows.mapIdx fun i _ => "(" ++ String.intercalate ", " (first.columns.mapIdx fun j _ =>
        d.placeholder (i * m + j + 1)) ++ ")" := by
    refine List.mapIdx_eq_mapIdx_iff.mpr fun i hi => ?_
    have hlength := (h.matching rows[i] (List.getElem_mem hi)).length_valuesOf
    rw [Sql.text_group, Nat.zero_add,
      mapIdx_eq_of_length (fun j => d.placeholder (i * m + j + 1)) hlength]
  rw [insertion, Sql.text_append, bindings_insertFront, List.length_nil,
    Sql.text_separated d ", " hgroup, hgroups, insertFront, Sql.text_append, Sql.text_append,
    Sql.text_names]
  simp [Sql.text, Piece.text, String.append_assoc]

theorem getElem?_bindings (h : q.CanInsert rows table first) {i j : Nat} {row : Row}
    {column : String} (hi : rows[i]? = some row) (hj : first.columns[j]? = some column) :
    ∃ v, row.get? column = some v ∧
      (Sql.bindings (insertion rows table first))[i * first.columns.length + j]? = some v := by
  have hlength : ∀ row ∈ rows, (row.valuesOf first.columns).length = first.columns.length :=
    fun row hrow => (h.matching row hrow).length_valuesOf
  have hall := (h.matching row (List.mem_of_getElem? hi)).forall₂_valuesOf
  obtain ⟨hwithin, rfl⟩ := List.getElem?_eq_some_iff.mp hj
  have hvalues : j < (row.valuesOf first.columns).length := hall.length_eq ▸ hwithin
  refine ⟨(row.valuesOf first.columns)[j], ?_, ?_⟩
  · exact (List.forall₂_iff_get.mp hall).2 j hwithin hvalues
  · rw [bindings_insertion, getElem?_flatMap_eq hlength hi hwithin, List.getElem?_eq_getElem]

end CanInsert

/-- **An insert binds each value in the place of its row and its column.**  Rows can be inserted
exactly if the query has no fault and is on one table, with no alias, no joins and no paging, there
is a first row, this has columns and all of them can be named, and every row has the same columns,
in whatever order.  Then the statement names the columns of the first row in its order and has one
group of placeholders for each row; with `m` columns, what is bound in the place `i * m + j` is the
value of row `i` for column `j`. -/
theorem insert_places_values (q : Query) (d : Dialect) (rows : List Row) :
    ((∃ s, q.insertSql d rows = .ok s) ↔ ∃ table first, q.CanInsert rows table first) ∧
    ∀ table first s, q.CanInsert rows table first → q.insertSql d rows = .ok s →
      let m := first.columns.length
      s.sql = "INSERT INTO " ++ d.quoteName table ++
        " (" ++ d.quoteNames first.columns ++ ") VALUES " ++
        String.intercalate ", " (rows.mapIdx fun i _ =>
          "(" ++ String.intercalate ", " (first.columns.mapIdx fun j _ =>
            d.placeholder (i * m + j + 1)) ++ ")") ∧
      s.bindings.length = rows.length * m ∧
      ∀ i j row column, rows[i]? = some row → first.columns[j]? = some column →
        ∃ v, row.get? column = some v ∧ s.bindings[i * m + j]? = some v := by
  have hok : ∀ {table first}, q.CanInsert rows table first →
      q.insertSql d rows = .ok (Sql.render d (insertion rows table first)) := by
    intro table first h
    rw [insertSql, insertPieces_eq_ok_iff.mpr ⟨table, first, h, rfl⟩]
    rfl
  refine ⟨⟨?_, fun ⟨table, first, h⟩ => ⟨_, hok h⟩⟩, fun table first s h hs => ?_⟩
  · rintro ⟨s, hs⟩
    cases hpieces : q.insertPieces rows with
    | error e =>
        rw [insertSql, hpieces] at hs
        cases hs
    | ok pieces =>
        obtain ⟨table, first, h, -⟩ := insertPieces_eq_ok_iff.mp hpieces
        exact ⟨table, first, h⟩
  · obtain rfl : Sql.render d (insertion rows table first) = s := by
      rw [hok h] at hs
      exact Except.ok.inj hs
    refine ⟨h.text_insertion d, ?_, fun i j row column => h.getElem?_bindings⟩
    show (Sql.bindings (insertion rows table first)).length = rows.length * first.columns.length
    rw [bindings_insertion]
    exact length_flatMap_eq fun row hrow => (h.matching row hrow).length_valuesOf

example :
    (built [.source "users"]).insertSql .postgres
        [Row.ofList [("name", .text "Ada"), ("age", .int 36)],
         Row.ofList [("age", .int 41), ("name", .text "Alan")]] =
      .ok
        { sql := "INSERT INTO \"users\" (\"name\", \"age\") VALUES ($1, $2), ($3, $4)"
          bindings := [.text "Ada", .int 36, .text "Alan", .int 41] } := by
  decide +kernel

end Query

end Relational
