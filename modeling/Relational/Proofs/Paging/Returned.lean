import Relational.Session.Runner
import Relational.Proofs.Action
import Relational.Proofs.Paging.Walk
import Relational.Proofs.Value
/-
What the token of a page stands for when the page comes from a database.

Rows are brought into shape before the page is cut, so the token carries the value of the
last row as it is returned, which need not be the value that is stored: a text that
plainly is a number is returned as the number.  For such a text the token brings back a
number, and for every other value but a floating-point number the stored value.
-/
namespace Relational

open Action

/-! ### Rows in shape -/

theorem Row.get?_mapValues (f : Value → Value) (row : Row) (column : String) :
    (row.mapValues f).get? column = (row.get? column).map f := by
  show (row.entries.map fun entry => (entry.1, f entry.2)).lookup column = (row.entries.lookup column).map f
  induction row.entries with
  | nil => rfl
  | cons entry rest ih =>
      obtain ⟨c, v⟩ := entry
      rw [List.map_cons, List.lookup_cons, List.lookup_cons, ih]
      dsimp only
      split
      · rfl
      · rfl

theorem CursorPager.valueIn_mapValues (p : CursorPager) (f : Value → Value) (row : Row) :
    p.valueIn (row.mapValues f) = (p.valueIn row).map f := by
  unfold valueIn
  rw [Row.get?_mapValues, Row.get?_mapValues]
  rcases row.get? p.column with _ | v
  · rcases row.get? (Name.unqualified p.column) with _ | v
    · rfl
    · rfl
  · rfl

namespace QueryRunner

variable {σ : Type} {r : QueryRunner σ} {s t : σ}

/-- A value as it is returned. -/
def shape (r : QueryRunner σ) (v : Value) : Value :=
  if r.normalizeNumeric then v.normalized else v

/-- Rows are returned with every value in shape. -/
theorem get_eq_ok {q : Query} {returned : List Row} (h : (r.get q).outcome s = (.ok returned, t)) :
    ∃ statement rows, q.toSql r.executor.dialect = .ok statement ∧
      (r.executor.query statement.sql statement.bindings).outcome s = (.ok rows, t) ∧
      returned = rows.map (Row.mapValues r.shape) := by
  obtain ⟨statement, r', hcompiled, h⟩ := outcome_bind_eq_ok h
  obtain ⟨hstatement, rfl⟩ := outcome_ofExcept_eq_ok hcompiled
  obtain ⟨rows, r'', hquery, h⟩ := outcome_bind_eq_ok h
  cases h
  refine ⟨statement, rows, hstatement, hquery, ?_⟩
  by_cases hnormalize : r.normalizeNumeric = true
  · have hshape : r.shape = Value.normalized := funext fun v => if_pos hnormalize
    rw [if_pos hnormalize, hshape]
    rfl
  · have hshape : r.shape = id := funext fun v => if_neg hnormalize
    have hid : Row.mapValues id = id := funext fun row => by simp [Row.mapValues]
    rw [if_neg hnormalize, hshape, hid, List.map_id]

end QueryRunner

namespace CursorPager

variable {p : CursorPager}

/-- A page that has a token has one for its last row. -/
theorem pageOf_eq_ok {rows : List Row} {page : CursorPage} {next : String}
    (h : p.pageOf rows = .ok page) (hnext : page.nextCursor = some next) :
    ∃ last v, (rows.take p.perPage.toNat).getLast? = some last ∧ p.valueIn last = .ok v ∧
      p.codec.encode p.column p.direction v = .ok next := by
  unfold pageOf at h
  rcases hcursor : p.nextCursor (rows.take p.perPage.toNat)
    (decide (p.perPage.toNat < rows.length)) with e | cursor
  · simp only [hcursor] at h
    cases h
  · simp only [hcursor] at h
    cases h
    cases hnext
    unfold nextCursor at hcursor
    split at hcursor
    · rename_i last hlast
      split at hcursor
      · rcases hv : p.valueIn last with e | v
        · rw [hv] at hcursor
          cases hcursor
        · rcases hencode : p.codec.encode p.column p.direction v with e | token
          · simp only [hv, bind, Except.bind, hencode] at hcursor
            cases hcursor
          · simp only [hv, bind, Except.bind, hencode] at hcursor
            cases hcursor
            exact ⟨last, v, hlast, hv, hencode⟩
      · cases hcursor
    · cases hcursor

end CursorPager

/-! ### The token -/

namespace QueryRunner

variable {σ : Type} {r : QueryRunner σ} {s t : σ} {q : Query} {p : CursorPager}
  {token : Option String}

/-- What is read of the token for a row that holds a value: the value, except that a text becomes
the number it plainly is, and some number for a floating-point number, unless it is refused. -/
def Recalled (r : QueryRunner σ) (read : Except PagingError Value) : Value → Prop
  | .text text =>
    read = .ok (.text text) ↔ (r.normalizeNumeric = true → Value.numeric? text = none)
  | .float _ => (∃ y, read = .ok (.float y)) ∨ read = .error (.invalidCursor .payload)
  | v => read = .ok v

/-- What can be written into a token comes back. -/
theorem decode_of_portable {v x : Value} {next : String}
    (h : p.codec.encode p.column p.direction (r.shape v) = .ok next) (hx : TokenCodec.Portable x)
    (hshape : r.shape v = x) : p.codec.decode next p.column p.direction = .ok x := by
  obtain ⟨made, hmade, hdecode⟩ := p.codec.decode_encode p.column p.direction hx
  rw [hshape, hmade] at h
  cases h
  rw [hdecode, if_neg (fun hne => hne rfl), if_neg (fun hne => hne rfl)]

theorem decode_of_float {v : Value} {x : Binary64} {next : String}
    (h : p.codec.encode p.column p.direction (r.shape v) = .ok next) (hshape : r.shape v = .float x) :
    (∃ y, p.codec.decode next p.column p.direction = .ok (.float y)) ∨
      p.codec.decode next p.column p.direction = .error (.invalidCursor .payload) :=
  TokenCodec.decode_encode_float p.codec (hshape ▸ h)

/-- A text comes back unless it has become a number. -/
theorem recalled_text {text next : String}
    (h : p.codec.encode p.column p.direction (r.shape (.text text)) = .ok next) :
    p.codec.decode next p.column p.direction = .ok (.text text) ↔
      (r.normalizeNumeric = true → Value.numeric? text = none) := by
  by_cases hnormalize : r.normalizeNumeric = true
  · have hshape : r.shape (.text text) = (Value.numeric? text).getD (.text text) := if_pos hnormalize
    rcases hnumeric : Value.numeric? text with _ | w
    · rw [hnumeric] at hshape
      exact iff_of_true (decode_of_portable h (TokenCodec.portable_text text) hshape) fun _ => rfl
    · rw [hnumeric] at hshape
      refine iff_of_false (fun hread => ?_) fun hnone => nomatch hnone hnormalize
      -- A number comes back as a number.
      rcases Value.numeric?_cases hnumeric with ⟨n, rfl⟩ | ⟨x, rfl⟩
      · rw [decode_of_portable h (TokenCodec.portable_int n) hshape] at hread
        cases hread
      · rcases decode_of_float h hshape with ⟨y, hy⟩ | hrefused
        · rw [hy] at hread
          cases hread
        · rw [hrefused] at hread
          cases hread
  · exact iff_of_true (decode_of_portable h (TokenCodec.portable_text text) (if_neg hnormalize))
      fun hyes => absurd hyes hnormalize

theorem recalled_of_encode {v : Value} {next : String}
    (h : p.codec.encode p.column p.direction (r.shape v) = .ok next) :
    r.Recalled (p.codec.decode next p.column p.direction) v := by
  have hplain : v.normalized = v → r.shape v = v := fun hv => by simp [shape, hv]
  cases v with
  | null =>
      rw [hplain rfl] at h
      cases h
  | blob bytes =>
      rw [hplain rfl] at h
      cases h
  | bool b => exact decode_of_portable h (TokenCodec.portable_bool b) (hplain rfl)
  | int n => exact decode_of_portable h (TokenCodec.portable_int n) (hplain rfl)
  | float x => exact decode_of_float h (hplain rfl)
  | text text => exact recalled_text h

/-- **The token of a page stands for what was returned.**  It is made of the value in shape of the
last row that the page keeps of the database's answer, so it recalls the stored value only as far as
that one is still what was stored. -/
theorem token_of_last_row {page : CursorPage} {next : String}
    (hrun : (r.pageAfter q p token).outcome s = (.ok page, t)) (hnext : page.nextCursor = some next) :
    ∃ query statement rows last v,
      p.apply q token = .ok query ∧ query.toSql r.executor.dialect = .ok statement ∧
      (r.executor.query statement.sql statement.bindings).outcome s = (.ok rows, t) ∧
      (rows.take p.perPage.toNat).getLast? = some last ∧ p.valueIn last = .ok v ∧
      p.codec.encode p.column p.direction (r.shape v) = .ok next ∧
      r.Recalled (p.codec.decode next p.column p.direction) v := by
  obtain ⟨query, r', hquery, h⟩ := outcome_bind_eq_ok hrun
  obtain ⟨happly, rfl⟩ := outcome_ofExcept_eq_ok hquery
  obtain ⟨returned, r'', hget, h⟩ := outcome_bind_eq_ok h
  obtain ⟨hpage, rfl⟩ := outcome_ofExcept_eq_ok h
  obtain ⟨statement, rows, hstatement, hrows, rfl⟩ := get_eq_ok hget
  obtain ⟨last, v, hlast, hv, hencode⟩ := CursorPager.pageOf_eq_ok hpage hnext
  rw [← List.map_take, List.getLast?_map, Option.map_eq_some_iff] at hlast
  obtain ⟨stored, hstored, rfl⟩ := hlast
  rw [CursorPager.valueIn_mapValues] at hv
  rcases hvalue : p.valueIn stored with e | w
  · rw [hvalue] at hv
    cases hv
  · rw [hvalue] at hv
    cases hv
    exact ⟨query, statement, rows, stored, w, happly, hstatement, hrows, hstored, hvalue, hencode,
      recalled_of_encode hencode⟩

/-! ### Items by their code -/

def item (code : String) : Row :=
  Row.ofList [("code", .text code)]

/-- A database of items that have these codes; numbers are read from texts. -/
def shelf (codes : List String) : QueryRunner Unit where
  executor := {
    dialect := .sqlite
    query := fun _ _ => pure (codes.map item)
    execute := fun _ _ => pure 0 }
  normalizeNumeric := true

/-- One item a page, in the order of the codes. -/
def byCode : CursorPager :=
  ⟨"code", .asc, 1, {}, by decide⟩

/-- Of two items the first makes the first page. -/
theorem shelf_first_page (first second : String) {next : String}
    (h : byCode.codec.encode byCode.column byCode.direction (Value.text first).normalized =
      .ok next) :
    ∃ page, ((shelf [first, second]).pageAfter (Query.ofTable "items") byCode none).outcome () =
      (.ok page, ()) ∧ page.nextCursor = some next := by
  have happly : byCode.apply (Query.ofTable "items") none =
      .ok (byCode.pageQuery (Query.ofTable "items") none) :=
    CursorPager.apply_eq (by decide) (by decide) rfl
  have hsql : ((byCode.pageQuery (Query.ofTable "items") none).toSql .sqlite).isOk = true := by
    decide +kernel
  have hget : ((shelf [first, second]).get (byCode.pageQuery (Query.ofTable "items") none)).outcome
      () = (.ok [(item first).normalized, (item second).normalized], ()) := by
    rcases hstatement : (byCode.pageQuery (Query.ofTable "items") none).toSql .sqlite with e | statement
    · rw [hstatement] at hsql
      cases hsql
    · unfold get
      rw [show (shelf [first, second]).executor.dialect = .sqlite from rfl, hstatement]
      rfl
  have hvalue : byCode.valueIn (item first).normalized = .ok (Value.text first).normalized := by
    rw [Row.normalized, CursorPager.valueIn_mapValues]
    rfl
  have hpage : byCode.pageOf [(item first).normalized, (item second).normalized] =
      .ok ⟨[(item first).normalized], 1, true, some next⟩ := by
    have hnext : byCode.nextCursor [(item first).normalized] true = .ok (some next) := by
      show (byCode.valueIn (item first).normalized >>= fun v =>
        (byCode.codec.encode byCode.column byCode.direction v).map some) = _
      rw [hvalue]
      exact congrArg (Except.map some) h
    show (byCode.nextCursor [(item first).normalized] true >>= _) = _
    rw [hnext]
    rfl
  refine ⟨⟨[(item first).normalized], 1, true, some next⟩, ?_, rfl⟩
  unfold pageAfter
  simp only [happly, outcome_bind, outcome_ofExcept_ok, hget, hpage]

/-- A code that is no number is recalled as it is stored. -/
theorem shelf_recalls_code :
    ∃ page next, ((shelf ["a4", "b5"]).pageAfter (Query.ofTable "items") byCode none).outcome () =
        (.ok page, ()) ∧ page.nextCursor = some next ∧
      byCode.codec.decode next "code" .asc = .ok (.text "a4") := by
  have hplain : (Value.text "a4").normalized = .text "a4" := by decide +kernel
  obtain ⟨next, hencode, -⟩ := byCode.codec.decode_encode byCode.column byCode.direction
    (TokenCodec.portable_text "a4")
  obtain ⟨page, hrun, hnext⟩ := shelf_first_page "a4" "b5" (hplain ▸ hencode)
  obtain ⟨query, statement, rows, last, v, -, -, hrows, hlast, hv, -, hrecalled⟩ :=
    token_of_last_row hrun hnext
  cases hrows
  cases hlast
  cases hv
  exact ⟨page, next, hrun, hnext, hrecalled.mpr fun _ => by decide +kernel⟩

/-- Of the code 4.50 the token does not recall the text that is stored. -/
theorem shelf_loses_price :
    ∃ page next, ((shelf ["4.50", "5.25"]).pageAfter (Query.ofTable "items") byCode none).outcome () =
        (.ok page, ()) ∧ page.nextCursor = some next ∧
      (∀ sql bindings, ((shelf ["4.50", "5.25"]).executor.query sql bindings).outcome () =
        (.ok [item "4.50", item "5.25"], ())) ∧
      byCode.valueIn (item "4.50") = .ok (.text "4.50") ∧
      byCode.codec.decode next "code" .asc ≠ .ok (.text "4.50") := by
  have hnumeric : (Value.numeric? "4.50").isSome = true := by decide +kernel
  have htoken : ((TokenCodec.taggedText byCode.column (Value.text "4.50").normalized).toBool) = true := by
    decide +kernel
  rcases htagged : TokenCodec.taggedText byCode.column (Value.text "4.50").normalized with e | ⟨tag, text⟩
  · rw [htagged] at htoken
    cases htoken
  · have hencode : byCode.codec.encode byCode.column byCode.direction _ = _ :=
      byCode.codec.encode_eq htagged
    obtain ⟨page, hrun, hnext⟩ := shelf_first_page "4.50" "5.25" hencode
    refine ⟨page, _, hrun, hnext, fun _ _ => rfl, rfl, fun hread => ?_⟩
    have hrecalled : (shelf []).Recalled _ (.text "4.50") := recalled_of_encode (p := byCode) hencode
    have hnone := hrecalled.mp hread rfl
    rw [hnone] at hnumeric
    cases hnumeric

end QueryRunner

end Relational
