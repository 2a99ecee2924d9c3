import Relational.Paging.Offset
import Relational.Paging.Token
/-
Pages by cursor.

The rows are ordered by one column, and the next page starts strictly past the value of that column
in the last row of the page before.  One row more than the page holds is asked for; it only shows
that there is a next page.
-/
namespace Relational

/-- How a result is paged by cursor. -/
structure CursorPager where
  column : String
  direction : Direction
  perPage : UInt64
  codec : TokenCodec
  perPage_pos : 0 < perPage.toNat

/-- One page, and the token for the next one. -/
structure CursorPage where
  items : List Row
  perPage : UInt64
  hasMore : Bool
  nextCursor : Option String

namespace CursorPager

/-- By `id`, ascending, without a secret; refuses a size of zero. -/
def make (perPage : UInt64) : Except PagingError CursorPager :=
  if h : 0 < perPage.toNat then .ok ⟨"id", .asc, perPage, {}, h⟩
  else .error (.invalidPage .sizeZero)

/-- The value a token stands for, if there is a token. -/
def afterOf (p : CursorPager) : Option String → Except PagingError (Option Value)
  | none => .ok none
  | some token => (p.codec.decode token p.column p.direction).map some

/-- The query cut down to the page behind the token, or to the first page. -/
def apply (p : CursorPager) (q : Query) (token : Option String) : Except PagingError Query := do
  let after ← p.afterOf token
  let page := (q.startAfter p.column p.direction after).take (saturated (p.perPage.toNat + 1))
  match page.error with
  | some e => .error (.query e)
  | none => .ok page

/-- The value of the cursor's column in a row, by its full or its last name. -/
def valueIn (p : CursorPager) (row : Row) : Except PagingError Value :=
  match (row.get? p.column).or (row.get? (Name.unqualified p.column)) with
  | some v => .ok v
  | none => .error (.missingCursorColumn p.column)

/-- The token for the page behind these rows, if there is one. -/
def nextCursor (p : CursorPager) (items : List Row) (hasMore : Bool) :
    Except PagingError (Option String) :=
  match items.getLast? with
  | some last =>
    if hasMore then do
      let v ← p.valueIn last
      (p.codec.encode p.column p.direction v).map some
    else .ok none
  | none => .ok none

/-- The page, of the rows that `apply` asks for. -/
def pageOf (p : CursorPager) (rows : List Row) : Except PagingError CursorPage := do
  let items := rows.take p.perPage.toNat
  let hasMore := p.perPage.toNat < rows.length
  let next ← p.nextCursor items hasMore
  return { items, perPage := p.perPage, hasMore, nextCursor := next }

end CursorPager

end Relational
