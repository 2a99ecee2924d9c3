import Relational.Proofs.Paging.Walk
import Relational.Proofs.Paging.Windows
import Relational.Proofs.Query.Clauses
/-
Where a page by cursor starts.

A pager takes over a query that may be ordered, cut down and behind a cursor already.  It puts its
own cursor and its own limit in the place of those, and its column goes in front of every ordering
that is left.  The one thing it does not look at is the offset.  A query without one has its page
start at the first row past the cursor; otherwise the rows that the query leaves out are left out
once more behind every token.
-/
namespace Relational

theorem Sql.separated_cons (first : List Piece) (rest : List (List Piece)) :
    separated ", " (first :: rest) = first ++ rest.flatMap fun part => .words ", " :: part := by
  unfold separated
  induction rest generalizing first with
  | nil => simp
  | cons next rest ih =>
      rw [List.intercalate_cons_cons, ih, List.flatMap_cons, List.append_assoc]
      rfl

namespace Query

variable {q : Query}

/-- The cursor's column comes first, and does not come a second time. -/
theorem orderPieces_of_cursor {c : Cursor} (h : q.cursor = some c) :
    q.orderPieces =
      [.words " ORDER BY ", .name c.column, .words (" " ++ c.direction.sql)] ++
        (q.orders.filter (!ordersBy c.column ·)).flatMap fun o =>
          .words ", " :: orderingPieces o := by
  rw [orderPieces, orderings, h]
  simp [Sql.separated_cons, List.flatMap_map, orderingPieces]

end Query

namespace CursorPager

variable {p : CursorPager} {q page : Query} {token : Option String}

/-- What a pager accepts, it cuts down to the page behind a value. -/
theorem apply_eq_ok_iff :
    p.apply q token = .ok page ↔ Name.isAliased p.column = true ∧ q.error = none ∧
      ∃ after, p.afterOf token = .ok after ∧ page = p.pageQuery q after := by
  constructor
  · intro h
    obtain ⟨after, hafter, h⟩ := exists_of_bind h
    dsimp only at h
    split at h
    · cases h
    · rename_i herror
      cases h
      by_cases hcolumn : Name.isAliased p.column = true
      · rw [take_startAfter hcolumn] at herror ⊢
        exact ⟨hcolumn, herror, after, hafter, rfl⟩
      · rw [Query.startAfter, Query.whenAliased, if_neg hcolumn] at herror
        exact absurd herror (q.error_fail_ne_none _)
  · rintro ⟨hcolumn, hnone, after, hafter, rfl⟩
    exact apply_eq hcolumn hnone hafter

theorem head?_answer (o : Collation) (rows : List Row) (after : Option Value) :
    (p.answer o rows (p.pageQuery q after)).head? =
      (p.remaining o rows after)[(q.offset.getD 0).toNat]? := by
  have hlimit : (saturated (p.perPage.toNat + 1)).toNat ≠ 0 := by
    rw [toNat_saturated]
    have hlargest : UInt64.size - 1 ≠ 0 := by decide
    omega
  rw [answer_pageQuery, List.head?_take, if_neg hlimit, List.head?_drop]

/-- **A page starts as far past its cursor as the query's offset says.**  Of a query that a pager
accepts with a token, the pager replaces the cursor and the limit and leaves everything else as it
is.  The limit is one row more than the page holds, as far as there is such a number, and the
pager's column in its direction is the first entry of the ordering, and the only one by this column.
For every dialect the page can be compiled exactly if the query can.  But the offset is the query's:
where a database answers from rows in order, so many of those past the cursor are left out, and the
page starts with the next. -/
theorem page_starts_behind_offset (p : CursorPager) (q : Query) (token : Option String)
    (page : Query) (h : p.apply q token = .ok page) :
    ∃ after, p.afterOf token = .ok after ∧ page = p.pageQuery q after ∧
      page.limit.map UInt64.toNat = some (min (p.perPage.toNat + 1) (UInt64.size - 1)) ∧
      page.offset = q.offset ∧
      page.orderPieces =
        [.words " ORDER BY ", .name p.column, .words (" " ++ p.direction.sql)] ++
          ((q.orders.filter (!Query.ordersBy p.column ·)).flatMap fun o =>
            .words ", " :: Query.orderingPieces o) ∧
      (∀ d, (∃ s, page.toSql d = .ok s) ↔ ∃ s, q.toSql d = .ok s) ∧
      (∀ d s, page.toSql d = .ok s →
        ∃ table, q.table = some table ∧ s = Sql.render d (page.readPieces table d)) ∧
      ∀ o rows, (p.answer o rows page).head? =
        (p.remaining o rows after)[(q.offset.getD 0).toNat]? := by
  obtain ⟨-, -, after, hafter, rfl⟩ := apply_eq_ok_iff.mp h
  have hrefused : (p.pageQuery q after).Refused ↔ q.Refused := Iff.rfl
  have horder := Query.orderPieces_of_cursor
    (show (p.pageQuery q after).cursor = some ⟨p.column, p.direction, after⟩ from rfl)
  refine ⟨after, hafter, rfl, ?_, rfl, horder, fun d => ?_,
    fun d s hs => ?_, fun o rows => head?_answer o rows after⟩
  · exact congrArg some (toNat_saturated _)
  · rw [Query.exists_toSql_iff, Query.exists_toSql_iff, hrefused]
  · obtain ⟨table, htable, hsql⟩ :=
      (Query.refused_or_toSql_eq _ d).resolve_left (Query.not_refused_of_toSql hs)
    exact ⟨table, htable, Except.ok.inj (hs.symm.trans hsql)⟩

/-- Posts in pages of two, in the order of their identifiers. -/
def postsPager : CursorPager :=
  ⟨"id", .asc, 2, {}, by decide⟩

/-- The token behind the fifth post. -/
def fifthToken : String :=
  "eyJjIjoiaWQiLCJkIjoiYXNjIiwidiI6eyJ0IjoiaW50IiwidiI6NX19.ORIIxCJ0YA0VxoZG"

theorem afterOf_fifthToken : postsPager.afterOf (some fifthToken) = .ok (some (.int 5)) := by
  decide +kernel

/-- The fourth to the seventh post. -/
def posts : List Row :=
  [4, 5, 6, 7].map fun n : Int64 => Row.ofList [("id", .int n)]

theorem remaining_posts : postsPager.remaining byInteger posts (some (.int 5)) = posts.drop 2 := by
  rfl

/-- The page behind the fifth post starts with the sixth, whatever the query was ordered by, cut
down to and behind before. -/
theorem page_starts_at_sixth :
    let q := Query.built [.source "posts", .orderBy "title" .asc, .orderBy "id" .desc, .take 7,
      .startAfter "title" .desc (some (.text "m"))]
    let page := postsPager.pageQuery q (some (.int 5))
    postsPager.apply q (some fifthToken) = .ok page ∧
      page.toSql .sqlite =
        .ok { sql := "SELECT * FROM \"posts\" WHERE \"id\" > ? " ++
                "ORDER BY \"id\" ASC, \"title\" ASC LIMIT 3"
              bindings := [.int 5] } ∧
      (postsPager.answer byInteger posts page).head? = posts[2]? := by
  intro q page
  have happly : postsPager.apply q (some fifthToken) = .ok page :=
    apply_eq (by decide +kernel) (by decide +kernel) afterOf_fifthToken
  obtain ⟨after, hafter, -, -, -, -, -, -, hfirst⟩ :=
    page_starts_behind_offset postsPager q (some fifthToken) page happly
  obtain rfl : some (.int 5) = after := Except.ok.inj (afterOf_fifthToken.symm.trans hafter)
  refine ⟨happly, by decide +kernel, (hfirst byInteger posts).trans ?_⟩
  rw [remaining_posts]
  rfl

/-- With an offset of twenty, the posts behind the fifth are left out. -/
theorem page_leaves_out_rows :
    let q := Query.built [.source "posts", .skip 20]
    let page := postsPager.pageQuery q (some (.int 5))
    postsPager.apply q (some fifthToken) = .ok page ∧ page.offset = some 20 ∧
      page.toSql .sqlite =
        .ok { sql := "SELECT * FROM \"posts\" WHERE \"id\" > ? " ++
                "ORDER BY \"id\" ASC LIMIT 3 OFFSET 20"
              bindings := [.int 5] } ∧
      postsPager.remaining byInteger posts (some (.int 5)) = posts.drop 2 ∧
      (postsPager.answer byInteger posts page).head? = none := by
  intro q page
  have happly : postsPager.apply q (some fifthToken) = .ok page :=
    apply_eq (by decide +kernel) (by decide +kernel) afterOf_fifthToken
  refine ⟨happly, rfl, by decide +kernel, remaining_posts, ?_⟩
  rw [head?_answer, remaining_posts]
  rfl

end CursorPager

end Relational
