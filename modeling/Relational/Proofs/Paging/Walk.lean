import Relational.Paging.Cursor
import Relational.Proofs.Paging.Token
/-
Walking through a result page by page.

A walk starts without a token and goes on with the token of the page before, until a page
has none.  What carries it is that the rows past a token are exactly the rows that are
still to come: the token stands for the last row of its page, the rows in front of it do
not lie past it, and the rows behind it do.
-/
namespace Relational

/-- The order a database keeps values in. -/
structure Collation where
  precedes : Value → Value → Bool
  asymm : ∀ a b, precedes a b = true → precedes b a = false

/-- Whether `b` lies strictly past `a` in a direction. -/
def Collation.past (o : Collation) : Direction → Value → Value → Bool
  | .asc, a, b => o.precedes a b
  | .desc, a, b => o.precedes b a

theorem Collation.past_asymm (o : Collation) {d : Direction} {a b : Value}
    (h : o.past d a b = true) : o.past d b a = false := by
  rcases d with _ | _
  · exact o.asymm a b h
  · exact o.asymm b a h

theorem Collation.past_irrefl (o : Collation) (d : Direction) (a : Value) :
    o.past d a a = false := by
  by_cases h : o.past d a a = true
  · exact o.past_asymm h
  · simpa using h

namespace CursorPager

variable (p : CursorPager) (o : Collation) {q : Query} {rows : List Row} {fetch : Query → List Row}

/-! ### What the database answers -/

/-- Whether a row lies strictly past a value in a direction. -/
def liesPast (direction : Direction) (after : Value) (row : Row) : Bool :=
  match p.valueIn row with
  | .ok v => o.past direction after v
  | .error _ => false

/-- Some rows, in order and each with a value strictly past those in front of it.  The values are
all integers or all texts. -/
structure Ordered (rows : List Row) : Prop where
  kind : (∀ row ∈ rows, ∃ n, p.valueIn row = .ok (.int n)) ∨
    (∀ row ∈ rows, ∃ s, p.valueIn row = .ok (.text s))
  increasing : rows.Pairwise fun a b => ∀ v, p.valueIn a = .ok v → p.liesPast o p.direction v b = true

/-- The rows past the cursor of a query, without those its offset leaves out, and no more than its
limit. -/
def answer (rows : List Row) (query : Query) : List Row :=
  let past := match query.bound? with
    | some (cursor, after) => rows.filter (p.liesPast o cursor.direction after)
    | none => rows
  let rest := past.drop (query.offset.getD 0).toNat
  match query.limit with
  | some n => rest.take n.toNat
  | none => rest

/-- The database answers the queries of the pager from `rows`.  An answer is a vector, which never
has as many rows as the largest number of sixty-four bits. -/
structure Serves (q : Query) (rows : List Row) (fetch : Query → List Row) : Prop where
  answers : ∀ token query, p.apply q token = .ok query → fetch query = p.answer o rows query
  fits : ∀ token query, p.apply q token = .ok query → (fetch query).length < UInt64.size - 1

/-! ### Walks -/

/-- The page behind a token. -/
def page (q : Query) (fetch : Query → List Row) (token : Option String) :
    Except PagingError CursorPage := do
  let query ← p.apply q token
  p.pageOf (fetch query)

/-- The pages from a token on, each behind the token of the page before, up to one without. -/
inductive Walk (q : Query) (fetch : Query → List Row) : Option String → List CursorPage → Prop
  | last {token : Option String} {page : CursorPage} (h : p.page q fetch token = .ok page)
    (hnext : page.nextCursor = none) : Walk q fetch token [page]
  | next {token : Option String} {page : CursorPage} {pages : List CursorPage} {next : String}
    (h : p.page q fetch token = .ok page) (hnext : page.nextCursor = some next)
    (hrest : Walk q fetch (some next) pages) : Walk q fetch token (page :: pages)

variable {p o}

/-- From a token on there is at most one walk. -/
theorem Walk.unique {token : Option String} {pages other : List CursorPage}
    (h : p.Walk q fetch token pages) (hother : p.Walk q fetch token other) : other = pages := by
  induction h generalizing other with
  | last h hnext =>
      rcases hother with ⟨hother, _⟩ | ⟨hother, hmore, _⟩
      · rw [h] at hother
        cases hother
        rfl
      · rw [h] at hother
        cases hother
        rw [hnext] at hmore
        cases hmore
  | next h hnext hrest ih =>
      rcases hother with ⟨hother, hlast⟩ | ⟨hother, hmore, hrest⟩
      · rw [h] at hother
        cases hother
        rw [hnext] at hlast
        cases hlast
      · rw [h] at hother
        cases hother
        rw [hnext] at hmore
        cases hmore
        rw [ih hrest]

/-! ### The rows still to come -/

theorem Ordered.exists_value (h : p.Ordered o rows) {row : Row} (hrow : row ∈ rows) :
    ∃ v, p.valueIn row = .ok v ∧ TokenCodec.Portable v := by
  rcases h.kind with hint | htext
  · obtain ⟨n, hn⟩ := hint row hrow
    exact ⟨.int n, hn, TokenCodec.portable_int n⟩
  · obtain ⟨s, hs⟩ := htext row hrow
    exact ⟨.text s, hs, TokenCodec.portable_text s⟩

/-- The rows past a row are the rows behind it. -/
theorem Ordered.filter_liesPast {front back : List Row} {last : Row} {v : Value}
    (h : p.Ordered o (front ++ last :: back)) (hv : p.valueIn last = .ok v) :
    (front ++ last :: back).filter (p.liesPast o p.direction v) = back := by
  obtain ⟨_, hlast, hacross⟩ := List.pairwise_append.mp h.increasing
  have hbehind : ∀ row ∈ back, p.liesPast o p.direction v row = true :=
    fun row hrow => (List.pairwise_cons.mp hlast).1 row hrow v hv
  have hself : p.liesPast o p.direction v last = false := by
    rw [liesPast, hv]
    exact o.past_irrefl p.direction v
  have hbefore : ∀ row ∈ front, p.liesPast o p.direction v row = false := by
    intro row hrow
    obtain ⟨w, hw, _⟩ := h.exists_value (List.mem_append_left _ hrow)
    have hpast := hacross row hrow last (by simp) w hw
    rw [liesPast, hv] at hpast
    rw [liesPast, hw]
    exact o.past_asymm hpast
  rw [List.filter_append, List.filter_cons, hself, List.filter_eq_self.mpr hbehind,
    List.filter_eq_nil_iff.mpr fun row hrow => by simp [hbefore row hrow]]
  rfl

variable (p o) in
/-- The rows past a value, or all of them. -/
def remaining (rows : List Row) : Option Value → List Row
  | some after => rows.filter (p.liesPast o p.direction after)
  | none => rows

variable (p) in
/-- The query for the page behind a value. -/
def pageQuery (q : Query) (after : Option Value) : Query :=
  { q with
    cursor := some ⟨p.column, p.direction, after⟩
    limit := some (saturated (p.perPage.toNat + 1)) }

theorem take_startAfter (hcolumn : Name.isAliased p.column = true) (q : Query)
    (after : Option Value) :
    (q.startAfter p.column p.direction after).take (saturated (p.perPage.toNat + 1)) =
      p.pageQuery q after := by
  rw [Query.startAfter, Query.whenAliased, if_pos hcolumn]
  rfl

theorem apply_eq (hcolumn : Name.isAliased p.column = true) (hnone : q.error = none)
    {token : Option String} {after : Option Value} (hafter : p.afterOf token = .ok after) :
    p.apply q token = .ok (p.pageQuery q after) := by
  have herror : (p.pageQuery q after).error = none := hnone
  unfold apply
  simp only [hafter, bind, Except.bind, take_startAfter hcolumn, herror]

theorem answer_pageQuery (rows : List Row) (after : Option Value) :
    p.answer o rows (p.pageQuery q after) =
      ((p.remaining o rows after).drop (q.offset.getD 0).toNat).take
        (saturated (p.perPage.toNat + 1)).toNat := by
  cases after with
  | none => rfl
  | some v => rfl

/-- One row more than the page holds is answered, if there is one. -/
theorem fetch_eq (hcolumn : Name.isAliased p.column = true) (hnone : q.error = none)
    (hoffset : q.offset = none) (hserves : p.Serves o q rows fetch) {token : Option String}
    {after : Option Value} (hafter : p.afterOf token = .ok after) :
    fetch (p.pageQuery q after) = (p.remaining o rows after).take (p.perPage.toNat + 1) := by
  have hanswer : fetch (p.pageQuery q after) =
      (p.remaining o rows after).take (min (p.perPage.toNat + 1) (UInt64.size - 1)) := by
    have hlimit : (saturated (p.perPage.toNat + 1)).toNat =
        min (p.perPage.toNat + 1) (UInt64.size - 1) := by
      have hlargest : UInt64.size - 1 < UInt64.size := by decide
      rw [saturated, UInt64.toNat_ofNat']
      exact Nat.mod_eq_of_lt (Nat.lt_of_le_of_lt (Nat.min_le_right _ _) hlargest)
    rw [hserves.answers token _ (apply_eq hcolumn hnone hafter), answer_pageQuery, hoffset, hlimit]
    rfl
  have hfits := hserves.fits token _ (apply_eq hcolumn hnone hafter)
  have hsize : p.perPage.toNat < UInt64.size := p.perPage.toNat_lt
  rw [hanswer, List.length_take] at hfits
  rw [hanswer]
  -- Only the largest page asks for no row more, and no answer fills it.
  by_cases hlargest : p.perPage.toNat + 1 ≤ UInt64.size - 1
  · rw [Nat.min_eq_left hlargest]
  · rw [List.take_of_length_le (by omega), List.take_of_length_le (by omega)]

/-! ### One page -/

theorem pageOf_last {rest : List Row} (h : rest.length ≤ p.perPage.toNat) :
    p.pageOf (rest.take (p.perPage.toNat + 1)) =
      .ok { items := rest, perPage := p.perPage, hasMore := false, nextCursor := none } := by
  have hmore : decide (p.perPage.toNat < rest.length) = false := by
    simpa using h
  have hnext : p.nextCursor rest false = .ok none := by
    unfold nextCursor
    split
    · rfl
    · rfl
  have hall : rest.take (p.perPage.toNat + 1) = rest := List.take_of_length_le (by omega)
  have hitems : rest.take p.perPage.toNat = rest := List.take_of_length_le h
  unfold pageOf
  simp only [hall, hitems, hmore, hnext]
  rfl

/-- A page with rows behind it has a token for its last row. -/
theorem pageOf_more {init rest : List Row} {last : Row} {v : Value}
    (hlength : (init ++ [last]).length = p.perPage.toNat) (hrest : rest ≠ [])
    (hv : p.valueIn last = .ok v) (hportable : TokenCodec.Portable v) :
    ∃ next, p.pageOf ((init ++ last :: rest).take (p.perPage.toNat + 1)) =
        .ok { items := init ++ [last], perPage := p.perPage, hasMore := true,
              nextCursor := some next } ∧
      p.afterOf (some next) = .ok (some v) := by
  obtain ⟨next, hencode, hdecode⟩ := p.codec.decode_encode p.column p.direction hportable
  have hitems : ((init ++ last :: rest).take (p.perPage.toNat + 1)).take p.perPage.toNat =
      init ++ [last] := by
    rw [List.take_take, Nat.min_eq_left (Nat.le_succ _), List.append_cons, ← hlength,
      List.take_left]
  have hmore : decide (p.perPage.toNat <
      ((init ++ last :: rest).take (p.perPage.toNat + 1)).length) = true := by
    have hpos := List.length_pos_iff.mpr hrest
    rw [decide_eq_true_eq, List.length_take, List.append_cons, List.length_append]
    omega
  have hnext : p.nextCursor (init ++ [last]) true = .ok (some next) := by
    unfold nextCursor
    rw [List.getLast?_concat]
    simp only [if_true, hv, bind, Except.bind, hencode]
    rfl
  refine ⟨next, ?_, ?_⟩
  · unfold pageOf
    simp only [hitems, hmore, hnext]
    rfl
  · rw [afterOf, hdecode, if_neg (fun hne => hne rfl), if_neg (fun hne => hne rfl)]
    rfl

/-! ### All pages -/

/-- The number of pages that some rows fill. -/
def pageCount (length size : Nat) : Nat :=
  max 1 ((length + size - 1) / size)

theorem pageCount_of_le {length size : Nat} (hsize : 0 < size) (h : length ≤ size) :
    pageCount length size = 1 := by
  have hlt : (length + size - 1) / size < 2 := by
    rw [Nat.div_lt_iff_lt_mul hsize]
    omega
  unfold pageCount
  omega

/-- A full page and the pages of the other rows. -/
theorem pageCount_of_lt {length size : Nat} (hsize : 0 < size) (h : size < length) :
    pageCount length size = pageCount (length - size) size + 1 := by
  have hsum : length + size - 1 = (length - 1) + size := by omega
  have hrest : length - size + size - 1 = length - 1 := by omega
  have hpos : 0 < (length - 1) / size := Nat.div_pos (by omega) hsize
  unfold pageCount
  rw [hsum, hrest, Nat.add_div_right _ hsize]
  omega

/-- A full page ends with a row, and the other rows stand behind it. -/
theorem exists_last_of_page {size : Nat} (hsize : 0 < size) {rest : List Row}
    (h : size < rest.length) : ∃ init last, rest.take size = init ++ [last] ∧
      rest = init ++ last :: rest.drop size := by
  have hne : rest.take size ≠ [] := by
    intro hnil
    have hlength := congrArg List.length hnil
    rw [List.length_take, List.length_nil] at hlength
    omega
  obtain ⟨init, last, hitems⟩ := (List.eq_nil_or_concat (rest.take size)).resolve_left hne
  rw [List.concat_eq_append] at hitems
  refine ⟨init, last, hitems, ?_⟩
  rw [List.append_cons, ← hitems, List.take_append_drop]

/-- From a token on, the walk covers the rows that are still to come. -/
theorem exists_walk (hcolumn : Name.isAliased p.column = true) (hnone : q.error = none)
    (hoffset : q.offset = none) (hordered : p.Ordered o rows) (hserves : p.Serves o q rows fetch)
    {token : Option String} {after : Option Value} (hafter : p.afterOf token = .ok after)
    {front rest : List Row} (hrows : rows = front ++ rest)
    (hremaining : p.remaining o rows after = rest) :
    ∃ pages, p.Walk q fetch token pages ∧ pages.flatMap CursorPage.items = rest ∧
      pages.length = pageCount rest.length p.perPage.toNat := by
  have hsize := p.perPage_pos
  induction hn : rest.length using Nat.strongRecOn generalizing token after front rest with
  | ind n ih =>
      subst hn
      have hpage : p.page q fetch token =
          p.pageOf (rest.take (p.perPage.toNat + 1)) := by
        rw [page, apply_eq hcolumn hnone hafter, ← hremaining,
          ← fetch_eq hcolumn hnone hoffset hserves hafter]
        rfl
      by_cases hle : rest.length ≤ p.perPage.toNat
      · refine ⟨_, .last (hpage.trans (pageOf_last hle)) rfl, ?_, ?_⟩
        · simp
        · rw [pageCount_of_le hsize hle]
          rfl
      · have hlt : p.perPage.toNat < rest.length := by omega
        -- The page is full, and its last row has a value that the next token carries.
        obtain ⟨init, last, hitems, hsplit⟩ := exists_last_of_page hsize hlt
        have hlength : (init ++ [last]).length = p.perPage.toNat := by
          rw [← hitems, List.length_take, Nat.min_eq_left (by omega)]
        have hback : rest.drop p.perPage.toNat ≠ [] := by
          rw [Ne, List.drop_eq_nil_iff]
          omega
        have hcut : rows = (front ++ init) ++ last :: rest.drop p.perPage.toNat := by
          rw [List.append_assoc, ← hsplit, hrows]
        have hmem : last ∈ rows := by
          rw [hcut]
          simp
        obtain ⟨v, hv, hportable⟩ := hordered.exists_value hmem
        obtain ⟨next, hmore, hnext⟩ := pageOf_more hlength hback hv hportable
        rw [← hsplit] at hmore
        have hpast : p.remaining o rows (some v) = rest.drop p.perPage.toNat := by
          rw [hcut] at hordered ⊢
          exact hordered.filter_liesPast hv
        have hfewer : (rest.drop p.perPage.toNat).length < rest.length := by
          rw [List.length_drop]
          omega
        rw [List.append_cons] at hcut
        obtain ⟨pages, hwalk, hcovered, hcount⟩ := ih _ hfewer hnext hcut hpast rfl
        refine ⟨_, .next (hpage.trans hmore) rfl hwalk, ?_, ?_⟩
        · rw [List.flatMap_cons, hcovered, ← hitems, List.take_append_drop]
        · rw [List.length_cons, hcount, pageCount_of_lt hsize hlt, List.length_drop]

/-- **A walk returns every row once.**  Over rows in strict order, with a database that answers the
queries of the pager, the walk from the first page on comes to an end, and its pages are the rows
cut into pieces. -/
theorem walk_covers_rows (hcolumn : Name.isAliased p.column = true) (hnone : q.error = none)
    (hoffset : q.offset = none) (hordered : p.Ordered o rows)
    (hserves : p.Serves o q rows fetch) :
    ∃ pages, p.Walk q fetch none pages ∧
      (∀ other, p.Walk q fetch none other → other = pages) ∧
      pages.length = max 1 ((rows.length + p.perPage.toNat - 1) / p.perPage.toNat) ∧
      pages.flatMap CursorPage.items = rows := by
  have hfirst : p.afterOf none = .ok none := rfl
  have hall : rows = [] ++ rows := rfl
  obtain ⟨pages, hwalk, hcovered, hcount⟩ :=
    exists_walk hcolumn hnone hoffset hordered hserves hfirst hall rfl
  exact ⟨pages, hwalk, fun other hother => hwalk.unique hother, hcount, hcovered⟩

theorem length_answer_le {query : Query} : (p.answer o rows query).length ≤ rows.length := by
  unfold answer
  rcases query.bound? with _ | ⟨cursor, after⟩
  · rcases query.limit with _ | n
    · simp only [List.length_drop]
      omega
    · simp only [List.length_take, List.length_drop]
      omega
  · have hle := List.length_filter_le (p.liesPast o cursor.direction after) rows
    rcases query.limit with _ | n
    · simp only [List.length_drop]
      omega
    · simp only [List.length_take, List.length_drop]
      omega

/-- Integers by size, and nothing else. -/
def byInteger : Collation where
  precedes
    | .int m, .int n => m < n
    | _, _ => false
  asymm := by
    intro a b h
    cases a with
    | int m =>
        cases b with
        | int n =>
            have hlt : m < n := by simpa using h
            exact decide_eq_false (Int64.not_lt.mpr (Int64.le_of_lt hlt))
        | _ => cases h
    | _ => cases h

/-- Three posts, newest first, make two pages of at most two. -/
theorem walk_covers_three_posts :
    let p : CursorPager := ⟨"posts.id", .desc, 2, ⟨[115, 51]⟩, by decide⟩
    let rows := [9, 5, -2].map fun n : Int64 => Row.ofList [("id", .int n)]
    let q := Query.ofTable "posts"
    let fetch := p.answer byInteger rows
    (Name.isAliased p.column = true ∧ q.error = none ∧ q.offset = none ∧
      p.Ordered byInteger rows ∧ p.Serves byInteger q rows fetch) ∧
    ∃ pages, p.Walk q fetch none pages ∧ (∀ other, p.Walk q fetch none other → other = pages) ∧
      pages.length = 2 ∧ pages.flatMap CursorPage.items = rows := by
  intro p rows q fetch
  have hcolumn : Name.isAliased p.column = true := by decide
  have hnone : q.error = none := by decide
  have hoffset : q.offset = none := by decide
  have hvalue : ∀ n : Int64, p.valueIn (Row.ofList [("id", .int n)]) = .ok (.int n) := by
    have hname : Name.unqualified p.column = "id" := by decide +kernel
    intro n
    rw [valueIn, hname]
    rfl
  have hordered : p.Ordered byInteger rows := by
    refine ⟨Or.inl fun row hrow => ?_, List.pairwise_map.mpr ?_⟩
    · obtain ⟨n, _, rfl⟩ := List.mem_map.mp hrow
      exact ⟨n, hvalue n⟩
    · have hfalling : [9, 5, -2].Pairwise fun m n : Int64 => n < m := by decide
      refine hfalling.imp fun {m n} hlt v hv => ?_
      rw [hvalue] at hv
      cases hv
      rw [liesPast, hvalue]
      exact decide_eq_true hlt
  have hserves : p.Serves byInteger q rows fetch :=
    ⟨fun _ _ _ => rfl, fun _ _ _ => Nat.lt_of_le_of_lt length_answer_le (by decide)⟩
  have hcount : max 1 ((rows.length + p.perPage.toNat - 1) / p.perPage.toNat) = 2 := by decide
  obtain ⟨pages, hwalk, honly, hlength, hcovered⟩ :=
    walk_covers_rows hcolumn hnone hoffset hordered hserves
  exact ⟨⟨hcolumn, hnone, hoffset, hordered, hserves⟩,
    pages, hwalk, honly, hlength.trans hcount, hcovered⟩

end CursorPager

end Relational
