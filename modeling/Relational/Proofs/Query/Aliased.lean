import Relational.Proofs.Query.Spots
/-
Where the aliases of a query stand.

A name keeps its alias wherever it is written.  The names of conditions have none; those of all other
clauses can, and the calls that add them check all of them alike.  So the aliases of a statement are
those of its names, clause by clause, and one of its own behind an aggregate.
-/
namespace Relational

/-! ### Clauses that are read -/

open Sql (Reads Shows Opens)

variable {d : Dialect}

theorem Comparison.reads_sql (c : Comparison) {spot : Spot} :
    Reads d [.words (" " ++ c.sql ++ " ")] spot [] spot := by
  refine .stays _ ⟨?_, ?_⟩
  · cases c <;> decide
  · cases spot <;> cases c <;> decide

/-- No condition has an alias. -/
theorem Leaf.reads {l : Leaf} (h : l.Checked NoText) : Reads d l.pieces .elsewhere [] .elsewhere := by
  cases l with
  | compare column comparison v =>
      exact (Reads.column h.1).append (comparison.reads_sql.append (.bound v))
  | member column negated values =>
      cases values with
      | nil =>
          cases negated with
          | false => exact .stays _ (by decide)
          | true => exact .stays _ (by decide)
      | cons v vs =>
          have hvalues : Reads d (Sql.separated ", " ((v :: vs).map fun v => [.bound v])) .elsewhere
              ((v :: vs).flatMap fun _ => []) .elsewhere :=
            .separated (.stays _ (by decide)) fun v _ => .bound v
          rw [List.flatMap_eq_nil_iff.mpr fun _ _ => rfl] at hvalues
          have hclosing : Reads d [.words ")"] .elsewhere [] .elsewhere :=
            .stays _ (by decide)
          have hwords : Reads d [.words (" " ++ Operator.memberSql negated ++ " (")] .elsewhere []
              .elsewhere := by
            cases negated with
            | false => exact .stays _ (by decide)
            | true => exact .stays _ (by decide)
          have hwhole := (((Reads.column h).append hwords).append hvalues).append hclosing
          cases negated with
          | false => exact hwhole
          | true => exact hwhole
  | range column negated low high =>
      have hand : Reads d [.words " AND "] .elsewhere [] .elsewhere :=
        .stays _ (by decide)
      have hwords : Reads d [.words (" " ++ Operator.rangeSql negated ++ " ")] .elsewhere []
          .elsewhere := by
        cases negated with
        | false => exact .stays _ (by decide)
        | true => exact .stays _ (by decide)
      exact (Reads.column h).append (hwords.append ((Reads.bound low).append
        (hand.append (.bound high))))
  | columns first comparison second =>
      exact (Reads.column h.1).append (comparison.reads_sql.append (.column h.2))
  | null column negated =>
      have hwords : Reads d [.words (if negated then " IS NOT NULL" else " IS NULL")] .elsewhere []
          .elsewhere := by
        cases negated with
        | false => exact .stays _ (by decide)
        | true => exact .stays _ (by decide)
      exact (Reads.column h).append hwords
  | raw sql bindings => exact h.2.2.elim

theorem Token.reads {t : Token} (ht : ∀ l, t = .leaf l → l.Checked NoText) (shared : Bool) :
    Reads d (t.pieces shared) .elsewhere [] .elsewhere := by
  cases t with
  | leaf l =>
      have hl := ht l rfl
      have hpieces : (leaf l).pieces shared = l.pieces := by
        cases l with
        | raw sql bindings => exact hl.2.2.elim
        | _ => rfl
      rw [hpieces]
      exact Leaf.reads hl
  | connector c =>
      cases c with
      | and => exact .stays _ (by decide)
      | or => exact .stays _ (by decide)
  | groupOpen => exact .stays _ (by decide)
  | groupClose => exact .stays _ (by decide)

theorem Conditions.Reached.reads {c : Conditions} (h : c.Reached NoText) :
    Reads d c.pieces .elsewhere [] .elsewhere := by
  have hall : Reads d c.pieces .elsewhere (c.tokens.flatMap fun _ => []) .elsewhere :=
    .flatMap fun _ ht => Token.reads (fun _ hl => h.checked_leaf (hl ▸ ht)) _
  rwa [List.flatMap_eq_nil_iff.mpr fun _ _ => rfl] at hall

/-- A clause of conditions, if there are any. -/
theorem Conditions.Reached.shows_clause {c : Conditions} (h : c.Reached NoText) {keyword : String}
    (hopens : ∀ spot, Reads d [.words keyword] spot [] .elsewhere) (spot : Spot) :
    Shows d (if c.isEmpty then [] else .words keyword :: c.pieces) spot [] := by
  split
  · exact .nil
  · have hwhole := Shows.behind (hopens spot) (h.reads (d := d)).shows
    exact hwhole

theorem Dialect.counts_limitOffset (d : Dialect) (limit offset : Option UInt64) :
    d.Counts "AS".toList (d.limitOffset limit offset) 0 := by
  have hnumber : ∀ n : UInt64, d.Counts "AS".toList (toString n) 0 := by
    intro n
    have hnatural : d.Counts "AS".toList (toString n.toNat) 0 := .number _ (by decide)
    exact hnatural
  have hlimit : d.Counts "AS".toList " LIMIT " 0 :=
    .literal (by decide)
  have hoffset : d.Counts "AS".toList " OFFSET " 0 :=
    .literal (by decide)
  have hfetch : d.Counts "AS".toList " FETCH NEXT " 0 :=
    .literal (by decide)
  unfold limitOffset
  split
  · exact .empty
  · refine ((hoffset.none_append (hnumber _)).none_append
      (.literal (by decide))).none_append ?_
    split
    · exact (hfetch.none_append (hnumber _)).none_append
        (.literal (by decide))
    · exact .empty
  · exact ((hlimit.none_append (hnumber _)).none_append hoffset).none_append (hnumber _)
  · exact hlimit.none_append (hnumber _)
  · exact .none_append (.literal (by decide)) (hnumber _)
  · exact .none_append (.literal (by decide)) (hnumber _)
  · exact hoffset.none_append (hnumber _)

namespace Query

variable {q : Query}

theorem cursor_of_bound? {cursor : Cursor} {v : Value} (h : q.bound? = some (cursor, v)) :
    q.cursor = some cursor := by
  obtain ⟨c, hc, hpair⟩ := Option.bind_eq_some_iff.mp h
  obtain ⟨value, -, hvalue⟩ := Option.map_eq_some_iff.mp hpair
  cases hvalue
  exact hc

namespace Checked

theorem shows_join (h : q.Checked NoText) {j : Join} (hj : j ∈ q.joins) (spot : Spot) :
    Shows d ([Piece.words (" " ++ j.kind.sql ++ " "), Piece.name j.table] ++ onPieces j) spot
      (Name.aliasAt .table j.table) := by
  have hkind : ∀ (kind : JoinKind) (spot : Spot),
      Reads d [.words (" " ++ kind.sql ++ " ")] spot [] .table := by
    intro kind
    cases kind with
    | inner => exact .opens _ (by decide)
    | left => exact .opens _ (by decide)
    | right => exact .opens _ (by decide)
    | cross => exact .opens _ (by decide)
  have htable := (hkind j.kind spot).append (Reads.name (h.joins j hj).1)
  have hon : ∀ spot, Shows d (onPieces j) spot [] :=
    (h.joins j hj).2.shows_clause (.opens _ (by decide))
  have hwhole := htable.shows.append hon
  rwa [List.nil_append, List.append_nil] at hwhole

theorem shows_wherePieces (h : q.Checked NoText) (spot : Spot) :
    Shows d q.wherePieces spot
      ((q.bound?.map (·.1.column)).toList.flatMap (Name.aliasAt .elsewhere)) := by
  have hopens : ∀ spot, Reads d [.words " WHERE "] spot [] .elsewhere :=
    .opens _ (by decide)
  unfold wherePieces
  split
  · rename_i hbound
    rw [hbound]
    exact h.filters.shows_clause hopens spot
  · rename_i cursor v hbound
    have hname : Reads d [.name cursor.column] .elsewhere
        (Name.aliasAt .elsewhere cursor.column) .elsewhere :=
      .name (h.cursor cursor (cursor_of_bound? hbound))
    have hpast := (hname.append cursor.direction.past.reads_sql).append (.bound v)
    have hopening : Reads d [.words "("] .elsewhere [] .elsewhere :=
      .stays _ (by decide)
    have hclosing : Reads d [.words ") AND "] .elsewhere [] .elsewhere :=
      .stays _ (by decide)
    have hfilters : Reads d (if q.filters.isEmpty then []
        else [Piece.words "("] ++ q.filters.pieces ++ [.words ") AND "]) .elsewhere [] .elsewhere := by
      split
      · exact .nil
      · exact (hopening.append h.filters.reads).append hclosing
    have hwhole := (((hopens spot).append hfilters).append hpast).shows
    rw [hbound]
    simpa using hwhole

theorem shows_groupPieces (h : q.Checked NoText) (spot : Spot) :
    Shows d q.groupPieces spot (q.groups.flatMap (Name.aliasAt .elsewhere)) := by
  unfold groupPieces
  split
  · rename_i hempty
    rw [List.isEmpty_iff.mp hempty]
    exact .nil
  · have hgroups : Reads d (Sql.separated ", " (q.groups.map fun g => [.name g])) .elsewhere
        (q.groups.flatMap (Name.aliasAt .elsewhere)) .elsewhere :=
      .separated (.stays _ (by decide)) fun g hg => .name (h.groups g hg)
    have hkeyword : Reads d [.words " GROUP BY "] spot [] .elsewhere :=
      .opens _ (by decide) spot
    have hwhole := Shows.behind hkeyword hgroups.shows
    exact hwhole

theorem shows_orderPieces (h : q.Checked NoText) (spot : Spot) :
    Shows d q.orderPieces spot
      ((q.orderings.flatMap Ordering.names).flatMap (Name.aliasAt .elsewhere)) := by
  have hchecked : ∀ o ∈ q.orderings, o.Checked NoText := by
    unfold orderings
    split
    · exact h.orders
    · rename_i c hc
      refine List.forall_mem_cons.mpr ⟨h.cursor c hc, fun o ho => ?_⟩
      exact h.orders o (List.mem_filter.mp ho).1
  rw [List.flatMap_assoc]
  unfold orderPieces
  split
  · rename_i hempty
    rw [List.isEmpty_iff.mp hempty]
    exact .nil
  · have horders : Reads d (Sql.separated ", " (q.orderings.map orderingPieces)) .elsewhere
        (q.orderings.flatMap fun o => o.names.flatMap (Name.aliasAt .elsewhere)) .elsewhere := by
      refine .separated (.stays _ (by decide)) fun o ho => ?_
      cases o with
      | column name direction =>
          have hdirection : Reads d [.words (" " ++ direction.sql)] .elsewhere [] .elsewhere := by
            cases direction with
            | asc => exact .stays _ (by decide)
            | desc => exact .stays _ (by decide)
          have hname := (Reads.name (hchecked _ ho)).append hdirection
          simpa [Ordering.names, orderingPieces] using hname
      | raw sql bindings => exact (hchecked _ ho).2.elim
    have hkeyword : Reads d [.words " ORDER BY "] spot [] .elsewhere :=
      .opens _ (by decide) spot
    have hwhole := Shows.behind hkeyword horders.shows
    exact hwhole

end Checked

theorem shows_limitPieces (q : Query) (d : Dialect) (spot : Spot) :
    Shows d (q.limitPieces d) spot [] := by
  have hunordered : Shows d (if (q.limit.isSome || q.offset.isSome) && q.orderings.isEmpty &&
      d.needsOrderForOffset then [.words " ORDER BY (SELECT NULL)"] else []) spot [] := by
    split
    · exact .words (.literal (by decide)) spot
    · exact .nil
  exact hunordered.append (.words (d.counts_limitOffset q.limit q.offset))

/-- The aliases behind `FROM`. -/
def aliasesBehind (q : Query) : List Spot :=
  (q.table.toList ++ q.joins.map (·.table)).flatMap (Name.aliasAt .table) ++
    ((q.bound?.map (·.1.column)).toList ++ q.groups ++
      q.orderings.flatMap Ordering.names).flatMap (Name.aliasAt .elsewhere)

theorem Checked.shows_behind (h : q.Checked NoText) {table : String} (htable : q.table = some table) :
    Shows d (q.behindPieces table d) .table q.aliasesBehind := by
  have hjoins : ∀ spot, Shows d (q.joins.flatMap fun j =>
      [Piece.words (" " ++ j.kind.sql ++ " "), Piece.name j.table] ++ onPieces j) spot
      (q.joins.flatMap fun j => Name.aliasAt .table j.table) :=
    .flatMap fun j hj => h.shows_join hj
  have hhavings : ∀ spot, Shows d q.havingPieces spot [] :=
    h.havings.shows_clause (.opens _ (by decide))
  have hname : Reads d [.name table] .table (Name.aliasAt .table table) .table :=
    .name (h.table table htable).1
  have hwhole := (((((hname.shows.append hjoins).append h.shows_wherePieces).append
    h.shows_groupPieces).append hhavings).append h.shows_orderPieces).append (q.shows_limitPieces d)
  rw [aliasesBehind, htable]
  simpa [behindPieces, List.flatMap_map] using hwhole

/-- What an aggregate is given. -/
def argumentPieces (distinct : Bool) (column : String) : List Piece :=
  if column == "*" then [.words "*"]
  else if distinct then [.words "DISTINCT ", .name column]
  else [.name column]

/-- The aliases of a select list; an aggregate has one of its own. -/
def listAliases (q : Query) : List Spot :=
  match q.aggregate with
  | some (_, column) => Name.aliasAt .argument column ++ [Spot.list]
  | none => q.selected.flatMap (Name.aliasAt .list)

namespace Checked

theorem reads_list (h : q.Checked NoText) :
    Reads d (if q.selections.isEmpty then [.words "*"]
      else Sql.separated ", " (q.selections.map selectionPieces)) .list
      (q.selected.flatMap (Name.aliasAt .list)) .list := by
  split
  · rename_i hempty
    rw [selected, List.isEmpty_iff.mp hempty]
    exact .stays _ (by decide)
  · rw [h.map_selectionPieces]
    exact .separated (.stays _ (by decide)) fun n hn =>
      .name (h.isAliased_of_mem_selected n hn)

/-- What an aggregate is given, its own alias and what stands behind it. -/
theorem opens_argument (h : q.Checked NoText) {function : Aggregate} {column : String}
    (haggregate : q.aggregate = some (function, column)) {rest : List Piece} {more : List Spot}
    (hrest : ∀ spot, Shows d rest spot more) (distinct : Bool) :
    Opens d (argumentPieces distinct column ++ [Piece.words ") AS ", Piece.name aggregateName] ++ rest)
      .argument (Name.aliasAt .argument column ++ [Spot.list] ++ more) := by
  have hclosing : Reads d [.words ") AS "] .argument [.list] .list :=
    .words ") AS " (by decide) (by decide) (by decide)
  have hname : Reads d [.name aggregateName] .list [] .list := .column (by decide +kernel)
  unfold argumentPieces
  by_cases hstar : column = "*"
  · have hnone : Name.aliasAt .argument "*" = [] := by decide +kernel
    have hargument : Reads d [.words "*"] .argument [] .argument :=
      .stays _ (by decide)
    have hwhole := (hargument.append (hclosing.append hname)).shows.append hrest
    rw [if_pos (beq_iff_eq.mpr hstar), hstar, hnone]
    exact hwhole.opens
  · have hargument : Reads d [.name column] .argument (Name.aliasAt .argument column) .argument :=
      .name ((h.aggregate function column haggregate).resolve_left hstar)
    have hwhole := (hargument.append (hclosing.append hname)).shows.append hrest
    rw [if_neg (by simpa using hstar)]
    cases distinct with
    | false => exact hwhole.opens
    | true => exact .behind (by decide) (by decide) hwhole.opens

theorem opens_readPieces (h : q.Checked NoText) {table : String} (htable : q.table = some table) :
    Opens d (q.readPieces table d) .elsewhere (q.listAliases ++ q.aliasesBehind) := by
  have hbehind : ∀ spot, Shows d ([Piece.words " FROM "] ++ q.behindPieces table d) spot
      q.aliasesBehind := by
    intro spot
    have hfrom : Reads d [.words " FROM "] spot [] .table :=
      .opens _ (by decide) spot
    have hwhole := Shows.behind hfrom (h.shows_behind htable)
    exact hwhole
  have hpieces : q.readPieces table d = .words "SELECT " :: (q.selectPieces ++
      ([Piece.words " FROM "] ++ q.behindPieces table d)) := by
    simp [readPieces, behindPieces]
  rw [hpieces]
  refine .behind (by decide) (by decide : _ = Spot.list) ?_
  unfold selectPieces listAliases
  rcases haggregate : q.aggregate with _ | ⟨function, column⟩
  · have hlist := (h.reads_list (d := d)).shows.append hbehind
    cases q.distinct with
    | false => exact hlist.opens
    | true => exact .behind (by decide) (by decide) hlist.opens
  · have hfunction : (Dialect.AllPlain (function.sql ++ "(").toList ∧
        Text.EndsApart (function.sql ++ "(").toList ∧
        Spot.list.aliases (Text.tokens (function.sql ++ "(").toList) = []) ∧
        Spot.list.after (Text.tokens (function.sql ++ "(").toList) = .argument := by
      cases function <;> decide
    have hargument := h.opens_argument (d := d) haggregate hbehind q.distinct
    exact .behind hfunction.1 hfunction.2 hargument

end Checked

/-! ### The aliases of a statement -/

/-- The names that cannot have an alias where they stand: what is grouped and ordered by, and what an
aggregate is given. -/
def unaliasable (q : Query) : List String :=
  q.groups ++ q.orderings.flatMap Ordering.names ++ (q.aggregate.map (·.2)).toList

theorem Checked.aliases_toSql (h : q.Checked NoText) {st : Statement} (hst : q.toSql d = .ok st) :
    Spot.elsewhere.aliases (Text.tokens (d.unquoted st.sql)) = q.listAliases ++ q.aliasesBehind := by
  obtain ⟨table, htable, hsql⟩ :=
    (q.refused_or_toSql_eq d).resolve_left (not_refused_of_toSql hst)
  rw [hst] at hsql
  cases hsql
  obtain ⟨tokens, htold, haliases⟩ := h.opens_readPieces (d := d) htable 0
  rw [Sql.render, htold.tokens_unquoted, haliases]

/-- In a place for aliases every name can have one, and in another none. -/
theorem takes_aliasesAt {spot : Spot} {names : List String} :
    (∀ read ∈ names.flatMap (Name.aliasAt spot), read.Takes) ↔
      spot.Takes ∨ ∀ n ∈ names, ¬Name.HasAlias n := by
  have hread : ∀ read n, read ∈ Name.aliasAt spot n ↔ read = spot ∧ Name.HasAlias n := by
    intro read n
    unfold Name.aliasAt
    split
    · rename_i halias
      rw [List.mem_singleton, and_iff_left halias]
    · rename_i halias
      exact iff_of_false List.not_mem_nil fun h => halias h.2
  constructor
  · intro h
    by_cases hspot : spot.Takes
    · exact .inl hspot
    · refine .inr fun n hn halias => hspot (h spot ?_)
      exact List.mem_flatMap.mpr ⟨n, hn, (hread spot n).mpr ⟨rfl, halias⟩⟩
  · intro h read hmem
    obtain ⟨n, hn, hmem⟩ := List.mem_flatMap.mp hmem
    obtain ⟨rfl, halias⟩ := (hread read n).mp hmem
    exact h.resolve_right fun hnone => hnone n hn halias

theorem takes_listAliases (q : Query) : (∀ spot ∈ q.listAliases, spot.Takes) ↔
    ∀ n ∈ (q.aggregate.map (·.2)).toList, ¬Name.HasAlias n := by
  unfold listAliases
  rcases q.aggregate with _ | ⟨function, column⟩
  · have hlist : Spot.list.Takes := .inl rfl
    exact iff_of_true (takes_aliasesAt.mpr (.inl hlist)) fun _ hn => nomatch hn
  · have hargument : ¬Spot.argument.Takes := by decide
    have hown : ∀ spot ∈ [Spot.list], spot.Takes := by decide
    have hcolumn : (∀ spot ∈ [column].flatMap (Name.aliasAt .argument), spot.Takes) ↔
        ∀ n ∈ [column], ¬Name.HasAlias n := by
      rw [takes_aliasesAt, or_iff_right hargument]
    rw [List.flatMap_singleton] at hcolumn
    rw [List.forall_mem_append, and_iff_left hown, hcolumn]
    rfl

theorem bound_mem_orderings {n : String} (h : n ∈ (q.bound?.map (·.1.column)).toList) :
    n ∈ q.orderings.flatMap Ordering.names := by
  obtain ⟨⟨cursor, v⟩, hbound, rfl⟩ := Option.map_eq_some_iff.mp (Option.mem_toList.mp h)
  have hfirst : Ordering.column cursor.column cursor.direction ∈ q.orderings := by
    rw [orderings, cursor_of_bound? hbound]
    exact List.mem_cons_self
  exact List.mem_flatMap.mpr ⟨_, hfirst, List.mem_singleton_self _⟩

theorem takes_aliasesBehind (q : Query) : (∀ spot ∈ q.aliasesBehind, spot.Takes) ↔
    ∀ n ∈ q.groups ++ q.orderings.flatMap Ordering.names, ¬Name.HasAlias n := by
  have htable : Spot.table.Takes := .inr rfl
  have helsewhere : ¬Spot.elsewhere.Takes := by decide
  rw [aliasesBehind, List.forall_mem_append, and_iff_right (takes_aliasesAt.mpr (.inl htable)),
    takes_aliasesAt, or_iff_right helsewhere, List.append_assoc, List.forall_mem_append]
  refine and_iff_right_of_imp fun h n hn => h n (List.mem_append_right _ (bound_mem_orderings hn))

/-- **Where the aliases of a query stand.**  Without raw fragments the keyword stands behind each
name with an alias and behind an aggregate, in the order of the clauses; so it stands in the select
list and behind tables only, exactly if no grouping, no ordering, no cursor and no argument of an
aggregate has an alias. -/
theorem aliases_in_place_iff (calls : List QueryCall) (hraw : ∀ call ∈ calls, call.fragments = [])
    {st : Statement} (hst : (built calls).toSql d = .ok st) :
    let read := Spot.elsewhere.aliases (Text.tokens (d.unquoted st.sql))
    read = (built calls).listAliases ++ (built calls).aliasesBehind ∧
      ((∀ spot ∈ read, spot.Takes) ↔ ∀ n ∈ (built calls).unaliasable, ¬Name.HasAlias n) := by
  intro read
  have hchecked : (built calls).Checked NoText := checked_built calls fun call hcall sql hsql => by
    rw [hraw call hcall] at hsql
    cases hsql
  have hread : read = (built calls).listAliases ++ (built calls).aliasesBehind :=
    hchecked.aliases_toSql hst
  refine ⟨hread, ?_⟩
  rw [hread, List.forall_mem_append, takes_listAliases, takes_aliasesBehind, and_comm,
    ← List.forall_mem_append]
  rfl

/-- Aliases of both tables and of an entry of the select list. -/
theorem aliased_posts_in_place :
    let calls : List QueryCall :=
      [.source "posts as p", .joinOn .inner "users as u" "p.author" "=" "u.id",
        .select ["p.title as title"], .groupBy ["p.title"]]
    let sql := "SELECT \"p\".\"title\" AS \"title\" FROM \"posts\" AS \"p\" " ++
      "INNER JOIN \"users\" AS \"u\" ON \"p\".\"author\" = \"u\".\"id\" GROUP BY \"p\".\"title\""
    (∀ call ∈ calls, call.fragments = []) ∧ (built calls).toSql .sqlite = .ok ⟨sql, []⟩ ∧
      Spot.elsewhere.aliases (Text.tokens (Dialect.sqlite.unquoted sql)) = [.list, .table, .table] ∧
      ∀ n ∈ (built calls).unaliasable, ¬Name.HasAlias n := by
  intro calls sql
  have hraw : ∀ call ∈ calls, call.fragments = [] := by decide +kernel
  have hst : (built calls).toSql .sqlite = .ok ⟨sql, []⟩ := by decide +kernel
  obtain ⟨hread, hplaced⟩ := aliases_in_place_iff calls hraw hst
  have hspots : (built calls).listAliases ++ (built calls).aliasesBehind = [.list, .table, .table] := by
    decide +kernel
  refine ⟨hraw, hst, hread.trans hspots, hplaced.mp ?_⟩
  rw [hread.trans hspots]
  decide

/-- A grouping is accepted with an alias, and the keyword stands in it. -/
theorem grouping_takes_alias :
    (built [.source "posts", .groupBy ["a as b"]]).toSql .sqlite =
        .ok ⟨"SELECT * FROM \"posts\" GROUP BY \"a\" AS \"b\"", []⟩ ∧
      Spot.elsewhere.aliases (Text.tokens
        (Dialect.sqlite.unquoted "SELECT * FROM \"posts\" GROUP BY \"a\" AS \"b\"")) =
          [.elsewhere] := by
  decide +kernel

end Query

end Relational
