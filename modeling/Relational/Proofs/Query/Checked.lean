import Relational.Proofs.Query.Call
/-
What is known of every query that can be built.

Every call checks its names and fragments before it changes a clause, so whatever the
clauses hold is checked, in a query with faults as well.
-/
namespace Relational

/-- What is checked of an entry of the select list. -/
def Selection.Checked (given : String → Prop) : Selection → Prop
  | column name => Name.isAliased name = true
  | raw sql bindings => Marker.count sql = bindings.length ∧ given sql

/-- What is checked of an entry of the ordering. -/
def Ordering.Checked (given : String → Prop) : Ordering → Prop
  | column name _ => Name.isAliased name = true
  | raw sql bindings => Marker.count sql = bindings.length ∧ given sql

/-- What is checked of the clauses of a query. -/
structure Query.Checked (given : String → Prop) (q : Query) : Prop where
  table : ∀ t, q.table = some t → Name.isAliased t = true ∧ t ≠ "*"
  selections : ∀ s ∈ q.selections, s.Checked given
  aggregate : ∀ function column, q.aggregate = some (function, column) →
    column = "*" ∨ Name.isAliased column = true
  joins : ∀ j ∈ q.joins, Name.isAliased j.table = true ∧ j.conditions.Reached given
  filters : q.filters.Reached given
  groups : ∀ g ∈ q.groups, Name.isAliased g = true
  havings : q.havings.Reached given
  orders : ∀ o ∈ q.orders, o.Checked given
  cursor : ∀ c, q.cursor = some c → Name.isAliased c.column = true

namespace Query.Checked

variable {given : String → Prop} {q : Query}

theorem empty : Query.empty.Checked given where
  table _ h := nomatch h
  selections _ h := nomatch h
  aggregate _ _ h := nomatch h
  joins _ h := nomatch h
  filters := .empty
  groups _ h := nomatch h
  havings := .empty
  orders _ h := nomatch h
  cursor _ h := nomatch h

/-- A fault changes no clause. -/
theorem fail (h : q.Checked given) (e : QueryError) : (q.fail e).Checked given :=
  { h with }

theorem whenAliased (h : q.Checked given) (clause : Clause) (name : String)
    {change : Query → Query}
    (hchange : Name.isAliased name = true → (change q).Checked given) :
    (q.whenAliased clause name change).Checked given := by
  unfold Query.whenAliased
  split
  · exact hchange ‹_›
  · exact h.fail _

theorem whenBalanced (h : q.Checked given) (clause : Clause) (sql : String)
    (bindings : List Value) {change : Query → Query}
    (hchange : Marker.count sql = bindings.length → (change q).Checked given) :
    (q.whenBalanced clause sql bindings change).Checked given := by
  unfold Query.whenBalanced
  split
  · exact hchange ‹_›
  · exact h.fail _

theorem source (h : q.Checked given) (table : String) : (q.source table).Checked given := by
  unfold Query.source
  split
  · rename_i htable
    rw [Bool.and_eq_true, bne_iff_ne] at htable
    exact { h with table := fun t ht => by cases ht; exact htable }
  · exact h.fail _

theorem addColumn (h : q.Checked given) (column : String) : (q.addColumn column).Checked given := by
  refine h.whenAliased _ _ fun hcolumn => { h with selections := fun s hs => ?_ }
  rcases List.mem_append.mp hs with hs | hs
  · exact h.selections s hs
  · rw [List.mem_singleton.mp hs]
    exact hcolumn

theorem addSelect (h : q.Checked given) (columns : List String) :
    (q.addSelect columns).Checked given := by
  induction columns generalizing q with
  | nil => exact h
  | cons column rest ih => exact ih (h.addColumn column)

theorem select (h : q.Checked given) (columns : List String) :
    (q.select columns).Checked given := by
  refine addSelect ?_ columns
  exact { h with selections := fun s hs => nomatch hs }

theorem selectRaw (h : q.Checked given) {sql : String} (hgiven : given sql)
    (bindings : List Value) : (q.selectRaw sql bindings).Checked given := by
  refine h.whenBalanced _ _ _ fun hcount => { h with selections := fun s hs => ?_ }
  rcases List.mem_append.mp hs with hs | hs
  · exact h.selections s hs
  · rw [List.mem_singleton.mp hs]
    exact ⟨hcount, hgiven⟩

theorem aggregateOf (h : q.Checked given) (function : Aggregate) (column : String) :
    (q.aggregateOf function column).Checked given := by
  unfold Query.aggregateOf
  split
  · rename_i hstar
    exact { h with aggregate := fun _ _ hc => by cases hc; exact Or.inl (by simpa using hstar) }
  · refine h.whenAliased _ _ fun hcolumn => ?_
    exact { h with aggregate := fun _ _ hc => by cases hc; exact Or.inr hcolumn }

theorem addJoin (h : q.Checked given) {join : Join} (hjoin : join.conditions.Reached given) :
    (q.addJoin join).Checked given := by
  refine h.whenAliased _ _ fun htable => { h with joins := fun j hj => ?_ }
  rcases List.mem_append.mp hj with hj | hj
  · exact h.joins j hj
  · rw [List.mem_singleton.mp hj]
    exact ⟨htable, hjoin⟩

theorem groupBy (h : q.Checked given) (columns : List String) :
    (q.groupBy columns).Checked given := by
  induction columns generalizing q with
  | nil => exact h
  | cons column rest ih =>
      refine ih (h.whenAliased _ _ fun hcolumn => { h with groups := fun g hg => ?_ })
      rcases List.mem_append.mp hg with hg | hg
      · exact h.groups g hg
      · rw [List.mem_singleton.mp hg]
        exact hcolumn

theorem orderBy (h : q.Checked given) (column : String) (direction : Direction) :
    (q.orderBy column direction).Checked given := by
  refine h.whenAliased _ _ fun hcolumn => { h with orders := fun o ho => ?_ }
  rcases List.mem_append.mp ho with ho | ho
  · exact h.orders o ho
  · rw [List.mem_singleton.mp ho]
    exact hcolumn

theorem orderByRaw (h : q.Checked given) {sql : String} (hgiven : given sql)
    (bindings : List Value) : (q.orderByRaw sql bindings).Checked given := by
  refine h.whenBalanced _ _ _ fun hcount => { h with orders := fun o ho => ?_ }
  rcases List.mem_append.mp ho with ho | ho
  · exact h.orders o ho
  · rw [List.mem_singleton.mp ho]
    exact ⟨hcount, hgiven⟩

theorem reorder (h : q.Checked given) : q.reorder.Checked given :=
  { h with orders := fun _ ho => nomatch ho }

theorem withoutLimits (h : q.Checked given) : q.withoutLimits.Checked given :=
  { h with }

theorem startAfter (h : q.Checked given) (column : String) (direction : Direction)
    (after : Option Value) : (q.startAfter column direction after).Checked given := by
  refine h.whenAliased _ _ fun hcolumn => { h with cursor := fun c hc => ?_ }
  cases hc
  exact hcolumn

/-- A call keeps what is known. -/
theorem run (h : q.Checked given) (call : QueryCall) (hgiven : ∀ sql ∈ call.fragments, given sql) :
    (call.run q).Checked given := by
  cases call with
  | source table => exact h.source table
  | select columns => exact h.select columns
  | addSelect columns => exact h.addSelect columns
  | selectRaw sql bindings => exact h.selectRaw (hgiven sql (by simp [QueryCall.fragments])) bindings
  | makeDistinct => exact { h with }
  | aggregateOf function column => exact h.aggregateOf function column
  | joinOn kind table first operator second =>
      exact h.addJoin (Conditions.Reached.empty.compareColumns .on .and first operator second)
  | crossJoin table => exact h.addJoin .empty
  | joinWith kind table steps =>
      exact h.addJoin (JoinCall.reached_foldl (.empty : Conditions.Reached given _) steps)
  | filtered call => exact { h with filters := ConditionCall.reached_run h.filters call hgiven }
  | groupBy columns => exact h.groupBy columns
  | having connector column operator operand =>
      cases connector with
      | and => exact { h with havings := h.havings.compare .having .and column operator operand }
      | or => exact { h with havings := h.havings.compare .orHaving .or column operator operand }
  | havingRaw sql bindings =>
      have hsql := hgiven sql (by simp [QueryCall.fragments])
      exact { h with havings := h.havings.fragment .havingRaw .and hsql bindings }
  | orderBy column direction => exact h.orderBy column direction
  | orderByRaw sql bindings =>
      exact h.orderByRaw (hgiven sql (by simp [QueryCall.fragments])) bindings
  | reorder => exact h.reorder
  | take n => exact { h with }
  | skip n => exact { h with }
  | withoutLimits => exact h.withoutLimits
  | startAfter column direction after => exact h.startAfter column direction after

theorem foldl (h : q.Checked given) (calls : List QueryCall)
    (hgiven : ∀ call ∈ calls, ∀ sql ∈ call.fragments, given sql) :
    (calls.foldl QueryCall.run q).Checked given := by
  induction calls generalizing q with
  | nil => exact h
  | cons call rest ih =>
      exact ih (h.run call (hgiven call (by simp))) fun c hc => hgiven c (by simp [hc])

end Query.Checked

/-- Whatever calls build a query, its clauses are checked. -/
theorem Query.checked_built {given : String → Prop} (calls : List QueryCall)
    (hgiven : ∀ call ∈ calls, ∀ sql ∈ call.fragments, given sql) : (built calls).Checked given :=
  Query.Checked.empty.foldl calls hgiven

end Relational
