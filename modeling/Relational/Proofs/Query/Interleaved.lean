import Relational.Proofs.Query.Fault
import Relational.Proofs.Query.Statement
/-
Calls of different families in any order.

A query keeps what each family of calls says in fields of its own: a `Part` is these fields and
nothing else.  A call writes its own part and reads no other one; a call with bad input writes none.
Two facts follow for every family, and they are all that is needed.

  * Calls of other families may be left out: the part stays as it is.
  * Queries that agree on the part still agree on it behind any calls.

So each part is made by the calls of its family in their order, wherever the other calls stand
between them, and the parts together are the query.
-/
namespace Relational

/-- A family of calls: those that write the same clauses. -/
inductive CallFamily where
  | source
  | selections
  | distinct
  | aggregate
  | joins
  | filters
  | groups
  | havings
  | orders
  /-- Limit and offset. -/
  | extent
  | cursor
  deriving DecidableEq, Repr

/-- The family a call belongs to. -/
def QueryCall.family : QueryCall → CallFamily
  | source _ => .source
  | select _ | addSelect _ | selectRaw .. => .selections
  | makeDistinct => .distinct
  | aggregateOf .. => .aggregate
  | joinOn .. | crossJoin _ | joinWith .. => .joins
  | filtered _ => .filters
  | groupBy _ => .groups
  | having .. | havingRaw .. => .havings
  | orderBy .. | orderByRaw .. | reorder => .orders
  | take _ | skip _ | withoutLimits => .extent
  | startAfter .. => .cursor

/-- The calls of one family, in their order. -/
def CallFamily.among (f : CallFamily) (calls : List QueryCall) : List QueryCall :=
  calls.filter (·.family = f)

namespace Query

/-- The clauses of one family, in a query without any others and without a fault. -/
def part (q : Query) : CallFamily → Query
  | .source => { table := q.table }
  | .selections => { selections := q.selections }
  | .distinct => { distinct := q.distinct }
  | .aggregate => { aggregate := q.aggregate }
  | .joins => { joins := q.joins }
  | .filters => { filters := q.filters }
  | .groups => { groups := q.groups }
  | .havings => { havings := q.havings }
  | .orders => { orders := q.orders }
  | .extent => { limit := q.limit, offset := q.offset }
  | .cursor => { cursor := q.cursor }

/-- The query with the clauses of one family taken from another query. -/
def withPart (q : Query) (f : CallFamily) (p : Query) : Query :=
  match f with
  | .source => { q with table := p.table }
  | .selections => { q with selections := p.selections }
  | .distinct => { q with distinct := p.distinct }
  | .aggregate => { q with aggregate := p.aggregate }
  | .joins => { q with joins := p.joins }
  | .filters => { q with filters := p.filters }
  | .groups => { q with groups := p.groups }
  | .havings => { q with havings := p.havings }
  | .orders => { q with orders := p.orders }
  | .extent => { q with limit := p.limit, offset := p.offset }
  | .cursor => { q with cursor := p.cursor }

variable {q q' : Query} {f g : CallFamily}

theorem part_withPart_self (q : Query) (f : CallFamily) (p : Query) :
    (q.withPart f p).part f = p.part f := by
  cases f <;> rfl

theorem part_withPart_of_ne (h : g ≠ f) (q p : Query) : (q.withPart f p).part g = q.part g := by
  cases f <;> cases g <;> first | rfl | exact absurd rfl h

theorem part_fail (q : Query) (e : QueryError) (f : CallFamily) :
    (q.fail e).part f = q.part f := by
  cases f <;> rfl

/-- The parts and the fault are all of a query. -/
theorem eq_of_part (h : ∀ f, q.part f = q'.part f) (hfault : q.fault = q'.fault) : q = q' := by
  have hsource := congrArg table (h .source)
  have hselections := congrArg selections (h .selections)
  have hdistinct := congrArg distinct (h .distinct)
  have haggregate := congrArg aggregate (h .aggregate)
  have hjoins := congrArg joins (h .joins)
  have hfilters := congrArg filters (h .filters)
  have hgroups := congrArg groups (h .groups)
  have hhavings := congrArg havings (h .havings)
  have horders := congrArg orders (h .orders)
  have hlimit := congrArg limit (h .extent)
  have hoffset := congrArg offset (h .extent)
  have hcursor := congrArg cursor (h .cursor)
  cases q
  cases q'
  simp_all [part]

/-! ### One call -/

/-- The step changes the part of one family only, and what it makes of it depends on no other. -/
structure Confined (f : CallFamily) (step : Query → Query) : Prop where
  others : ∀ q g, g ≠ f → (step q).part g = q.part g
  own : ∀ q, (step q).part f = (step (q.part f)).part f

namespace Confined

variable {step step' : Query → Query}

theorem id : Confined f fun q => q where
  others _ _ _ := rfl
  own _ := by cases f <;> rfl

theorem comp (h : Confined f step) (h' : Confined f step') :
    Confined f fun q => step' (step q) where
  others q g hg := (h'.others _ g hg).trans (h.others q g hg)
  own q := by
    show (step' (step q)).part f = (step' (step (q.part f))).part f
    rw [h'.own, h.own, ← h'.own]

theorem foldl {step : Query → String → Query} (h : ∀ name, Confined f (step · name))
    (names : List String) : Confined f fun q => names.foldl step q := by
  induction names with
  | nil => exact id
  | cons name rest ih => exact (h name).comp ih

/-- A fault is in no part. -/
theorem fail (e : QueryError) : Confined f (·.fail e) where
  others q g _ := part_fail q e g
  own q := by
    rw [part_fail, part_fail]
    exact id.own q

theorem whenAliased (h : Confined f step) (clause : Clause) (name : String) :
    Confined f fun q => q.whenAliased clause name step := by
  unfold Query.whenAliased
  by_cases hname : Name.isAliased name = true
  · simpa only [if_pos hname] using h
  · simpa only [if_neg hname] using fail _

theorem whenBalanced (h : Confined f step) (clause : Clause) (sql : String)
    (bindings : List Value) : Confined f fun q => q.whenBalanced clause sql bindings step := by
  unfold Query.whenBalanced
  by_cases hcount : Marker.count sql = bindings.length
  · simpa only [if_pos hcount] using h
  · simpa only [if_neg hcount] using fail _

/-- A step that writes the part of a family, and looks at that part only. -/
theorem writing (make : Query → Query) (h : ∀ q, (make q).part f = (make (q.part f)).part f) :
    Confined f fun q => q.withPart f (make q) where
  others q g hg := part_withPart_of_ne hg q (make q)
  own q := by rw [part_withPart_self, part_withPart_self, h]

theorem source (table : String) : Confined .source (·.source table) := by
  have hwrite : Confined .source fun q => { q with table := some table } :=
    writing (fun _ => { table := some table }) fun _ => rfl
  unfold Query.source
  by_cases htable : (Name.isAliased table && table != "*") = true
  · simpa only [if_pos htable] using hwrite
  · simpa only [if_neg htable] using fail _

theorem addSelect (columns : List String) : Confined .selections (·.addSelect columns) :=
  foldl (fun column => (writing (fun q => { selections := q.selections ++ [.column column] })
    fun _ => rfl).whenAliased .select column) columns

theorem select (columns : List String) : Confined .selections (·.select columns) :=
  (writing (fun _ => { selections := [] }) fun _ => rfl).comp (addSelect columns)

theorem selectRaw (sql : String) (bindings : List Value) :
    Confined .selections (·.selectRaw sql bindings) :=
  (writing (fun q => { selections := q.selections ++ [.raw sql bindings] })
    fun _ => rfl).whenBalanced .selectRaw sql bindings

theorem aggregateOf (function : Aggregate) (column : String) :
    Confined .aggregate (·.aggregateOf function column) := by
  have hwrite : Confined .aggregate fun q => { q with aggregate := some (function, column) } :=
    writing (fun _ => { aggregate := some (function, column) }) fun _ => rfl
  unfold Query.aggregateOf
  by_cases hstar : (column == "*") = true
  · simpa only [if_pos hstar] using hwrite
  · simpa only [if_neg hstar] using hwrite.whenAliased .aggregate column

theorem addJoin (join : Join) : Confined .joins (·.addJoin join) :=
  (writing (fun q => { joins := q.joins ++ [join] }) fun _ => rfl).whenAliased .join join.table

theorem groupBy (columns : List String) : Confined .groups (·.groupBy columns) :=
  foldl (fun column => (writing (fun q => { groups := q.groups ++ [column] })
    fun _ => rfl).whenAliased .groupBy column) columns

theorem having (connector : Connector) (column operator : String) (operand : Operand) :
    Confined .havings (QueryCall.run · (.having connector column operator operand)) := by
  cases connector with
  | and => exact writing (fun q => q.having column operator operand) fun _ => rfl
  | or => exact writing (fun q => q.orHaving column operator operand) fun _ => rfl

theorem orderBy (column : String) (direction : Direction) :
    Confined .orders (·.orderBy column direction) :=
  (writing (fun q => { orders := q.orders ++ [.column column direction] })
    fun _ => rfl).whenAliased .orderBy column

theorem orderByRaw (sql : String) (bindings : List Value) :
    Confined .orders (·.orderByRaw sql bindings) :=
  (writing (fun q => { orders := q.orders ++ [.raw sql bindings] })
    fun _ => rfl).whenBalanced .orderByRaw sql bindings

theorem startAfter (column : String) (direction : Direction) (after : Option Value) :
    Confined .cursor (·.startAfter column direction after) :=
  (writing (fun _ => { cursor := some ⟨column, direction, after⟩ })
    fun _ => rfl).whenAliased .cursor column

/-- A call writes the clauses of its family and reads no others. -/
theorem run (call : QueryCall) : Confined call.family (QueryCall.run · call) := by
  cases call with
  | source table => exact source table
  | select columns => exact select columns
  | addSelect columns => exact addSelect columns
  | selectRaw sql bindings => exact selectRaw sql bindings
  | makeDistinct => exact writing (fun _ => { distinct := true }) fun _ => rfl
  | aggregateOf function column => exact aggregateOf function column
  | joinOn kind table first operator second => exact addJoin _
  | crossJoin table => exact addJoin _
  | joinWith kind table steps => exact addJoin _
  | filtered call => exact writing (fun q => { filters := call.run q.filters }) fun _ => rfl
  | groupBy columns => exact groupBy columns
  | having connector column operator operand => exact having connector column operator operand
  | havingRaw sql bindings => exact writing (·.havingRaw sql bindings) fun _ => rfl
  | orderBy column direction => exact orderBy column direction
  | orderByRaw sql bindings => exact orderByRaw sql bindings
  | reorder => exact writing (fun _ => { orders := [] }) fun _ => rfl
  | take n => exact writing (fun q => { limit := some n, offset := q.offset }) fun _ => rfl
  | skip n => exact writing (fun q => { limit := q.limit, offset := some n }) fun _ => rfl
  | withoutLimits => exact writing (fun _ => {}) fun _ => rfl
  | startAfter column direction after => exact startAfter column direction after

end Confined

/-! ### All calls -/

/-- Queries that agree on a part agree on it behind a call. -/
theorem part_run_congr (h : q.part f = q'.part f) (call : QueryCall) :
    (call.run q).part f = (call.run q').part f := by
  by_cases hfamily : f = call.family
  · subst hfamily
    rw [(Confined.run call).own, h, ← (Confined.run call).own]
  · rw [(Confined.run call).others q f hfamily, (Confined.run call).others q' f hfamily, h]

/-- Queries that agree on a part agree on it behind any calls. -/
theorem part_foldl_congr (h : q.part f = q'.part f) (calls : List QueryCall) :
    (calls.foldl QueryCall.run q).part f = (calls.foldl QueryCall.run q').part f := by
  induction calls generalizing q q' with
  | nil => exact h
  | cons call rest ih => exact ih (part_run_congr h call)

/-- A part is made by the calls of its family. -/
theorem part_foldl_among (q : Query) (f : CallFamily) (calls : List QueryCall) :
    (calls.foldl QueryCall.run q).part f = ((f.among calls).foldl QueryCall.run q).part f := by
  induction calls generalizing q with
  | nil => rfl
  | cons call rest ih =>
      unfold CallFamily.among at ih ⊢
      by_cases hfamily : call.family = f
      · rw [List.filter_cons_of_pos (by simpa using hfamily)]
        exact ih (call.run q)
      · rw [List.filter_cons_of_neg (by simpa using hfamily), ← ih q]
        exact part_foldl_congr ((Confined.run call).others q f (Ne.symm hfamily)) rest

/-- Calls without bad input leave no fault of the query's own. -/
theorem fault_foldl {calls : List QueryCall} (h : ∀ call ∈ calls, call.fault? = none) :
    (calls.foldl QueryCall.run q).fault = q.fault := by
  have hkept := kept_foldl q calls .query
  rwa [QueryCall.firstFault?_eq_none fun call hcall _ => h call hcall, Option.or_none] at hkept

theorem mem_of_among {calls calls' : List QueryCall}
    (h : ∀ f : CallFamily, f.among calls = f.among calls') {call : QueryCall}
    (hcall : call ∈ calls') : call ∈ calls := by
  have hamong : call ∈ call.family.among calls' := List.mem_filter.mpr ⟨hcall, by simp⟩
  rw [← h] at hamong
  exact (List.mem_filter.mp hamong).1

/-- **Only the order inside a family counts.**  If two sequences of calls have the same calls of
each family in the same order, and none of them is malformed, they build the same query, however
the families are interleaved.  So every statement is the same, or is refused for the same
reason, in every dialect. -/
theorem interleavings_agree (calls calls' : List QueryCall)
    (hfamilies : ∀ f : CallFamily, f.among calls = f.among calls')
    (hcalls : ∀ call ∈ calls, call.fault? = none) :
    built calls = built calls' ∧
      ∀ (k : StatementKind) (d : Dialect),
        (built calls).statement k d = (built calls').statement k d := by
  have hcalls' : ∀ call ∈ calls', call.fault? = none :=
    fun call hcall => hcalls call (mem_of_among hfamilies hcall)
  have hsame : built calls = built calls' := by
    refine eq_of_part (fun f => ?_) ?_
    · rw [built, built, part_foldl_among, hfamilies, ← part_foldl_among]
    · rw [built, built, fault_foldl hcalls, fault_foldl hcalls']
  exact ⟨hsame, fun k d => by rw [hsame]⟩

/-- A query written in the order of its clauses, and the same calls from the last family to the
first. -/
theorem clauses_written_backwards :
    let calls : List QueryCall := [.source "posts as p", .select ["p.id"], .addSelect ["u.name"],
      .joinOn .left "users as u" "u.id" "=" "p.author_id",
      .filtered (.filter .and "p.published" (.value (.bool true))),
      .filtered (.filterNull false "p.deleted_at"), .groupBy ["p.id"],
      .having .and "p.score" ">" (.value (.int 3)), .orderBy "p.id" .asc, .reorder,
      .orderBy "p.title" .desc, .take 10, .startAfter "p.id" .asc (some (.int 7))]
    let calls' : List QueryCall := [.startAfter "p.id" .asc (some (.int 7)), .take 10,
      .orderBy "p.id" .asc, .reorder, .orderBy "p.title" .desc,
      .having .and "p.score" ">" (.value (.int 3)), .groupBy ["p.id"],
      .filtered (.filter .and "p.published" (.value (.bool true))), .select ["p.id"],
      .joinOn .left "users as u" "u.id" "=" "p.author_id",
      .filtered (.filterNull false "p.deleted_at"), .addSelect ["u.name"], .source "posts as p"]
    (∀ f : CallFamily, f.among calls = f.among calls') ∧
      (∀ call ∈ calls, call.fault? = none) ∧ built calls = built calls' ∧
      ∀ k d, (built calls).statement k d = (built calls').statement k d := by
  intro calls calls'
  have hfamilies : ∀ f : CallFamily, f.among calls = f.among calls' := by
    intro f
    cases f <;> rfl
  have hcalls : ∀ call ∈ calls, call.fault? = none := by
    decide +kernel
  exact ⟨hfamilies, hcalls, interleavings_agree calls calls' hfamilies hcalls⟩

end Query

end Relational
