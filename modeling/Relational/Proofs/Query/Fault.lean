import Relational.Proofs.Query.Call
/-
Which fault a query reports.

A call with bad input changes no clause and leaves a fault.  A query keeps its faults in
four places: conditions remember their own, those of the filters, of the groups and of
every join, and the query remembers all others.  Each place keeps the first fault that
reaches it.  The places are looked up in a fixed order, though, so what the query reports
is the first fault of the first place that has one.  That is the earliest fault of all
unless a later call left one in a place that is looked up before.

`kept_run` says what one call adds to each place, and `kept_foldl` what any number of
calls add.
-/
namespace Relational

open Conditions

/-! ### What is wrong with an input -/

/-- The fault of a check that failed. -/
def faultOf {α : Type} : Except QueryError α → Option QueryError
  | .ok _ => none
  | .error e => some e

namespace Clause

variable (clause : Clause)

/-- A name that is no column. -/
def columnFault? (name : String) : Option QueryError :=
  if Name.isColumn name then none else some (.invalidIdentifier clause name)

/-- A name that is no identifier, with or without an alias. -/
def aliasedFault? (name : String) : Option QueryError :=
  if Name.isAliased name then none else some (.invalidIdentifier clause name)

/-- A fragment whose markers and values differ in number. -/
def markerFault? (sql : String) (bindings : List Value) : Option QueryError :=
  if Marker.count sql = bindings.length then none
  else some (.bindingMismatch clause (Marker.count sql) bindings.length)

/-- A fragment of blanks, or one whose markers and values differ in number. -/
def fragmentFault? (sql : String) (bindings : List Value) : Option QueryError :=
  if sql.toList.all Text.isBlank then some (.invalidOperand clause .emptyFragment)
  else clause.markerFault? sql bindings

/-- An operand that the operator does not take.  Equality takes every operand. -/
def operandFault? : Operator → Operand → Option QueryError
  | .single .equal, _ | .single .notEqual, _ => none
  | op, .value .null => some (.invalidOperand clause (.nullCompared op.sql))
  | .single _, .value _ | .member _, _ => none
  | .single c, .list _ => some (.invalidOperand clause (.unexpectedList c.sql))
  | .range negated, .value _ =>
    some (.invalidOperand clause (.rangeValue (Operator.rangeSql negated)))
  | .range _, .list [_, _] => none
  | .range negated, .list vs =>
    some (.invalidOperand clause (.rangeLength (Operator.rangeSql negated) vs.length))

/-- A name that is no column, or an operand that the operator does not take. -/
def comparisonFault? (column : String) (operator : Operator) (operand : Operand) :
    Option QueryError :=
  (clause.columnFault? column).or (clause.operandFault? operator operand)

/-- The same where the operator has to be read, and may be one nobody knows. -/
def writtenFault? (column operator : String) (operand : Operand) : Option QueryError :=
  (clause.columnFault? column).or
    (match Operator.parse? operator with
      | some op => clause.operandFault? op operand
      | none => some (.unknownOperator clause operator))

/-- Two columns that cannot be compared: a name is no column, or the operator takes no single
value. -/
def pairFault? (first operator second : String) : Option QueryError :=
  ((clause.columnFault? first).or (clause.columnFault? second)).or
    (match Operator.parse? operator with
      | some (.single _) => none
      | _ => some (.unknownOperator clause operator))

end Clause

namespace ConditionCall

mutual

/-- What is wrong with a call, if anything; with a group, what is wrong with its first bad call. -/
def fault? : ConditionCall → Option QueryError
  | filter .and column operand => Clause.filter.comparisonFault? column (.single .equal) operand
  | filter .or column operand => Clause.orFilter.comparisonFault? column (.single .equal) operand
  | filterOp .and column operator operand => Clause.filter.writtenFault? column operator operand
  | filterOp .or column operator operand => Clause.orFilter.writtenFault? column operator operand
  | filterIn false column operand =>
    Clause.filterIn.comparisonFault? column (.member false) operand
  | filterIn true column operand =>
    Clause.filterNotIn.comparisonFault? column (.member true) operand
  | filterNull false column => Clause.filterNull.columnFault? column
  | filterNull true column => Clause.filterNotNull.columnFault? column
  | filterBetween column _ _ => Clause.filterBetween.columnFault? column
  | filterColumn first operator second => Clause.filterColumn.pairFault? first operator second
  | filterRaw .and sql bindings => Clause.filterRaw.fragmentFault? sql bindings
  | filterRaw .or sql bindings => Clause.orFilterRaw.fragmentFault? sql bindings
  | filterGroup _ inner => faultAll? inner

/-- What is wrong with the first bad call among some. -/
def faultAll? : List ConditionCall → Option QueryError
  | [] => none
  | call :: rest => (fault? call).or (faultAll? rest)

end

end ConditionCall

/-- What is wrong with a call, if anything. -/
def JoinCall.fault? : JoinCall → Option QueryError
  | on .and first operator second => Clause.on.pairFault? first operator second
  | on .or first operator second => Clause.orOn.pairFault? first operator second
  | filter .and column operand =>
    Clause.joinFilter.comparisonFault? column (.single .equal) operand
  | filter .or column operand =>
    Clause.orJoinFilter.comparisonFault? column (.single .equal) operand
  | filterOp column operator operand => Clause.joinFilter.writtenFault? column operator operand

/-- A place where a query keeps faults. -/
inductive FaultPlace where
  | query
  | filters
  | havings
  | joins
  deriving DecidableEq, Repr

namespace FaultPlace

/-- The places in the order in which they are looked up. -/
def all : List FaultPlace :=
  [query, filters, havings, joins]

/-- How many places are looked up before this one. -/
def rank : FaultPlace → Nat
  | query => 0
  | filters => 1
  | havings => 2
  | joins => 3

end FaultPlace

namespace QueryCall

/-- What is wrong with a call, if anything. -/
def fault? : QueryCall → Option QueryError
  | source table =>
    if Name.isAliased table && table != "*" then none else some (.invalidIdentifier .source table)
  | select columns | addSelect columns => columns.findSome? Clause.select.aliasedFault?
  | selectRaw sql bindings => Clause.selectRaw.markerFault? sql bindings
  | aggregateOf _ column => if column == "*" then none else Clause.aggregate.aliasedFault? column
  | joinOn _ table first operator second =>
    (Clause.join.aliasedFault? table).or (JoinCall.on .and first operator second).fault?
  | crossJoin table => Clause.join.aliasedFault? table
  | joinWith _ table steps =>
    (Clause.join.aliasedFault? table).or (steps.findSome? JoinCall.fault?)
  | filtered call => call.fault?
  | groupBy columns => columns.findSome? Clause.groupBy.aliasedFault?
  | having .and column operator operand => Clause.having.writtenFault? column operator operand
  | having .or column operator operand => Clause.orHaving.writtenFault? column operator operand
  | havingRaw sql bindings => Clause.havingRaw.fragmentFault? sql bindings
  | orderBy column _ => Clause.orderBy.aliasedFault? column
  | orderByRaw sql bindings => Clause.orderByRaw.markerFault? sql bindings
  | startAfter column _ _ => Clause.cursor.aliasedFault? column
  | makeDistinct | reorder | take _ | skip _ | withoutLimits => none

/-- Where the fault of a call is kept.  A join whose table has no name is not added, so the query
itself has to remember it. -/
def faultPlace : QueryCall → FaultPlace
  | filtered _ => .filters
  | having .. | havingRaw .. => .havings
  | joinOn _ table .. | joinWith _ table _ => if Name.isAliased table then .joins else .query
  | _ => .query

/-- The first fault among those kept in one place. -/
def firstFault? (calls : List QueryCall) (place : FaultPlace) : Option QueryError :=
  calls.findSome? fun call => if call.faultPlace = place then call.fault? else none

end QueryCall

/-! ### Conditions -/

namespace Conditions

variable {c : Conditions} {clause : Clause}

theorem error_add (connector : Connector) (r : Except QueryError Leaf) :
    (c.add connector r).error = c.error.or (faultOf r) := by
  cases r with
  | ok leaf => simp [add, push, faultOf]
  | error e => simp [add, fail, faultOf]

theorem faultOf_checkColumn (column : String) {α : Type} (next : Except QueryError α) :
    faultOf (checkColumn clause column >>= fun _ => next) =
      (clause.columnFault? column).or (faultOf next) := by
  unfold checkColumn Clause.columnFault?
  split
  · rfl
  · rfl

theorem faultOf_shape (column : String) (operator : Operator) (operand : Operand) :
    faultOf (shape clause column operator operand) = clause.operandFault? operator operand := by
  unfold shape Clause.operandFault?
  split <;> simp_all [faultOf]
  -- A value that is not null suits every comparison.
  split <;> simp_all

theorem error_compareBy (connector : Connector) (column : String) (operator : Operator)
    (operand : Operand) :
    (c.compareBy clause connector column operator operand).error =
      c.error.or (clause.comparisonFault? column operator operand) := by
  rw [compareBy, error_add, faultOf_checkColumn, faultOf_shape, Clause.comparisonFault?]

theorem error_compare (connector : Connector) (column operator : String) (operand : Operand) :
    (c.compare clause connector column operator operand).error =
      c.error.or (clause.writtenFault? column operator operand) := by
  rw [compare, error_add, faultOf_checkColumn, Clause.writtenFault?]
  cases Operator.parse? operator with
  | none => rfl
  | some op => rw [faultOf_shape]

theorem error_compareColumns (connector : Connector) (first operator second : String) :
    (c.compareColumns clause connector first operator second).error =
      c.error.or (clause.pairFault? first operator second) := by
  rw [compareColumns, error_add, faultOf_checkColumn, faultOf_checkColumn, Clause.pairFault?,
    Option.or_assoc]
  cases Operator.parse? operator with
  | none => rfl
  | some op => cases op <;> rfl

theorem error_testNull (connector : Connector) (column : String) (negated : Bool) :
    (c.testNull clause connector column negated).error =
      c.error.or (clause.columnFault? column) := by
  rw [testNull, error_add, faultOf_checkColumn, faultOf, Option.or_none]

theorem error_fragment (connector : Connector) (sql : String) (bindings : List Value) :
    (c.fragment clause connector sql bindings).error =
      c.error.or (clause.fragmentFault? sql bindings) := by
  rw [fragment, error_add, Clause.fragmentFault?, Clause.markerFault?]
  by_cases hblank : sql.toList.all Text.isBlank
  · rw [if_pos hblank, if_pos hblank, faultOf]
  · rw [if_neg hblank, if_neg hblank]
    by_cases hcount : Marker.count sql = bindings.length
    · rw [if_neg (not_not_intro hcount), if_pos hcount, faultOf]
    · rw [if_pos hcount, if_neg hcount, faultOf]

theorem error_group (connector : Connector) (inner : Conditions) :
    (c.group connector inner).error = c.error.or inner.error := by
  unfold group
  split
  · rename_i e he
    rw [he]
    rfl
  · rename_i he
    rw [he, Option.or_none]
    split
    · rfl
    · rfl

end Conditions

namespace ConditionCall

mutual

theorem error_run (c : Conditions) :
    ∀ call : ConditionCall, (run c call).error = c.error.or call.fault?
  | filter .and _ _ => by rw [run, Conditions.filter, error_compareBy, fault?]
  | filter .or _ _ => by rw [run, Conditions.orFilter, error_compareBy, fault?]
  | filterOp .and _ _ _ => by rw [run, Conditions.filterOp, error_compare, fault?]
  | filterOp .or _ _ _ => by rw [run, Conditions.orFilterOp, error_compare, fault?]
  | filterIn false _ _ => by rw [run, Conditions.filterIn, error_compareBy, fault?]
  | filterIn true _ _ => by rw [run, Conditions.filterNotIn, error_compareBy, fault?]
  | filterNull false _ => by rw [run, Conditions.filterNull, error_testNull, fault?]
  | filterNull true _ => by rw [run, Conditions.filterNotNull, error_testNull, fault?]
  | filterBetween _ _ _ => by
    rw [run, Conditions.filterBetween, error_compareBy, fault?]
    exact congrArg _ Option.or_none
  | filterColumn _ _ _ => by rw [run, Conditions.filterColumn, error_compareColumns, fault?]
  | filterRaw .and _ _ => by rw [run, Conditions.filterRaw, error_fragment, fault?]
  | filterRaw .or _ _ => by rw [run, Conditions.orFilterRaw, error_fragment, fault?]
  | filterGroup .and inner => by
    rw [run, Conditions.filterGroup, error_group, error_runAll .empty inner, fault?]
    rfl
  | filterGroup .or inner => by
    rw [run, Conditions.orFilterGroup, error_group, error_runAll .empty inner, fault?]
    rfl

/-- Conditions remember the first fault of the calls that write them. -/
theorem error_runAll (c : Conditions) :
    ∀ calls : List ConditionCall, (runAll c calls).error = c.error.or (faultAll? calls)
  | [] => (Option.or_none).symm
  | call :: rest => by
    rw [runAll, error_runAll (run c call) rest, error_run c call, faultAll?, Option.or_assoc]

end

end ConditionCall

theorem JoinCall.error_run (j : Join) (call : JoinCall) :
    (call.run j).conditions.error = j.conditions.error.or call.fault? := by
  cases call with
  | on connector first operator second =>
      cases connector with
      | and => rw [run, Join.on, error_compareColumns, fault?]
      | or => rw [run, Join.orOn, error_compareColumns, fault?]
  | filter connector column operand =>
      cases connector with
      | and => rw [run, Join.filter, error_compareBy, fault?]
      | or => rw [run, Join.orFilter, error_compareBy, fault?]
  | filterOp column operator operand => rw [run, Join.filterOp, error_compare, fault?]

theorem JoinCall.table_run (j : Join) (call : JoinCall) : (call.run j).table = j.table := by
  cases call with
  | on connector => cases connector <;> rfl
  | filter connector => cases connector <;> rfl
  | filterOp => rfl

theorem JoinCall.error_foldl (j : Join) (steps : List JoinCall) :
    (steps.foldl JoinCall.run j).conditions.error =
      j.conditions.error.or (steps.findSome? JoinCall.fault?) := by
  induction steps generalizing j with
  | nil => exact (Option.or_none).symm
  | cons step rest ih =>
      rw [List.foldl_cons, ih, error_run, Option.or_assoc, List.findSome?_cons]
      cases step.fault? <;> rfl

theorem JoinCall.table_foldl (j : Join) (steps : List JoinCall) :
    (steps.foldl JoinCall.run j).table = j.table := by
  induction steps generalizing j with
  | nil => rfl
  | cons step rest ih => rw [List.foldl_cons, ih, table_run]

/-! ### Queries -/

namespace Query

/-- The fault that a place keeps. -/
def kept (q : Query) : FaultPlace → Option QueryError
  | .query => q.fault
  | .filters => q.filters.error
  | .havings => q.havings.error
  | .joins => q.joins.findSome? (·.conditions.error)

theorem error_eq (q : Query) : q.error = FaultPlace.all.findSome? q.kept := by
  unfold error FaultPlace.all
  simp only [List.findSome?_cons, List.findSome?_nil, kept]
  cases q.fault <;> cases q.filters.error <;> cases q.havings.error <;>
    cases q.joins.findSome? (·.conditions.error) <;> rfl

/-- `q'` has the conditions of `q`, and `e` noted in addition, if that is a fault. -/
structure Noted (q : Query) (e : Option QueryError) (q' : Query) : Prop where
  fault : q'.fault = q.fault.or e
  filters : q'.filters = q.filters
  havings : q'.havings = q.havings
  joins : q'.joins = q.joins

namespace Noted

variable {q q' q'' : Query} {e e' : Option QueryError}

theorem none_of_rfl (hfault : q'.fault = q.fault) (hfilters : q'.filters = q.filters)
    (hhavings : q'.havings = q.havings) (hjoins : q'.joins = q.joins) : q.Noted none q' :=
  ⟨hfault.trans (Option.or_none).symm, hfilters, hhavings, hjoins⟩

theorem refl (q : Query) : q.Noted none q :=
  none_of_rfl rfl rfl rfl rfl

theorem fail (q : Query) (e : QueryError) : q.Noted (some e) (q.fail e) :=
  ⟨rfl, rfl, rfl, rfl⟩

theorem trans (h : q.Noted e q') (h' : q'.Noted e' q'') : q.Noted (e.or e') q'' :=
  ⟨by rw [h'.fault, h.fault, Option.or_assoc], h'.filters.trans h.filters,
    h'.havings.trans h.havings, h'.joins.trans h.joins⟩

theorem whenAliased (clause : Clause) (name : String) {change : Query → Query}
    (hchange : q.Noted none (change q)) :
    q.Noted (clause.aliasedFault? name) (q.whenAliased clause name change) := by
  unfold Query.whenAliased Clause.aliasedFault?
  split
  · exact hchange
  · exact fail q _

theorem whenBalanced (clause : Clause) (sql : String) (bindings : List Value)
    {change : Query → Query} (hchange : q.Noted none (change q)) :
    q.Noted (clause.markerFault? sql bindings) (q.whenBalanced clause sql bindings change) := by
  unfold Query.whenBalanced Clause.markerFault?
  split
  · exact hchange
  · exact fail q _

/-- Names that are gone through one by one leave the fault of the first bad one. -/
theorem foldl {step : Query → String → Query} {fault : String → Option QueryError}
    (hstep : ∀ q name, Query.Noted q (fault name) (step q name)) (names : List String) :
    q.Noted (names.findSome? fault) (names.foldl step q) := by
  induction names generalizing q with
  | nil => exact refl q
  | cons name rest ih =>
      have hfirst : (name :: rest).findSome? fault = (fault name).or (rest.findSome? fault) := by
        rw [List.findSome?_cons]
        cases fault name <;> rfl
      rw [hfirst]
      exact (hstep q name).trans ih

theorem source (q : Query) (table : String) :
    q.Noted (QueryCall.source table).fault? (q.source table) := by
  show q.Noted (if _ then none else some _) (if _ then _ else _)
  split
  · exact none_of_rfl rfl rfl rfl rfl
  · exact fail q _

theorem addSelect (q : Query) (columns : List String) :
    q.Noted (columns.findSome? Clause.select.aliasedFault?) (q.addSelect columns) :=
  foldl (fun _ column => whenAliased .select column (by exact none_of_rfl rfl rfl rfl rfl)) columns

theorem select (q : Query) (columns : List String) :
    q.Noted (columns.findSome? Clause.select.aliasedFault?) (q.select columns) := by
  have hcleared : q.Noted none { q with selections := [] } := none_of_rfl rfl rfl rfl rfl
  have hboth := hcleared.trans (addSelect { q with selections := [] } columns)
  rwa [Option.none_or] at hboth

theorem aggregateOf (q : Query) (function : Aggregate) (column : String) :
    q.Noted (QueryCall.aggregateOf function column).fault? (q.aggregateOf function column) := by
  show q.Noted (if _ then none else _) (if _ then _ else _)
  split
  · exact none_of_rfl rfl rfl rfl rfl
  · exact whenAliased .aggregate column (by exact none_of_rfl rfl rfl rfl rfl)

theorem groupBy (q : Query) (columns : List String) :
    q.Noted (columns.findSome? Clause.groupBy.aliasedFault?) (q.groupBy columns) :=
  foldl (fun _ column => whenAliased .groupBy column (by exact none_of_rfl rfl rfl rfl rfl)) columns

/-- A fault that the query notes is kept with the query, and no other place changes. -/
theorem kept_eq (h : q.Noted e q') (place : FaultPlace) :
    q'.kept place = (q.kept place).or (if FaultPlace.query = place then e else none) := by
  cases place with
  | query => exact h.fault
  | filters => simp [kept, h.filters]
  | havings => simp [kept, h.havings]
  | joins => simp [kept, h.joins]

end Noted

/-- New filters with one more fault are kept with the filters. -/
theorem kept_of_filters {q : Query} {filters : Conditions} {e : Option QueryError}
    (h : filters.error = q.filters.error.or e) (place : FaultPlace) :
    { q with filters }.kept place =
      (q.kept place).or (if FaultPlace.filters = place then e else none) := by
  cases place with
  | filters => exact h
  | query => exact (Option.or_none).symm
  | havings => exact (Option.or_none).symm
  | joins => exact (Option.or_none).symm

/-- New conditions on groups with one more fault are kept with those. -/
theorem kept_of_havings {q : Query} {havings : Conditions} {e : Option QueryError}
    (h : havings.error = q.havings.error.or e) (place : FaultPlace) :
    { q with havings }.kept place =
      (q.kept place).or (if FaultPlace.havings = place then e else none) := by
  cases place with
  | havings => exact h
  | query => exact (Option.or_none).symm
  | filters => exact (Option.or_none).symm
  | joins => exact (Option.or_none).symm

/-- A join is kept with its conditions' fault, unless its table has no name. -/
theorem kept_addJoin (q : Query) (j : Join) (place : FaultPlace) :
    (q.addJoin j).kept place = (q.kept place).or
      (if (if Name.isAliased j.table then FaultPlace.joins else .query) = place then
        (Clause.join.aliasedFault? j.table).or j.conditions.error else none) := by
  unfold addJoin whenAliased Clause.aliasedFault?
  split
  · cases place with
    | joins =>
        simp only [kept, List.findSome?_append, if_true, Option.none_or, List.findSome?_cons,
          List.findSome?_nil]
        cases j.conditions.error <;> rfl
    | query => simp [kept]
    | filters => simp [kept]
    | havings => simp [kept]
  · exact (Noted.fail q _).kept_eq place

theorem kept_crossJoin (q : Query) (table : String) (place : FaultPlace) :
    (q.crossJoin table).kept place = (q.kept place).or
      (if FaultPlace.query = place then Clause.join.aliasedFault? table else none) := by
  rw [crossJoin, kept_addJoin]
  show (q.kept place).or (if (if Name.isAliased table then FaultPlace.joins else .query) = place then
    (Clause.join.aliasedFault? table).or none else none) = _
  rw [Option.or_none]
  by_cases htable : Name.isAliased table
  · simp [Clause.aliasedFault?, htable]
  · simp [htable]

/-- What one call adds to each place: its fault, if that is kept there and none was before. -/
theorem kept_run (q : Query) (call : QueryCall) (place : FaultPlace) :
    (call.run q).kept place =
      (q.kept place).or (if call.faultPlace = place then call.fault? else none) := by
  cases call with
  | source table => exact (Noted.source q table).kept_eq place
  | select columns => exact (Noted.select q columns).kept_eq place
  | addSelect columns => exact (Noted.addSelect q columns).kept_eq place
  | selectRaw sql bindings =>
      exact (Noted.whenBalanced .selectRaw sql bindings
        (by exact .none_of_rfl rfl rfl rfl rfl)).kept_eq place
  | makeDistinct => exact (Noted.none_of_rfl rfl rfl rfl rfl : q.Noted none (q.makeDistinct)).kept_eq place
  | aggregateOf function column => exact (Noted.aggregateOf q function column).kept_eq place
  | joinOn kind table first operator second =>
      rw [QueryCall.run, joinOn, kept_addJoin]
      show (q.kept place).or (if _ = place then (Clause.join.aliasedFault? table).or
        (Join.on { kind, table } first operator second).conditions.error else none) = _
      rw [Join.on, error_compareColumns]
      rfl
  | crossJoin table => exact kept_crossJoin q table place
  | joinWith kind table steps =>
      rw [QueryCall.run, joinWith, kept_addJoin, JoinCall.table_foldl, JoinCall.error_foldl]
      rfl
  | filtered call => exact kept_of_filters (call.error_run q.filters) place
  | groupBy columns => exact (Noted.groupBy q columns).kept_eq place
  | having connector column operator operand =>
      cases connector with
      | and => exact kept_of_havings (error_compare .and column operator operand) place
      | or => exact kept_of_havings (error_compare .or column operator operand) place
  | havingRaw sql bindings => exact kept_of_havings (error_fragment .and sql bindings) place
  | orderBy column direction =>
      exact (Noted.whenAliased .orderBy column (by exact .none_of_rfl rfl rfl rfl rfl)).kept_eq place
  | orderByRaw sql bindings =>
      exact (Noted.whenBalanced .orderByRaw sql bindings
        (by exact .none_of_rfl rfl rfl rfl rfl)).kept_eq place
  | reorder => exact (Noted.none_of_rfl rfl rfl rfl rfl : q.Noted none (q.reorder)).kept_eq place
  | take n => exact (Noted.none_of_rfl rfl rfl rfl rfl : q.Noted none (q.take n)).kept_eq place
  | skip n => exact (Noted.none_of_rfl rfl rfl rfl rfl : q.Noted none (q.skip n)).kept_eq place
  | withoutLimits => exact (Noted.none_of_rfl rfl rfl rfl rfl : q.Noted none (q.withoutLimits)).kept_eq place
  | startAfter column direction after =>
      exact (Noted.whenAliased .cursor column (by exact .none_of_rfl rfl rfl rfl rfl)).kept_eq place

/-- Every place keeps the first fault that reaches it. -/
theorem kept_foldl (q : Query) (calls : List QueryCall) (place : FaultPlace) :
    (calls.foldl QueryCall.run q).kept place =
      (q.kept place).or (QueryCall.firstFault? calls place) := by
  induction calls generalizing q with
  | nil => exact (Option.or_none).symm
  | cons call rest ih =>
      rw [List.foldl_cons, ih, kept_run, Option.or_assoc, QueryCall.firstFault?,
        QueryCall.firstFault?, List.findSome?_cons]
      cases (if call.faultPlace = place then call.fault? else none) <;> rfl

theorem error_built (calls : List QueryCall) :
    (built calls).error = FaultPlace.all.findSome? (QueryCall.firstFault? calls) := by
  rw [error_eq]
  refine congrArg (List.findSome? · FaultPlace.all) (funext fun place => ?_)
  rw [built, kept_foldl]
  cases place <;> rfl

/-! ### What compiling reports -/

theorem validTable_of_error {q : Query} {e : QueryError} (h : q.error = some e) :
    q.validTable = .error e := by
  rw [validTable, h]

theorem writableTable_of_error {q : Query} {e : QueryError} (h : q.error = some e)
    (kind : WriteKind) : q.writableTable kind = .error e := by
  rw [writableTable, validTable_of_error h]
  rfl

theorem toSql_of_error {q : Query} {e : QueryError} (h : q.error = some e) (d : Dialect) :
    q.toSql d = .error e := by
  rw [toSql, pieces, validTable_of_error h]
  rfl

theorem toCountSql_of_error {q : Query} {e : QueryError} (h : q.error = some e) (d : Dialect) :
    q.toCountSql d = .error e := by
  have hplain : q.unordered.error = some e := h
  have hcounted : (q.unordered.aggregateOf .count "*").error = some e := h
  rw [toCountSql, countPieces]
  split
  · rw [pieces, validTable_of_error hplain]
    rfl
  · rw [pieces, validTable_of_error hcounted]
    rfl

end Query

/-! ### The earliest fault -/

namespace QueryCall

theorem firstFault?_eq_none {calls : List QueryCall} {place : FaultPlace}
    (h : ∀ call ∈ calls, call.faultPlace = place → call.fault? = none) :
    firstFault? calls place = none := by
  refine List.findSome?_eq_none_iff.mpr fun call hcall => ?_
  split
  · exact h call hcall ‹_›
  · rfl

/-- A place keeps the earliest fault of all, if that is kept there. -/
theorem firstFault?_earliest {before after : List QueryCall} {call : QueryCall} {e : QueryError}
    (hbefore : ∀ b ∈ before, b.fault? = none) (hcall : call.fault? = some e) :
    firstFault? (before ++ call :: after) call.faultPlace = some e := by
  rw [firstFault?, List.findSome?_append, ← firstFault?,
    firstFault?_eq_none fun b hb _ => hbefore b hb, Option.none_or, List.findSome?_cons, if_pos rfl,
    hcall]

/-- Places that are looked up before the earliest fault's have none, if no later call left one
there. -/
theorem firstFault?_lower {before after : List QueryCall} {call : QueryCall}
    (hbefore : ∀ b ∈ before, b.fault? = none)
    (hafter : ∀ later ∈ after, later.fault? ≠ none → call.faultPlace.rank ≤ later.faultPlace.rank)
    {place : FaultPlace} (hlower : place.rank < call.faultPlace.rank) :
    firstFault? (before ++ call :: after) place = none := by
  refine firstFault?_eq_none fun other hother hplace => ?_
  rcases List.mem_append.mp hother with hother | hother
  · exact hbefore other hother
  rcases List.mem_cons.mp hother with rfl | hother
  · rw [hplace] at hlower
    exact absurd hlower (Nat.lt_irrefl _)
  · refine Decidable.byContradiction fun hfault => ?_
    have hrank := hafter other hother hfault
    rw [hplace] at hrank
    exact absurd hlower (Nat.not_lt.mpr hrank)

end QueryCall

/-- The first place that has something is found behind places that have nothing. -/
theorem FaultPlace.findSome?_all {f : FaultPlace → Option QueryError} {place : FaultPlace}
    {e : QueryError} (hplace : f place = some e)
    (hlower : ∀ p : FaultPlace, p.rank < place.rank → f p = none) :
    FaultPlace.all.findSome? f = some e := by
  cases place with
  | query => simp [FaultPlace.all, hplace]
  | filters => simp [FaultPlace.all, hplace, hlower .query (by decide)]
  | havings =>
      simp [FaultPlace.all, hplace, hlower .query (by decide), hlower .filters (by decide)]
  | joins =>
      simp [FaultPlace.all, hplace, hlower .query (by decide), hlower .filters (by decide),
        hlower .havings (by decide)]

namespace Query

/-- **What a query reports.**  Of all faults the first place in the order of looking up tells its
first, every way of compiling returns that one, and there is none exactly if no call was bad.  The
fault of the earliest bad call is reported if no later bad call left its own in a place that is
looked up before. -/
theorem first_place_tells_its_first_fault (calls : List QueryCall) (d : Dialect) (rows : List Row)
    (assignments : Row) :
    let q := Query.built calls
    q.error = FaultPlace.all.findSome? (QueryCall.firstFault? calls) ∧
    (∀ e, q.error = some e →
      q.toSql d = .error e ∧ q.toCountSql d = .error e ∧ q.insertSql d rows = .error e ∧
      q.updateSql d assignments = .error e ∧ q.deleteSql d = .error e) ∧
    (q.error = none ↔ ∀ call ∈ calls, call.fault? = none) ∧
    ∀ before call after e, calls = before ++ call :: after → (∀ b ∈ before, b.fault? = none) →
      call.fault? = some e →
      (∀ later ∈ after, later.fault? ≠ none → call.faultPlace.rank ≤ later.faultPlace.rank) →
      q.error = some e := by
  intro q
  have herror : q.error = _ := error_built calls
  refine ⟨herror, fun e he => ?_, ?_, ?_⟩
  · refine ⟨toSql_of_error he d, toCountSql_of_error he d, ?_, ?_, ?_⟩
    · rw [insertSql, insertPieces, writableTable_of_error he]
      rfl
    · rw [updateSql, updatePieces, writableTable_of_error he]
      rfl
    · rw [deleteSql, deletePieces, writableTable_of_error he]
      rfl
  · rw [herror, List.findSome?_eq_none_iff]
    constructor
    · intro hnone call hcall
      have hplace := hnone call.faultPlace (by cases call.faultPlace <;> decide)
      have := List.findSome?_eq_none_iff.mp hplace call hcall
      rwa [if_pos rfl] at this
    · intro hnone place _
      exact QueryCall.firstFault?_eq_none fun call hcall _ => hnone call hcall
  · rintro before call after e rfl hbefore hcall hafter
    rw [herror]
    exact FaultPlace.findSome?_all (QueryCall.firstFault?_earliest hbefore hcall)
      fun place hlower => QueryCall.firstFault?_lower hbefore hafter hlower

/-- Without a condition on the later calls the earliest fault can be lost: a bad selection
overtakes the bad condition before it. -/
theorem later_fault_can_overtake :
    ¬ ∀ before call after e, (∀ b ∈ before, QueryCall.fault? b = none) →
      QueryCall.fault? call = some e → (Query.built (before ++ call :: after)).error = some e :=
  fun h => absurd
    (h [.source "posts"] (.filtered (.filter .and "1bad" (.value (.int 1)))) [.select ["2bad"]]
      (.invalidIdentifier .filter "1bad") (by decide) (by decide))
    (by decide)

end Query

end Relational
