import Relational.Query.Write
/-
The calls that build a query, as data.

A query is built by calls, one after the other, and a group of conditions by calls of its
own.  What is said of every query that can be built is said of every list of calls.

`Conditions.Reached` lists what a call can do to a sequence of conditions: it notes a
fault, adds one condition, or adds the conditions of a group.  What holds of every
sequence of conditions is proved by going through these cases, and no call is looked at
again.
-/
namespace Relational

/-! ### Conditions -/

/-- A call that adds conditions. -/
inductive ConditionCall where
  /-- `column = operand`. -/
  | filter (connector : Connector) (column : String) (operand : Operand)
  /-- `column operator operand`. -/
  | filterOp (connector : Connector) (column operator : String) (operand : Operand)
  /-- `column IN operand`, or not. -/
  | filterIn (negated : Bool) (column : String) (operand : Operand)
  /-- `column IS NULL`, or not. -/
  | filterNull (negated : Bool) (column : String)
  /-- `column BETWEEN low AND high`. -/
  | filterBetween (column : String) (low high : Value)
  /-- `first operator second`, both columns. -/
  | filterColumn (first operator second : String)
  /-- A raw fragment. -/
  | filterRaw (connector : Connector) (sql : String) (bindings : List Value)
  /-- A group, written by calls of its own. -/
  | filterGroup (connector : Connector) (inner : List ConditionCall)

namespace ConditionCall

mutual

/-- The conditions behind a call. -/
def run (c : Conditions) : ConditionCall → Conditions
  | filter .and column operand => c.filter column operand
  | filter .or column operand => c.orFilter column operand
  | filterOp .and column operator operand => c.filterOp column operator operand
  | filterOp .or column operator operand => c.orFilterOp column operator operand
  | filterIn false column operand => c.filterIn column operand
  | filterIn true column operand => c.filterNotIn column operand
  | filterNull false column => c.filterNull column
  | filterNull true column => c.filterNotNull column
  | filterBetween column low high => c.filterBetween column low high
  | filterColumn first operator second => c.filterColumn first operator second
  | filterRaw .and sql bindings => c.filterRaw sql bindings
  | filterRaw .or sql bindings => c.orFilterRaw sql bindings
  | filterGroup .and inner => c.filterGroup fun start => runAll start inner
  | filterGroup .or inner => c.orFilterGroup fun start => runAll start inner

/-- The conditions behind some calls. -/
def runAll (c : Conditions) : List ConditionCall → Conditions
  | [] => c
  | call :: rest => runAll (run c call) rest

end

mutual

/-- The raw fragments of a call. -/
def fragments : ConditionCall → List String
  | filterRaw _ sql _ => [sql]
  | filterGroup _ inner => fragmentsAll inner
  | _ => []

/-- The raw fragments of some calls. -/
def fragmentsAll : List ConditionCall → List String
  | [] => []
  | call :: rest => fragments call ++ fragmentsAll rest

end

end ConditionCall

/-- A call that adds conditions to a join. -/
inductive JoinCall where
  /-- `first operator second`, both columns. -/
  | on (connector : Connector) (first operator second : String)
  /-- `column = operand`. -/
  | filter (connector : Connector) (column : String) (operand : Operand)
  /-- `column operator operand`. -/
  | filterOp (column operator : String) (operand : Operand)

/-- The join behind a call. -/
def JoinCall.run (j : Join) : JoinCall → Join
  | on .and first operator second => j.on first operator second
  | on .or first operator second => j.orOn first operator second
  | filter .and column operand => j.filter column operand
  | filter .or column operand => j.orFilter column operand
  | filterOp column operator operand => j.filterOp column operator operand

/-! ### Queries -/

/-- A call that builds a query. -/
inductive QueryCall where
  | source (table : String)
  | select (columns : List String)
  | addSelect (columns : List String)
  | selectRaw (sql : String) (bindings : List Value)
  | makeDistinct
  | aggregateOf (function : Aggregate) (column : String)
  | joinOn (kind : JoinKind) (table first operator second : String)
  | crossJoin (table : String)
  /-- A join, written by calls of its own. -/
  | joinWith (kind : JoinKind) (table : String) (steps : List JoinCall)
  | filtered (call : ConditionCall)
  | groupBy (columns : List String)
  | having (connector : Connector) (column operator : String) (operand : Operand)
  | havingRaw (sql : String) (bindings : List Value)
  | orderBy (column : String) (direction : Direction)
  | orderByRaw (sql : String) (bindings : List Value)
  | reorder
  | take (n : UInt64)
  | skip (n : UInt64)
  | withoutLimits
  | startAfter (column : String) (direction : Direction) (after : Option Value)

namespace QueryCall

/-- The query behind a call. -/
def run (q : Query) : QueryCall → Query
  | source table => q.source table
  | select columns => q.select columns
  | addSelect columns => q.addSelect columns
  | selectRaw sql bindings => q.selectRaw sql bindings
  | makeDistinct => q.makeDistinct
  | aggregateOf function column => q.aggregateOf function column
  | joinOn kind table first operator second => q.joinOn kind table first operator second
  | crossJoin table => q.crossJoin table
  | joinWith kind table steps => q.joinWith kind table fun j => steps.foldl JoinCall.run j
  | filtered call => q.filtered call.run
  | groupBy columns => q.groupBy columns
  | having .and column operator operand => q.having column operator operand
  | having .or column operator operand => q.orHaving column operator operand
  | havingRaw sql bindings => q.havingRaw sql bindings
  | orderBy column direction => q.orderBy column direction
  | orderByRaw sql bindings => q.orderByRaw sql bindings
  | reorder => q.reorder
  | take n => q.take n
  | skip n => q.skip n
  | withoutLimits => q.withoutLimits
  | startAfter column direction after => q.startAfter column direction after

/-- The raw fragments of a call. -/
def fragments : QueryCall → List String
  | selectRaw sql _ => [sql]
  | filtered call => call.fragments
  | havingRaw sql _ => [sql]
  | orderByRaw sql _ => [sql]
  | _ => []

end QueryCall

/-- The query that some calls build. -/
def Query.built (calls : List QueryCall) : Query :=
  calls.foldl QueryCall.run .empty

/-! ### What a call can do to conditions -/

/-- What is checked of a condition before it is added; of the text of a raw fragment it is only
known what holds of all that were given. -/
def Leaf.Checked (given : String → Prop) : Leaf → Prop
  | compare column _ v => Name.isColumn column = true ∧ v ≠ .null
  | member column _ _ => Name.isColumn column = true
  | range column _ _ _ => Name.isColumn column = true
  | columns first _ second => Name.isColumn first = true ∧ Name.isColumn second = true
  | null column _ => Name.isColumn column = true
  | raw sql bindings =>
    sql.toList.all Text.isBlank = false ∧ Marker.count sql = bindings.length ∧ given sql

/-- The sequences of conditions that can be written. -/
inductive Conditions.Reached (given : String → Prop) : Conditions → Prop
  | empty : Reached given .empty
  | fail {c : Conditions} (h : Reached given c) (e : QueryError) : Reached given (c.fail e)
  | push {c : Conditions} (h : Reached given c) (connector : Connector) {l : Leaf}
    (hl : l.Checked given) : Reached given (c.push connector l)
  | group {c inner : Conditions} (h : Reached given c) (connector : Connector)
    (hinner : Reached given inner) (hnone : inner.error = none) (hne : inner.tokens ≠ []) :
    Reached given { c with
      tokens := c.tokens ++ Conditions.joint c.tokens connector ++
        (.groupOpen :: (inner.tokens ++ [.groupClose])) }

/-- What goes on behind a check had its check pass. -/
theorem Conditions.isColumn_of_bind {clause : Clause} {column : String} {α : Type}
    {f : Unit → Except QueryError α} {x : α} (h : checkColumn clause column >>= f = .ok x) :
    Name.isColumn column = true ∧ f () = .ok x := by
  unfold checkColumn at h
  split at h
  · exact ⟨‹_›, h⟩
  · cases h

namespace Conditions.Reached

variable {given : String → Prop} {c : Conditions}

theorem add (h : c.Reached given) (connector : Connector) {r : Except QueryError Leaf}
    (hr : ∀ l, r = .ok l → l.Checked given) : (c.add connector r).Reached given := by
  cases r with
  | ok l => exact h.push connector (hr l rfl)
  | error e => exact h.fail e

/-- Every condition was checked before it was added. -/
theorem checked_leaf (h : c.Reached given) {l : Leaf} (hl : .leaf l ∈ c.tokens) :
    l.Checked given := by
  have hjoint : ∀ tokens connector, Token.leaf l ∉ joint tokens connector := by
    intro tokens connector hmem
    unfold joint at hmem
    split at hmem
    · cases hmem
    · cases List.mem_singleton.mp hmem
  induction h with
  | empty => cases hl
  | fail h e ih => exact ih hl
  | push h connector hchecked ih =>
      rcases List.mem_append.mp hl with hl | hl
      · rcases List.mem_append.mp hl with hl | hl
        · exact ih hl
        · exact absurd hl (hjoint _ _)
      · cases List.mem_singleton.mp hl
        exact hchecked
  | group h connector hinner hnone hne ih ihinner =>
      rcases List.mem_append.mp hl with hl | hl
      · rcases List.mem_append.mp hl with hl | hl
        · exact ih hl
        · exact absurd hl (hjoint _ _)
      · rcases List.mem_append.mp (List.mem_of_ne_of_mem (by simp) hl) with hl | hl
        · exact ihinner hl
        · cases List.mem_singleton.mp hl

theorem checked_shape {clause : Clause} {column : String} (hcolumn : Name.isColumn column = true)
    {operator : Operator} {operand : Operand} {l : Leaf}
    (hl : shape clause column operator operand = .ok l) : l.Checked given := by
  unfold shape at hl
  split at hl
  · cases hl
    exact hcolumn
  · cases hl
    exact hcolumn
  · cases hl
  · rename_i comparison v hequal hnotEqual hother
    cases hl
    refine ⟨hcolumn, ?_⟩
    rintro rfl
    exact hother rfl
  · cases hl
    exact hcolumn
  · cases hl
  · cases hl
    exact hcolumn
  · cases hl
    exact hcolumn
  · cases hl
  · cases hl
    exact hcolumn
  · cases hl
    exact hcolumn
  · cases hl

theorem compareBy (h : c.Reached given) (clause : Clause) (connector : Connector) (column : String)
    (operator : Operator) (operand : Operand) :
    (c.compareBy clause connector column operator operand).Reached given := by
  refine h.add connector fun l hl => ?_
  obtain ⟨hcolumn, hl⟩ := isColumn_of_bind hl
  exact checked_shape hcolumn hl

theorem compare (h : c.Reached given) (clause : Clause) (connector : Connector)
    (column operator : String) (operand : Operand) :
    (c.compare clause connector column operator operand).Reached given := by
  refine h.add connector fun l hl => ?_
  obtain ⟨hcolumn, hl⟩ := isColumn_of_bind hl
  split at hl
  · exact checked_shape hcolumn hl
  · cases hl

theorem compareColumns (h : c.Reached given) (clause : Clause) (connector : Connector)
    (first operator second : String) :
    (c.compareColumns clause connector first operator second).Reached given := by
  refine h.add connector fun l hl => ?_
  obtain ⟨hfirst, hl⟩ := isColumn_of_bind hl
  obtain ⟨hsecond, hl⟩ := isColumn_of_bind hl
  split at hl
  · cases hl
    exact ⟨hfirst, hsecond⟩
  · cases hl

theorem testNull (h : c.Reached given) (clause : Clause) (connector : Connector) (column : String)
    (negated : Bool) : (c.testNull clause connector column negated).Reached given := by
  refine h.add connector fun l hl => ?_
  obtain ⟨hcolumn, hl⟩ := isColumn_of_bind hl
  cases hl
  exact hcolumn

theorem fragment (h : c.Reached given) (clause : Clause) (connector : Connector) {sql : String}
    (hgiven : given sql) (bindings : List Value) :
    (c.fragment clause connector sql bindings).Reached given := by
  refine h.add connector fun l hl => ?_
  split at hl
  · cases hl
  · split at hl
    · cases hl
    · rename_i hblank hcount
      cases hl
      exact ⟨by simpa using hblank, by simpa using hcount, hgiven⟩

theorem addGroup (h : c.Reached given) (connector : Connector) {inner : Conditions}
    (hinner : inner.Reached given) : (c.group connector inner).Reached given := by
  unfold Conditions.group
  split
  · exact h.fail _
  · split
    · exact h
    · rename_i hnone hne
      exact h.group connector hinner hnone (by simpa using hne)

end Conditions.Reached

namespace ConditionCall

open Conditions

variable {given : String → Prop}

mutual

theorem reached_run {c : Conditions} (h : c.Reached given) :
    ∀ call : ConditionCall, (∀ sql ∈ call.fragments, given sql) → (run c call).Reached given
  | filter .and column operand, _ => h.compareBy .filter .and column (.single .equal) operand
  | filter .or column operand, _ => h.compareBy .orFilter .or column (.single .equal) operand
  | filterOp .and column operator operand, _ => h.compare .filter .and column operator operand
  | filterOp .or column operator operand, _ => h.compare .orFilter .or column operator operand
  | filterIn false column operand, _ => h.compareBy .filterIn .and column (.member false) operand
  | filterIn true column operand, _ => h.compareBy .filterNotIn .and column (.member true) operand
  | filterNull false column, _ => h.testNull .filterNull .and column false
  | filterNull true column, _ => h.testNull .filterNotNull .and column true
  | filterBetween column low high, _ =>
    h.compareBy .filterBetween .and column (.range false) (.list [low, high])
  | filterColumn first operator second, _ =>
    h.compareColumns .filterColumn .and first operator second
  | filterRaw .and sql bindings, hg =>
    h.fragment .filterRaw .and (hg sql (by simp [fragments])) bindings
  | filterRaw .or sql bindings, hg =>
    h.fragment .orFilterRaw .or (hg sql (by simp [fragments])) bindings
  | filterGroup .and inner, hg => h.addGroup .and (reached_runAll .empty inner hg)
  | filterGroup .or inner, hg => h.addGroup .or (reached_runAll .empty inner hg)

/-- Whatever calls write a sequence of conditions, it is one that can be written. -/
theorem reached_runAll {c : Conditions} (h : c.Reached given) :
    ∀ calls : List ConditionCall, (∀ sql ∈ fragmentsAll calls, given sql) →
      (runAll c calls).Reached given
  | [], _ => h
  | call :: rest, hg =>
    reached_runAll (reached_run h call fun sql hsql => hg sql (by simp [fragmentsAll, hsql])) rest
      fun sql hsql => hg sql (by simp [fragmentsAll, hsql])

end

end ConditionCall

theorem JoinCall.reached_run {given : String → Prop} {j : Join} (h : j.conditions.Reached given)
    (call : JoinCall) : (call.run j).conditions.Reached given := by
  cases call with
  | on connector first operator second =>
      cases connector with
      | and => exact h.compareColumns .on .and first operator second
      | or => exact h.compareColumns .orOn .or first operator second
  | filter connector column operand =>
      cases connector with
      | and => exact h.compareBy .joinFilter .and column (.single .equal) operand
      | or => exact h.compareBy .orJoinFilter .or column (.single .equal) operand
  | filterOp column operator operand =>
      exact h.compare .joinFilter .and column operator operand

theorem JoinCall.reached_foldl {given : String → Prop} {j : Join} (h : j.conditions.Reached given)
    (steps : List JoinCall) : (steps.foldl JoinCall.run j).conditions.Reached given := by
  induction steps generalizing j with
  | nil => exact h
  | cons step rest ih => exact ih (step.reached_run h)

end Relational
