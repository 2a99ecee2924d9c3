import Mathlib.Data.List.Forall2
import Relational.Proofs.Query.Statement
/-
Queries that differ in nothing but their values.

Two calls are alike if they are the same call with the same names, operators and fragments, and
their values stand in some relation place by place.  A lone value is told apart from `NULL` before
anything else, so a lone value goes with a lone value and `NULL` with `NULL`; no other value is ever
looked at.  The relation is arbitrary, and every step hands it on: alike calls on alike queries lead
to alike queries, with the same fault if any.
-/
namespace Relational

open List (Forall₂)

/-! ### Results -/

/-- Both fail with the same fault, or both succeed with related results. -/
inductive Both {ε α β : Type} (r : α → β → Prop) : Except ε α → Except ε β → Prop
  | error (e : ε) : Both r (.error e) (.error e)
  | ok {a : α} {b : β} (h : r a b) : Both r (.ok a) (.ok b)

namespace Both

variable {ε α β γ δ : Type} {r : α → β → Prop} {s : γ → δ → Prop} {x : Except ε α} {y : Except ε β}

theorem refl (x : Except ε α) : Both Eq x x := by
  cases x with
  | error e => exact .error e
  | ok a => exact .ok rfl

theorem bind (h : Both r x y) {f : α → Except ε γ} {g : β → Except ε δ}
    (hfg : ∀ a b, r a b → Both s (f a) (g b)) : Both s (x >>= f) (y >>= g) := by
  cases h with
  | error e => exact .error e
  | ok h => exact hfg _ _ h

theorem map (h : Both r x y) {f : α → γ} {g : β → δ} (hfg : ∀ a b, r a b → s (f a) (g b)) :
    Both s (x.map f) (y.map g) := by
  cases h with
  | error e => exact .error e
  | ok h => exact .ok (hfg _ _ h)

/-- The same check in front of both. -/
theorem after (check : Except ε γ) {f : γ → Except ε α} {g : γ → Except ε β}
    (hfg : ∀ a, Both r (f a) (g a)) : Both r (check >>= f) (check >>= g) :=
  (refl check).bind fun a _ hab => hab ▸ hfg a

theorem mapM {p : γ → δ → Prop} {f : γ → Except ε α} {g : δ → Except ε β}
    (hfg : ∀ a b, p a b → Both r (f a) (g b)) {as : List γ} {bs : List δ} (h : Forall₂ p as bs) :
    Both (Forall₂ r) (as.mapM f) (bs.mapM g) := by
  induction h with
  | nil => exact .ok .nil
  | cons hab hrest ih =>
      rw [List.mapM_cons, List.mapM_cons]
      exact (hfg _ _ hab).bind fun a b ha => ih.bind fun as bs has => .ok (.cons ha has)

end Both

theorem isEmpty_eq_of_forall₂ {α β : Type} {r : α → β → Prop} {as : List α} {bs : List β}
    (h : Forall₂ r as bs) : as.isEmpty = bs.isEmpty := by
  cases h with
  | nil => rfl
  | cons hab hrest => rfl

variable {R : Value → Value → Prop}

/-! ### Conditions -/

/-- Operands that are alike. -/
inductive Operand.Alike (R : Value → Value → Prop) : Operand → Operand → Prop
  | null : Alike R (.value .null) (.value .null)
  | value {v w : Value} (hv : v ≠ .null) (hw : w ≠ .null) (h : R v w) :
    Alike R (.value v) (.value w)
  | list {vs ws : List Value} (h : Forall₂ R vs ws) : Alike R (.list vs) (.list ws)

/-- Conditions that are alike. -/
inductive Leaf.Alike (R : Value → Value → Prop) : Leaf → Leaf → Prop
  | compare (column : String) (comparison : Comparison) {v w : Value} (h : R v w) :
    Alike R (.compare column comparison v) (.compare column comparison w)
  | member (column : String) (negated : Bool) {vs ws : List Value} (h : Forall₂ R vs ws) :
    Alike R (.member column negated vs) (.member column negated ws)
  | range (column : String) (negated : Bool) {low low' high high' : Value} (hlow : R low low')
    (hhigh : R high high') :
    Alike R (.range column negated low high) (.range column negated low' high')
  | columns (first : String) (comparison : Comparison) (second : String) :
    Alike R (.columns first comparison second) (.columns first comparison second)
  | null (column : String) (negated : Bool) : Alike R (.null column negated) (.null column negated)
  | raw (sql : String) {vs ws : List Value} (h : Forall₂ R vs ws) :
    Alike R (.raw sql vs) (.raw sql ws)

/-- Tokens that are alike. -/
inductive Token.Alike (R : Value → Value → Prop) : Token → Token → Prop
  | leaf {l l' : Leaf} (h : l.Alike R l') : Alike R (.leaf l) (.leaf l')
  | connector (c : Connector) : Alike R (.connector c) (.connector c)
  | groupOpen : Alike R .groupOpen .groupOpen
  | groupClose : Alike R .groupClose .groupClose

/-- Sequences of conditions that are alike. -/
structure Conditions.Alike (R : Value → Value → Prop) (c c' : Conditions) : Prop where
  tokens : Forall₂ (Token.Alike R) c.tokens c'.tokens
  error : c.error = c'.error

namespace Conditions

/-- A lone value is told apart from `NULL`, and not looked at any further. -/
theorem shape_value (clause : Clause) (column : String) (operator : Operator) {v : Value}
    (hv : v ≠ .null) : shape clause column operator (.value v) = match operator with
      | .single comparison => .ok (.compare column comparison v)
      | .member negated => .ok (.member column negated [v])
      | .range negated =>
        .error (.invalidOperand clause (.rangeValue (Operator.rangeSql negated))) := by
  cases v with
  | null => exact absurd rfl hv
  | _ =>
      cases operator with
      | single comparison => cases comparison <;> rfl
      | member negated => rfl
      | range negated => rfl

theorem shape_alike (clause : Clause) (column : String) (operator : Operator) {o o' : Operand}
    (h : o.Alike R o') :
    Both (Leaf.Alike R) (shape clause column operator o) (shape clause column operator o') := by
  cases h with
  | null =>
      cases operator with
      | single comparison =>
          cases comparison with
          | equal => exact .ok (.null column false)
          | notEqual => exact .ok (.null column true)
          | _ => exact .error _
      | member negated => exact .error _
      | range negated => exact .error _
  | value hv hw h =>
      rw [shape_value clause column operator hv, shape_value clause column operator hw]
      cases operator with
      | single comparison => exact .ok (.compare column comparison h)
      | member negated => exact .ok (.member column negated (.cons h .nil))
      | range negated => exact .error _
  | list h =>
      cases operator with
      | single comparison =>
          cases comparison with
          | equal => exact .ok (.member column false h)
          | notEqual => exact .ok (.member column true h)
          | _ => exact .error _
      | member negated => exact .ok (.member column negated h)
      | range negated =>
          -- A range takes two values; the fault of any other list tells how many it has.
          cases h with
          | nil => exact .error _
          | cons hlow h =>
              cases h with
              | nil => exact .error _
              | cons hhigh h =>
                  cases h with
                  | nil => exact .ok (.range column negated hlow hhigh)
                  | cons hnext h =>
                      simp only [shape, List.length_cons, h.length_eq]
                      exact .error _

theorem atStart_alike {ts ts' : List Token} (h : Forall₂ (Token.Alike R) ts ts') :
    atStart ts = atStart ts' := by
  -- The last token is looked at, which is the first from behind.
  have hreverse := List.rel_reverse h
  rw [atStart, atStart, List.getLast?_eq_head?_reverse, List.getLast?_eq_head?_reverse]
  generalize ts.reverse = rs, ts'.reverse = rs' at hreverse ⊢
  cases hreverse with
  | nil => rfl
  | cons hlast hrest =>
      cases hlast with
      | leaf => rfl
      | connector => rfl
      | groupOpen => rfl
      | groupClose => rfl

namespace Alike

variable {c c' : Conditions}

theorem empty : Conditions.Alike R .empty .empty :=
  ⟨.nil, rfl⟩

theorem fail (h : c.Alike R c') (e : QueryError) : (c.fail e).Alike R (c'.fail e) where
  tokens := h.tokens
  error := by rw [Conditions.fail, Conditions.fail, h.error]

theorem isEmpty_eq (h : c.Alike R c') : c.isEmpty = c'.isEmpty :=
  isEmpty_eq_of_forall₂ h.tokens

/-- More tokens, joined to those that are there. -/
theorem extend (h : c.Alike R c') (connector : Connector) {ts ts' : List Token}
    (hts : Forall₂ (Token.Alike R) ts ts') :
    Conditions.Alike R { c with tokens := c.tokens ++ joint c.tokens connector ++ ts }
      { c' with tokens := c'.tokens ++ joint c'.tokens connector ++ ts' } := by
  refine ⟨List.rel_append (List.rel_append h.tokens ?_) hts, h.error⟩
  rw [joint, joint, atStart_alike h.tokens]
  split
  · exact .nil
  · exact .cons (.connector connector) .nil

theorem add (h : c.Alike R c') (connector : Connector) {r r' : Except QueryError Leaf}
    (hr : Both (Leaf.Alike R) r r') : (c.add connector r).Alike R (c'.add connector r') := by
  cases hr with
  | error e => exact h.fail e
  | ok hl => exact h.extend connector (.cons (.leaf hl) .nil)

theorem group (h : c.Alike R c') (connector : Connector) {inner inner' : Conditions}
    (hinner : inner.Alike R inner') :
    (c.group connector inner).Alike R (c'.group connector inner') := by
  have hempty : inner.tokens.isEmpty = inner'.tokens.isEmpty := hinner.isEmpty_eq
  unfold Conditions.group
  rw [hinner.error, hempty]
  split
  · exact h.fail _
  · split
    · exact h
    · exact h.extend connector
        (.cons .groupOpen (List.rel_append hinner.tokens (.cons .groupClose .nil)))

variable {o o' : Operand}

theorem compareBy (h : c.Alike R c') (clause : Clause) (connector : Connector) (column : String)
    (operator : Operator) (ho : o.Alike R o') :
    (c.compareBy clause connector column operator o).Alike R
      (c'.compareBy clause connector column operator o') :=
  h.add connector (.after _ fun _ => shape_alike clause column operator ho)

theorem compare (h : c.Alike R c') (clause : Clause) (connector : Connector)
    (column operator : String) (ho : o.Alike R o') :
    (c.compare clause connector column operator o).Alike R
      (c'.compare clause connector column operator o') := by
  refine h.add connector (.after _ fun _ => ?_)
  split
  · exact shape_alike clause column _ ho
  · exact .error _

theorem filterOp (h : c.Alike R c') (column operator : String) (ho : o.Alike R o') :
    (c.filterOp column operator o).Alike R (c'.filterOp column operator o') :=
  h.compare .filter .and column operator ho

theorem orFilterOp (h : c.Alike R c') (column operator : String) (ho : o.Alike R o') :
    (c.orFilterOp column operator o).Alike R (c'.orFilterOp column operator o') :=
  h.compare .orFilter .or column operator ho

theorem compareColumns (h : c.Alike R c') (clause : Clause) (connector : Connector)
    (first operator second : String) :
    (c.compareColumns clause connector first operator second).Alike R
      (c'.compareColumns clause connector first operator second) := by
  refine h.add connector (.after _ fun _ => .after _ fun _ => ?_)
  split
  · exact .ok (.columns _ _ _)
  · exact .error _

theorem testNull (h : c.Alike R c') (clause : Clause) (connector : Connector) (column : String)
    (negated : Bool) :
    (c.testNull clause connector column negated).Alike R
      (c'.testNull clause connector column negated) :=
  h.add connector (.after _ fun _ => .ok (.null column negated))

theorem fragment (h : c.Alike R c') (clause : Clause) (connector : Connector) (sql : String)
    {vs ws : List Value} (hvs : Forall₂ R vs ws) :
    (c.fragment clause connector sql vs).Alike R (c'.fragment clause connector sql ws) := by
  refine h.add connector ?_
  rw [hvs.length_eq]
  split
  · exact .error _
  · split
    · exact .error _
    · exact .ok (.raw sql hvs)

end Alike

end Conditions

/-! ### Calls that add conditions -/

/-- Calls that are alike. -/
inductive ConditionCall.Alike (R : Value → Value → Prop) : ConditionCall → ConditionCall → Prop
  | filter (connector : Connector) (column : String) {o o' : Operand} (h : o.Alike R o') :
    Alike R (.filter connector column o) (.filter connector column o')
  | filterOp (connector : Connector) (column operator : String) {o o' : Operand}
    (h : o.Alike R o') :
    Alike R (.filterOp connector column operator o) (.filterOp connector column operator o')
  | filterIn (negated : Bool) (column : String) {o o' : Operand} (h : o.Alike R o') :
    Alike R (.filterIn negated column o) (.filterIn negated column o')
  | filterNull (negated : Bool) (column : String) :
    Alike R (.filterNull negated column) (.filterNull negated column)
  | filterBetween (column : String) {low low' high high' : Value} (hlow : R low low')
    (hhigh : R high high') :
    Alike R (.filterBetween column low high) (.filterBetween column low' high')
  | filterColumn (first operator second : String) :
    Alike R (.filterColumn first operator second) (.filterColumn first operator second)
  | filterRaw (connector : Connector) (sql : String) {vs ws : List Value} (h : Forall₂ R vs ws) :
    Alike R (.filterRaw connector sql vs) (.filterRaw connector sql ws)
  | filterGroup (connector : Connector) {inner inner' : List ConditionCall}
    (h : Forall₂ (Alike R) inner inner') :
    Alike R (.filterGroup connector inner) (.filterGroup connector inner')

namespace ConditionCall

open Conditions

mutual

theorem run_alike {c c' : Conditions} (h : c.Alike R c') (call : ConditionCall)
    {call' : ConditionCall} (hcall : call.Alike R call') : (run c call).Alike R (run c' call') := by
  cases hcall with
  | filter connector column ho =>
      cases connector with
      | and => exact h.compareBy .filter .and column (.single .equal) ho
      | or => exact h.compareBy .orFilter .or column (.single .equal) ho
  | filterOp connector column operator ho =>
      cases connector with
      | and => exact h.filterOp column operator ho
      | or => exact h.orFilterOp column operator ho
  | filterIn negated column ho =>
      cases negated with
      | false => exact h.compareBy .filterIn .and column (.member false) ho
      | true => exact h.compareBy .filterNotIn .and column (.member true) ho
  | filterNull negated column =>
      cases negated with
      | false => exact h.testNull .filterNull .and column false
      | true => exact h.testNull .filterNotNull .and column true
  | filterBetween column hlow hhigh =>
      have hends := Operand.Alike.list (.cons hlow (.cons hhigh .nil))
      exact h.compareBy .filterBetween .and column (.range false) hends
  | filterColumn first operator second =>
      exact h.compareColumns .filterColumn .and first operator second
  | filterRaw connector sql hvs =>
      cases connector with
      | and => exact h.fragment .filterRaw .and sql hvs
      | or => exact h.fragment .orFilterRaw .or sql hvs
  | filterGroup connector hinner =>
      have hinner := runAll_alike .empty _ hinner
      cases connector with
      | and => exact h.group .and hinner
      | or => exact h.group .or hinner

/-- Alike calls lead from alike conditions to alike conditions. -/
theorem runAll_alike {c c' : Conditions} (h : c.Alike R c') (calls : List ConditionCall)
    {calls' : List ConditionCall} (hcalls : Forall₂ (ConditionCall.Alike R) calls calls') :
    (runAll c calls).Alike R (runAll c' calls') := by
  cases hcalls with
  | nil => exact h
  | cons hcall hrest => exact runAll_alike (run_alike h _ hcall) _ hrest

end

end ConditionCall

/-! ### Joins -/

/-- Joins that are alike. -/
structure Join.Alike (R : Value → Value → Prop) (j j' : Join) : Prop where
  kind : j.kind = j'.kind
  table : j.table = j'.table
  conditions : j.conditions.Alike R j'.conditions

namespace Join.Alike

variable {j j' : Join} {o o' : Operand}

theorem withConditions (h : j.Alike R j') {c c' : Conditions} (hc : c.Alike R c') :
    Join.Alike R { j with conditions := c } { j' with conditions := c' } :=
  { h with conditions := hc }

theorem on (h : j.Alike R j') (first operator second : String) :
    (j.on first operator second).Alike R (j'.on first operator second) :=
  h.withConditions (h.conditions.compareColumns .on .and first operator second)

theorem orOn (h : j.Alike R j') (first operator second : String) :
    (j.orOn first operator second).Alike R (j'.orOn first operator second) :=
  h.withConditions (h.conditions.compareColumns .orOn .or first operator second)

theorem filter (h : j.Alike R j') (column : String) (ho : o.Alike R o') :
    (j.filter column o).Alike R (j'.filter column o') :=
  h.withConditions (h.conditions.compareBy .joinFilter .and column (.single .equal) ho)

theorem filterOp (h : j.Alike R j') (column operator : String) (ho : o.Alike R o') :
    (j.filterOp column operator o).Alike R (j'.filterOp column operator o') :=
  h.withConditions (h.conditions.compare .joinFilter .and column operator ho)

theorem orFilter (h : j.Alike R j') (column : String) (ho : o.Alike R o') :
    (j.orFilter column o).Alike R (j'.orFilter column o') :=
  h.withConditions (h.conditions.compareBy .orJoinFilter .or column (.single .equal) ho)

end Join.Alike

/-- Calls that are alike. -/
inductive JoinCall.Alike (R : Value → Value → Prop) : JoinCall → JoinCall → Prop
  | on (connector : Connector) (first operator second : String) :
    Alike R (.on connector first operator second) (.on connector first operator second)
  | filter (connector : Connector) (column : String) {o o' : Operand} (h : o.Alike R o') :
    Alike R (.filter connector column o) (.filter connector column o')
  | filterOp (column operator : String) {o o' : Operand} (h : o.Alike R o') :
    Alike R (.filterOp column operator o) (.filterOp column operator o')

namespace JoinCall

theorem run_alike {j j' : Join} (h : j.Alike R j') {call call' : JoinCall}
    (hcall : call.Alike R call') : (call.run j).Alike R (call'.run j') := by
  cases hcall with
  | on connector first operator second =>
      cases connector with
      | and => exact h.on first operator second
      | or => exact h.orOn first operator second
  | filter connector column ho =>
      cases connector with
      | and => exact h.filter column ho
      | or => exact h.orFilter column ho
  | filterOp column operator ho => exact h.filterOp column operator ho

theorem foldl_alike {j j' : Join} (h : j.Alike R j') {steps steps' : List JoinCall}
    (hsteps : Forall₂ (JoinCall.Alike R) steps steps') :
    (steps.foldl run j).Alike R (steps'.foldl run j') := by
  induction hsteps generalizing j j' with
  | nil => exact h
  | cons hcall hrest ih => exact ih (run_alike h hcall)

end JoinCall

/-! ### Queries -/

/-- Entries of the select list that are alike. -/
inductive Selection.Alike (R : Value → Value → Prop) : Selection → Selection → Prop
  | column (name : String) : Alike R (.column name) (.column name)
  | raw (sql : String) {vs ws : List Value} (h : Forall₂ R vs ws) :
    Alike R (.raw sql vs) (.raw sql ws)

/-- Entries of the ordering that are alike. -/
inductive Ordering.Alike (R : Value → Value → Prop) : Ordering → Ordering → Prop
  | column (name : String) (direction : Direction) :
    Alike R (.column name direction) (.column name direction)
  | raw (sql : String) {vs ws : List Value} (h : Forall₂ R vs ws) :
    Alike R (.raw sql vs) (.raw sql ws)

/-- Cursors that are alike. -/
structure Cursor.Alike (R : Value → Value → Prop) (c c' : Cursor) : Prop where
  column : c.column = c'.column
  direction : c.direction = c'.direction
  after : Option.Rel R c.after c'.after

/-- Queries that are alike. -/
structure Query.Alike (R : Value → Value → Prop) (q q' : Query) : Prop where
  table : q.table = q'.table
  selections : Forall₂ (Selection.Alike R) q.selections q'.selections
  distinct : q.distinct = q'.distinct
  aggregate : q.aggregate = q'.aggregate
  joins : Forall₂ (Join.Alike R) q.joins q'.joins
  filters : q.filters.Alike R q'.filters
  groups : q.groups = q'.groups
  havings : q.havings.Alike R q'.havings
  orders : Forall₂ (Ordering.Alike R) q.orders q'.orders
  limit : q.limit = q'.limit
  offset : q.offset = q'.offset
  cursor : Option.Rel (Cursor.Alike R) q.cursor q'.cursor
  fault : q.fault = q'.fault

namespace Query.Alike

variable {q q' : Query}

theorem empty : Query.Alike R .empty .empty where
  table := rfl
  selections := .nil
  distinct := rfl
  aggregate := rfl
  joins := .nil
  filters := .empty
  groups := rfl
  havings := .empty
  orders := .nil
  limit := rfl
  offset := rfl
  cursor := .none
  fault := rfl

theorem fail (h : q.Alike R q') (e : QueryError) : (q.fail e).Alike R (q'.fail e) :=
  { h with fault := by rw [Query.fail, Query.fail, h.fault] }

theorem whenAliased (h : q.Alike R q') (clause : Clause) (name : String)
    {change change' : Query → Query} (hchange : (change q).Alike R (change' q')) :
    (q.whenAliased clause name change).Alike R (q'.whenAliased clause name change') := by
  unfold Query.whenAliased
  split
  · exact hchange
  · exact h.fail _

theorem whenBalanced (h : q.Alike R q') (clause : Clause) (sql : String) {vs ws : List Value}
    (hvs : Forall₂ R vs ws) {change change' : Query → Query}
    (hchange : (change q).Alike R (change' q')) :
    (q.whenBalanced clause sql vs change).Alike R (q'.whenBalanced clause sql ws change') := by
  unfold Query.whenBalanced
  rw [hvs.length_eq]
  split
  · exact hchange
  · exact h.fail _

theorem source (h : q.Alike R q') (table : String) :
    (q.source table).Alike R (q'.source table) := by
  unfold Query.source
  split
  · exact { h with table := rfl }
  · exact h.fail _

theorem addSelect (h : q.Alike R q') (columns : List String) :
    (q.addSelect columns).Alike R (q'.addSelect columns) := by
  induction columns generalizing q q' with
  | nil => exact h
  | cons column rest ih =>
      refine ih (h.whenAliased _ _ { h with selections := ?_ })
      exact List.rel_append h.selections (.cons (.column column) .nil)

theorem select (h : q.Alike R q') (columns : List String) :
    (q.select columns).Alike R (q'.select columns) := by
  refine addSelect ?_ columns
  exact { h with selections := .nil }

theorem selectRaw (h : q.Alike R q') (sql : String) {vs ws : List Value} (hvs : Forall₂ R vs ws) :
    (q.selectRaw sql vs).Alike R (q'.selectRaw sql ws) := by
  refine h.whenBalanced _ _ hvs { h with selections := ?_ }
  exact List.rel_append h.selections (.cons (.raw sql hvs) .nil)

theorem aggregateOf (h : q.Alike R q') (function : Aggregate) (column : String) :
    (q.aggregateOf function column).Alike R (q'.aggregateOf function column) := by
  unfold Query.aggregateOf
  split
  · exact { h with aggregate := rfl }
  · exact h.whenAliased _ _ { h with aggregate := rfl }

theorem addJoin (h : q.Alike R q') {j j' : Join} (hj : j.Alike R j') :
    (q.addJoin j).Alike R (q'.addJoin j') := by
  unfold Query.addJoin
  rw [hj.table]
  exact h.whenAliased _ _ { h with joins := List.rel_append h.joins (.cons hj .nil) }

theorem groupBy (h : q.Alike R q') (columns : List String) :
    (q.groupBy columns).Alike R (q'.groupBy columns) := by
  induction columns generalizing q q' with
  | nil => exact h
  | cons column rest ih =>
      refine ih (h.whenAliased _ _ { h with groups := ?_ })
      exact congrArg (· ++ [column]) h.groups

theorem withHavings (h : q.Alike R q') {c c' : Conditions} (hc : c.Alike R c') :
    Query.Alike R { q with havings := c } { q' with havings := c' } :=
  { h with havings := hc }

theorem having (h : q.Alike R q') (column operator : String) {o o' : Operand} (ho : o.Alike R o') :
    (q.having column operator o).Alike R (q'.having column operator o') :=
  h.withHavings (h.havings.compare .having .and column operator ho)

theorem orHaving (h : q.Alike R q') (column operator : String) {o o' : Operand}
    (ho : o.Alike R o') : (q.orHaving column operator o).Alike R (q'.orHaving column operator o') :=
  h.withHavings (h.havings.compare .orHaving .or column operator ho)

theorem havingRaw (h : q.Alike R q') (sql : String) {vs ws : List Value} (hvs : Forall₂ R vs ws) :
    (q.havingRaw sql vs).Alike R (q'.havingRaw sql ws) :=
  h.withHavings (h.havings.fragment .havingRaw .and sql hvs)

theorem makeDistinct (h : q.Alike R q') : q.makeDistinct.Alike R q'.makeDistinct :=
  { h with distinct := rfl }

theorem reorder (h : q.Alike R q') : q.reorder.Alike R q'.reorder :=
  { h with orders := .nil }

theorem take (h : q.Alike R q') (n : UInt64) : (q.take n).Alike R (q'.take n) :=
  { h with limit := rfl }

theorem skip (h : q.Alike R q') (n : UInt64) : (q.skip n).Alike R (q'.skip n) :=
  { h with offset := rfl }

theorem withoutLimits (h : q.Alike R q') : q.withoutLimits.Alike R q'.withoutLimits :=
  { h with limit := rfl, offset := rfl }

theorem orderBy (h : q.Alike R q') (column : String) (direction : Direction) :
    (q.orderBy column direction).Alike R (q'.orderBy column direction) := by
  refine h.whenAliased _ _ { h with orders := ?_ }
  exact List.rel_append h.orders (.cons (.column column direction) .nil)

theorem orderByRaw (h : q.Alike R q') (sql : String) {vs ws : List Value} (hvs : Forall₂ R vs ws) :
    (q.orderByRaw sql vs).Alike R (q'.orderByRaw sql ws) := by
  refine h.whenBalanced _ _ hvs { h with orders := ?_ }
  exact List.rel_append h.orders (.cons (.raw sql hvs) .nil)

theorem startAfter (h : q.Alike R q') (column : String) (direction : Direction)
    {after after' : Option Value} (hafter : Option.Rel R after after') :
    (q.startAfter column direction after).Alike R (q'.startAfter column direction after') := by
  refine h.whenAliased _ _ { h with cursor := ?_ }
  exact .some ⟨rfl, rfl, hafter⟩

end Query.Alike

/-! ### Calls that build queries -/

/-- Whether a call takes no values. -/
def QueryCall.isPlain : QueryCall → Bool
  | selectRaw .. | joinWith .. | filtered .. | having .. | havingRaw .. | orderByRaw ..
  | startAfter .. => false
  | _ => true

/-- Calls that are alike. -/
inductive QueryCall.Alike (R : Value → Value → Prop) : QueryCall → QueryCall → Prop
  | plain {call : QueryCall} (h : call.isPlain) : Alike R call call
  | selectRaw (sql : String) {vs ws : List Value} (h : Forall₂ R vs ws) :
    Alike R (.selectRaw sql vs) (.selectRaw sql ws)
  | joinWith (kind : JoinKind) (table : String) {steps steps' : List JoinCall}
    (h : Forall₂ (JoinCall.Alike R) steps steps') :
    Alike R (.joinWith kind table steps) (.joinWith kind table steps')
  | filtered {call call' : ConditionCall} (h : call.Alike R call') :
    Alike R (.filtered call) (.filtered call')
  | having (connector : Connector) (column operator : String) {o o' : Operand} (h : o.Alike R o') :
    Alike R (.having connector column operator o) (.having connector column operator o')
  | havingRaw (sql : String) {vs ws : List Value} (h : Forall₂ R vs ws) :
    Alike R (.havingRaw sql vs) (.havingRaw sql ws)
  | orderByRaw (sql : String) {vs ws : List Value} (h : Forall₂ R vs ws) :
    Alike R (.orderByRaw sql vs) (.orderByRaw sql ws)
  | startAfter (column : String) (direction : Direction) {after after' : Option Value}
    (h : Option.Rel R after after') :
    Alike R (.startAfter column direction after) (.startAfter column direction after')

namespace QueryCall

theorem run_plain_alike {q q' : Query} (h : q.Alike R q') {call : QueryCall}
    (hcall : call.isPlain) : (call.run q).Alike R (call.run q') := by
  cases call with
  | source table => exact h.source table
  | select columns => exact h.select columns
  | addSelect columns => exact h.addSelect columns
  | makeDistinct => exact h.makeDistinct
  | aggregateOf function column => exact h.aggregateOf function column
  | joinOn kind table first operator second =>
      exact h.addJoin (Join.Alike.on ⟨rfl, rfl, .empty⟩ first operator second)
  | crossJoin table => exact h.addJoin ⟨rfl, rfl, .empty⟩
  | groupBy columns => exact h.groupBy columns
  | orderBy column direction => exact h.orderBy column direction
  | reorder => exact h.reorder
  | take n => exact h.take n
  | skip n => exact h.skip n
  | withoutLimits => exact h.withoutLimits
  | _ => cases hcall

/-- Alike calls lead from alike queries to alike queries. -/
theorem run_alike {q q' : Query} (h : q.Alike R q') {call call' : QueryCall}
    (hcall : call.Alike R call') : (call.run q).Alike R (call'.run q') := by
  cases hcall with
  | plain hplain => exact run_plain_alike h hplain
  | selectRaw sql hvs => exact h.selectRaw sql hvs
  | joinWith kind table hsteps => exact h.addJoin (JoinCall.foldl_alike ⟨rfl, rfl, .empty⟩ hsteps)
  | filtered hcall => exact { h with filters := ConditionCall.run_alike h.filters _ hcall }
  | having connector column operator ho =>
      cases connector with
      | and => exact h.having column operator ho
      | or => exact h.orHaving column operator ho
  | havingRaw sql hvs => exact h.havingRaw sql hvs
  | orderByRaw sql hvs => exact h.orderByRaw sql hvs
  | startAfter column direction hafter => exact h.startAfter column direction hafter

end QueryCall

theorem Query.built_alike {calls calls' : List QueryCall}
    (h : Forall₂ (QueryCall.Alike R) calls calls') : (built calls).Alike R (built calls') := by
  -- The queries that the calls start from vary along the calls.
  have hfrom : ∀ {q q' : Query}, q.Alike R q' →
      (calls.foldl QueryCall.run q).Alike R (calls'.foldl QueryCall.run q') := by
    induction h with
    | nil => exact fun hq => hq
    | cons hcall hrest ih => exact fun hq => ih (QueryCall.run_alike hq hcall)
  exact hfrom .empty

end Relational
