import Mathlib.Data.List.Induction
import Relational.Proofs.Query.Fault
/-
What becomes of `NULL` in a condition.

A comparison with `NULL` is true of no row.  Where `NULL` stands alone, the calls see to it that
none is written: equality asks for `NULL` instead, and every other operator refuses it.  The members
of a list and the ends of a range are not looked at.  So what is followed here is which condition
each call leaves behind: every condition that compares goes back to a call that asked for it, and
every call that asked for one is answered by it.
-/
namespace Relational

/-! ### What is asked for -/

/-- A comparison that a call asks for. -/
structure Asked where
  column : String
  operator : Operator
  operand : Operand

namespace Asked

/-- The condition is made of the comparison. -/
def Shapes (a : Asked) (l : Leaf) : Prop :=
  ∃ clause, Conditions.shape clause a.column a.operator a.operand = .ok l

/-- `NULL` is in the list that the column is compared with. -/
def ListsNull (a : Asked) : Prop :=
  ∃ vs, a.operand = .list vs ∧ .null ∈ vs

/-- A comparison whose operator has to be read. -/
def written (column operator : String) (operand : Operand) : List Asked :=
  (Operator.parse? operator).toList.map fun op => ⟨column, op, operand⟩

end Asked

namespace ConditionCall

mutual

/-- The comparisons that a call asks for. -/
def asked : ConditionCall → List Asked
  | filter _ column operand => [⟨column, .single .equal, operand⟩]
  | filterOp _ column operator operand => Asked.written column operator operand
  | filterIn negated column operand => [⟨column, .member negated, operand⟩]
  | filterBetween column low high => [⟨column, .range false, .list [low, high]⟩]
  | filterGroup _ inner => askedAll inner
  | filterNull .. | filterColumn .. | filterRaw .. => []

/-- The comparisons that some calls ask for. -/
def askedAll : List ConditionCall → List Asked
  | [] => []
  | call :: rest => asked call ++ askedAll rest

end

end ConditionCall

/-- The comparisons that a call asks for. -/
def JoinCall.asked : JoinCall → List Asked
  | on .. => []
  | filter _ column operand => [⟨column, .single .equal, operand⟩]
  | filterOp column operator operand => Asked.written column operator operand

/-- The comparisons that a call asks for. -/
def QueryCall.asked : QueryCall → List Asked
  | joinWith _ _ steps => steps.flatMap JoinCall.asked
  | filtered call => call.asked
  | having _ column operator operand => Asked.written column operator operand
  | _ => []

/-! ### What is written -/

/-- A column is compared with `NULL`, be it one value of several. -/
def Leaf.ComparesNull : Leaf → Prop
  | compare _ _ v => v = .null
  | member _ _ vs => .null ∈ vs
  | range _ _ low high => low = .null ∨ high = .null
  | columns .. | null .. | raw .. => False

/-- The condition that a token is. -/
def Token.leaf? : Token → Option Leaf
  | leaf l => some l
  | connector _ | groupOpen | groupClose => none

/-- The conditions of a sequence. -/
def Conditions.leaves (c : Conditions) : List Leaf :=
  c.tokens.filterMap Token.leaf?

/-- The conditions of a query, in whatever clause they stand. -/
def Query.leaves (q : Query) : List Leaf :=
  q.filters.leaves ++ q.havings.leaves ++ q.joins.flatMap (·.conditions.leaves)

namespace Asked

variable {a : Asked} {l : Leaf}

/-- `NULL` gets into a comparison from a list only. -/
theorem Shapes.comparesNull_iff (h : a.Shapes l) : l.ComparesNull ↔ a.ListsNull := by
  obtain ⟨clause, h⟩ := h
  obtain ⟨column, operator, operand⟩ := a
  unfold Conditions.shape at h
  dsimp only at h
  split at h
  · cases h
    simp [Leaf.ComparesNull, ListsNull]
  · cases h
    simp [Leaf.ComparesNull, ListsNull]
  · cases h
  · rename_i hvalue
    cases h
    simpa [Leaf.ComparesNull, ListsNull] using hvalue
  · rename_i hvalue
    cases h
    simpa [Leaf.ComparesNull, ListsNull, eq_comm] using hvalue
  · cases h
  · cases h
    simp [Leaf.ComparesNull, ListsNull]
  · cases h
    simp [Leaf.ComparesNull, ListsNull]
  · cases h
  · cases h
    simp [Leaf.ComparesNull, ListsNull]
  · cases h
    simp [Leaf.ComparesNull, ListsNull, eq_comm]
  · cases h

/-- No operator between single values is left with `NULL`. -/
theorem Shapes.ne_null {column : String} {comparison : Comparison} {v : Value}
    (h : a.Shapes (.compare column comparison v)) : v ≠ .null := by
  obtain ⟨clause, h⟩ := h
  obtain ⟨column, operator, operand⟩ := a
  unfold Conditions.shape at h
  dsimp only at h
  split at h
  case h_4 hvalue =>
      cases h
      rintro rfl
      exact hvalue rfl
  all_goals cases h

/-- `NULL` alone is asked for, or for what is not. -/
theorem Shapes.eq_null (h : a.Shapes l) (hnull : a.operand = .value .null) :
    ∃ negated, a.operator = .single (if negated then .notEqual else .equal) ∧
      l = .null a.column negated := by
  obtain ⟨clause, h⟩ := h
  rw [hnull] at h
  unfold Conditions.shape at h
  split at h
  · rename_i hoperator _
    cases h
    exact ⟨false, hoperator, rfl⟩
  · rename_i hoperator _
    cases h
    exact ⟨true, hoperator, rfl⟩
  all_goals simp_all

end Asked

/-! ### From what is asked for to what is written -/

/-- The conditions answer to what was asked for: those that compare with `NULL` were asked for, and
whatever was asked for is among them. -/
structure Answer (leaves : List Leaf) (asked : List Asked) : Prop where
  asked_of_comparesNull : ∀ l ∈ leaves, l.ComparesNull → ∃ a ∈ asked, a.Shapes l
  written_of_asked : ∀ a ∈ asked, ∃ l ∈ leaves, a.Shapes l

namespace Answer

variable {leaves leaves' : List Leaf} {asked asked' : List Asked}

theorem nil : Answer [] [] :=
  ⟨fun _ hl => absurd hl List.not_mem_nil, fun _ ha => absurd ha List.not_mem_nil⟩

theorem append (h : Answer leaves asked) (h' : Answer leaves' asked') :
    Answer (leaves ++ leaves') (asked ++ asked') := by
  refine ⟨fun l hl hnull => ?_, fun a ha => ?_⟩
  · rcases List.mem_append.mp hl with hl | hl
    · obtain ⟨a, ha, hshapes⟩ := h.asked_of_comparesNull l hl hnull
      exact ⟨a, List.mem_append_left _ ha, hshapes⟩
    · obtain ⟨a, ha, hshapes⟩ := h'.asked_of_comparesNull l hl hnull
      exact ⟨a, List.mem_append_right _ ha, hshapes⟩
  · rcases List.mem_append.mp ha with ha | ha
    · obtain ⟨l, hl, hshapes⟩ := h.written_of_asked a ha
      exact ⟨l, List.mem_append_left _ hl, hshapes⟩
    · obtain ⟨l, hl, hshapes⟩ := h'.written_of_asked a ha
      exact ⟨l, List.mem_append_right _ hl, hshapes⟩

theorem perm (h : Answer leaves asked) (hleaves : leaves.Perm leaves') : Answer leaves' asked :=
  ⟨fun l hl => h.asked_of_comparesNull l (hleaves.mem_iff.mpr hl), fun a ha =>
    (h.written_of_asked a ha).imp fun _ hl => ⟨hleaves.mem_iff.mp hl.1, hl.2⟩⟩

theorem of_shape {clause : Clause} {column : String} {operator : Operator} {operand : Operand}
    {l : Leaf} (h : Conditions.shape clause column operator operand = .ok l) :
    Answer [l] [⟨column, operator, operand⟩] := by
  have hshapes : Asked.Shapes ⟨column, operator, operand⟩ l := ⟨clause, h⟩
  exact ⟨fun _ hl _ => ⟨_, List.mem_singleton_self _, List.mem_singleton.mp hl ▸ hshapes⟩,
    fun _ ha => ⟨l, List.mem_singleton_self _, List.mem_singleton.mp ha ▸ hshapes⟩⟩

/-- A condition that no comparison is made of. -/
theorem of_not_comparesNull {l : Leaf} (h : ¬l.ComparesNull) : Answer [l] [] :=
  ⟨fun _ hl hnull => absurd (List.mem_singleton.mp hl ▸ hnull) h,
    fun _ ha => absurd ha List.not_mem_nil⟩

end Answer

namespace Conditions

variable {c c' c'' : Conditions} {clause : Clause} {asked asked' : List Asked}

theorem leaves_push (c : Conditions) (connector : Connector) (l : Leaf) :
    (c.push connector l).leaves = c.leaves ++ [l] := by
  unfold leaves push joint
  split <;> simp [Token.leaf?, List.filterMap_cons]

/-- If `c'` is without a fault, then so is `c`, and the conditions that `c'` has in addition answer
to what was asked for. -/
def Grows (c c' : Conditions) (asked : List Asked) : Prop :=
  c'.error = none → c.error = none ∧ ∃ new, c'.leaves = c.leaves ++ new ∧ Answer new asked

namespace Grows

theorem refl (c : Conditions) : c.Grows c [] :=
  fun h => ⟨h, [], (List.append_nil _).symm, .nil⟩

theorem trans (h : c.Grows c' asked) (h' : c'.Grows c'' asked') :
    c.Grows c'' (asked ++ asked') := by
  intro herror
  obtain ⟨herror, later, hlater, hlaterAnswer⟩ := h' herror
  obtain ⟨herror, new, hnew, hanswer⟩ := h herror
  exact ⟨herror, new ++ later, by rw [hlater, hnew, List.append_assoc],
    hanswer.append hlaterAnswer⟩

theorem add (c : Conditions) (connector : Connector) {r : Except QueryError Leaf}
    (hr : ∀ l, r = .ok l → Answer [l] asked) : c.Grows (c.add connector r) asked := by
  intro herror
  cases r with
  | ok l => exact ⟨herror, [l], leaves_push c connector l, hr l rfl⟩
  | error e =>
      have hfault := error_add (c := c) connector (.error e)
      rw [herror] at hfault
      cases hc : c.error <;> simp [hc, faultOf] at hfault

theorem compareBy (c : Conditions) (connector : Connector) (column : String) (operator : Operator)
    (operand : Operand) : c.Grows (c.compareBy clause connector column operator operand)
      [⟨column, operator, operand⟩] :=
  add c connector fun _ hl => .of_shape (isColumn_of_bind hl).2

theorem compare (c : Conditions) (connector : Connector) (column operator : String)
    (operand : Operand) : c.Grows (c.compare clause connector column operator operand)
      (Asked.written column operator operand) := by
  refine add c connector fun l hl => ?_
  obtain ⟨-, hl⟩ := isColumn_of_bind hl
  unfold Asked.written
  split at hl
  · rename_i op hop
    rw [hop]
    exact .of_shape hl
  · cases hl

theorem compareColumns (c : Conditions) (connector : Connector) (first operator second : String) :
    c.Grows (c.compareColumns clause connector first operator second) [] := by
  refine add c connector fun l hl => ?_
  obtain ⟨-, hl⟩ := isColumn_of_bind hl
  obtain ⟨-, hl⟩ := isColumn_of_bind hl
  split at hl
  · cases hl
    exact .of_not_comparesNull id
  · cases hl

theorem testNull (c : Conditions) (connector : Connector) (column : String) (negated : Bool) :
    c.Grows (c.testNull clause connector column negated) [] := by
  refine add c connector fun l hl => ?_
  obtain ⟨-, hl⟩ := isColumn_of_bind hl
  cases hl
  exact .of_not_comparesNull id

theorem fragment (c : Conditions) (connector : Connector) (sql : String)
    (bindings : List Value) : c.Grows (c.fragment clause connector sql bindings) [] := by
  refine add c connector fun l hl => ?_
  split at hl
  · cases hl
  · split at hl
    · cases hl
    · cases hl
      exact .of_not_comparesNull id

theorem group (c : Conditions) (connector : Connector) {inner : Conditions}
    (hinner : Conditions.empty.Grows inner asked) : c.Grows (c.group connector inner) asked := by
  intro herror
  rw [error_group, Option.or_eq_none_iff] at herror
  obtain ⟨hc, hnone⟩ := herror
  obtain ⟨-, new, hnew, hanswer⟩ := hinner hnone
  refine ⟨hc, new, ?_, hanswer⟩
  have hleaves : inner.leaves = new := hnew
  rw [← hleaves]
  unfold Conditions.group
  rw [hnone]
  dsimp only
  split
  · rename_i hempty
    simp [leaves, List.isEmpty_iff.mp hempty]
  · unfold leaves joint
    split <;> simp [Token.leaf?, List.filterMap_cons]

end Grows

end Conditions

namespace ConditionCall

open Conditions

mutual

theorem grows_run (c : Conditions) : ∀ call : ConditionCall, c.Grows (run c call) call.asked
  | filter .and column operand => .compareBy c .and column (.single .equal) operand
  | filter .or column operand => .compareBy c .or column (.single .equal) operand
  | filterOp .and column operator operand => .compare c .and column operator operand
  | filterOp .or column operator operand => .compare c .or column operator operand
  | filterIn false column operand => .compareBy c .and column (.member false) operand
  | filterIn true column operand => .compareBy c .and column (.member true) operand
  | filterNull false column => .testNull c .and column false
  | filterNull true column => .testNull c .and column true
  | filterBetween column low high => .compareBy c .and column (.range false) (.list [low, high])
  | filterColumn first operator second => .compareColumns c .and first operator second
  | filterRaw .and sql bindings => .fragment c .and sql bindings
  | filterRaw .or sql bindings => .fragment c .or sql bindings
  | filterGroup .and inner => .group c .and (grows_runAll .empty inner)
  | filterGroup .or inner => .group c .or (grows_runAll .empty inner)

/-- Calls write what they ask for. -/
theorem grows_runAll (c : Conditions) :
    ∀ calls : List ConditionCall, c.Grows (runAll c calls) (askedAll calls)
  | [] => .refl c
  | call :: rest => (grows_run c call).trans (grows_runAll (run c call) rest)

end

end ConditionCall

theorem JoinCall.grows_run (j : Join) (call : JoinCall) :
    j.conditions.Grows (call.run j).conditions call.asked := by
  cases call with
  | on connector first operator second =>
      cases connector with
      | and => exact .compareColumns j.conditions .and first operator second
      | or => exact .compareColumns j.conditions .or first operator second
  | filter connector column operand =>
      cases connector with
      | and => exact .compareBy j.conditions .and column (.single .equal) operand
      | or => exact .compareBy j.conditions .or column (.single .equal) operand
  | filterOp column operator operand =>
      exact .compare j.conditions .and column operator operand

theorem JoinCall.grows_foldl (j : Join) (steps : List JoinCall) :
    j.conditions.Grows (steps.foldl JoinCall.run j).conditions (steps.flatMap JoinCall.asked) := by
  induction steps generalizing j with
  | nil => exact .refl j.conditions
  | cons step rest ih =>
      rw [List.foldl_cons, List.flatMap_cons]
      exact (step.grows_run j).trans (ih (step.run j))

namespace Query

variable {q q' q'' : Query} {asked asked' : List Asked}

theorem error_eq_none_iff : q.error = none ↔ ∀ place, q.kept place = none := by
  rw [error_eq, List.findSome?_eq_none_iff]
  exact ⟨fun h place => h place (by cases place <;> decide), fun h place _ => h place⟩

theorem error_eq_none_of_run {call : QueryCall} (h : (call.run q).error = none) :
    q.error = none := by
  rw [error_eq_none_iff] at h ⊢
  intro place
  have hplace := h place
  rw [kept_run, Option.or_eq_none_iff] at hplace
  exact hplace.1

/-- If `q'` is without a fault, then the conditions that it has in addition to those of `q` answer
to what was asked for. -/
def Grows (q q' : Query) (asked : List Asked) : Prop :=
  q'.error = none → ∃ new, q'.leaves.Perm (q.leaves ++ new) ∧ Answer new asked

namespace Grows

theorem of_noted {e : Option QueryError} (h : q.Noted e q') : q.Grows q' [] := by
  refine fun _ => ⟨[], ?_, .nil⟩
  rw [List.append_nil]
  unfold leaves
  rw [h.filters, h.havings, h.joins]

theorem filtered (h : q.filters.Grows q'.filters asked) (hhavings : q'.havings = q.havings)
    (hjoins : q'.joins = q.joins) : q.Grows q' asked := by
  intro herror
  obtain ⟨-, new, hnew, hanswer⟩ := h (error_eq_none_iff.mp herror .filters)
  refine ⟨new, List.perm_iff_count.mpr fun l => ?_, hanswer⟩
  unfold leaves
  rw [hnew, hhavings, hjoins]
  simp only [List.count_append]
  omega

theorem having (h : q.havings.Grows q'.havings asked) (hfilters : q'.filters = q.filters)
    (hjoins : q'.joins = q.joins) : q.Grows q' asked := by
  intro herror
  obtain ⟨-, new, hnew, hanswer⟩ := h (error_eq_none_iff.mp herror .havings)
  refine ⟨new, List.perm_iff_count.mpr fun l => ?_, hanswer⟩
  unfold leaves
  rw [hnew, hfilters, hjoins]
  simp only [List.count_append]
  omega

theorem addJoin (q : Query) {j : Join} (h : Conditions.empty.Grows j.conditions asked) :
    q.Grows (q.addJoin j) asked := by
  intro herror
  have hkept := error_eq_none_iff.mp herror
  have htable := hkept .query
  have hconditions := hkept .joins
  rw [kept_addJoin, Option.or_eq_none_iff] at htable hconditions
  by_cases hname : Name.isAliased j.table = true
  · have hfault : j.conditions.error = none := by
      have := hconditions.2
      rw [if_pos (if_pos hname), Option.or_eq_none_iff] at this
      exact this.2
    obtain ⟨-, new, hnew, hanswer⟩ := h hfault
    have hleaves : j.conditions.leaves = new := hnew
    refine ⟨new, ?_, hanswer⟩
    rw [← hleaves, Query.addJoin, whenAliased, if_pos hname]
    simp [leaves]
  · have := htable.2
    rw [if_pos (if_neg hname), Clause.aliasedFault?, if_neg hname] at this
    cases this

/-- A call of a query writes what it asks for. -/
theorem run (q : Query) (call : QueryCall) : q.Grows (call.run q) call.asked := by
  cases call with
  | source table => exact of_noted (.source q table)
  | select columns => exact of_noted (.select q columns)
  | addSelect columns => exact of_noted (.addSelect q columns)
  | selectRaw sql bindings =>
      have hnoted : q.Noted _ (q.selectRaw sql bindings) :=
        .whenBalanced .selectRaw sql bindings (by exact .none_of_rfl rfl rfl rfl rfl)
      exact of_noted hnoted
  | makeDistinct => exact of_noted (.none_of_rfl rfl rfl rfl rfl)
  | aggregateOf function column => exact of_noted (.aggregateOf q function column)
  | joinOn kind table first operator second =>
      exact addJoin q (.compareColumns .empty .and first operator second)
  | crossJoin table => exact addJoin q (.refl .empty)
  | joinWith kind table steps => exact addJoin q (JoinCall.grows_foldl { kind, table } steps)
  | filtered call => exact filtered (call.grows_run q.filters) rfl rfl
  | groupBy columns => exact of_noted (.groupBy q columns)
  | having connector column operator operand =>
      cases connector with
      | and => exact having (.compare q.havings .and column operator operand) rfl rfl
      | or => exact having (.compare q.havings .or column operator operand) rfl rfl
  | havingRaw sql bindings => exact having (.fragment q.havings .and sql bindings) rfl rfl
  | orderBy column direction =>
      have hnoted : q.Noted _ (q.orderBy column direction) :=
        .whenAliased .orderBy column (by exact .none_of_rfl rfl rfl rfl rfl)
      exact of_noted hnoted
  | orderByRaw sql bindings =>
      have hnoted : q.Noted _ (q.orderByRaw sql bindings) :=
        .whenBalanced .orderByRaw sql bindings (by exact .none_of_rfl rfl rfl rfl rfl)
      exact of_noted hnoted
  | reorder => exact of_noted (.none_of_rfl rfl rfl rfl rfl)
  | take n => exact of_noted (.none_of_rfl rfl rfl rfl rfl)
  | skip n => exact of_noted (.none_of_rfl rfl rfl rfl rfl)
  | withoutLimits => exact of_noted (.none_of_rfl rfl rfl rfl rfl)
  | startAfter column direction after =>
      have hnoted : q.Noted _ (q.startAfter column direction after) :=
        .whenAliased .cursor column (by exact .none_of_rfl rfl rfl rfl rfl)
      exact of_noted hnoted

end Grows

/-- The conditions of a query answer to what its calls ask for. -/
theorem answer_built (calls : List QueryCall) (h : (built calls).error = none) :
    Answer (built calls).leaves (calls.flatMap QueryCall.asked) := by
  unfold built at h ⊢
  -- from the last call backwards, as it is the whole query that is without a fault
  induction calls using List.reverseRecOn with
  | nil => exact .nil
  | append_singleton calls call ih =>
      rw [List.foldl_append, List.foldl_cons, List.foldl_nil] at h ⊢
      obtain ⟨new, hnew, hanswer⟩ := Grows.run _ call h
      rw [List.flatMap_append, List.flatMap_singleton]
      exact ((ih (error_eq_none_of_run h)).append hanswer).perm hnew.symm

end Query

/-! ### What becomes of `NULL` -/

/-- What becomes of `NULL` in conditions that answer to what was asked for. -/
structure NullsRead (leaves : List Leaf) (asked : List Asked) : Prop where
  /-- No operator between single values is written with `NULL`. -/
  ne_null : ∀ column comparison v, .compare column comparison v ∈ leaves → v ≠ .null
  /-- `NULL` alone is asked about by equality only, and becomes a test for `NULL`. -/
  tested : ∀ a ∈ asked, a.operand = .value .null →
    ∃ negated, a.operator = .single (if negated then .notEqual else .equal) ∧
      .null a.column negated ∈ leaves
  /-- A column is compared with `NULL` exactly where a list with `NULL` was given. -/
  listed : (∃ l ∈ leaves, l.ComparesNull) ↔ ∃ a ∈ asked, a.ListsNull

theorem Answer.nullsRead {leaves : List Leaf} {asked : List Asked} (h : Answer leaves asked) :
    NullsRead leaves asked where
  ne_null column comparison v hl := by
    intro hnull
    obtain ⟨a, -, hshapes⟩ := h.asked_of_comparesNull _ hl hnull
    exact hshapes.ne_null hnull
  tested a ha hnull := by
    obtain ⟨l, hl, hshapes⟩ := h.written_of_asked a ha
    obtain ⟨negated, hoperator, rfl⟩ := hshapes.eq_null hnull
    exact ⟨negated, hoperator, hl⟩
  listed := by
    constructor
    · rintro ⟨l, hl, hnull⟩
      obtain ⟨a, ha, hshapes⟩ := h.asked_of_comparesNull l hl hnull
      exact ⟨a, ha, hshapes.comparesNull_iff.mp hnull⟩
    · rintro ⟨a, ha, hlists⟩
      obtain ⟨l, hl, hshapes⟩ := h.written_of_asked a ha
      exact ⟨l, hl, hshapes.comparesNull_iff.mpr hlists⟩

/-- **Only lists bring `NULL` into a comparison.**  Conditions that were written without a fault,
those of a query in whatever clause they stand included, have no operator between single values
with `NULL`; equality with `NULL` alone is a test for `NULL`, and no other operator was given `NULL`
alone.  A column is compared with `NULL` all the same if `NULL` is a member of a list or an end of a
range that a call was given, and only then. -/
theorem null_compared_iff_listed (conditions : List ConditionCall) (calls : List QueryCall) :
    ((ConditionCall.runAll .empty conditions).error = none →
      NullsRead (ConditionCall.runAll .empty conditions).leaves
        (ConditionCall.askedAll conditions)) ∧
    ((Query.built calls).error = none →
      NullsRead (Query.built calls).leaves (calls.flatMap QueryCall.asked)) := by
  constructor
  · intro herror
    obtain ⟨-, new, hnew, hanswer⟩ := ConditionCall.grows_runAll .empty conditions herror
    rw [hnew]
    exact hanswer.nullsRead
  · intro herror
    exact (Query.answer_built calls herror).nullsRead

/-- A list that leaves out `NULL` leaves out every row, as the column is compared with `NULL`; given
alone, the same `NULL` is refused. -/
theorem null_left_out_in_list :
    (∃ l ∈ (Conditions.empty.filterNotIn "parent" (.list [.int 1, .null])).leaves,
      l.ComparesNull) ∧
    (Conditions.empty.filterNotIn "parent" (.list [.int 1, .null])).error = none ∧
    (Conditions.empty.filterNotIn "parent" (.value .null)).error =
      some (.invalidOperand .filterNotIn (.nullCompared "NOT IN")) := by
  refine ⟨⟨.member "parent" true [.int 1, .null], ?_, ?_⟩, ?_, ?_⟩
  · decide
  · exact List.mem_cons_of_mem _ (List.mem_singleton_self _)
  · decide
  · decide

end Relational
