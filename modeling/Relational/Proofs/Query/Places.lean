import Relational.Proofs.Query.Counterparts
/-
Where the values of a query are bound.

Which value comes to stand in which place depends on the calls and not on the values.  To tell the
places, a chain of calls is numbered: each value is replaced by a mark for its place among the
values that are given.  The numbered chain is alike every chain of the same form, by the relation
between a mark and the value in its place, so the marks that its statement binds tell where the
values of every such chain are bound.
-/
namespace Relational

open List (Forall₂)

/-! ### Places -/

/-- The value that stands for the one in a place. -/
def Value.mark (place : Nat) : Value :=
  .blob (List.replicate place 0)

/-- The place that a value stands for. -/
def Value.place : Value → Nat
  | .blob bytes => bytes.length
  | _ => 0

/-- A mark goes with the value in its place. -/
def InPlace (values : List Value) (m v : Value) : Prop :=
  ∃ place, m = .mark place ∧ values[place]? = some v

theorem InPlace.values_eq {values marks vs : List Value} (h : Forall₂ (InPlace values) marks vs) :
    vs.map some = (marks.map Value.place).map (values[·]?) := by
  induction h with
  | nil => rfl
  | cons hm hrest ih =>
      obtain ⟨place, rfl, hvalue⟩ := hm
      rw [List.map_cons, List.map_cons, List.map_cons, ih, Value.mark, Value.place,
        List.length_replicate, hvalue]

theorem append_prefix_drop {values front back : List Value} {n : Nat} :
    front ++ back <+: values.drop n ↔
      front <+: values.drop n ∧ back <+: values.drop (n + front.length) := by
  constructor
  · rintro ⟨rest, hrest⟩
    refine ⟨⟨back ++ rest, ?_⟩, ⟨rest, ?_⟩⟩
    · rw [← hrest, List.append_assoc]
    · rw [← List.drop_drop, ← hrest, List.append_assoc, List.drop_left]
  · rintro ⟨⟨rest, hrest⟩, hback⟩
    rw [← List.drop_drop, ← hrest, List.drop_left] at hback
    rw [← hrest]
    exact (List.prefix_append_right_inj front).mpr hback

theorem inPlace_mark {values : List Value} {v : Value} {n : Nat} (h : [v] <+: values.drop n) :
    InPlace values (.mark n) v := by
  obtain ⟨rest, hrest⟩ := h
  refine ⟨n, rfl, ?_⟩
  rw [← List.head?_drop, ← hrest]
  rfl

/-- Numbers the values of the members of a list, one member after the other. -/
def numberedEach {α : Type} (given : α → List Value) (number : Nat → α → α) : Nat → List α → List α
  | _, [] => []
  | n, a :: rest => number n a :: numberedEach given number (n + (given a).length) rest

section Each

variable {α : Type} {r s : α → α → Prop} {given : α → List Value} {as as' : List α}

theorem length_flatMap_given (h : Forall₂ r as as')
    (hlength : ∀ a a', r a a' → (given a).length = (given a').length) :
    (as.flatMap given).length = (as'.flatMap given).length := by
  induction h with
  | nil => rfl
  | cons ha hrest ih =>
      rw [List.flatMap_cons, List.flatMap_cons, List.length_append, List.length_append,
        hlength _ _ ha, ih]

theorem numberedEach_alike {number : Nat → α → α} {values : List Value} (h : Forall₂ r as as')
    (hlength : ∀ a a', r a a' → (given a).length = (given a').length)
    (hnumber : ∀ n a a', r a a' → given a' <+: values.drop n → s (number n a) a') (n : Nat)
    (hvalues : as'.flatMap given <+: values.drop n) :
    Forall₂ s (numberedEach given number n as) as' := by
  induction h generalizing n with
  | nil => exact .nil
  | cons ha hrest ih =>
      obtain ⟨hfirst, hothers⟩ := append_prefix_drop.mp hvalues
      rw [← hlength _ _ ha] at hothers
      exact .cons (hnumber n _ _ ha hfirst) (ih _ hothers)

end Each

/-! ### The same form -/

/-- Any value may stand for any other. -/
def AnyValue (_ _ : Value) : Prop :=
  True

theorem anyValue_refl (vs : List Value) : Forall₂ AnyValue vs vs :=
  List.forall₂_same.mpr fun _ _ => trivial

theorem Operand.alike_refl (o : Operand) : o.Alike AnyValue o := by
  cases o with
  | value v =>
      by_cases hv : v = .null
      · rw [hv]
        exact .null
      · exact .value hv hv trivial
  | list vs => exact .list (anyValue_refl vs)

namespace ConditionCall

mutual

theorem alike_refl (call : ConditionCall) : call.Alike AnyValue call := by
  cases call with
  | filter connector column o => exact .filter connector column o.alike_refl
  | filterOp connector column operator o => exact .filterOp connector column operator o.alike_refl
  | filterIn negated column o => exact .filterIn negated column o.alike_refl
  | filterNull negated column => exact .filterNull negated column
  | filterBetween column low high => exact .filterBetween column trivial trivial
  | filterColumn first operator second => exact .filterColumn first operator second
  | filterRaw connector sql vs => exact .filterRaw connector sql (anyValue_refl vs)
  | filterGroup connector inner => exact .filterGroup connector (alikeAll_refl inner)

theorem alikeAll_refl (calls : List ConditionCall) :
    Forall₂ (ConditionCall.Alike AnyValue) calls calls := by
  cases calls with
  | nil => exact .nil
  | cons call rest => exact .cons (alike_refl call) (alikeAll_refl rest)

end

end ConditionCall

theorem JoinCall.alike_refl (call : JoinCall) : call.Alike AnyValue call := by
  cases call with
  | on connector first operator second => exact .on connector first operator second
  | filter connector column o => exact .filter connector column o.alike_refl
  | filterOp column operator o => exact .filterOp column operator o.alike_refl

theorem QueryCall.alike_refl (call : QueryCall) : call.Alike AnyValue call := by
  cases call with
  | selectRaw sql vs => exact .selectRaw sql (anyValue_refl vs)
  | joinWith kind table steps =>
      exact .joinWith kind table (List.forall₂_same.mpr fun step _ => step.alike_refl)
  | filtered call => exact .filtered call.alike_refl
  | having connector column operator o => exact .having connector column operator o.alike_refl
  | havingRaw sql vs => exact .havingRaw sql (anyValue_refl vs)
  | orderByRaw sql vs => exact .orderByRaw sql (anyValue_refl vs)
  | startAfter column direction after =>
      refine .startAfter column direction ?_
      cases after with
      | none => exact .none
      | some v => exact .some trivial
  | _ => exact .plain rfl

theorem Row.alike_refl (row : Row) : row.Alike AnyValue row :=
  List.forall₂_same.mpr fun _ _ => ⟨rfl, trivial⟩

theorem StatementKind.alike_refl (k : StatementKind) : k.Alike AnyValue k := by
  cases k with
  | read => exact .read
  | count => exact .count
  | insert rows => exact .insert (List.forall₂_same.mpr fun row _ => row.alike_refl)
  | update row => exact .update row.alike_refl
  | delete => exact .delete

/-! ### The values of a chain of calls -/

/-- Marks for some values. -/
def marks (n : Nat) (vs : List Value) : List Value :=
  numberedEach (fun v => [v]) (fun n _ => .mark n) n vs

theorem marks_alike {values vs ws : List Value} {n : Nat} (h : Forall₂ AnyValue vs ws)
    (hvalues : ws <+: values.drop n) : Forall₂ (InPlace values) (marks n vs) ws := by
  refine numberedEach_alike h (fun _ _ _ => rfl) (fun _ _ _ _ hv => inPlace_mark hv) n ?_
  simpa using hvalues

namespace Operand

/-- The values of an operand, `NULL` by itself aside. -/
def given : Operand → List Value
  | value .null => []
  | value v => [v]
  | list vs => vs

/-- The operand with its values numbered. -/
def numbered (n : Nat) : Operand → Operand
  | value .null => value .null
  | value _ => value (.mark n)
  | list vs => list (marks n vs)

theorem given_value {v : Value} (hv : v ≠ .null) : given (.value v) = [v] := by
  cases v with
  | null => exact absurd rfl hv
  | _ => rfl

theorem numbered_value {v : Value} (hv : v ≠ .null) (n : Nat) :
    numbered n (.value v) = .value (.mark n) := by
  cases v with
  | null => exact absurd rfl hv
  | _ => rfl

variable {o o' : Operand}

theorem length_given (h : o.Alike AnyValue o') : o.given.length = o'.given.length := by
  cases h with
  | null => rfl
  | value hv hw h =>
      rw [given_value hv, given_value hw]
      rfl
  | list h => exact h.length_eq

theorem numbered_alike {values : List Value} (n : Nat) (h : o.Alike AnyValue o')
    (hvalues : o'.given <+: values.drop n) : (o.numbered n).Alike (InPlace values) o' := by
  cases h with
  | null => exact .null
  | value hv hw h =>
      -- A mark is not `NULL`, so it can stand for a lone value.
      rw [given_value hw] at hvalues
      rw [numbered_value hv]
      exact .value (by simp [Value.mark]) hw (inPlace_mark hvalues)
  | list h => exact .list (marks_alike h hvalues)

end Operand

namespace ConditionCall

mutual

/-- The values of a call. -/
def given : ConditionCall → List Value
  | filter _ _ operand | filterOp _ _ _ operand | filterIn _ _ operand => operand.given
  | filterBetween _ low high => [low, high]
  | filterRaw _ _ bindings => bindings
  | filterGroup _ inner => givenAll inner
  | filterNull .. | filterColumn .. => []

/-- The values of some calls. -/
def givenAll : List ConditionCall → List Value
  | [] => []
  | call :: rest => given call ++ givenAll rest

end

mutual

/-- The call with its values numbered. -/
def numbered (n : Nat) : ConditionCall → ConditionCall
  | filter connector column operand => filter connector column (operand.numbered n)
  | filterOp connector column operator operand =>
    filterOp connector column operator (operand.numbered n)
  | filterIn negated column operand => filterIn negated column (operand.numbered n)
  | filterBetween column _ _ => filterBetween column (.mark n) (.mark (n + 1))
  | filterRaw connector sql bindings => filterRaw connector sql (marks n bindings)
  | filterGroup connector inner => filterGroup connector (numberedAll n inner)
  | filterNull negated column => filterNull negated column
  | filterColumn first operator second => filterColumn first operator second

/-- The calls with their values numbered. -/
def numberedAll (n : Nat) : List ConditionCall → List ConditionCall
  | [] => []
  | call :: rest => numbered n call :: numberedAll (n + (given call).length) rest

end

mutual

theorem length_given (call : ConditionCall) {call' : ConditionCall}
    (h : call.Alike AnyValue call') : (given call).length = (given call').length := by
  cases h with
  | filter _ _ ho => exact Operand.length_given ho
  | filterOp _ _ _ ho => exact Operand.length_given ho
  | filterIn _ _ ho => exact Operand.length_given ho
  | filterNull => rfl
  | filterBetween => rfl
  | filterColumn => rfl
  | filterRaw _ _ hvs => exact hvs.length_eq
  | filterGroup _ hinner => exact length_givenAll _ hinner

theorem length_givenAll (calls : List ConditionCall) {calls' : List ConditionCall}
    (h : Forall₂ (ConditionCall.Alike AnyValue) calls calls') :
    (givenAll calls).length = (givenAll calls').length := by
  cases h with
  | nil => rfl
  | cons hcall hrest =>
      rw [givenAll, givenAll, List.length_append, List.length_append, length_given _ hcall,
        length_givenAll _ hrest]

end

mutual

theorem numbered_alike {values : List Value} (n : Nat) (call : ConditionCall)
    {call' : ConditionCall} (h : call.Alike AnyValue call')
    (hvalues : given call' <+: values.drop n) : (numbered n call).Alike (InPlace values) call' := by
  cases h with
  | filter connector column ho =>
      exact .filter connector column (Operand.numbered_alike n ho hvalues)
  | filterOp connector column operator ho =>
      exact .filterOp connector column operator (Operand.numbered_alike n ho hvalues)
  | filterIn negated column ho =>
      exact .filterIn negated column (Operand.numbered_alike n ho hvalues)
  | filterNull negated column => exact .filterNull negated column
  | @filterBetween column low low' high high' =>
      have hends : [low'] ++ [high'] <+: values.drop n := hvalues
      obtain ⟨hlow, hhigh⟩ := append_prefix_drop.mp hends
      exact .filterBetween column (inPlace_mark hlow) (inPlace_mark hhigh)
  | filterColumn first operator second => exact .filterColumn first operator second
  | filterRaw connector sql hvs => exact .filterRaw connector sql (marks_alike hvs hvalues)
  | filterGroup connector hinner =>
      exact .filterGroup connector (numberedAll_alike n _ hinner hvalues)

theorem numberedAll_alike {values : List Value} (n : Nat) (calls : List ConditionCall)
    {calls' : List ConditionCall} (h : Forall₂ (ConditionCall.Alike AnyValue) calls calls')
    (hvalues : givenAll calls' <+: values.drop n) :
    Forall₂ (ConditionCall.Alike (InPlace values)) (numberedAll n calls) calls' := by
  cases h with
  | nil => exact .nil
  | cons hcall hrest =>
      obtain ⟨hfirst, hothers⟩ := append_prefix_drop.mp hvalues
      rw [← length_given _ hcall] at hothers
      exact .cons (numbered_alike n _ hcall hfirst) (numberedAll_alike _ _ hrest hothers)

end

end ConditionCall

namespace JoinCall

/-- The values of a call. -/
def given : JoinCall → List Value
  | on .. => []
  | filter _ _ operand | filterOp _ _ operand => operand.given

/-- The call with its values numbered. -/
def numbered (n : Nat) : JoinCall → JoinCall
  | on connector first operator second => on connector first operator second
  | filter connector column operand => filter connector column (operand.numbered n)
  | filterOp column operator operand => filterOp column operator (operand.numbered n)

variable {call call' : JoinCall}

theorem length_given (h : call.Alike AnyValue call') :
    call.given.length = call'.given.length := by
  cases h with
  | on => rfl
  | filter _ _ ho => exact Operand.length_given ho
  | filterOp _ _ ho => exact Operand.length_given ho

theorem numbered_alike {values : List Value} (n : Nat) (h : call.Alike AnyValue call')
    (hvalues : call'.given <+: values.drop n) : (call.numbered n).Alike (InPlace values) call' := by
  cases h with
  | on connector first operator second => exact .on connector first operator second
  | filter connector column ho =>
      exact .filter connector column (Operand.numbered_alike n ho hvalues)
  | filterOp column operator ho =>
      exact .filterOp column operator (Operand.numbered_alike n ho hvalues)

end JoinCall

namespace QueryCall

/-- The values of a call. -/
def given : QueryCall → List Value
  | selectRaw _ bindings | havingRaw _ bindings | orderByRaw _ bindings => bindings
  | joinWith _ _ steps => steps.flatMap JoinCall.given
  | filtered call => call.given
  | having _ _ _ operand => operand.given
  | startAfter _ _ after => after.toList
  | _ => []

/-- The call with its values numbered. -/
def numbered (n : Nat) : QueryCall → QueryCall
  | selectRaw sql bindings => selectRaw sql (marks n bindings)
  | joinWith kind table steps =>
    joinWith kind table (numberedEach JoinCall.given JoinCall.numbered n steps)
  | filtered call => filtered (call.numbered n)
  | having connector column operator operand =>
    having connector column operator (operand.numbered n)
  | havingRaw sql bindings => havingRaw sql (marks n bindings)
  | orderByRaw sql bindings => orderByRaw sql (marks n bindings)
  | startAfter column direction after => startAfter column direction (after.map fun _ => .mark n)
  | call => call

variable {call call' : QueryCall}

theorem numbered_plain (h : call.isPlain) (n : Nat) : call.numbered n = call := by
  cases call with
  | selectRaw | joinWith | filtered | having | havingRaw | orderByRaw | startAfter => cases h
  | _ => rfl

theorem length_given (h : call.Alike AnyValue call') :
    call.given.length = call'.given.length := by
  cases h with
  | plain => rfl
  | selectRaw sql hvs => exact hvs.length_eq
  | joinWith kind table hsteps => exact length_flatMap_given hsteps fun _ _ => JoinCall.length_given
  | filtered hcall => exact ConditionCall.length_given _ hcall
  | having _ _ _ ho => exact Operand.length_given ho
  | havingRaw sql hvs => exact hvs.length_eq
  | orderByRaw sql hvs => exact hvs.length_eq
  | startAfter column direction hafter =>
      cases hafter with
      | none => rfl
      | some => rfl

theorem numbered_alike {values : List Value} (n : Nat) (h : call.Alike AnyValue call')
    (hvalues : call'.given <+: values.drop n) : (call.numbered n).Alike (InPlace values) call' := by
  cases h with
  | plain hplain =>
      rw [numbered_plain hplain]
      exact .plain hplain
  | selectRaw sql hvs => exact .selectRaw sql (marks_alike hvs hvalues)
  | joinWith kind table hsteps =>
      exact .joinWith kind table (numberedEach_alike hsteps (fun _ _ => JoinCall.length_given)
        (fun n _ _ => JoinCall.numbered_alike n) n hvalues)
  | filtered hcall => exact .filtered (ConditionCall.numbered_alike n _ hcall hvalues)
  | having connector column operator ho =>
      exact .having connector column operator (Operand.numbered_alike n ho hvalues)
  | havingRaw sql hvs => exact .havingRaw sql (marks_alike hvs hvalues)
  | orderByRaw sql hvs => exact .orderByRaw sql (marks_alike hvs hvalues)
  | startAfter column direction hafter =>
      refine .startAfter column direction ?_
      cases hafter with
      | none => exact .none
      | some => exact .some (inPlace_mark hvalues)

end QueryCall

namespace Row

/-- The values of a row. -/
def given (row : Row) : List Value :=
  row.entries.flatMap fun e => [e.2]

/-- The row with its values numbered. -/
def numberedEntries (n : Nat) (entries : List (String × Value)) : List (String × Value) :=
  numberedEach (fun e => [e.2]) (fun n e => (e.1, .mark n)) n entries

theorem keys_numberedEntries (n : Nat) (entries : List (String × Value)) :
    (numberedEntries n entries).map Prod.fst = entries.map Prod.fst := by
  induction entries generalizing n with
  | nil => rfl
  | cons e rest ih => exact congrArg (e.1 :: ·) (ih _)

/-- The row with its values numbered. -/
def numbered (n : Nat) (row : Row) : Row :=
  ⟨numberedEntries n row.entries, by rw [keys_numberedEntries]; exact row.nodup⟩

variable {row row' : Row}

theorem length_given (h : row.Alike AnyValue row') : row.given.length = row'.given.length :=
  length_flatMap_given h fun _ _ _ => rfl

theorem numbered_alike {values : List Value} (n : Nat) (h : row.Alike AnyValue row')
    (hvalues : row'.given <+: values.drop n) : (row.numbered n).Alike (InPlace values) row' :=
  numberedEach_alike h (fun _ _ _ => rfl) (fun _ _ _ he hv => ⟨he.1, inPlace_mark hv⟩) n hvalues

end Row

namespace StatementKind

/-- The values that are written. -/
def given : StatementKind → List Value
  | insert rows => rows.flatMap Row.given
  | update row => row.given
  | _ => []

/-- The kind with the values that are written numbered. -/
def numbered (n : Nat) : StatementKind → StatementKind
  | insert rows => insert (numberedEach Row.given Row.numbered n rows)
  | update row => update (row.numbered n)
  | k => k

theorem numbered_alike {values : List Value} (n : Nat) {k k' : StatementKind}
    (h : k.Alike AnyValue k') (hvalues : k'.given <+: values.drop n) :
    (k.numbered n).Alike (InPlace values) k' := by
  cases h with
  | read => exact .read
  | count => exact .count
  | insert hrows =>
      exact .insert (numberedEach_alike hrows (fun _ _ => Row.length_given)
        (fun n _ _ => Row.numbered_alike n) n hvalues)
  | update hrow => exact .update (Row.numbered_alike n hrow hvalues)
  | delete => exact .delete

end StatementKind

namespace Query

/-- The values that are given for a statement, call by call. -/
def given (calls : List QueryCall) (k : StatementKind) : List Value :=
  calls.flatMap QueryCall.given ++ k.given

/-- The calls with their values numbered. -/
def numberedCalls (calls : List QueryCall) : List QueryCall :=
  numberedEach QueryCall.given QueryCall.numbered 0 calls

/-- The kind with its values numbered behind those of the calls. -/
def numberedKind (calls : List QueryCall) (k : StatementKind) : StatementKind :=
  k.numbered (calls.flatMap QueryCall.given).length

/-- The numbered statement is alike the statement of every chain of the same form. -/
theorem numbered_statement_alike {calls calls' : List QueryCall} {k k' : StatementKind}
    (hcalls : Forall₂ (QueryCall.Alike AnyValue) calls calls') (hk : k.Alike AnyValue k')
    (d : Dialect) :
    Both (Statement.Alike (InPlace (given calls' k')))
      ((built (numberedCalls calls)).statement (numberedKind calls k) d)
      ((built calls').statement k' d) := by
  have hvalues : given calls' k' <+: (given calls' k').drop 0 := List.prefix_rfl
  obtain ⟨hbuilding, hwriting⟩ := append_prefix_drop.mp hvalues
  rw [Nat.zero_add, ← length_flatMap_given hcalls fun _ _ => QueryCall.length_given] at hwriting
  refine Alike.statement (built_alike ?_) (StatementKind.numbered_alike _ hk hwriting) d
  exact numberedEach_alike hcalls (fun _ _ => QueryCall.length_given)
    (fun n _ _ => QueryCall.numbered_alike n) 0 hbuilding

/-- Values are bound and never looked at: whatever they are replaced by, a chain of calls fails in
the same way, or it leads to the same text for every dialect, with each value bound in the places
where the value that it replaces is bound. -/
theorem values_bound_in_place (calls : List QueryCall) (k : StatementKind) :
    (∃ e, (∀ d, (built calls).statement k d = .error e) ∧
      ∀ calls' k', Forall₂ (QueryCall.Alike AnyValue) calls calls' → k.Alike AnyValue k' →
        ∀ d, (built calls').statement k' d = .error e) ∨
    ∃ places : List Nat, ∀ d, ∃ s, (built calls).statement k d = .ok s ∧
      s.bindings.map some = places.map ((given calls k)[·]?) ∧
      ∀ calls' k', Forall₂ (QueryCall.Alike AnyValue) calls calls' → k.Alike AnyValue k' →
        ∃ s', (built calls').statement k' d = .ok s' ∧ s'.sql = s.sql ∧
          s'.bindings.map some = places.map ((given calls' k')[·]?) := by
  have hcalls : Forall₂ (QueryCall.Alike AnyValue) calls calls :=
    List.forall₂_same.mpr fun call _ => call.alike_refl
  -- The numbered statement decides: its fault is every chain's fault, its marks are the places.
  rcases (built (numberedCalls calls)).agrees_statementPieces (numberedKind calls k) with
    ⟨e, he⟩ | ⟨marks, hmarks⟩
  · have hfails : ∀ calls' k', Forall₂ (QueryCall.Alike AnyValue) calls calls' →
        k.Alike AnyValue k' → ∀ d, (built calls').statement k' d = .error e := by
      intro calls' k' hcalls' hk' d
      have hboth := numbered_statement_alike hcalls' hk' d
      rw [statement_eq, he d] at hboth
      generalize (built calls').statement k' d = result at hboth ⊢
      cases hboth with
      | error => rfl
    exact .inl ⟨e, hfails calls k hcalls k.alike_refl, hfails⟩
  · have hbinds : ∀ d, ∃ sql, ∀ calls' k', Forall₂ (QueryCall.Alike AnyValue) calls calls' →
        k.Alike AnyValue k' → ∃ s, (built calls').statement k' d = .ok s ∧ s.sql = sql ∧
          s.bindings.map some = (marks.map Value.place).map ((given calls' k')[·]?) := by
      intro d
      obtain ⟨pieces, hpieces, rfl⟩ := hmarks d
      refine ⟨Sql.text d 0 pieces, fun calls' k' hcalls' hk' => ?_⟩
      have hboth := numbered_statement_alike hcalls' hk' d
      rw [statement_eq, hpieces] at hboth
      generalize (built calls').statement k' d = result at hboth ⊢
      cases hboth with
      | ok hs => exact ⟨_, rfl, hs.sql.symm, InPlace.values_eq hs.bindings⟩
    refine .inr ⟨marks.map Value.place, fun d => ?_⟩
    obtain ⟨sql, hsql⟩ := hbinds d
    obtain ⟨s, hs, rfl, hplaces⟩ := hsql calls k hcalls k.alike_refl
    exact ⟨s, hs, hplaces, hsql⟩

end Query

end Relational
