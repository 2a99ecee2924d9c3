import Relational.Proofs.Action
import Relational.Session.Mock
/-
What work in a transaction comes to.

The work is tried in rounds.  A round begins a transaction, runs the work in it and commits it, or
rolls it back if the work failed; where no transaction can be begun, there is nothing else to the
round.  A history is the list of the rounds of one run.  It is not written down anywhere: the calls
of a history are told apart by what they do to the state and by what came of them, and a connection
may keep whatever log of them it likes.

One try is one round (`outcome_attempt`), and there is another try exactly if the work had to give
way, could be rolled back, and tries are left.  By induction on the tries that are left, every run
has a history, and only one.  Who is refused a transaction or a commit because of another session is
not tried again.
-/
namespace Relational

open Action Connection

variable {σ α : Type}

/-! ### Calls -/

/-- A call that is made for work in a transaction, with what came of it. -/
inductive TransactionCall (σ α : Type) where
  | begin (result : Except Failure (Transaction σ))
  | work (tx : Transaction σ) (result : Except Failure α) (behind : Pending σ)
  | commit (tx : Transaction σ) (result : Except Failure Unit)
  | rollback (tx : Transaction σ) (result : Except Failure Unit)
  | hook (run : σ → σ)

namespace TransactionCall

/-- The call leads from one state to another, and what came of it is what it says. -/
def Does (c : Connection σ) (work : Work σ α) : TransactionCall σ α → σ → σ → Prop
  | begin result, s, t => c.begin.outcome s = (result, t)
  | .work tx result behind, s, t =>
    (work (Pending.executor tx.executor)).outcome { state := s } = (result, behind) ∧
      behind.state = t
  | commit tx result, s, t => tx.commit.outcome s = (result, t)
  | rollback tx result, s, t => tx.rollback.outcome s = (result, t)
  | hook run, s, t => run s = t

/-- Whether the call opens a transaction or ends one, if it does either. -/
def opens? : TransactionCall σ α → Option Bool
  | begin (.ok _) => some true
  | commit .. | rollback .. => some false
  | _ => none

end TransactionCall

/-- The calls lead from one state to another, one after the other. -/
def Connection.Makes (c : Connection σ) (work : Work σ α) :
    List (TransactionCall σ α) → σ → σ → Prop
  | [], s, t => s = t
  | call :: rest, s, t => ∃ u, call.Does c work s u ∧ Makes c work rest u t

namespace Connection

variable {c : Connection σ} {work : Work σ α} {s t : σ}

theorem makes_append {front back : List (TransactionCall σ α)} :
    c.Makes work (front ++ back) s t ↔ ∃ u, c.Makes work front s u ∧ c.Makes work back u t := by
  induction front generalizing s with
  | nil => simp [Makes]
  | cons call rest ih =>
      simp only [List.cons_append, Makes, ih]
      constructor
      · rintro ⟨v, hcall, u, hrest, hback⟩
        exact ⟨u, ⟨v, hcall, hrest⟩, hback⟩
      · rintro ⟨u, ⟨v, hcall, hrest⟩, hback⟩
        exact ⟨v, hcall, u, hrest, hback⟩

/-- Where each call leaves a note, the calls leave their notes in order. -/
theorem Makes.log {ε : Type} {see : σ → List ε} {note : TransactionCall σ α → List ε}
    (hnote : ∀ call s t, TransactionCall.Does c work call s t → see t = see s ++ note call)
    {calls : List (TransactionCall σ α)} (h : c.Makes work calls s t) :
    see t = see s ++ calls.flatMap note := by
  induction calls generalizing s with
  | nil =>
      obtain rfl := h
      simp
  | cons call rest ih =>
      obtain ⟨u, hcall, hrest⟩ := h
      rw [ih hrest, hnote call s u hcall, List.flatMap_cons, List.append_assoc]

theorem makes_hooks {asked : List (σ → σ)} :
    c.Makes work (asked.map .hook) s t ↔ asked.foldl (fun s hook => hook s) s = t := by
  induction asked generalizing s with
  | nil => rfl
  | cons hook rest ih => simp [Makes, TransactionCall.Does, ih]

end Connection

/-! ### Rounds -/

/-- Ends a transaction: a commit behind work that succeeded, else a rollback. -/
def Transaction.settle (tx : Transaction σ) (result : Except Failure α) : Action σ Unit :=
  match result with
  | .ok _ => tx.commit
  | .error _ => tx.rollback

/-- What one try comes to. -/
inductive Round (σ α : Type) where
  /-- No transaction could be begun. -/
  | refused (e : Failure)
  /-- The work ran in a transaction, which was then ended. -/
  | begun (tx : Transaction σ) (result : Except Failure α) (behind : Pending σ)
    (ended : Except Failure Unit)

namespace Round

/-- The call that ends a transaction. -/
def ending (tx : Transaction σ) (result : Except Failure α) (ended : Except Failure Unit) :
    TransactionCall σ α :=
  match result with
  | .ok _ => .commit tx ended
  | .error _ => .rollback tx ended

/-- The hooks that run: those that the work asked for in case of such an end, in the order they were
asked for, and none if the transaction could not be ended. -/
def hooks (result : Except Failure α) (behind : Pending σ) (ended : Except Failure Unit) :
    List (σ → σ) :=
  match result, ended with
  | .ok _, .ok () => behind.onCommit
  | .error _, .ok () => behind.onRollback
  | _, .error _ => []

/-- The calls of the round, in order. -/
def calls : Round σ α → List (TransactionCall σ α)
  | refused e => [.begin (.error e)]
  | begun tx result behind ended =>
    .begin (.ok tx) :: .work tx result behind :: ending tx result ended ::
      (hooks result behind ended).map .hook

/-- What the try returns. -/
def given : Round σ α → Except Failure (Except Failure α)
  | refused e => .error e
  | begun _ (.ok x) _ (.ok ()) => .ok (.ok x)
  | begun _ (.ok _) _ (.error e) => .error e
  | begun _ (.error e) _ (.ok ()) => .ok (.error e)
  | begun _ (.error e) _ (.error _) => .error e

/-- What the run returns if the round is the last one. -/
def result : Round σ α → Except Failure α
  | refused e => .error e
  | begun _ (.ok x) _ (.ok ()) => .ok x
  | begun _ (.ok _) _ (.error e) => .error e
  | begun _ (.error e) _ _ => .error e

def isBegun : Round σ α → Bool
  | refused _ => false
  | begun .. => true

/-- The work had to give way and was rolled back. -/
def isRetried : Round σ α → Bool
  | begun _ (.error e) _ (.ok ()) => e.isContention
  | _ => false

/-- The work failed and could not be rolled back. -/
def isStuck : Round σ α → Bool
  | begun _ (.error _) _ (.error _) => true
  | _ => false

theorem isStuck_eq_false {r : Round σ α} :
    r.isStuck = false ↔ ∀ tx result, .rollback tx result ∈ r.calls → result = .ok () := by
  rcases r with e | ⟨tx, e | x, behind, e' | ended⟩ <;> simp [isStuck, calls, ending]

theorem result_eq_ok {r : Round σ α} {x : α} :
    r.result = .ok x ↔ ∃ tx behind, r = .begun tx (.ok x) behind (.ok ()) := by
  rcases r with e | ⟨tx, e | y, behind, e' | ended⟩ <;> simp [result]

theorem result_eq_error {r : Round σ α} {e : Failure} :
    r.result = .error e ↔ r = .refused e ∨
      (∃ tx x behind, r = .begun tx (.ok x) behind (.error e)) ∨
      ∃ tx behind ended, r = .begun tx (.error e) behind ended := by
  rcases r with e' | ⟨tx, e' | y, behind, e'' | ended⟩ <;> simp [result]

theorem isBegun_of_isRetried {r : Round σ α} (h : r.isRetried) : r.isBegun := by
  cases r with
  | refused e => cases h
  | begun => rfl

theorem opens_calls (r : Round σ α) :
    r.calls.filterMap TransactionCall.opens? = if r.isBegun then [true, false] else [] := by
  cases r with
  | refused e => rfl
  | begun tx result behind ended =>
      have hhooks : ((hooks result behind ended).map .hook).filterMap
          (TransactionCall.opens? (α := α)) = [] := by
        simp [List.filterMap_map, TransactionCall.opens?]
      cases result with
      | ok x => exact congrArg ([true, false] ++ ·) hhooks
      | error e => exact congrArg ([true, false] ++ ·) hhooks

end Round

namespace Connection

variable (c : Connection σ) (work : Work σ α) (s : σ)

/-- The round from a state, and the state behind it. -/
def round : Round σ α × σ :=
  match c.begin.outcome s with
  | (.error e, t) => (.refused e, t)
  | (.ok tx, t) =>
    let (result, behind) := (work (Pending.executor tx.executor)).outcome { state := t }
    let (ended, u) := (tx.settle result).outcome behind.state
    (.begun tx result behind ended,
      (Round.hooks result behind ended).foldl (fun state hook => hook state) u)

variable {c work s} {t : σ}

theorem does_ending {tx : Transaction σ} {result : Except Failure α} {ended : Except Failure Unit} :
    (Round.ending tx result ended).Does c work s t ↔ (tx.settle result).outcome s = (ended, t) := by
  cases result with
  | ok x => rfl
  | error e => rfl

theorem round_refused {e : Failure} (h : c.begin.outcome s = (.error e, t)) :
    c.round work s = (.refused e, t) := by
  rw [round, h]

theorem round_begun {tx : Transaction σ} {result : Except Failure α} {behind : Pending σ}
    {ended : Except Failure Unit} {u v : σ} (hbegin : c.begin.outcome s = (.ok tx, u))
    (hwork : (work (Pending.executor tx.executor)).outcome { state := u } = (result, behind))
    (hend : (tx.settle result).outcome behind.state = (ended, v)) :
    c.round work s = (.begun tx result behind ended,
      (Round.hooks result behind ended).foldl (fun state hook => hook state) v) := by
  rw [round, hbegin]
  dsimp only
  rw [hwork]
  dsimp only
  rw [hend]

/-- The calls of a round are made from a state exactly if it is the round from there. -/
theorem makes_calls {r : Round σ α} : c.Makes work r.calls s t ↔ c.round work s = (r, t) := by
  rcases hbegin : c.begin.outcome s with ⟨e | tx, u⟩
  · rw [round_refused hbegin]
    cases r with
    | refused e' => simp [Round.calls, Makes, TransactionCall.Does, hbegin]
    | begun tx' result behind ended => simp [Round.calls, Makes, TransactionCall.Does, hbegin]
  · rcases hwork : (work (Pending.executor tx.executor)).outcome { state := u } with
      ⟨result, behind⟩
    rcases hend : (tx.settle result).outcome behind.state with ⟨ended, v⟩
    rw [round_begun hbegin hwork hend]
    cases r with
    | refused e' => simp [Round.calls, Makes, TransactionCall.Does, hbegin]
    | begun tx' result' behind' ended' =>
        simp only [Round.calls, Makes, does_ending, makes_hooks, Prod.mk.injEq, Round.begun.injEq]
        constructor
        · rintro ⟨_, hbegin', _, ⟨hwork', rfl⟩, _, hend', hhooks⟩
          cases hbegin.symm.trans hbegin'
          cases hwork.symm.trans hwork'
          cases hend.symm.trans hend'
          exact ⟨⟨rfl, rfl, rfl, rfl⟩, hhooks⟩
        · rintro ⟨⟨rfl, rfl, rfl, rfl⟩, hhooks⟩
          exact ⟨u, hbegin, behind.state, ⟨hwork, rfl⟩, v, hend, hhooks⟩

theorem outcome_collect (a : Action (Pending σ) α) (s : σ) :
    (Pending.collect a).outcome s =
      (.ok (a.outcome { state := s }), (a.outcome { state := s }).2.state) := rfl

/-- A try is a round. -/
theorem outcome_attempt (c : Connection σ) (work : Work σ α) (s : σ) :
    (c.attempt work).outcome s = ((c.round work s).1.given, (c.round work s).2) := by
  rw [attempt, outcome_bind]
  rcases hbegin : c.begin.outcome s with ⟨e | tx, u⟩
  · rw [round_refused hbegin]
    rfl
  · rcases hwork : (work (Pending.executor tx.executor)).outcome { state := u } with
      ⟨result, behind⟩
    rcases hend : (tx.settle result).outcome behind.state with ⟨ended, v⟩
    rw [round_begun hbegin hwork hend]
    dsimp only
    rw [outcome_bind, outcome_collect, hwork]
    cases result with
    | ok x =>
      dsimp only
      rw [outcome_bind]
      change tx.commit.outcome behind.state = (ended, v) at hend
      rw [hend]
      cases ended with
      | ok _ => rfl
      | error e => rfl
    | error e =>
      dsimp only
      rw [outcome_bind, outcome_tryCatch]
      change tx.rollback.outcome behind.state = (ended, v) at hend
      rw [hend]
      cases ended with
      | ok _ => rfl
      | error e => rfl

/-- Without another try, what becomes of the round becomes of the whole. -/
theorem outcome_transactAgain_zero (c : Connection σ) (work : Work σ α) (s : σ) :
    (c.transactAgain work 0).outcome s = ((c.round work s).1.result, (c.round work s).2) := by
  rw [transactAgain, outcome_bind, outcome_attempt]
  rcases (c.round work s).1 with e | ⟨tx, x | e, behind, ended | ended⟩ <;> rfl

/-- With another try, it becomes of it exactly if its work did not have to give way. -/
theorem outcome_transactAgain_succ (c : Connection σ) (work : Work σ α) (retries : Nat) (s : σ) :
    (c.transactAgain work (retries + 1)).outcome s =
      if (c.round work s).1.isRetried then (c.transactAgain work retries).outcome (c.round work s).2
      else ((c.round work s).1.result, (c.round work s).2) := by
  rw [transactAgain, outcome_bind, outcome_attempt]
  rcases (c.round work s).1 with e | ⟨tx, e | x, behind, e' | ended⟩
  · rfl
  · rfl
  · show (if e.isContention then c.transactAgain work retries else throw e).outcome _ = _
    show _ = if e.isContention then _ else _
    by_cases hcontention : e.isContention
    · rw [if_pos hcontention, if_pos hcontention]
    · rw [if_neg hcontention, if_neg hcontention]
      rfl
  · rfl
  · rfl

end Connection

/-! ### Histories -/

/-- The rounds of some work: those behind which it was tried again, and the last one. -/
structure History (σ α : Type) where
  before : List (Round σ α)
  last : Round σ α

namespace History

def rounds (h : History σ α) : List (Round σ α) :=
  h.before ++ [h.last]

def calls (h : History σ α) : List (TransactionCall σ α) :=
  h.rounds.flatMap Round.calls

/-- How many transactions were begun. -/
def begun (h : History σ α) : Nat :=
  h.rounds.countP Round.isBegun

/-- No rollback fails. -/
def RollsBack (h : History σ α) : Prop :=
  ∀ tx result, .rollback tx result ∈ h.calls → result = .ok ()

/-- The rounds are those from one state to another, of at most so many as there are tries. -/
structure Tells (h : History σ α) (c : Connection σ) (work : Work σ α) (tries : Nat) (s t : σ) :
    Prop where
  made : c.Makes work h.calls s t
  retried : ∀ r ∈ h.before, r.isRetried
  bounded : h.rounds.length ≤ tries
  /-- Work that still had to give way has used up the tries. -/
  exhausted : h.last.isRetried → h.rounds.length = tries

@[simp] theorem length_rounds (h : History σ α) : h.rounds.length = h.before.length + 1 :=
  List.length_append

variable {c : Connection σ} {work : Work σ α} {tries : Nat} {r last : Round σ α}
  {before : List (Round σ α)} {s t : σ}

theorem Tells.tries_ne_zero {h : History σ α} (htells : h.Tells c work tries s t) : tries ≠ 0 := by
  have hbounded := htells.bounded
  rw [length_rounds] at hbounded
  omega

theorem tells_last :
    Tells ⟨[], r⟩ c work (tries + 1) s t ↔ c.round work s = (r, t) ∧ (r.isRetried → tries = 0) := by
  rw [← makes_calls]
  constructor
  · intro htells
    have hmade : c.Makes work r.calls s t := by simpa [calls, rounds] using htells.made
    refine ⟨hmade, fun hretried => ?_⟩
    have hlength := htells.exhausted hretried
    rw [length_rounds, List.length_nil] at hlength
    omega
  · rintro ⟨hmade, hend⟩
    constructor
    · simpa [calls, rounds] using hmade
    · simp
    · simp
    · intro hretried
      rw [hend hretried]
      rfl

theorem tells_cons :
    Tells ⟨r :: before, last⟩ c work (tries + 1) s t ↔
      r.isRetried ∧ ∃ u, c.round work s = (r, u) ∧ Tells ⟨before, last⟩ c work tries u t := by
  constructor
  · rintro ⟨hmade, hretried, hbounded, hexhausted⟩
    obtain ⟨u, hround, hrest⟩ := makes_append.mp hmade
    obtain ⟨hfirst, hretried⟩ := List.forall_mem_cons.mp hretried
    refine ⟨hfirst, u, makes_calls.mp hround, hrest, hretried, ?_, ?_⟩
    · simpa using hbounded
    · simpa using hexhausted
  · rintro ⟨hfirst, u, hround, hmade, hretried, hbounded, hexhausted⟩
    refine ⟨makes_append.mpr ⟨u, makes_calls.mpr hround, hmade⟩, ?_, ?_, ?_⟩
    · simpa [hfirst] using hretried
    · simpa using hbounded
    · simpa using hexhausted

/-- What happened can be told in one way only. -/
theorem Tells.unique {h h' : History σ α} {t' : σ} (htells : h.Tells c work (tries + 1) s t)
    (htells' : h'.Tells c work (tries + 1) s t') : h = h' ∧ t = t' := by
  -- By induction on the rounds: both histories start with the round from `s`, and both go on
  -- behind it or both end there, since a round is tried again as long as tries are left.
  obtain ⟨before, last⟩ := h
  obtain ⟨before', last'⟩ := h'
  induction before generalizing before' s tries with
  | nil =>
      obtain ⟨hround, hend⟩ := tells_last.mp htells
      cases before' with
      | nil =>
          obtain ⟨hround', -⟩ := tells_last.mp htells'
          cases hround.symm.trans hround'
          exact ⟨rfl, rfl⟩
      | cons r' rest' =>
          obtain ⟨hretried, u, hround', hrest⟩ := tells_cons.mp htells'
          cases hround.symm.trans hround'
          exact absurd (hend hretried) hrest.tries_ne_zero
  | cons r rest ih =>
      obtain ⟨hretried, u, hround, hrest⟩ := tells_cons.mp htells
      cases before' with
      | nil =>
          obtain ⟨hround', hend⟩ := tells_last.mp htells'
          cases hround.symm.trans hround'
          exact absurd (hend hretried) hrest.tries_ne_zero
      | cons r' rest' =>
          obtain ⟨-, u', hround', hrest'⟩ := tells_cons.mp htells'
          cases hround.symm.trans hround'
          obtain ⟨tries, rfl⟩ := Nat.exists_eq_succ_of_ne_zero hrest.tries_ne_zero
          obtain ⟨hsame, rfl⟩ := ih hrest rest' hrest'
          cases hsame
          exact ⟨rfl, rfl⟩

/-- Every transaction that is begun is ended once, before the next is begun. -/
theorem opens_calls (h : History σ α) :
    h.calls.filterMap TransactionCall.opens? = (List.replicate h.begun [true, false]).flatten := by
  unfold calls begun
  induction h.rounds with
  | nil => rfl
  | cons r rest ih =>
      rw [List.flatMap_cons, List.filterMap_append, ih, Round.opens_calls, List.countP_cons]
      split
      · rw [List.replicate_succ]
        rfl
      · rfl

theorem Tells.begun_eq {h : History σ α} (htells : h.Tells c work tries s t) :
    h.begun = h.before.length + if h.last.isBegun then 1 else 0 := by
  have hbefore : h.before.countP Round.isBegun = h.before.length :=
    List.countP_eq_length.mpr fun r hr => Round.isBegun_of_isRetried (htells.retried r hr)
  rw [begun, rounds, List.countP_append, hbefore, List.countP_singleton]

theorem rollsBack_iff {h : History σ α} : h.RollsBack ↔ ∀ r ∈ h.rounds, r.isStuck = false := by
  simp only [RollsBack, calls, List.mem_flatMap, Round.isStuck_eq_false]
  constructor
  · intro hrolls r hr tx result hmem
    exact hrolls tx result ⟨r, hr, hmem⟩
  · rintro hrolls tx result ⟨r, hr, hmem⟩
    exact hrolls r hr tx result hmem

end History

namespace Connection

theorem transactAgain_tells (c : Connection σ) (work : Work σ α) (retries : Nat) (s : σ) :
    ∃ h : History σ α,
      h.Tells c work (retries + 1) s ((c.transactAgain work retries).outcome s).2 ∧
      ((c.transactAgain work retries).outcome s).1 = h.last.result := by
  induction retries generalizing s with
  | zero =>
      rw [outcome_transactAgain_zero]
      exact ⟨⟨[], (c.round work s).1⟩, History.tells_last.mpr ⟨rfl, fun _ => rfl⟩, rfl⟩
  | succ retries ih =>
      rw [outcome_transactAgain_succ]
      by_cases hretried : (c.round work s).1.isRetried
      · rw [if_pos hretried]
        obtain ⟨h, htells, hresult⟩ := ih (c.round work s).2
        exact ⟨⟨(c.round work s).1 :: h.before, h.last⟩,
          History.tells_cons.mpr ⟨hretried, _, rfl, htells⟩, hresult⟩
      · rw [if_neg hretried]
        exact ⟨⟨[], (c.round work s).1⟩,
          History.tells_last.mpr ⟨rfl, fun hlast => absurd hlast hretried⟩, rfl⟩

theorem exists_tells (c : Connection σ) (attempts : Nat) (work : Work σ α) (s : σ) :
    ∃ h : History σ α, h.Tells c work (max 1 attempts) s ((c.transact attempts work).outcome s).2 ∧
      ((c.transact attempts work).outcome s).1 = h.last.result := by
  have htries : max 1 attempts = attempts - 1 + 1 := by omega
  rw [htries]
  exact c.transactAgain_tells work (attempts - 1) s

end Connection

/-- What a run comes to can be read off its history. -/
theorem History.Tells.outcome {h : History σ α} {c : Connection σ} {work : Work σ α}
    {attempts : Nat} {s t : σ} (htells : h.Tells c work (max 1 attempts) s t) :
    (c.transact attempts work).outcome s = (h.last.result, t) := by
  obtain ⟨h', htells', hresult⟩ := c.exists_tells attempts work s
  have htries : max 1 attempts = attempts - 1 + 1 := by omega
  rw [htries] at htells htells'
  obtain ⟨rfl, rfl⟩ := htells.unique htells'
  exact Prod.ext hresult rfl

namespace Connection

/-- Every run makes the calls of at least one round and of at most `attempts`, if that is not zero:
there is one history that tells them, a log of the calls is a log of that history, every transaction
in it is ended exactly once, and the result is that of its last round. -/
theorem transact_makes_rounds (c : Connection σ) (attempts : Nat) (work : Work σ α) (s : σ) :
    ∃ h : History σ α,
      h.Tells c work (max 1 attempts) s ((c.transact attempts work).outcome s).2 ∧
      (∀ (h' : History σ α) (t : σ), h'.Tells c work (max 1 attempts) s t → h' = h) ∧
      (∀ (ε : Type) (see : σ → List ε) (note : TransactionCall σ α → List ε),
        (∀ call s t, call.Does c work s t → see t = see s ++ note call) →
        see ((c.transact attempts work).outcome s).2 = see s ++ h.calls.flatMap note) ∧
      h.calls.filterMap TransactionCall.opens? = (List.replicate h.begun [true, false]).flatten ∧
      (∀ x, ((c.transact attempts work).outcome s).1 = .ok x ↔
        ∃ tx behind, h.last = .begun tx (.ok x) behind (.ok ())) ∧
      ∀ e, ((c.transact attempts work).outcome s).1 = .error e ↔
        h.last = .refused e ∨ (∃ tx x behind, h.last = .begun tx (.ok x) behind (.error e)) ∨
          ∃ tx behind ended, h.last = .begun tx (.error e) behind ended := by
  obtain ⟨h, htells, hresult⟩ := c.exists_tells attempts work s
  refine ⟨h, htells, fun h' t htells' => ?_, fun ε see note hnote => htells.made.log hnote,
    h.opens_calls, ?_, ?_⟩
  · have htries : max 1 attempts = attempts - 1 + 1 := by omega
    rw [htries] at htells htells'
    exact (htells'.unique htells).1
  · rw [hresult]
    exact fun x => Round.result_eq_ok
  · rw [hresult]
    exact fun e => Round.result_eq_error

/-- Where rollbacks succeed, contention that the work meets is returned once all tries are used up.
Contention that a begin or a commit meets is returned at once, however many tries are left. -/
theorem contention_of_work_uses_tries {c : Connection σ} {attempts : Nat} {work : Work σ α}
    {s t : σ} {h : History σ α} {e : Failure} (htells : h.Tells c work (max 1 attempts) s t)
    (hrolls : h.RollsBack) (hresult : ((c.transact attempts work).outcome s).1 = .error e)
    (hcontention : e.isContention) :
    (∃ tx behind, h.last = .begun tx (.error e) behind (.ok ())) ∧ h.begun = max 1 attempts ∨
    h.last = .refused e ∧ h.begun + 1 = h.rounds.length ∨
    (∃ tx x behind, h.last = .begun tx (.ok x) behind (.error e)) ∧ h.begun = h.rounds.length := by
  rw [htells.outcome, Round.result_eq_error] at hresult
  have hbegun := htells.begun_eq
  obtain hrefused | ⟨tx, x, behind, hcommit⟩ | ⟨tx, behind, ended, hwork⟩ := hresult
  · rw [hrefused] at hbegun
    simp [hrefused, hbegun, Round.isBegun]
  · rw [hcommit] at hbegun
    simp [hcommit, hbegun, Round.isBegun]
  -- Only here was the work to be tried again, so the tries must be used up.
  · have hended : h.last.isStuck = false :=
      History.rollsBack_iff.mp hrolls h.last (by simp [History.rounds])
    cases ended with
    | error e' =>
        rw [hwork] at hended
        cases hended
    | ok =>
        have hretried : h.last.isRetried := by
          rw [hwork]
          exact hcontention
        rw [hwork] at hbegun
        refine .inl ⟨⟨tx, behind, hwork⟩, ?_⟩
        rw [← htells.exhausted hretried, hbegun, History.length_rounds]
        rfl

end Connection

/-! ### Locked tables -/

namespace Mock

/-- A row is added to a table. -/
def addRow : Work Mock UInt64 :=
  fun e => e.execute "INSERT INTO t VALUES (?)" [.int 1]

/-- Statements that hold a text find the database locked. -/
def lockedOn (text : String) : Mock :=
  { rules := [{ on := text, error := some "database is locked" }] }

/-- The failure of a statement that found the database locked. -/
def locked (sql : String) (bindings : Nat) : Failure :=
  .statement "database is locked" sql bindings

/-- The mock connection whose transactions are tried. -/
abbrev db : Connection Mock :=
  connection "db" .sqlite

/-- The round behind so many that found the table locked, and the state behind it. -/
def lockedRound : Nat → Round Mock UInt64 × Mock
  | 0 => db.round addRow (lockedOn "INSERT")
  | n + 1 => db.round addRow (lockedRound n).2

/-- Three of these rounds. -/
def lockedTries : History Mock UInt64 :=
  ⟨[(lockedRound 0).1, (lockedRound 1).1], (lockedRound 2).1⟩

theorem locked_insert_uses_tries : ∃ (h : History Mock UInt64) (t : Mock),
    h.Tells db addRow (max 1 3) (lockedOn "INSERT") t ∧ h.RollsBack ∧
    ((db.transact 3 addRow).outcome (lockedOn "INSERT")).1 =
      .error (locked "INSERT INTO t VALUES (?)" 1) ∧
    (locked "INSERT INTO t VALUES (?)" 1).isContention ∧
    (∃ tx behind,
      h.last = .begun tx (.error (locked "INSERT INTO t VALUES (?)" 1)) behind (.ok ())) ∧
    h.begun = max 1 3 := by
  have htells : lockedTries.Tells db addRow (max 1 3) (lockedOn "INSERT") (lockedRound 2).2 :=
    History.tells_cons.mpr ⟨by decide, _, rfl, History.tells_cons.mpr ⟨by decide, _, rfl,
      History.tells_last.mpr ⟨rfl, fun _ => rfl⟩⟩⟩
  have hrolls : lockedTries.RollsBack := History.rollsBack_iff.mpr (by decide)
  have hresult : ((db.transact 3 addRow).outcome (lockedOn "INSERT")).1 =
      .error (locked "INSERT INTO t VALUES (?)" 1) := by
    rw [htells.outcome]
    rfl
  have hcontention : (locked "INSERT INTO t VALUES (?)" 1).isContention := by decide
  refine ⟨lockedTries, _, htells, hrolls, hresult, hcontention, ?_⟩
  obtain hwork | ⟨hrefused, -⟩ | ⟨⟨tx, x, behind, hcommit⟩, -⟩ :=
    contention_of_work_uses_tries htells hrolls hresult hcontention
  · exact hwork
  · cases hrefused
  · cases hcommit

/-- Work that cannot be committed for the same reason is tried once. -/
theorem locked_commit_tried_once : ∃ (h : History Mock UInt64) (t : Mock),
    h.Tells db addRow (max 1 3) (lockedOn "COMMIT") t ∧ h.RollsBack ∧
    ((db.transact 3 addRow).outcome (lockedOn "COMMIT")).1 = .error (locked "COMMIT" 0) ∧
    (locked "COMMIT" 0).isContention ∧ h.begun ≠ max 1 3 := by
  have htells : History.Tells ⟨[], (db.round addRow (lockedOn "COMMIT")).1⟩ db addRow (max 1 3)
      (lockedOn "COMMIT") (db.round addRow (lockedOn "COMMIT")).2 :=
    History.tells_last.mpr ⟨rfl, by decide⟩
  have hresult : ((db.transact 3 addRow).outcome (lockedOn "COMMIT")).1 =
      .error (locked "COMMIT" 0) := by
    rw [htells.outcome]
    rfl
  exact ⟨_, _, htells, History.rollsBack_iff.mpr (by decide), hresult, by decide, by decide⟩

end Mock

end Relational
