import Relational.Session.Executor
/-
Connections and transactions.

Work inside a transaction may ask for something to happen once the transaction is committed, or
once it is rolled back.  Work that had to give way to another session is tried again from the
start, in a new transaction.
-/
namespace Relational

/-- An open transaction. -/
structure Transaction (σ : Type) where
  /-- Runs statements inside the transaction. -/
  executor : Executor σ
  commit : Action σ Unit
  rollback : Action σ Unit

/-- A connection with a name. -/
structure Connection (σ : Type) where
  name : String
  executor : Executor σ
  /-- Starts a transaction on a session of its own. -/
  begin : Action σ (Transaction σ)

/-- A state with a transaction open, and what is to happen to it afterwards. -/
structure Pending (σ : Type) where
  state : σ
  onCommit : List (σ → σ) := []
  onRollback : List (σ → σ) := []

namespace Pending

variable {σ α : Type}

/-- An action on the state alone. -/
def lift (a : Action σ α) : Action (Pending σ) α :=
  ExceptT.mk fun p =>
    let (result, state) := a.run.run p.state
    (result, { p with state })

/-- An executor on the state alone. -/
def executor (e : Executor σ) : Executor (Pending σ) where
  dialect := e.dialect
  query := fun sql bindings => lift (e.query sql bindings)
  execute := fun sql bindings => lift (e.execute sql bindings)

/-- Asks for something to happen once the transaction is committed. -/
def afterCommit (hook : σ → σ) : Action (Pending σ) Unit :=
  modify fun p => { p with onCommit := p.onCommit ++ [hook] }

/-- Asks for something to happen once the transaction is rolled back. -/
def afterRollback (hook : σ → σ) : Action (Pending σ) Unit :=
  modify fun p => { p with onRollback := p.onRollback ++ [hook] }

/-- Runs hooks in the order they were asked for. -/
def runHooks (hooks : List (σ → σ)) : Action σ Unit :=
  modify fun state => hooks.foldl (fun state hook => hook state) state

/-- Runs work in a state, and returns what became of it with what it asked for. -/
def collect (work : Action (Pending σ) α) : Action σ (Except Failure α × Pending σ) :=
  ExceptT.mk fun state =>
    let (result, pending) := work.run.run { state }
    (.ok (result, pending), pending.state)

end Pending

namespace Connection

variable {σ α : Type}

/-- Work inside a transaction, given what runs its statements. -/
abbrev Work (σ α : Type) : Type := Executor (Pending σ) → Action (Pending σ) α

/-- Runs work in one transaction and commits it.  The result is the work's failure if that could be
rolled back; whatever else fails is the failure of the whole. -/
def attempt (c : Connection σ) (work : Work σ α) : Action σ (Except Failure α) := do
  let tx ← c.begin
  let (result, pending) ← Pending.collect (work (Pending.executor tx.executor))
  match result with
  | .ok a =>
    tx.commit
    Pending.runHooks pending.onCommit
    return .ok a
  | .error failure =>
    tryCatch tx.rollback fun _ => throw failure
    Pending.runHooks pending.onRollback
    return .error failure

/-- Runs work in a transaction, and up to `retries` times again as long as it has to give way. -/
def transactAgain (c : Connection σ) (work : Work σ α) (retries : Nat) : Action σ α := do
  match ← c.attempt work with
  | .ok a => return a
  | .error failure =>
    match retries with
    | 0 => throw failure
    | retries + 1 => if failure.isContention then c.transactAgain work retries else throw failure

/-- Runs work in at most `attempts` transactions, of which there is always one. -/
def transact (c : Connection σ) (attempts : Nat) (work : Work σ α) : Action σ α :=
  c.transactAgain work (attempts - 1)

end Connection

end Relational
