import Relational.Migration.Migrator
import Relational.Proofs.Session.Keeping
/-
Connections that keep a trace of what they are asked for.

A tracing connection does what the one below it does, and beside that keeps a list of all
requests: queries and statements, each with the way it took, and what was asked of
transactions.  A request is traced whatever becomes of it, so the list tells what was sent
and not what succeeded.  Nothing ever leaves the list.
-/
namespace Relational

open Action

variable {σ α : Type}

/-! ### Requests -/

/-- Whether a text goes to a connection by itself or through an open transaction. -/
inductive Route where
  | direct
  | transaction
  deriving DecidableEq, Repr

/-- Something a connection is asked for. -/
inductive Request where
  | query (route : Route) (sql : String) (bindings : List Value)
  | execute (route : Route) (sql : String) (bindings : List Value)
  | begin
  | commit
  | rollback
  deriving DecidableEq, Repr

namespace Request

def isQuery : Request → Bool
  | query .. => true
  | _ => false

/-- The text of a statement. -/
def executed? : Request → Option String
  | execute _ sql _ => some sql
  | _ => none

end Request

/-- A state, and everything that was asked for. -/
structure Traced (σ : Type) where
  state : σ
  requests : List Request := []

namespace Traced

/-- The requests of a kind. -/
def those (kind : Request → Bool) (s : Traced σ) : List Request :=
  s.requests.filter kind

/-- The statements that were executed, in order. -/
def executed (s : Traced σ) : List String :=
  s.requests.filterMap Request.executed?

/-- The requests of `s` come first in `t`. -/
def Grows (s t : Traced σ) : Prop :=
  s.requests <+: t.requests

instance : IsPreorder (Traced σ) Grows where
  refl _ := List.prefix_rfl
  trans _ _ _ hst htu := hst.trans htu

end Traced

/-! ### Tracing -/

/-- Notes requests and does something to the state below. -/
def tracing (requests : List Request) (a : Action σ α) : Action (Traced σ) α :=
  ExceptT.mk fun s =>
    let (result, state) := a.outcome s.state
    (result, ⟨state, s.requests ++ requests⟩)

/-- Traces what it is asked for. -/
def Executor.traced (e : Executor σ) (route : Route) : Executor (Traced σ) where
  dialect := e.dialect
  query := fun sql bindings => tracing [.query route sql bindings] (e.query sql bindings)
  execute := fun sql bindings => tracing [.execute route sql bindings] (e.execute sql bindings)

/-- Traces what it is asked for, and how it ends. -/
def Transaction.traced (tx : Transaction σ) : Transaction (Traced σ) where
  executor := tx.executor.traced .transaction
  commit := tracing [.commit] tx.commit
  rollback := tracing [.rollback] tx.rollback

/-- Traces what it is asked for, itself and through its transactions. -/
def Connection.traced (c : Connection σ) : Connection (Traced σ) where
  name := c.name
  executor := c.executor.traced .direct
  begin := do
    let tx ← tracing [.begin] c.begin
    return tx.traced

/-- The registry, with connections that trace what they are asked for. -/
def Registry.traced (r : Registry σ) : Registry (Traced σ) where
  config := r.config
  opened := r.opened.map fun (name, c) => (name, c.traced)
  adapter? := fun d => (r.adapter? d).map fun adapter name address poolSize => do
    let c ← tracing [] (adapter name address poolSize)
    return c.traced

/-- The migrator, on connections that trace what they are asked for. -/
def Migrator.traced (m : Migrator σ) : Migrator (Traced σ) where
  registry := m.registry.traced
  files := m.files
  registered := m.registered
  pretend := m.pretend
  now := m.now

/-! ### What is traced -/

theorem outcome_tracing (requests : List Request) (a : Action σ α) (s : Traced σ) :
    (tracing requests a).outcome s =
      ((a.outcome s.state).1, ⟨(a.outcome s.state).2, s.requests ++ requests⟩) :=
  rfl

theorem keeps_tracing {kind : Request → Bool} {requests : List Request}
    (h : ∀ r ∈ requests, kind r = false) (a : Action σ α) :
    Keeps (Traced.those kind) (tracing requests a) := by
  intro s
  rw [outcome_tracing, Traced.those, List.filter_append]
  have hnone : requests.filter kind = [] :=
    List.filter_eq_nil_iff.mpr fun r hr => by simp [h r hr]
  rw [hnone, List.append_nil]
  rfl

theorem leads_tracing (requests : List Request) (a : Action σ α) :
    Leads Traced.Grows (tracing requests a) :=
  fun _ => ⟨requests, rfl⟩

/-- A statement is traced whatever becomes of it. -/
theorem Executor.requests_executeText (e : Executor σ) (route : Route) (sql : String) (s : Traced σ) :
    (((e.traced route).executeText sql).outcome s).2.requests =
      s.requests ++ [.execute route sql []] := by
  rw [executeText, outcome_discard, traced]
  dsimp only
  rw [outcome_tracing]
  cases (e.execute sql []).outcome s.state with
  | mk result state =>
      cases result with
      | ok n => rfl
      | error failure => rfl

theorem Executor.traced_grows (e : Executor σ) (route : Route) :
    (e.traced route).LeadsOn (fun _ => True) Traced.Grows :=
  ⟨fun _ _ _ => leads_tracing _ _, fun _ _ _ => leads_tracing _ _⟩

end Relational
