import Relational.Proofs.Migration.History
import Relational.Proofs.Migration.Traced
/-
Runs that only ask.

A migrator that pretends, and one that tells how things stand, sends its connections
queries and nothing else, wherever it fails and whatever it is answered.  Each operation
is followed step by step.  A step that only asks does the same on an executor whose
statements do nothing, so what is known about executors that keep something is enough:
that one keeps everything traced but queries.
-/
namespace Relational

open Action

variable {σ α : Type}

namespace Traced

/-- Everything that was asked for, besides queries. -/
abbrev demands (s : Traced σ) : List Request :=
  s.those fun r => !r.isQuery

theorem demands_eq_nil {s : Traced σ} : s.demands = [] ↔ ∀ r ∈ s.requests, r.isQuery = true := by
  simp [those, List.filter_eq_nil_iff]

end Traced

open Traced (demands)

/-! ### Questions -/

/-- The executor for those who only ask: its statements do nothing. -/
def Executor.asking (e : Executor σ) : Executor σ :=
  { e with execute := fun _ _ => pure 0 }

theorem Executor.keeping_asking (e : Executor σ) (route : Route) :
    (e.traced route).asking.Keeping demands :=
  ⟨fun _ _ => keeps_tracing (by simp [Request.isQuery]) _, fun _ _ => keeps_pure 0⟩

/-- The ledger for those who only ask. -/
def Ledger.asking (l : Ledger σ) : Ledger σ :=
  { l with executor := l.executor.asking }

theorem lookup_map_snd {β γ : Type} (f : β → γ) (name : String) (entries : List (String × β)) :
    (entries.map fun entry => (entry.1, f entry.2)).lookup name = (entries.lookup name).map f := by
  induction entries with
  | nil => rfl
  | cons entry rest ih =>
      rw [List.map_cons, List.lookup_cons, List.lookup_cons, ih]
      split
      · rfl
      · rfl

/-- Whatever connection a name stands for, it is one that traces. -/
theorem Registry.keeps_get_bind {r : Registry σ} {name : String}
    {f : Connection (Traced σ) → Action (Traced σ) α}
    (h : ∀ c : Connection σ, Keeps demands (f c.traced)) :
    Keeps demands (r.traced.get name >>= f) := by
  unfold get
  rw [show r.traced.opened.lookup name = _ from lookup_map_snd Connection.traced name r.opened]
  cases r.opened.lookup name with
  | some c => exact h c
  | none =>
      rw [Option.map_none, bind_assoc]
      refine (keeps_ofExcept _ _).bind fun (found, settings) => ?_
      show Keeps demands (r.traced.connect found settings >>= f)
      simp only [connect, traced]
      cases r.adapter? settings.dialect with
      | none => exact keeps_throw _
      | some adapter =>
          simp only [Option.map_some, bind_assoc, pure_bind]
          exact (keeps_ofExcept _ _).bind fun address => (keeps_tracing (List.forall_mem_nil _) _).bind h

namespace Migrator

variable {m : Migrator σ}

/-! ### Steps -/

/-- Looking up how a connection stands while nothing is to be changed. -/
theorem standing_pretending (hpretend : m.pretend = true) (assumeEmpty : Bool)
    (name : String) : m.standing assumeEmpty name = (do
      let c ← m.registry.get name
      if assumeEmpty then return ⟨name, [], 1⟩
      else readStanding (m.ledger name c.executor) name) := by
  unfold standing readStanding
  simp only [hpretend, if_true]
  cases assumeEmpty with
  | true => rfl
  | false => rfl

section Pretending

variable (hpretend : m.pretend = true)

include hpretend

theorem keeps_standing (assumeEmpty : Bool) (name : String) :
    Keeps demands (m.traced.standing assumeEmpty name) := by
  rw [standing_pretending (m := m.traced) hpretend]
  refine Registry.keeps_get_bind fun c => ?_
  split
  · exact keeps_pure _
  · exact keeps_readStanding (l := (m.traced.ledger name c.traced.executor).asking)
      (c.executor.keeping_asking .direct) name

theorem keeps_applyAll (standings : List Standing) (report : MigrationReport)
    (units : List MigrationUnit) : Keeps demands (m.traced.applyAll standings report units) := by
  induction units generalizing report with
  | nil => exact keeps_pure report
  | cons u rest ih =>
      refine Registry.keeps_get_bind fun c => ?_
      exact (keeps_runNext_pretending (m := m.traced) hpretend c.traced .up _ _).bind fun _ => ih _

theorem keeps_applyPending (units : List MigrationUnit) (assumeEmpty : Bool) :
    Keeps demands (m.traced.applyPending units assumeEmpty) :=
  (keeps_mapM _ fun name => keeps_standing hpretend assumeEmpty name).bind fun standings =>
    keeps_applyAll hpretend standings _ _

theorem keeps_revertOn (units : List MigrationUnit) (scope : Scope) (report : MigrationReport)
    (name : String) : Keeps demands (m.traced.revertOn units scope report name) := by
  refine Registry.keeps_get_bind fun c => ?_
  have hasking := c.executor.keeping_asking .direct
  refine Keeps.bind (Ledger.keeps_isPresent
    (l := (m.traced.ledger name c.traced.executor).asking) hasking) fun present => ?_
  split
  · refine Keeps.bind (Ledger.keeps_targets
      (l := (m.traced.ledger name c.traced.executor).asking) hasking scope) fun rows => ?_
    exact keeps_revertAll_pretending (m := m.traced) hpretend c.traced units rows report
  · exact keeps_pure report

theorem keeps_revert (units : List MigrationUnit) (scope : Scope) :
    Keeps demands (m.traced.revert units scope) :=
  keeps_foldlM _ (fun report name => keeps_revertOn hpretend units scope report name) _

theorem keeps_dropTables (name : String) : Keeps demands (m.traced.dropTables name) := by
  refine Registry.keeps_get_bind fun c => ?_
  dsimp only
  rw [if_pos (show m.traced.pretend = true from hpretend)]
  exact Schema.keeps_tables (s := { executor := c.traced.executor.asking })
    (c.executor.keeping_asking .direct)

end Pretending

theorem keeps_rowsOn (name : String) : Keeps demands (m.traced.rowsOn name) := by
  refine Registry.keeps_get_bind fun c => ?_
  have hasking := c.executor.keeping_asking .direct
  refine Keeps.bind (Ledger.keeps_isPresent
    (l := (m.traced.ledger name c.traced.executor).asking) hasking) fun present => ?_
  split
  · refine Keeps.bind ?_ fun _ => keeps_pure _
    exact Ledger.keeps_fetch (l := (m.traced.ledger name c.traced.executor).asking) hasking _
  · exact keeps_pure _

/-! ### Operations -/

/-- What a migrator can be told to do. -/
inductive Operation where
  | run (command : Command)
  | fresh
  | status

/-- Does what an operation says. -/
def Operation.perform (m : Migrator σ) : Operation → Action σ Unit
  | run command => discard (command.run m)
  | fresh => discard m.fresh
  | status => discard m.status

theorem keeps_loadUnits {δ : Type} {see : σ → δ} : Keeps see m.loadUnits :=
  keeps_ofExcept _ _

theorem keeps_run (hpretend : m.pretend = true) (command : Command) :
    Keeps demands (command.run m.traced) := by
  cases command with
  | migrate => exact keeps_loadUnits.bind fun units => keeps_applyPending hpretend units false
  | rollback steps => exact keeps_loadUnits.bind fun units => keeps_revert hpretend units _
  | reset => exact keeps_loadUnits.bind fun units => keeps_revert hpretend units .all
  | refresh =>
      refine keeps_loadUnits.bind fun units => (keeps_revert hpretend units .all).bind fun _ => ?_
      exact (keeps_applyPending hpretend units _).bind fun _ => keeps_pure _

theorem keeps_fresh (hpretend : m.pretend = true) : Keeps demands m.traced.fresh := by
  refine keeps_loadUnits.bind fun units => ?_
  refine (keeps_mapM _ fun name => keeps_dropTables hpretend name).bind fun dropped => ?_
  exact (keeps_applyPending hpretend units _).bind fun _ => keeps_pure _

theorem keeps_status : Keeps demands m.traced.status :=
  keeps_loadUnits.bind fun _ => (keeps_mapM _ keeps_rowsOn).bind fun _ => keeps_pure _

theorem keeps_perform (operation : Operation) (h : m.pretend = true ∨ operation = .status) :
    Keeps demands (operation.perform m.traced) := by
  cases operation with
  | run command => exact (keeps_run (h.resolve_right nofun) command).discard
  | fresh => exact (keeps_fresh (h.resolve_right nofun)).discard
  | status => exact keeps_status.discard

/-- The state behind some operations, each of a migrator of its own and whatever became of the ones
before, with all that was asked for. -/
def behind : List (Migrator σ × Operation) → Traced σ → Traced σ
  | [], s => s
  | (m, operation) :: rest, s => behind rest ((operation.perform m.traced).outcome s).2

theorem demands_behind {runs : List (Migrator σ × Operation)}
    (h : ∀ r ∈ runs, r.1.pretend = true ∨ r.2 = .status) (s : Traced σ) :
    (behind runs s).demands = s.demands := by
  induction runs generalizing s with
  | nil => rfl
  | cons first rest ih =>
      obtain ⟨m, operation⟩ := first
      obtain ⟨hfirst, hrest⟩ := List.forall_mem_cons.mp h
      exact (ih hrest _).trans (keeps_perform operation hfirst s)

/-- **Who pretends only asks.**  Whatever is run one after the other, if each run pretends or tells
how things stand, then nothing but queries is sent, however the runs end. -/
theorem pretending_only_asks (runs : List (Migrator σ × Operation))
    (h : ∀ r ∈ runs, r.1.pretend = true ∨ r.2 = .status) (s : σ) :
    ∀ request ∈ (behind runs ⟨s, []⟩).requests, request.isQuery = true :=
  Traced.demands_eq_nil.mp (demands_behind h ⟨s, []⟩)

/-- The same of databases in memory.  They do not know what tables they have, so a fresh start fails
there. -/
theorem memory_pretending_only_asks :
    let pretending : Migrator Memory := { Memory.migrator with pretend := true }
    let runs := [(pretending, .run .migrate), (pretending, .run (.rollback (some 1))),
      (pretending, .run .reset), (pretending, .run .refresh), (pretending, .fresh),
      (Memory.migrator, .status)]
    let s : Memory := { databases := fun _ => { ledger := some [] } }
    (∀ r ∈ runs, r.1.pretend = true ∨ r.2 = .status) ∧
    ∀ request ∈ (behind runs ⟨s, []⟩).requests, request.isQuery = true := by
  exact ⟨by simp, pretending_only_asks _ (by simp) _⟩

end Migrator

end Relational
