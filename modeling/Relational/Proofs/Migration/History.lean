import Relational.Proofs.Migration.Memory
import Relational.Proofs.Migration.Run
/-
Everything that was ever run, and what the ledgers say in the end.

A history is a list of runs, each at a time of its own.  What a run returns plays no
part: one that failed half-way is followed by the next like any other.  What can go
wrong is left to the state, which decides of every statement, beginning, commit and
rollback what becomes of it, so a history from any state covers every pattern of
failures.
-/
namespace Relational

open Action

variable {σ : Type} {le : String → String → Bool} {view : σ → String → Database}

namespace Migrator

/-- The runs that apply and revert units. -/
inductive Command where
  | migrate
  /-- Reverts the last batch, or so many units. -/
  | rollback (steps : Option UInt64)
  | reset
  | refresh
  deriving DecidableEq, Repr

/-- Does what a command says. -/
def Command.run (m : Migrator σ) : Command → Action σ MigrationReport
  | migrate => m.migrate
  | rollback steps => m.rollback steps
  | reset => m.reset
  | refresh => m.refresh

theorem Command.run_migrate (m : Migrator σ) : Command.run m .migrate = m.migrate :=
  rfl

/-- The state behind some commands, each run at its own time and whatever became of the ones
before. -/
def after (m : Migrator σ) : List (Instant × Command) → σ → σ
  | [], s => s
  | (now, command) :: rest, s => m.after rest ((command.run { m with now }).outcome s).2

variable {m : Migrator σ}

/-! ### The time does not matter -/

theorem Environment.stamped (h : m.Environment le view) (now : Instant) :
    ({ m with now } : Migrator σ).Environment le view :=
  fun name v => (h name v).weaken (fun _ hs => hs)
    (fun _ _ hc => ⟨hc.1, hc.2.executor, hc.2.apart, hc.2.begin⟩) (fun _ _ hs => hs)

theorem consistent_stamped {v : String → Database} (now : Instant) :
    ({ m with now } : Migrator σ).Consistent v ↔ m.Consistent v :=
  ⟨fun h => ⟨h.once, h.tallied, h.routed⟩, fun h => ⟨h.once, h.tallied, h.routed⟩⟩

/-! ### Runs -/

/-- What reverting keeps is known before units are applied, so what applying leads to from there, a
run leads to as well. -/
theorem Command.ensures_run_of {pre post : σ → Prop} (hpretend : m.pretend = false)
    (hpost : ∀ s, pre s → post s)
    (hrevert : m.units = .ok m.known → ∀ scope,
      Ensures pre (m.revert m.known scope) (fun _ => pre) (fun _ => pre))
    (happly : m.units = .ok m.known →
      Ensures pre (m.applyPending m.known false) (fun _ => post) (fun _ => post))
    (command : Command) : Ensures pre (command.run m) (fun _ => post) (fun _ => post) := by
  have hload : ∀ {f : List MigrationUnit → Action σ MigrationReport}, (m.units = .ok m.known →
      Ensures pre (f m.known) (fun _ => post) (fun _ => post)) →
      Ensures pre (m.loadUnits >>= f) (fun _ => post) (fun _ => post) := by
    exact ensures_loadUnits_bind fun _ _ s hs => hpost s hs
  have hreverted : ∀ scope, m.units = .ok m.known →
      Ensures pre (m.revert m.known scope) (fun _ => post) (fun _ => post) := fun scope hunits =>
    (hrevert hunits scope).weaken (fun _ hs => hs) (fun _ t ht => hpost t ht)
      (fun _ t ht => hpost t ht)
  cases command with
  | migrate => exact hload happly
  | rollback steps => exact hload (hreverted _)
  | reset => exact hload (hreverted _)
  | refresh =>
      refine hload fun hunits => ?_
      refine ((hrevert hunits .all).weaken (fun _ hs => hs) (fun _ _ ht => ht)
        (fun _ t ht => hpost t ht)).bind fun reverted => ?_
      rw [hpretend]
      exact (happly hunits).bind fun report => ensures_pure fun _ ht => ht

/-- A run keeps the ledgers in step, whether it succeeds or fails. -/
theorem ensures_run (hpretend : m.pretend = false) (henv : m.Environment le view)
    (htransaction : ∀ u ∈ m.known, u.transaction = true) (command : Command) :
    Ensures (fun s => m.Consistent (view s)) (command.run m) (fun _ t => m.Consistent (view t))
      (fun _ t => m.Consistent (view t)) :=
  command.ensures_run_of hpretend (fun _ hs => hs)
    (fun hunits scope => ensures_revert hpretend henv htransaction hunits scope)
    (fun hunits => ensures_applyPending hpretend henv htransaction hunits)

theorem consistent_after (hpretend : m.pretend = false) (henv : m.Environment le view)
    (htransaction : ∀ u ∈ m.known, u.transaction = true) (commands : List (Instant × Command))
    {s : σ} (hs : m.Consistent (view s)) : m.Consistent (view (m.after commands s)) := by
  induction commands generalizing s with
  | nil => exact hs
  | cons first rest ih =>
      obtain ⟨now, command⟩ := first
      refine ih ?_
      have hrun := ensures_run (m := { m with now }) hpretend (henv.stamped now) htransaction command
      have hstart := (consistent_stamped now).mpr hs
      exact (consistent_stamped now).mp (hrun.behind hstart)

/-- **Ledgers tell the truth.**  If every unit has a transaction of its own, then behind any runs
that started on empty databases every ledger lists exactly the units routed to its connection
whose effect is installed there, and lists each once. -/
theorem ledger_lists_installed (hpretend : m.pretend = false) (henv : m.Environment le view)
    (htransaction : ∀ u ∈ m.known, u.transaction = true) (commands : List (Instant × Command))
    {s : σ} (hempty : ∀ name, (view s name).rows = [] ∧ (view s name).installed = ∅)
    (name : String) :
    let db := view (m.after commands s) name
    db.recorded.Nodup ∧ ∀ id, id ∈ db.recorded ↔
      ∃ u ∈ m.known, u.id = id ∧ m.connectionName u = name ∧ id ∈ db.installed := by
  have hend := consistent_after hpretend henv htransaction commands (.of_empty hempty)
  refine ⟨hend.once name, fun id => ⟨fun hid => ?_, ?_⟩⟩
  · have hinstalled := (hend.tallied name id).mp hid
    obtain ⟨u, hknown, hu, hname⟩ := hend.routed name id hinstalled
    exact ⟨u, hknown, hu, hname, hinstalled⟩
  · rintro ⟨u, -, -, -, hinstalled⟩
    exact (hend.tallied name id).mpr hinstalled

/-- The same of databases in memory, where the last commit of the second run
fails. -/
theorem memory_ledger_lists_installed :
    let m := Memory.migrator
    let s : Memory := { databases := fun _ => {}, faults := List.replicate 33 false ++ [true] }
    let commands := [(m.now, .migrate), (m.now, .rollback none), (m.now, .rollback (some 1)),
      (m.now, .refresh), (m.now, .reset), (m.now, .migrate)]
    let db := Memory.databases (m.after commands s) "archive"
    (m.pretend = false ∧ m.Environment Memory.textOrder Memory.databases ∧
      (∀ u ∈ m.known, u.transaction = true) ∧
      ∀ name, (s.databases name).rows = [] ∧ (s.databases name).installed = ∅) ∧
    db.recorded.Nodup ∧ ∀ id, id ∈ db.recorded ↔
      ∃ u ∈ m.known, u.id = id ∧ m.connectionName u = "archive" ∧ id ∈ db.installed := by
  have hpretend : Memory.migrator.pretend = false := rfl
  have htransaction : ∀ u ∈ Memory.migrator.known, u.transaction = true := by
    rw [Memory.known_migrator]
    decide
  have hempty : ∀ name, (({} : Database).rows = [] ∧ ({} : Database).installed = ∅) :=
    fun _ : String => ⟨rfl, rfl⟩
  exact ⟨⟨hpretend, Memory.environment, htransaction, hempty⟩,
    ledger_lists_installed hpretend Memory.environment htransaction _ hempty "archive"⟩

end Migrator

end Relational
