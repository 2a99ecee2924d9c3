import Relational.Proofs.Migration.Reverting
/-
How many units a rollback by a number of steps runs.

The number limits what is taken of each ledger, and every involved connection has its own.
So no connection gives up more units than that, and all together at most that many for
each of them, also if the run fails half-way.  With one connection it is the number that
was asked for; with two it may be twice as many.
-/
namespace Relational

open Action

variable {σ δ : Type}

namespace Migrator

variable {m : Migrator σ} {le : String → String → Bool} {w : Lookout σ δ}
  {before : String → List LedgerRow} {d : δ} {n : UInt64}

/-! ### Counting -/

theorem Picked.length_le_steps {name : String} {stored : List LedgerRow}
    {units : List MigrationUnit} (h : m.Picked le (.steps n) name stored units) :
    units.length ≤ n.toNat := by
  obtain ⟨picked, ⟨listed, -, -, rfl⟩, rfl⟩ := h
  refine (List.length_filterMap_le _ _).trans ?_
  rw [List.length_map, List.length_take]
  exact Nat.min_le_left _ _

/-- No more than so many units run on a connection. -/
def Limited (m : Migrator σ) (limit : Nat) (names : List String) (units : List MigrationUnit) :
    Prop :=
  (∀ u ∈ units, u ∈ m.known ∧ m.connectionName u ∈ names) ∧
    (∀ name, (units.filter (m.connectionName · = name)).length ≤ limit) ∧
    units.length ≤ limit * names.length

theorem Limited.nil (limit : Nat) (names : List String) : m.Limited limit names [] :=
  ⟨nofun, fun _ => Nat.zero_le _, Nat.zero_le _⟩

/-- One more connection gives up so many units. -/
theorem Limited.append {limit : Nat} {names : List String} {units more : List MigrationUnit}
    {name : String} (h : m.Limited limit names units) (hnew : name ∉ names)
    (hmore : ∀ u ∈ more, u ∈ m.known ∧ m.connectionName u = name) (hlength : more.length ≤ limit) :
    m.Limited limit (names ++ [name]) (units ++ more) := by
  obtain ⟨hunits, heach, hall⟩ := h
  refine ⟨fun u hu => ?_, fun other => ?_, ?_⟩
  · rcases List.mem_append.mp hu with hu | hu
    · exact ⟨(hunits u hu).1, List.mem_append_left _ (hunits u hu).2⟩
    · exact ⟨(hmore u hu).1, by simp [(hmore u hu).2]⟩
  · rw [List.filter_append, List.length_append]
    by_cases hother : other = name
    · have hnone : units.filter (m.connectionName · = other) = [] :=
        filter_connection_eq_nil fun u hu heq => hnew (hother ▸ heq ▸ (hunits u hu).2)
      have hle := List.length_filter_le (m.connectionName · = other) more
      rw [hnone, List.length_nil]
      omega
    · have hnone : more.filter (m.connectionName · = other) = [] :=
        filter_connection_eq_nil fun u hu heq => hother (heq.symm.trans (hmore u hu).2)
      rw [hnone, List.length_nil]
      exact heach other
  · rw [List.length_append, List.length_append, List.length_singleton, Nat.mul_add, Nat.mul_one]
    omega

theorem Limited.mono {limit : Nat} {names rest : List String} {units : List MigrationUnit}
    (h : m.Limited limit names units) : m.Limited limit (names ++ rest) units :=
  ⟨fun u hu => ⟨(h.1 u hu).1, List.mem_append_left _ (h.1 u hu).2⟩, h.2.1,
    h.2.2.trans (Nat.mul_le_mul_left _ (by simp))⟩

theorem Swept.limited {names : List String} {done : List MigrationUnit}
    (h : m.Swept le w (.steps n) before names done) (hnodup : names.Nodup) :
    m.Limited n.toNat names done := by
  induction h with
  | nil => exact .nil _ _
  | snoc h hpicked ih =>
      obtain ⟨hnames, -, hlast⟩ := List.nodup_append.mp hnodup
      exact (ih hnames).append (fun hmem => hlast _ hmem _ (by simp) rfl)
        (fun _ hu => hpicked.of_mem hu) hpicked.length_le_steps

/-- A run that has failed has run such units as well, and all but the last of them are no longer
noted. -/
theorem Halted.exists_limited {all : List String} {e : Failure} {t : σ}
    (h : m.Halted le w (.steps n) before d all e t) (hnodup : all.Nodup) :
    ∃ downs kept, Ran w.Marks downs d (w.trail t) ∧ m.Limited n.toNat all downs ∧
      (downs = kept ∨ ∃ u, downs = kept ++ [u]) ∧ w.rows t = m.without w kept before := by
  cases h with
  | lookup hsplit hswept _ h =>
      subst hsplit
      exact ⟨_, _, h.ran, (hswept.limited (List.nodup_append.mp hnodup).1).mono, .inl rfl, h.rows⟩
  | @unit names rest name done units _ _ hsplit hswept hpicked h =>
      obtain ⟨front, u, back, batch, cause, rfl, -, hrows, hran⟩ := h
      subst hsplit
      rw [List.append_cons] at hnodup ⊢
      obtain ⟨hnames, -, hlast⟩ := List.nodup_append.mp (List.nodup_append.mp hnodup).1
      have hpart : ∀ part, part <+: front ++ u :: back →
          m.Limited n.toNat (names ++ [name] ++ rest) (done ++ part) := fun part hpart =>
        ((hswept.limited hnames).append (fun hmem => hlast _ hmem _ (by simp) rfl)
          (fun v hv => hpicked.of_mem (hpart.subset hv))
          (hpart.length_le.trans hpicked.length_le_steps)).mono
      rcases hran with hran | hran
      · exact ⟨_, _, hran, hpart front (List.prefix_append _ _), .inl rfl, hrows⟩
      · have hlimited := hpart (front ++ [u]) ⟨back, by simp⟩
        rw [← List.append_assoc] at hlimited
        exact ⟨_, _, hran, hlimited, .inr ⟨u, rfl⟩, hrows⟩

/-! ### Pretending -/

/-- A run that only notes what it would do changes nothing that is watched. -/
theorem ensures_rollback_pretending (hpretend : m.pretend = true) (henv : m.Yielding le w)
    (steps : Option UInt64) (x : Watched δ) :
    Ensures (w.see · = x) (m.rollback steps) (fun _ t => w.see t = x) (fun _ t => w.see t = x) := by
  refine ensures_loadUnits_bind (fun _ _ _ hs => hs) fun _ => ?_
  refine ensures_foldlM (m.involved m.known) (fun name _ report => ?_) ({} : MigrationReport)
  exact ensures_revertOn_of henv _ name report (fun _ _ ht _ => ht) fun c picked _ _ =>
    (keeps_revertAll_pretending hpretend c m.known picked report).ensures x

/-! ### The limit -/

/-- **A rollback by steps is limited on each connection.**  Whatever becomes of it, it runs no more
units of a connection than was asked for, and none if it only pretends; one that succeeds reverts
the last so many rows of each ledger. -/
theorem rollback_limited_by_connection (henv : m.Yielding le w) (hn : n ≠ 0) (s : σ) :
    ∃ downs, Ran w.Marks downs (w.trail s) (w.trail ((m.rollback (some n)).outcome s).2) ∧
      (∀ u ∈ downs, u ∈ m.known ∧ m.connectionName u ∈ m.involved m.known) ∧
      (∀ name, (downs.filter (m.connectionName · = name)).length ≤ n.toNat) ∧
      downs.length ≤ n.toNat * (m.involved m.known).length ∧
      if m.pretend = true then
        downs = [] ∧ w.rows ((m.rollback (some n)).outcome s).2 = w.rows s
      else match (m.rollback (some n)).outcome s with
        | (.ok report, t) => report.rolledBack = downs.map (·.id) ∧
          w.rows t = m.without w downs (w.rows s) ∧
          m.Swept le w (.steps n) (w.rows s) (m.involved m.known) downs
        | (.error _, t) => ∃ kept, (downs = kept ∨ ∃ u, downs = kept ++ [u]) ∧
          w.rows t = m.without w kept (w.rows s) := by
  by_cases hpretend : m.pretend = true
  · have hsee : w.see ((m.rollback (some n)).outcome s).2 = w.see s :=
      (ensures_rollback_pretending hpretend henv (some n) (w.see s)).behind rfl
    obtain ⟨hrows, htrail⟩ := rows_of_see hsee
    refine ⟨[], htrail ▸ .nil _, nofun, fun _ => Nat.zero_le _, Nat.zero_le _, ?_⟩
    rw [if_pos hpretend]
    exact ⟨rfl, hrows⟩
  · have hscope : scopeOf (some n) = .steps n := if_neg hn
    have hstart : w.rows s = w.rows s ∧ w.trail s = w.trail s := ⟨rfl, rfl⟩
    have hrun := ensures_rollback (by simpa using hpretend) henv (some n) s hstart
    simp only [if_neg hpretend]
    rcases hend : (m.rollback (some n)).outcome s with ⟨e | report, t⟩
    · rw [hend, hscope] at hrun
      obtain ⟨downs, kept, hran, ⟨hknown, heach, htotal⟩, hkept, hrows⟩ :=
        Halted.exists_limited hrun (m.nodup_involved m.known)
      exact ⟨downs, hran, hknown, heach, htotal, kept, hkept, hrows⟩
    · rw [hend, hscope] at hrun
      obtain ⟨downs, hswept, hreport, hretreat⟩ := hrun
      obtain ⟨hknown, heach, htotal⟩ := hswept.limited (m.nodup_involved m.known)
      exact ⟨downs, hretreat.ran, hknown, heach, htotal, hreport, hretreat.rows, hswept⟩

end Migrator

namespace LoggedMemory

/-- The log tells of reverting. -/
theorem yielding : (migratorWith installedOrRemoved).Yielding Memory.textOrder (lookoutOf .down) :=
  (works_migratorWith _).ensures_get quiet_installedOrRemoved (tell_installedOrRemoved .down)

/-- The row that the unit of a connection has after a first migration. -/
def firstRow (name : String) : LedgerRow :=
  ⟨if name = "archive" then "002_events" else "001_people", 1, "2024-01-01 00:00:00"⟩

/-- Every connection with the row of its unit. -/
def filled : LoggedMemory where
  memory := { databases := fun name => { ledger := some [firstRow name] } }

/-- What is told of a run if it succeeds. -/
def told {α : Type} (tell : MigrationReport → LoggedMemory → α)
    (run : Except Failure MigrationReport × LoggedMemory) : Option α :=
  match run with
  | (.ok report, t) => some (tell report t)
  | (.error _, _) => none

theorem exists_of_told {α : Type} {tell : MigrationReport → LoggedMemory → α}
    {run : Except Failure MigrationReport × LoggedMemory} {x : α} (h : told tell run = some x) :
    ∃ report t, run = (.ok report, t) ∧ tell report t = x := by
  obtain ⟨e | report, t⟩ := run
  · cases h
  · exact ⟨report, t, rfl, Option.some.inj h⟩

theorem told_steps :
    told (fun report t => (report.rolledBack, t.log))
        (((migratorWith installedOrRemoved).revert units (.steps 1)).outcome filled) =
      some (["001_people", "002_events"], ["undo 001_people", "undo 002_events"]) := by
  decide +kernel

end LoggedMemory

namespace Migrator

/-- A rollback of one unit runs no more than one of each connection. -/
theorem logged_memory_limited_by_connection :
    let m := LoggedMemory.migratorWith LoggedMemory.installedOrRemoved
    (m.Yielding Memory.textOrder (LoggedMemory.lookoutOf .down) ∧ (1 : UInt64) ≠ 0) ∧
    ∃ downs : List MigrationUnit, ((m.rollback (some 1)).outcome LoggedMemory.filled).2.log =
        downs.map (LoggedMemory.entry · .down) ∧
      (∀ name, (downs.filter (m.connectionName · = name)).length ≤ 1) ∧ downs.length ≤ 2 := by
  intro m
  have hone : (1 : UInt64) ≠ 0 := by decide
  have hinvolved : m.involved m.known = ["main", "archive"] := by
    rw [LoggedMemory.known_migratorWith]
    decide
  obtain ⟨downs, hran, -, heach, htotal, -⟩ :=
    rollback_limited_by_connection LoggedMemory.yielding hone LoggedMemory.filled
  rw [hinvolved] at htotal
  exact ⟨⟨LoggedMemory.yielding, hone⟩, downs, log_of_ran hran, heach, htotal⟩

theorem migrate_eq {units : List MigrationUnit} {m : Migrator σ} (hunits : m.units = .ok units)
    (s : σ) : m.migrate.outcome s = (m.applyPending units false).outcome s := by
  show (Action.ofExcept id m.units >>= _).outcome s = _
  rw [hunits]
  rfl

theorem rollback_eq {units : List MigrationUnit} {m : Migrator σ} (hunits : m.units = .ok units)
    (steps : Option UInt64) (s : σ) :
    (m.rollback steps).outcome s = (m.revert units (scopeOf steps)).outcome s := by
  show (Action.ofExcept id m.units >>= _).outcome s = _
  rw [hunits]
  rfl

/-- With two connections a rollback of one unit runs two. -/
theorem logged_memory_exceeds_steps :
    let m := LoggedMemory.migratorWith LoggedMemory.installedOrRemoved
    ∃ report t, (m.rollback (some 1)).outcome LoggedMemory.filled = (.ok report, t) ∧
      report.rolledBack = ["001_people", "002_events"] ∧
      t.log = ["undo 001_people", "undo 002_events"] := by
  intro m
  rw [rollback_eq (LoggedMemory.units_migratorWith _)]
  obtain ⟨report, t, hrun, htold⟩ := LoggedMemory.exists_of_told LoggedMemory.told_steps
  exact ⟨report, t, hrun, Prod.mk.inj htold⟩

end Migrator

end Relational
