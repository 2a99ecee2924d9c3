import Relational.Proofs.Migration.Reached
import Relational.Proofs.Migration.Stepwise
/-
What a rollback takes back of the run before it.

A run numbers a batch in every ledger it adds to, and a rollback takes the last batch of
each ledger.  So of every connection that the run was on, a rollback takes back what the
run did there, the last unit first.  It does not know on which connections the run was,
though: of any other it takes the batch of some earlier run.  If the run was on all of
them, the ledgers are as they were before it, and with one connection that is always so.
-/
namespace Relational

open Action

variable {σ δ : Type}

/-! ### The last batch of a ledger -/

namespace LedgerRow

/-- Rows that are all of one batch behind the others are the last batch. -/
theorem filter_lastBatch {old new : List LedgerRow} {n : Int} (hn : 0 < n)
    (hold : ∀ r ∈ old, r.batch.toInt < n) (hnew : ∀ r ∈ new, r.batch.toInt = n) (hne : new ≠ []) :
    (old ++ new).filter (fun r => lastBatch (old ++ new) ≠ 0 ∧ r.batch = lastBatch (old ++ new)) =
      new := by
  have hlast : (lastBatch (old ++ new)).toInt = n := by
    obtain ⟨r, hr⟩ := List.exists_mem_of_ne_nil new hne
    rw [toInt_lastBatch]
    refine highest_eq (fun r hr => ?_) ⟨r, List.mem_append_right _ hr, hnew r hr⟩
    exact (List.mem_append.mp hr).elim (fun hr => Int.le_of_lt (hold r hr))
      (fun hr => Int.le_of_eq (hnew r hr))
  have hzero : lastBatch (old ++ new) ≠ 0 := by
    intro heq
    rw [heq] at hlast
    exact Int.ne_of_lt hn hlast
  have hof : ∀ r : LedgerRow, r.batch = lastBatch (old ++ new) ↔ r.batch.toInt = n := fun r =>
    ⟨fun h => h ▸ hlast, fun h => Int64.toInt_inj.mp (h.trans hlast.symm)⟩
  rw [List.filter_append, List.filter_eq_nil_iff.mpr, List.nil_append, List.filter_eq_self.mpr]
  · exact fun r hr => decide_eq_true ⟨hzero, (hof r).mpr (hnew r hr)⟩
  · intro r hr
    rw [decide_eq_true_eq, hof]
    exact fun h => Int.ne_of_lt (hold r hr) h.2

/-- Rows of one batch whose names ascend are taken with the last one first. -/
theorem map_identifier_newest {rows : List LedgerRow} {picked : List AppliedUnit} {n : Int}
    (hbatch : ∀ r ∈ rows, r.batch.toInt = n)
    (hascending : (rows.map (·.identifier)).Pairwise (· < ·))
    (hperm : picked.Perm (rows.map read)) (hordered : picked.Pairwise AppliedUnit.NotOlder) :
    picked.map (·.identifier) = (rows.map (·.identifier)).reverse := by
  have hsame : ∀ a ∈ picked, a.batch.toInt = n := by
    intro a ha
    obtain ⟨r, hr, rfl⟩ := List.mem_map.mp (hperm.mem_iff.mp ha)
    exact hbatch r hr
  have hnames : (picked.map (·.identifier)).Perm (rows.map (·.identifier)).reverse := by
    refine List.Perm.trans ?_ (List.reverse_perm _).symm
    simpa [Function.comp_def, read] using hperm.map (·.identifier)
  have hpicked : (picked.map (·.identifier)).Pairwise fun a b => b ≤ a := by
    refine List.pairwise_map.mpr (hordered.imp_of_mem fun {a b} ha hb h => ?_)
    rcases h with h | ⟨-, h⟩
    · rw [Int64.lt_iff_toInt_lt, hsame a ha, hsame b hb] at h
      exact absurd h (Int.lt_irrefl n)
    · exact String.not_lt.mp h
  exact hnames.eq_of_pairwise (fun a b _ _ hab hba => String.le_antisymm hba hab) hpicked
    (List.pairwise_reverse.mpr (hascending.imp fun h => String.not_lt.mp (String.lt_asymm h)))

end LedgerRow

namespace Migrator

variable {m : Migrator σ} {le : String → String → Bool} {w : Lookout σ δ}
  {back : MigrationUnit → δ → δ → Prop} {before after : String → List LedgerRow}

/-! ### Units by name -/

/-- The unit known on a connection by a name. -/
def named (m : Migrator σ) (connection id : String) : Option MigrationUnit :=
  m.known.find? fun u => u.id == id && m.connectionName u == connection

theorem named_id {u : MigrationUnit} (hu : u ∈ m.known) (connection : String) :
    m.named connection u.id = if m.connectionName u = connection then some u else none := by
  split
  · rename_i hname
    have hsome : (m.named connection u.id).isSome = true :=
      List.find?_isSome.mpr ⟨u, hu, by simp [hname]⟩
    obtain ⟨v, hv⟩ := Option.isSome_iff_exists.mp hsome
    have hid : v.id = u.id := by
      have := List.find?_some hv
      simp only [Bool.and_eq_true, beq_iff_eq] at this
      exact this.1
    rw [hv, eq_of_id (List.mem_of_find?_eq_some hv) hu hid]
  · rename_i hname
    refine List.find?_eq_none.mpr fun v hv h => hname ?_
    simp only [Bool.and_eq_true, beq_iff_eq] at h
    rw [← eq_of_id hv hu h.1]
    exact h.2

theorem filterMap_named {units : List MigrationUnit} (hunits : ∀ u ∈ units, u ∈ m.known)
    (connection : String) :
    (units.map (·.id)).filterMap (m.named connection) =
      units.filter (m.connectionName · = connection) := by
  induction units with
  | nil => rfl
  | cons u rest ih =>
      rw [List.map_cons, List.filterMap_cons, named_id (hunits u (by simp)),
        ih fun v hv => hunits v (by simp [hv])]
      by_cases hname : m.connectionName u = connection
      · simp [hname]
      · simp [hname]

/-! ### One connection -/

/-- The name is not that of one of some units in the ledger there. -/
def Stays (m : Migrator σ) (w : Lookout σ δ) (gone : List MigrationUnit) (place id : String) : Prop :=
  ∀ u ∈ gone, m.placeOf w u = place → id ≠ u.id

instance (m : Migrator σ) (w : Lookout σ δ) (gone : List MigrationUnit) (place id : String) :
    Decidable (m.Stays w gone place id) :=
  inferInstanceAs (Decidable (∀ u ∈ gone, m.placeOf w u = place → id ≠ u.id))

theorem without_eq_filter (gone : List MigrationUnit) (rows : String → List LedgerRow)
    (place : String) :
    m.without w gone rows place = (rows place).filter (m.Stays w gone place ·.identifier) :=
  rfl

/-- What is left in a ledger behind a run, if units have been reverted since: older rows, and behind
them the rows of the run's units that have not. -/
theorem Noted.exists_left {run : List MigrationUnit} (h : m.Noted w run before after)
    (gone : List MigrationUnit) (place : String) :
    ∃ old new, m.without w gone after place = old ++ new ∧
      (∀ r ∈ old, r.batch.toInt < 1 + LedgerRow.highest (before place)) ∧
      (∀ r ∈ new, r.batch.toInt = 1 + LedgerRow.highest (before place)) ∧
      new.map (·.identifier) = ((run.filter (m.placeOf w · = place)).filter
        (m.Stays w gone place ·.id)).map (·.id) := by
  obtain ⟨added, hadded, hnames, hbatch⟩ := h.exists_added place
  refine ⟨m.without w gone before place, added.filter (m.Stays w gone place ·.identifier), ?_,
    fun r hr => ?_, fun r hr => ?_, ?_⟩
  · rw [without_eq_filter, hadded, List.filter_append, without_eq_filter]
  · have hle := LedgerRow.le_highest (List.mem_filter.mp hr).1
    omega
  · exact hbatch r (List.mem_filter.mp hr).1
  · have hfilter := congrArg (List.filter (m.Stays w gone place ·)) hnames
    rwa [List.filter_map, List.filter_map] at hfilter

/-- Units of other connections take none from a connection. -/
theorem filter_stays {run gone : List MigrationUnit} {name : String}
    (hknown : ∀ u ∈ run, u ∈ m.known)
    (hgone : ∀ u ∈ gone, u ∈ m.known ∧ m.connectionName u ≠ name) :
    ((run.filter (m.placeOf w · = w.place name)).filter
      (m.Stays w gone (w.place name) ·.id)).filter (m.connectionName · = name) =
      run.filter (m.connectionName · = name) := by
  rw [List.filter_filter, List.filter_filter]
  refine List.filter_congr fun u hu => ?_
  by_cases hname : m.connectionName u = name
  · have hplace : m.placeOf w u = w.place name := by rw [placeOf, hname]
    have hstays : m.Stays w gone (w.place name) u.id := fun v hv _ heq =>
      (hgone v hv).2 (eq_of_id (hknown u hu) (hgone v hv).1 heq ▸ hname)
    simp [hname, hplace, hstays]
  · simp [hname]

/-- Of a connection that a run was on, what the run did there is picked, the last unit first.  Other
connections may share the ledger, and units of theirs may be gone by then. -/
theorem Noted.picked_eq {run gone units : List MigrationUnit} {name : String}
    (h : m.Noted w run before after) (hfrom : 0 ≤ LedgerRow.highest (before (w.place name)))
    (hknown : ∀ u ∈ run, u ∈ m.known) (hascending : run.Pairwise fun u v => u.id < v.id)
    (hgone : ∀ u ∈ gone, u ∈ m.known ∧ m.connectionName u ≠ name)
    (hon : ∃ u ∈ run, m.connectionName u = name)
    (hpicked : m.Picked le .lastBatch name (m.without w gone after (w.place name)) units) :
    units = (run.filter (m.connectionName · = name)).reverse := by
  obtain ⟨old, new, hleft, hold, hnew, hnames⟩ := h.exists_left gone (w.place name)
  obtain ⟨picked, ⟨hperm, hordered⟩, rfl⟩ := hpicked
  have hne : new ≠ [] := by
    obtain ⟨u, hu, hname⟩ := hon
    have hmem : u ∈ run.filter (m.connectionName · = name) :=
      List.mem_filter.mpr ⟨hu, decide_eq_true hname⟩
    rw [← filter_stays hknown hgone] at hmem
    rintro rfl
    exact List.ne_nil_of_mem (List.mem_map_of_mem (f := (·.id)) (List.mem_filter.mp hmem).1)
      hnames.symm
  rw [hleft, LedgerRow.filter_lastBatch (by omega) hold hnew hne] at hperm
  have hnewest : picked.map (·.identifier) = (new.map (·.identifier)).reverse := by
    refine LedgerRow.map_identifier_newest hnew ?_ hperm hordered
    rw [hnames]
    exact List.pairwise_map.mpr ((hascending.filter _).filter _)
  have hnamed : picked.filterMap (m.unitOf? m.known name) =
      (picked.map (·.identifier)).filterMap (m.named name) := by
    rw [List.filterMap_map]
    rfl
  rw [hnamed, hnewest, hnames, List.filterMap_reverse, filterMap_named, filter_stays hknown hgone]
  exact fun u hu => hknown u (List.mem_filter.mp (List.mem_filter.mp hu).1).1

/-! ### What goes with a run -/

/-- On every connection that a run was on, the units are those of the run, the last one first. -/
def TakesBack (m : Migrator σ) (run downs : List MigrationUnit) : Prop :=
  ∀ u ∈ run, downs.filter (m.connectionName · = m.connectionName u) =
    (run.filter (m.connectionName · = m.connectionName u)).reverse

variable {run downs : List MigrationUnit}

/-- A rollback behind a run takes it back on its connections. -/
theorem Noted.takesBack (h : m.Noted w run before after)
    (hfrom : ∀ place, 0 ≤ LedgerRow.highest (before place)) (hknown : ∀ u ∈ run, u ∈ m.known)
    (hascending : run.Pairwise fun u v => u.id < v.id)
    (hswept : m.Swept le w .lastBatch after (m.involved m.known) downs) : m.TakesBack run downs := by
  intro u hu
  obtain ⟨gone, hgone, hpicked⟩ :=
    hswept.exists_picked (m.nodup_involved _) (mem_involved (hknown u hu))
  exact h.picked_eq (hfrom _) hknown hascending hgone ⟨u, hu, rfl⟩ hpicked

theorem TakesBack.mem (h : m.TakesBack run downs) {u : MigrationUnit} (hu : u ∈ run) : u ∈ downs := by
  have hmem : u ∈ downs.filter (m.connectionName · = m.connectionName u) := by
    rw [h u hu]
    simpa using hu
  exact (List.mem_filter.mp hmem).1

/-- If the run was on every connection that has units, that is all. -/
theorem TakesBack.eq_flatMap (h : m.TakesBack run downs) {scope : Scope}
    (hswept : m.Swept le w scope before (m.involved m.known) downs) (hknown : ∀ u ∈ run, u ∈ m.known)
    (heverywhere : ∀ u ∈ m.known, ∃ v ∈ run, m.connectionName v = m.connectionName u) :
    downs = (m.involved m.known).flatMap fun name =>
      (run.filter (m.connectionName · = name)).reverse := by
  refine (hswept.eq_flatMap (m.nodup_involved _)).trans (List.flatMap_congr fun name _ => ?_)
  by_cases hname : ∃ u ∈ m.known, m.connectionName u = name
  · obtain ⟨u, hu, rfl⟩ := hname
    obtain ⟨v, hv, hsame⟩ := heverywhere u hu
    exact hsame ▸ h v hv
  · have hnone : ∀ u ∈ m.known, m.connectionName u ≠ name := fun u hu heq => hname ⟨u, hu, heq⟩
    rw [filter_connection_eq_nil fun u hu => hnone u (hswept.of_mem hu).1,
      filter_connection_eq_nil fun u hu => hnone u (hknown u hu), List.reverse_nil]

/-- With one connection it is the run in reverse. -/
theorem TakesBack.eq_reverse (h : m.TakesBack run downs) (hne : run ≠ [])
    (hone : ∀ u ∈ run ++ downs, ∀ v ∈ run ++ downs, m.connectionName u = m.connectionName v) :
    downs = run.reverse := by
  obtain ⟨u, hu⟩ := List.exists_mem_of_ne_nil run hne
  have hdowns := h u hu
  rwa [List.filter_eq_self.mpr, List.filter_eq_self.mpr] at hdowns
  · exact fun v hv => decide_eq_true (hone v (by simp [hv]) u (by simp [hu]))
  · exact fun v hv => decide_eq_true (hone v (by simp [hv]) u (by simp [hu]))

/-- Rows that a run has added go with its units. -/
theorem Noted.without_eq (h : m.Noted w run before after) (hsubset : ∀ u ∈ run, u ∈ downs) :
    m.without w downs after = m.without w downs before := by
  funext place
  obtain ⟨added, hadded, hnames, -⟩ := h.exists_added place
  rw [without_eq_filter, without_eq_filter, hadded, List.filter_append, List.append_right_eq_self,
    List.filter_eq_nil_iff]
  intro r hr hstays
  have hname : r.identifier ∈ added.map (·.identifier) := List.mem_map_of_mem hr
  rw [hnames] at hname
  obtain ⟨u, hu, hid⟩ := List.mem_map.mp hname
  obtain ⟨hrun, hplace⟩ := List.mem_filter.mp hu
  exact of_decide_eq_true hstays u (hsubset u hrun) (of_decide_eq_true hplace) hid.symm

/-- Units that are not listed have no rows that could go. -/
theorem without_eq_self (h : ∀ u ∈ downs, u.id ∉ m.listedBeside w before u) :
    m.without w downs before = before := by
  funext place
  refine List.filter_eq_self.mpr fun r hr => decide_eq_true ?_
  rintro u hu rfl hid
  exact h u hu (List.mem_map.mpr ⟨r, hr, hid⟩)

/-! ### A run and the rollback behind it -/

/-- What is taken of the ledgers depends neither on the time nor on the marks. -/
theorem Swept.of_marking {marks : MigrationUnit → δ → δ → Prop} {now : Instant} {scope : Scope}
    {names : List String}
    (h : ({ m with now } : Migrator σ).Swept le (w.marking marks) scope before names downs) :
    m.Swept le w scope before names downs := by
  induction h with
  | nil => exact .nil
  | snoc _ hpicked ih => exact ih.snoc hpicked

/-- **A rollback takes back the run before it, connection by connection.**  Of a connection that the
run was on it reverts what the run applied there, the last unit first.  If the run was on every
connection that has units, nothing else is reverted and the ledgers are as they were before it; with
one connection the units are those of the run in reverse. -/
theorem rollback_takes_back_run (hm : m.Operating le w back) {n : Nat} (hn : n < Int64.maxValue.toInt)
    {s t r : σ} (hs : Reached le w back n s) {applied reverted : MigrationReport}
    (hrun : m.migrate.outcome s = (.ok applied, t)) {now : Instant}
    (hrollback : (({ m with now } : Migrator σ).rollback none).outcome t = (.ok reverted, r)) :
    let run := m.pending w (w.rows s)
    applied.migrated = run.map (·.id) ∧ Ran w.Marks run (w.trail s) (w.trail t) ∧
    ∃ downs, reverted.rolledBack = downs.map (·.id) ∧ Ran back downs (w.trail t) (w.trail r) ∧
      w.rows r = m.without w downs (w.rows s) ∧
      m.Swept le w .lastBatch (w.rows t) (m.involved m.known) downs ∧
      (∀ u ∈ run, downs.filter (m.connectionName · = m.connectionName u) =
        (run.filter (m.connectionName · = m.connectionName u)).reverse) ∧
      ((∀ u ∈ m.known, ∃ v ∈ run, m.connectionName v = m.connectionName u) →
        downs = (m.involved m.known).flatMap (fun name =>
          (run.filter (m.connectionName · = name)).reverse) ∧
        w.rows r = w.rows s) ∧
      (run ≠ [] → (∀ u ∈ m.known, ∀ v ∈ m.known, m.connectionName u = m.connectionName v) →
        downs = run.reverse ∧ w.rows r = w.rows s) := by
  intro run
  have hwithin : Within n (w.rows s) := hs.within (Int.le_of_lt hn)
  have hfrom : ∀ r, w.rows r = w.rows r ∧ w.trail r = w.trail r := fun _ => ⟨rfl, rfl⟩
  obtain ⟨hmigrated, hprogress⟩ := (ensures_migrate hm.changes hm.hosting
    fun _ _ _ hr => hwithin.lt_maxValue hn hr).of_ok (hfrom s) hrun
  obtain ⟨downs, hsweep, hrolledBack, hretreat⟩ := (ensures_rollback (m := { m with now })
    (w := w.marking back) hm.changes (hm.yielding.stamped now) none).of_ok (hfrom t) hrollback
  have hswept : m.Swept le w .lastBatch (w.rows t) (m.involved m.known) downs := hsweep.of_marking
  have hknown : ∀ u ∈ run, u ∈ m.known := fun u hu => (List.mem_filter.mp hu).1
  have hback : m.TakesBack run downs := hprogress.noted.takesBack
    (fun place => (hwithin.highest place).1) hknown (ascending_pending _) hswept
  have hrows : w.rows r = m.without w downs (w.rows s) :=
    hretreat.rows.trans (hprogress.noted.without_eq fun u hu => hback.mem hu)
  have heverywhere : (∀ u ∈ m.known, ∃ v ∈ run, m.connectionName v = m.connectionName u) →
      downs = (m.involved m.known).flatMap (fun name =>
        (run.filter (m.connectionName · = name)).reverse) ∧ w.rows r = w.rows s := by
    intro heverywhere
    have hdowns := hback.eq_flatMap hswept hknown heverywhere
    refine ⟨hdowns, hrows.trans (without_eq_self fun u hu => ?_)⟩
    rw [hdowns] at hu
    obtain ⟨name, -, hu⟩ := List.mem_flatMap.mp hu
    have hrun : u ∈ run := (List.mem_filter.mp (List.mem_reverse.mp hu)).1
    simpa using (List.mem_filter.mp hrun).2
  refine ⟨hmigrated, hprogress.ran, downs, hrolledBack, hretreat.ran, hrows, hswept, hback,
    heverywhere, fun hne hone => ?_⟩
  have hall : ∀ u ∈ run ++ downs, u ∈ m.known := fun u hu =>
    (List.mem_append.mp hu).elim (hknown u) fun hu => (hswept.of_mem hu).1
  obtain ⟨u, hu⟩ := List.exists_mem_of_ne_nil run hne
  exact ⟨hback.eq_reverse hne fun u hu v hv => hone u (hall u hu) v (hall v hv),
    (heverywhere fun v hv => ⟨u, hu, hone u (hknown u hu) v hv⟩).2⟩

end Migrator

namespace LoggedMemory

/-- The log tells of applying and of reverting. -/
theorem Works.operating {m : Migrator LoggedMemory} (h : Works installedOrRemoved m)
    (hchanges : m.pretend = false) :
    m.Operating Memory.textOrder (lookoutOf .up) (entries .down) where
  changes := hchanges
  hosting := h.hosting quiet_installedOrRemoved (tell_installedOrRemoved .up)
  yielding := h.ensures_get quiet_installedOrRemoved (tell_installedOrRemoved .down)

theorem operating :
    (migratorWith installedOrRemoved).Operating Memory.textOrder (lookoutOf .up) (entries .down) :=
  (works_migratorWith _).operating rfl

/-- Databases without anything in them. -/
def empty : LoggedMemory where
  memory := { databases := fun _ => {} }

theorem reached_empty :
    Migrator.Reached Memory.textOrder (lookoutOf .up) (entries .down) 0 empty :=
  .start fun _ => rfl

/-- What is told of a run and of the rollback behind it. -/
def toldTwice (s : LoggedMemory) : Option (List String × Option (List String × List String)) :=
  told (fun applied t => (applied.migrated, told (fun reverted r => (reverted.rolledBack, r.log))
      (((migratorWith installedOrRemoved).revert units .lastBatch).outcome t)))
    (((migratorWith installedOrRemoved).applyPending units false).outcome s)

theorem exists_of_toldTwice {s : LoggedMemory} {up down log : List String}
    (h : toldTwice s = some (up, some (down, log))) :
    let m := migratorWith installedOrRemoved
    ∃ applied t reverted r, m.migrate.outcome s = (.ok applied, t) ∧
      (m.rollback none).outcome t = (.ok reverted, r) ∧ applied.migrated = up ∧
      reverted.rolledBack = down ∧ r.log = log := by
  obtain ⟨applied, t, hrun, htold⟩ := exists_of_told h
  obtain ⟨hup, htold⟩ := Prod.mk.inj htold
  obtain ⟨reverted, r, hrollback, htold⟩ := exists_of_told htold
  obtain ⟨hdown, hlog⟩ := Prod.mk.inj htold
  refine ⟨applied, t, reverted, r, ?_, ?_, hup, hdown, hlog⟩
  · rw [Migrator.migrate_eq (units_migratorWith _), hrun]
  · rw [Migrator.rollback_eq (units_migratorWith _)]
    exact hrollback

theorem told_from_empty : toldTwice empty = some (["001_people", "002_events"],
    some (["001_people", "002_events"],
      ["001_people", "002_events", "undo 001_people", "undo 002_events"])) := by
  decide +kernel

/-- The same migrator before the unit of the default connection was written. -/
def youngMigrator : Migrator LoggedMemory :=
  { migratorWith installedOrRemoved with registered := units.drop 1 }

theorem units_youngMigrator : youngMigrator.units = .ok (units.drop 1) :=
  Migrator.units_of_registered (by decide +kernel) (by decide) (List.pairwise_singleton _ _)
    (by decide)

theorem operating_young :
    youngMigrator.Operating Memory.textOrder (lookoutOf .up) (entries .down) := by
  refine operating.registering fun u hu => ?_
  have hknown : youngMigrator.known = units.drop 1 := by
    rw [Migrator.known, units_youngMigrator]
  rw [known_migratorWith]
  exact List.mem_of_mem_drop (hknown ▸ hu)

/-- Databases behind the run that it did then. -/
def begun : LoggedMemory :=
  ((Migrator.Command.run youngMigrator .migrate).outcome empty).2

theorem begun_eq :
    begun = ((youngMigrator.applyPending (units.drop 1) false).outcome empty).2 := by
  rw [begun, Migrator.Command.run_migrate, Migrator.migrate_eq units_youngMigrator]

theorem reached_begun :
    Migrator.Reached Memory.textOrder (lookoutOf .up) (entries .down) 1 begun := by
  rw [begun]
  exact reached_empty.run operating_young .migrate

theorem told_from_begun : toldTwice begun = some (["001_people"],
    some (["001_people", "002_events"],
      ["002_events", "001_people", "undo 001_people", "undo 002_events"])) := by
  rw [begun_eq]
  decide +kernel

end LoggedMemory

namespace Migrator

/-- Both units are applied and taken back, one connection after the other. -/
theorem logged_memory_takes_back_run :
    let m := LoggedMemory.migratorWith LoggedMemory.installedOrRemoved
    let w := LoggedMemory.lookoutOf .up
    let s := LoggedMemory.empty
    (m.Operating Memory.textOrder w (LoggedMemory.entries .down) ∧
      ((0 : Nat) : Int) < Int64.maxValue.toInt ∧
      Reached Memory.textOrder w (LoggedMemory.entries .down) 0 s) ∧
    ∃ applied t reverted r, m.migrate.outcome s = (.ok applied, t) ∧
      (m.rollback none).outcome t = (.ok reverted, r) ∧
      applied.migrated = ["001_people", "002_events"] ∧
      reverted.rolledBack = ["001_people", "002_events"] ∧ w.rows r = w.rows s := by
  intro m w s
  have hfew : ((0 : Nat) : Int) < Int64.maxValue.toInt := by decide
  obtain ⟨applied, t, reverted, r, hrun, hrollback, -⟩ :=
    LoggedMemory.exists_of_toldTwice LoggedMemory.told_from_empty
  refine ⟨⟨LoggedMemory.operating, hfew, LoggedMemory.reached_empty⟩,
    applied, t, reverted, r, hrun, hrollback, ?_⟩
  have hpending : m.pending w (w.rows s) = LoggedMemory.units := by
    rw [pending, LoggedMemory.known_migratorWith]
    exact List.filter_eq_self.mpr (by decide)
  have hstamped : (({ m with now := m.now } : Migrator _).rollback none).outcome t =
    (.ok reverted, r) := hrollback
  obtain ⟨happlied, -, downs, hreverted, -, -, -, -, heverywhere, -⟩ :=
    rollback_takes_back_run LoggedMemory.operating hfew LoggedMemory.reached_empty hrun hstamped
  rw [hpending] at happlied heverywhere
  rw [LoggedMemory.known_migratorWith] at heverywhere
  obtain ⟨hdowns, hrows⟩ := heverywhere fun u hu => ⟨u, hu, rfl⟩
  refine ⟨happlied, ?_, hrows⟩
  rw [hreverted, hdowns]
  decide

/-- Where one connection had its unit before, a run applies the other unit, and the rollback behind
it reverts both. -/
theorem logged_memory_takes_back_more :
    let m := LoggedMemory.migratorWith LoggedMemory.installedOrRemoved
    m.Operating Memory.textOrder (LoggedMemory.lookoutOf .up) (LoggedMemory.entries .down) ∧
    Reached Memory.textOrder (LoggedMemory.lookoutOf .up) (LoggedMemory.entries .down) 1
      LoggedMemory.begun ∧
    ∃ applied t reverted r, m.migrate.outcome LoggedMemory.begun = (.ok applied, t) ∧
      (m.rollback none).outcome t = (.ok reverted, r) ∧ applied.migrated = ["001_people"] ∧
      reverted.rolledBack = ["001_people", "002_events"] := by
  intro m
  obtain ⟨applied, t, reverted, r, hrun, hrollback, happlied, hreverted, -⟩ :=
    LoggedMemory.exists_of_toldTwice LoggedMemory.told_from_begun
  exact ⟨LoggedMemory.operating, LoggedMemory.reached_begun, applied, t, reverted, r, hrun,
    hrollback, happlied, hreverted⟩

end Migrator

end Relational
