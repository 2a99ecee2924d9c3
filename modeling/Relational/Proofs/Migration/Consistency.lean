import Relational.Proofs.Migration.Step
/-
The ledgers and the databases stay in step.

`Consistent` is the invariant: every connection's ledger lists each unit once, it
lists a unit exactly if the unit's effect is installed, and only units routed to the
connection are installed there.  One unit keeps it, so every run does, however far it
gets, and so does every sequence of runs.

Applying a unit keeps it only if the ledger does not list the unit yet.  That is why
the units still to come are carried along: what the ledgers said before the run is
still true of them, as a run adds every unit at most once.
-/
namespace Relational

open Action

variable {σ : Type} {le : String → String → Bool}

/-! ### Units have names of their own -/

namespace MigrationUnit

theorem nodup_of_firstRepeated? {seen ids : List String} (h : firstRepeated? seen ids = none) :
    ids.Nodup ∧ ∀ id ∈ ids, id ∉ seen := by
  induction ids generalizing seen with
  | nil => simp
  | cons id rest ih =>
      unfold firstRepeated? at h
      split at h
      · cases h
      · rename_i hseen
        obtain ⟨hnodup, hrest⟩ := ih h
        refine ⟨List.nodup_cons.mpr ⟨fun hmem => hrest id hmem (by simp), hnodup⟩, ?_⟩
        intro x hx
        rcases List.mem_cons.mp hx with rfl | hx
        · simpa using hseen
        · exact fun hs => hrest x hx (by simp [hs])

theorem nodup_collect {units collected : List MigrationUnit}
    (h : collect units = .ok collected) : (collected.map (·.id)).Nodup := by
  unfold collect at h
  split at h
  · cases h
  · rename_i hnone
    cases h
    exact ((List.mergeSort_perm units _).map (·.id)).nodup_iff.mpr (nodup_of_firstRepeated? hnone).1

/-- Units that were collected stand in the order of their names. -/
theorem ascending_collect {units collected : List MigrationUnit}
    (h : collect units = .ok collected) : collected.Pairwise fun a b => a.id < b.id := by
  have hnodup := List.pairwise_map.mp (nodup_collect h)
  unfold collect at h
  split at h
  · cases h
  cases h
  have htrans : ∀ a b c : MigrationUnit, (!decide (b.id < a.id)) = true →
      (!decide (c.id < b.id)) = true → (!decide (c.id < a.id)) = true := by
    intro a b c hab hbc
    simp only [Bool.not_eq_true', decide_eq_false_iff_not, String.not_lt] at *
    exact String.le_trans hab hbc
  have htotal : ∀ a b : MigrationUnit,
      (!decide (b.id < a.id) || !decide (a.id < b.id)) = true := by
    intro a b
    simp only [Bool.or_eq_true, Bool.not_eq_true', decide_eq_false_iff_not, String.not_lt]
    exact String.le_total a.id b.id
  refine ((List.pairwise_mergeSort htrans htotal units).and hnodup).imp ?_
  rintro a b ⟨hle, hne⟩
  simp only [Bool.not_eq_true', decide_eq_false_iff_not, String.not_lt] at hle
  exact Std.lt_of_le_of_ne hle hne

end MigrationUnit

namespace Migrator

variable {m : Migrator σ}

theorem collect_of_units {units : List MigrationUnit} (h : m.units = .ok units) :
    ∃ found, MigrationUnit.collect found = .ok units := by
  unfold Migrator.units at h
  rcases hscripts : Discovery.scripts m.config m.files with e | scripts
  · rw [hscripts] at h
    cases h
  · rw [hscripts] at h
    rcases hfound : MigrationUnit.collect
        ((scripts.map fun s => MigrationUnit.ofScript s.id s.script) ++ m.registered) with e | found
    · simp only [hfound, bind, Except.bind, Except.mapError] at h
      cases h
    · simp only [hfound, bind, Except.bind, Except.mapError] at h
      split at h
      · cases h
      · cases h
        exact ⟨_, hfound⟩

theorem nodup_known (m : Migrator σ) : (m.known.map (·.id)).Nodup := by
  unfold known
  split
  · rename_i units hunits
    obtain ⟨found, hfound⟩ := collect_of_units hunits
    exact MigrationUnit.nodup_collect hfound
  · simp

theorem ascending_known (m : Migrator σ) : m.known.Pairwise fun a b => a.id < b.id := by
  unfold known
  split
  · rename_i units hunits
    obtain ⟨found, hfound⟩ := collect_of_units hunits
    exact MigrationUnit.ascending_collect hfound
  · exact .nil

/-! ### The invariant -/

/-- Every ledger lists exactly the units routed to its connection whose effect is installed there,
each once. -/
structure Consistent (m : Migrator σ) (v : String → Database) : Prop where
  once : ∀ name, (v name).recorded.Nodup
  /-- What is listed is installed, and the other way round. -/
  tallied : ∀ name id, id ∈ (v name).recorded ↔ id ∈ (v name).installed
  routed : ∀ name, ∀ id ∈ (v name).installed,
    ∃ u ∈ m.known, u.id = id ∧ m.connectionName u = name

theorem Consistent.of_empty {v : String → Database}
    (h : ∀ name, (v name).rows = [] ∧ (v name).installed = ∅) : m.Consistent v := by
  have hrecorded : ∀ name, (v name).recorded = [] := fun name => by
    simp [Database.recorded, (h name).1]
  refine ⟨fun name => ?_, fun name id => ?_, fun name id hid => ?_⟩
  · rw [hrecorded name]
    exact List.nodup_nil
  · rw [hrecorded name, (h name).2]
    simp
  · rw [(h name).2] at hid
    exact absurd hid (Set.notMem_empty id)

/-- A table that was made, but has no rows, changes nothing. -/
theorem Consistent.of_sameContent {v w : String → Database} (h : m.Consistent v)
    (hsame : ∀ name, (v name).SameContent (w name)) : m.Consistent w := by
  have hrecorded : ∀ name, (w name).recorded = (v name).recorded := fun name => by
    simp [Database.recorded, (hsame name).1]
  refine ⟨fun name => ?_, fun name id => ?_, fun name id hid => ?_⟩
  · rw [hrecorded name]
    exact h.once name
  · rw [hrecorded name, (hsame name).2]
    exact h.tallied name id
  · rw [(hsame name).2] at hid
    exact h.routed name id hid

/-- What one database keeps, all do if the others stay as they are. -/
theorem Consistent.update {v : String → Database} (h : m.Consistent v) {name : String}
    {db : Database} (honce : db.recorded.Nodup)
    (htallied : ∀ id, id ∈ db.recorded ↔ id ∈ db.installed)
    (hrouted : ∀ id ∈ db.installed, ∃ u ∈ m.known, u.id = id ∧ m.connectionName u = name) :
    m.Consistent (Function.update v name db) := by
  refine ⟨fun other => ?_, fun other => ?_, fun other => ?_⟩
  all_goals
    by_cases hother : other = name
    · subst hother
      rw [Function.update_self]
      assumption
    · rw [Function.update_of_ne hother]
      first
      | exact h.once other
      | exact h.tallied other
      | exact h.routed other

/-- Carrying out a unit keeps the invariant, if one that is applied is not listed yet. -/
theorem Consistent.carried {v : String → Database} (h : m.Consistent v) {u : MigrationUnit}
    (hknown : u ∈ m.known) {batch : Int64} {way : Way} {db : Database}
    (hdb : u.Carried batch (v (m.connectionName u)) way db)
    (hfresh : way = .up → u.id ∉ (v (m.connectionName u)).recorded) :
    m.Consistent (Function.update v (m.connectionName u) db) := by
  cases way with
  | up =>
      have hnew := hfresh rfl
      refine h.update ?_ ?_ ?_
      · rw [hdb.recorded_up, List.nodup_append]
        refine ⟨h.once _, by simp, ?_⟩
        intro id hid other hother
        rw [List.mem_singleton.mp hother]
        exact fun heq => hnew (heq ▸ hid)
      · intro id
        rw [hdb.recorded_up, hdb.installed_up, List.mem_append, List.mem_singleton,
          Set.mem_insert_iff, h.tallied, or_comm]
      · intro id hid
        rw [hdb.installed_up] at hid
        rcases Set.mem_insert_iff.mp hid with rfl | hid
        · exact ⟨u, hknown, rfl, rfl⟩
        · exact h.routed _ id hid
  | down =>
      refine h.update ?_ ?_ ?_
      · rw [hdb.recorded_down]
        exact (h.once _).sublist List.filter_sublist
      · intro id
        rw [hdb.recorded_down, hdb.installed_down, Set.mem_sdiff, Set.mem_singleton_iff,
          ← h.tallied, List.mem_filter, decide_eq_true_eq]
      · intro id hid
        rw [hdb.installed_down] at hid
        exact h.routed _ id hid.1

end Migrator

end Relational
