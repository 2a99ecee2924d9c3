import Relational.Proofs.Migration.Ledger
/-
What one unit does to the databases.

A unit with a transaction of its own is carried out as a whole or not at all: either
its effect and the note in the ledger are both there, or nothing has changed on any
connection.  This holds wherever it fails, in the beginning, in the unit itself, in
the note, in the commit and in the rollback, because everything in between works on
the transaction's copy.
-/
namespace Relational

open Action

variable {σ : Type} {le : String → String → Bool}

/-- The database behind a unit that was carried out: applied, it is noted in one new row, and
reverted, it has no row. -/
inductive MigrationUnit.Carried (u : MigrationUnit) (batch : Int64) (db : Database) :
    Way → Database → Prop
  | up (stored : List LedgerRow) (appliedAt : String) (h : db.ledger = some stored) :
    Carried u batch db .up
      { ledger := some (stored ++ [⟨u.id, batch, appliedAt⟩]), installed := insert u.id db.installed }
  | down (stored : List LedgerRow) (h : db.ledger = some stored) :
    Carried u batch db .down
      { ledger := some (stored.filter (·.identifier ≠ u.id)), installed := db.installed \ {u.id} }

namespace MigrationUnit.Carried

variable {u : MigrationUnit} {batch : Int64} {db db' : Database}

theorem recorded_up (h : u.Carried batch db .up db') : db'.recorded = db.recorded ++ [u.id] := by
  cases h with
  | up stored appliedAt hstored => simp [Database.recorded, Database.rows, hstored]

theorem recorded_down (h : u.Carried batch db .down db') :
    db'.recorded = db.recorded.filter (· ≠ u.id) := by
  cases h with
  | down stored hstored =>
      simp [Database.recorded, Database.rows, hstored, List.filter_map, Function.comp_def]

theorem installed_up (h : u.Carried batch db .up db') :
    db'.installed = insert u.id db.installed := by
  cases h with
  | up stored appliedAt hstored => rfl

theorem installed_down (h : u.Carried batch db .down db') :
    db'.installed = db.installed \ {u.id} := by
  cases h with
  | down stored hstored => rfl

end MigrationUnit.Carried

namespace Migrator

variable {m : Migrator σ} {u : MigrationUnit} {name : String}

/-- On the database its statements act on, a unit that succeeds is carried out. -/
theorem ensures_carryOut {see : σ → Database} {e : Executor σ}
    (h : e.Serves (m.config.ledgerTableFor name) le see) (hu : u.Acts (m.schemaOn name e) see)
    (way : Way) (batch : Int64) (db : Database) :
    Ensures (see · = db) (m.carryOut u name e way batch)
      (fun _ t => u.Carried batch db way (see t)) (fun _ _ => True) := by
  have hl : (m.ledger name e).executor.Serves (m.ledger name e).table le see := h
  cases way with
  | up =>
      refine (hu.up db).bind fun _ => (Ledger.ensures_record hl u.id batch).weaken
        (fun _ hs => hs) ?_ (fun _ _ _ => trivial)
      rintro _ t ⟨stored, appliedAt, hledger, ht⟩
      rw [ht]
      exact .up stored appliedAt hledger
  | down =>
      refine (hu.down db).bind fun _ => (Ledger.ensures_remove hl u.id).weaken
        (fun _ hs => hs) ?_ (fun _ _ _ => trivial)
      rintro _ t ⟨stored, hledger, ht⟩
      rw [ht]
      exact .down stored hledger

theorem keeps_carryOut {δ : Type} {view : σ → δ} {e : Executor σ} (h : e.Keeping view) (way : Way)
    (batch : Int64) : Keeps view (m.carryOut u name e way batch) := by
  have hl : (m.ledger name e).executor.Keeping view := h
  cases way with
  | up => exact (Procedure.keeps_perform h u.up).bind fun _ => Ledger.keeps_record hl u.id batch
  | down => exact (Procedure.keeps_perform h u.down).bind fun _ => Ledger.keeps_remove hl u.id

variable {view : σ → String → Database}

/-- All or nothing: a unit inside a transaction is carried out on its connection, or no database
has changed. -/
theorem ensures_carryOutWhole {c : Connection σ} (hc : m.Served le view name c)
    (hknown : u ∈ m.known) (hname : m.connectionName u = name) (way : Way) (batch : Int64)
    (v : String → Database) :
    Ensures (view · = v) (m.carryOutWhole u name c way batch)
      (fun _ t => ∃ db, u.Carried batch (v name) way db ∧ view t = Function.update v name db)
      (fun _ t => view t = v) := by
  refine (hc.begin v).bind fun tx => ?_
  rintro s ⟨hview, work, hwork, htx, hacts⟩
  have hu := hacts u hknown hname
  have hinside : Ensures (fun s => work s = v name ∧ view s = v)
      (tryCatch (m.carryOut u name tx.executor way batch) fun failure => do
        tx.rollback.regardless
        throw failure)
      (fun _ t => u.Carried batch (v name) way (work t) ∧ view t = v) (fun _ t => view t = v) := by
    refine Ensures.tryCatch (((ensures_carryOut htx.executor hu way batch (v name)).and_keeps
      (keeps_carryOut htx.hidden way batch) v).weaken (fun _ hs => hs) (fun _ _ ht => ht)
      (fun _ _ ht => ht.2)) fun failure => ?_
    exact (htx.rollback.regardless.ensures v).bind fun _ => ensures_throw fun _ hs => hs
  refine (hinside.bind fun _ => ?_) s ⟨hwork, hview⟩
  intro t ht
  refine ((htx.commit v (work t)).weaken (fun _ hs => hs) (fun _ r hr => ?_)
    (fun _ _ hr => hr)) t ⟨ht.2, rfl⟩
  exact ⟨work t, ht.1, hr⟩

/-- The same of a unit as a run meets it; the failure it is wrapped in is no change either. -/
theorem ensures_runNext (hpretend : m.pretend = false) {c : Connection σ}
    (hc : m.Served le view name c) (hknown : u ∈ m.known) (hname : m.connectionName u = name)
    (htransaction : u.transaction = true) (way : Way) (batch : Int64) (done : List String)
    (v : String → Database) :
    Ensures (view · = v) (m.runNext u name c way batch done)
      (fun _ t => ∃ db, u.Carried batch (v name) way db ∧ view t = Function.update v name db)
      (fun _ t => view t = v) := by
  refine Ensures.tryCatch ?_ fun cause => ensures_throw fun _ hs => hs
  unfold runUnit
  simp only [hpretend, htransaction, Bool.false_eq_true, if_false, if_true]
  exact (ensures_carryOutWhole hc hknown hname way batch v).bind fun _ =>
    ensures_pure fun _ ht => ht

/-! ### Pretending -/

section Pretending

variable {δ : Type} {see : σ → δ} (hpretend : m.pretend = true) (c : Connection σ)

include hpretend

/-- A unit that is only noted is not run. -/
theorem keeps_runNext_pretending (way : Way) (batch : Int64) (done : List String) :
    Keeps see (m.runNext u name c way batch done) := by
  refine Keeps.tryCatch ?_ fun cause => keeps_throw _
  unfold runUnit
  rw [if_pos hpretend]
  exact (keeps_ofExcept _ _).bind fun statements => keeps_pure _

theorem keeps_revertAll_pretending (units : List MigrationUnit) (rows : List AppliedUnit)
    (report : MigrationReport) : Keeps see (m.revertAll units name c report rows) := by
  induction rows generalizing report with
  | nil => exact keeps_pure report
  | cons row rest ih =>
      unfold revertAll
      split
      · exact ih report
      · exact (keeps_runNext_pretending hpretend c .down _ _).bind fun pretended => ih _

end Pretending

end Migrator

end Relational
