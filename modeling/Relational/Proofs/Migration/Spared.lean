import Relational.Proofs.Migration.Run
/-
What a ledger's own statements leave alone.

Units run their statements on the same executors as the ledgers do, so nothing can be
asked of everything an executor runs.  `Executor.Spares` asks it of the ledger's
statements alone: they do not touch what `see` shows, and if one fails, the failure is
the engine's, not one that a run reports about a unit.  Every operation of a ledger is
made of such statements, so it spares the same.
-/
namespace Relational

/-- Not a failure that a run reports about a unit. -/
def Failure.IsPlain : Failure → Prop
  | unit .. => False
  | _ => True

namespace Action

variable {σ α β γ δ : Type} {see : σ → δ}

/-- The action does not touch what `see` shows, and can only fail plainly. -/
def Spares (see : σ → δ) (a : Action σ α) : Prop :=
  ∀ d, Ensures (see · = d) a (fun _ t => see t = d) (fun e t => see t = d ∧ e.IsPlain)

theorem spares_pure (x : α) : Spares see (pure x : Action σ α) :=
  fun _ => ensures_pure fun _ hs => hs

theorem spares_throw {e : Failure} (h : e.IsPlain) : Spares see (throw e : Action σ α) :=
  fun _ => ensures_throw fun _ hs => ⟨hs, h⟩

theorem Spares.bind {a : Action σ α} {f : α → Action σ β} (ha : Spares see a)
    (hf : ∀ x, Spares see (f x)) : Spares see (a >>= f) :=
  fun d => (ha d).bind fun x => hf x d

theorem Spares.discard {a : Action σ α} (ha : Spares see a) : Spares see (discard a) :=
  fun d => (ha d).discard

/-- Going on with a result that is known beforehand. -/
theorem spares_ofExcept_bind {ε : Type} {wrap : ε → Failure} {r : Except ε γ}
    {f : γ → Action σ α} (hf : ∀ x, r = .ok x → Spares see (f x))
    (hplain : ∀ e, r = .error e → (wrap e).IsPlain) : Spares see (ofExcept wrap r >>= f) := by
  cases r with
  | ok x => exact hf x rfl
  | error e => exact fun _ _ hs => ⟨hs, hplain e rfl⟩

theorem spares_ofExcept {ε : Type} {wrap : ε → Failure} {r : Except ε α}
    (hplain : ∀ e, r = .error e → (wrap e).IsPlain) : Spares see (ofExcept wrap r) := by
  cases r with
  | ok x => exact spares_pure x
  | error e => exact spares_throw (hplain e rfl)

theorem spares_forM {f : γ → Action σ Unit} (xs : List γ) (h : ∀ x ∈ xs, Spares see (f x)) :
    Spares see (xs.forM f) :=
  fun d => ensures_forM xs fun x hx => h x hx d

end Action

open Action

variable {σ δ : Type} {see : σ → δ}

/-- The statements that a ledger reads, makes and extends its table with do not touch what `see`
shows, and can only fail plainly. -/
structure Executor.Spares (e : Executor σ) (table : String) (see : σ → δ) : Prop where
  reads : ∀ k s, LedgerQuery.statement e.dialect table k = .ok s →
    Action.Spares see (e.query s.sql s.bindings)
  creates : ∀ l : Ledger σ, l.executor = e → l.table = table → ∀ statements,
    l.schema.compiler.compile l.blueprint = .ok statements → ∀ sql ∈ statements,
      Action.Spares see (e.execute sql [])
  inserts : ∀ (r : LedgerRow) s, (Query.ofTable table).insertSql e.dialect [r.row] = .ok s →
    Action.Spares see (e.execute s.sql s.bindings)

/-- So do those that take a row out of it, if units are reverted. -/
def Executor.SparesFor (e : Executor σ) (table : String) (see : σ → δ) : Way → Prop
  | .up => e.Spares table see
  | .down => e.Spares table see ∧ ∀ (id : String) s,
      ((Query.ofTable table).filtered (·.filter "identifier" (toOperand id))).deleteSql e.dialect = .ok s →
      Action.Spares see (e.execute s.sql s.bindings)

theorem Executor.SparesFor.spares {e : Executor σ} {table : String} {way : Way}
    (h : e.SparesFor table see way) : e.Spares table see := by
  cases way with
  | up => exact h
  | down => exact h.1

namespace Ledger

variable {l : Ledger σ}

theorem spares_get (h : l.executor.Spares l.table see) (k : LedgerQuery) {q : Query}
    (hk : LedgerQuery.statement l.executor.dialect l.table k = q.toSql l.executor.dialect) :
    Action.Spares see (l.queries.get q) :=
  spares_ofExcept_bind (fun s hs => (h.reads k s (hk.trans hs)).bind fun _ => spares_pure _)
    fun _ _ => trivial

theorem spares_fetchValue (h : l.executor.Spares l.table see) (k : LedgerQuery) {s : Statement}
    (hs : LedgerQuery.statement l.executor.dialect l.table k = .ok s) :
    Action.Spares see (l.executor.fetchValue s) :=
  ((h.reads k s hs).bind fun _ => spares_pure _).bind fun _ => spares_pure _

theorem spares_isPresent (h : l.executor.Spares l.table see) : Action.Spares see l.isPresent := by
  have hstatement : LedgerQuery.statement l.executor.dialect l.table .presence =
      .ok (l.executor.dialect.hasTable (l.schema.compiler.tableName l.table)) := by
    simp [LedgerQuery.statement, SchemaCompiler.tableName, Schema.compiler, schema]
  refine (spares_fetchValue h .presence hstatement).bind fun v => ?_
  split
  · exact spares_pure _
  · exact spares_pure _

theorem spares_fetch (h : l.executor.Spares l.table see) (k : LedgerQuery) {q : Query}
    (hk : LedgerQuery.statement l.executor.dialect l.table k =
      (q.select LedgerQuery.columns).toSql l.executor.dialect) :
    Action.Spares see (l.fetch q) :=
  (spares_get h k hk).bind fun _ => spares_ofExcept fun _ _ => trivial

theorem spares_applied (h : l.executor.Spares l.table see) : Action.Spares see l.applied :=
  spares_fetch h .rows rfl

theorem spares_appliedIds (h : l.executor.Spares l.table see) : Action.Spares see l.appliedIds :=
  (spares_applied h).bind fun _ => spares_pure _

theorem spares_lastBatchNumber (h : l.executor.Spares l.table see) :
    Action.Spares see l.lastBatchNumber := by
  have haggregate : Action.Spares see (l.queries.aggregate l.query .max "batch") :=
    spares_ofExcept_bind (fun _ hs => (spares_fetchValue h .highest hs).bind fun _ => spares_pure _)
      fun _ _ => trivial
  refine haggregate.bind fun v => ?_
  split
  · exact spares_pure _
  · exact spares_pure _
  · exact spares_pure _

theorem spares_nextBatchNumber (h : l.executor.Spares l.table see) :
    Action.Spares see l.nextBatchNumber :=
  (spares_lastBatchNumber h).bind fun _ => spares_pure _

theorem spares_targets (h : l.executor.Spares l.table see) (scope : Scope) :
    Action.Spares see (Migrator.targets l scope) := by
  cases scope with
  | lastBatch =>
      refine Spares.bind ((spares_lastBatchNumber h).bind fun batch => ?_) fun _ => spares_pure _
      split
      · exact spares_pure _
      · exact spares_fetch h (.batch batch) rfl
  | steps n => exact spares_fetch h (.newest n) rfl
  | all => exact (spares_applied h).bind fun _ => spares_pure _

theorem spares_ensure (h : l.executor.Spares l.table see) : Action.Spares see l.ensure := by
  refine (spares_isPresent h).bind fun present => ?_
  split
  · exact spares_pure ()
  have hplain : (l.blueprint.changesColumns && l.schema.executor.dialect.rebuildsTables) = false := rfl
  unfold Schema.blueprint
  simp only [hplain, Bool.false_eq_true, if_false]
  refine spares_ofExcept_bind (fun statements hstatements => ?_) fun _ _ => trivial
  exact spares_forM statements fun sql hsql =>
    (h.creates l rfl rfl statements hstatements sql hsql).discard

theorem spares_record (h : l.executor.Spares l.table see) (id : String) (batch : Int64) :
    Action.Spares see (l.record id batch) :=
  Spares.discard (spares_ofExcept_bind
    (fun s hs => h.inserts ⟨id, batch, (Stamp.ofInstant l.now l.offset).text⟩ s hs)
    fun _ _ => trivial)

theorem spares_remove (h : l.executor.SparesFor l.table see .down) (id : String) :
    Action.Spares see (l.remove id) :=
  Spares.discard (spares_ofExcept_bind (fun s hs => h.2 id s hs) fun _ _ => trivial)

theorem spares_readStanding (h : l.executor.Spares l.table see) (name : String) :
    Action.Spares see (Migrator.readStanding l name) := by
  refine (spares_isPresent h).bind fun present => ?_
  split
  · exact (spares_appliedIds h).bind fun _ => (spares_nextBatchNumber h).bind fun _ =>
      spares_pure _
  · exact spares_pure _

end Ledger

end Relational
