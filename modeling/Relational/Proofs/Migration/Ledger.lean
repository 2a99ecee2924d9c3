import Relational.Proofs.Migration.Database
/-
A ledger on an executor that serves it.

One statement for each operation of a ledger, about the database the executor's
statements act on.  Reading leaves it as it is and returns what is stored, writing
adds or removes rows, and whatever fails changes nothing.  Nothing else here or above
looks at the statements a ledger runs.
-/
namespace Relational

open Action

variable {σ δ : Type} {le : String → String → Bool} {see : σ → Database}

/-- The row as it is read. -/
def LedgerRow.read (r : LedgerRow) : AppliedUnit :=
  ⟨r.identifier, r.batch, Stamp.ofText? r.appliedAt⟩

namespace AppliedUnit

/-- A stored row reads back. -/
theorem ofRow_row (r : LedgerRow) : ofRow r.row = .ok r.read := rfl

theorem mapM_ofRow (rows : List LedgerRow) :
    (rows.map LedgerRow.row).mapM ofRow = .ok (rows.map LedgerRow.read) := by
  induction rows with
  | nil => rfl
  | cons r rest ih =>
      rw [List.map_cons, List.mapM_cons, ofRow_row, ih]
      rfl

/-- Of a later batch, or of the same batch and with no earlier name. -/
def NotOlder (a b : AppliedUnit) : Prop :=
  b.batch < a.batch ∨ a.batch = b.batch ∧ ¬a.identifier < b.identifier

theorem newestFirst_perm (units : List AppliedUnit) : (newestFirst units).Perm units :=
  List.mergeSort_perm units _

theorem pairwise_newestFirst (units : List AppliedUnit) :
    (newestFirst units).Pairwise NotOlder := by
  have hpairwise := @List.pairwise_mergeSort AppliedUnit (fun a b =>
      decide (b.batch < a.batch) || (a.batch == b.batch && !decide (a.identifier < b.identifier)))
    ?_ ?_ units
  · exact hpairwise.imp fun h => by simpa [NotOlder] using h
  · intro a b c hab hbc
    simp only [Bool.or_eq_true, Bool.and_eq_true, Bool.not_eq_true', decide_eq_true_eq,
      decide_eq_false_iff_not, beq_iff_eq, String.not_lt] at *
    rcases hab with hab | ⟨hab, hab'⟩
    · rcases hbc with hbc | ⟨hbc, -⟩
      · exact .inl (Int64.lt_trans hbc hab)
      · exact .inl (hbc ▸ hab)
    · rcases hbc with hbc | ⟨hbc, hbc'⟩
      · exact .inl (hab ▸ hbc)
      · exact .inr ⟨hab.trans hbc, String.le_trans hbc' hab'⟩
  · intro a b
    simp only [Bool.or_eq_true, Bool.and_eq_true, Bool.not_eq_true', decide_eq_true_eq,
      decide_eq_false_iff_not, beq_iff_eq, String.not_lt]
    by_cases hab : a.batch = b.batch
    · rcases String.le_total a.identifier b.identifier with h | h
      · exact .inr (.inr ⟨hab.symm, h⟩)
      · exact .inl (.inr ⟨hab, h⟩)
    · by_cases hle : a.batch ≤ b.batch
      · exact .inr (.inl (Int64.lt_of_le_of_ne hle hab))
      · exact .inl (.inl (Int64.not_le.mp hle))

end AppliedUnit

/-- What a scope takes of the rows of a ledger, in that order. -/
def Scope.Picks (le : String → String → Bool) : Scope → List LedgerRow → List AppliedUnit → Prop
  | lastBatch, stored, picked =>
    picked.Perm ((stored.filter fun r =>
      LedgerRow.lastBatch stored ≠ 0 ∧ r.batch = LedgerRow.lastBatch stored).map LedgerRow.read) ∧
    picked.Pairwise AppliedUnit.NotOlder
  | steps n, stored, picked =>
    ∃ listed : List LedgerRow, listed.Perm stored ∧
      listed.Pairwise (fun a b => LedgerRow.Precedes le b a) ∧
      picked = (listed.take n.toNat).map LedgerRow.read
  | all, stored, picked =>
    picked.Perm (stored.map LedgerRow.read) ∧ picked.Pairwise AppliedUnit.NotOlder

theorem Scope.picks_nil (le : String → String → Bool) (scope : Scope) : scope.Picks le [] [] := by
  cases scope with
  | lastBatch => exact ⟨.refl _, .nil⟩
  | steps n => exact ⟨[], .refl _, .nil, by simp⟩
  | all => exact ⟨.refl _, .nil⟩

namespace Ledger

variable {l : Ledger σ} {db : Database}

/-! ### Reading -/

/-- A query of the ledger's own leaves the database as it is and gets its answer. -/
theorem ensures_get (h : l.executor.Serves l.table le see) (k : LedgerQuery) {q : Query}
    (hk : LedgerQuery.statement l.executor.dialect l.table k = q.toSql l.executor.dialect) :
    Ensures (see · = db) (l.queries.get q)
      (fun answer t => see t = db ∧ k.Answered le db.ledger answer) (fun _ t => see t = db) :=
  ensures_ofExcept_bind
    (fun s hs => (h.reads k s (hk.trans hs) db).bind fun _ => ensures_pure fun _ ht => ht)
    (fun _ _ hs => hs)

/-- Rows that are fetched are those of the answer, read one by one. -/
theorem ensures_fetch (h : l.executor.Serves l.table le see) (k : LedgerQuery) {q : Query}
    (hk : LedgerQuery.statement l.executor.dialect l.table k =
      (q.select LedgerQuery.columns).toSql l.executor.dialect) :
    Ensures (see · = db) (l.fetch q)
      (fun units t => see t = db ∧ ∃ answer, k.Answered le db.ledger answer ∧
        answer.mapM AppliedUnit.ofRow = .ok units) (fun _ t => see t = db) := by
  refine (ensures_get h k hk).bind fun answer => ensures_ofExcept ?_ fun _ _ _ ht => ht.1
  intro units hunits t ht
  exact ⟨ht.1, answer, ht.2, hunits⟩

/-- The first value of an answer. -/
theorem ensures_firstValue {e : Executor σ} {s : Statement} {pre post : σ → Prop}
    {good : List Row → Prop} {failed : Failure → σ → Prop}
    (h : Ensures pre (e.query s.sql s.bindings) (fun answer t => post t ∧ good answer) failed) :
    Ensures pre (e.fetchValue s)
      (fun v t => post t ∧ ∃ answer, good answer ∧ v = answer.head?.bind Row.first?) failed := by
  have hrow : Ensures pre (e.fetchRow s)
      (fun row t => post t ∧ ∃ answer, good answer ∧ row = answer.head?) failed :=
    h.bind fun answer => ensures_pure fun _ ht => ⟨ht.1, answer, ht.2, rfl⟩
  refine hrow.bind fun row => ensures_pure ?_
  rintro t ⟨ht, answer, hanswer, rfl⟩
  exact ⟨ht, answer, hanswer, rfl⟩

/-- The first value of the answer to a query of the ledger's own. -/
theorem ensures_fetchValue (h : l.executor.Serves l.table le see) (k : LedgerQuery)
    {s : Statement} (hs : LedgerQuery.statement l.executor.dialect l.table k = .ok s) :
    Ensures (see · = db) (l.executor.fetchValue s)
      (fun v t => see t = db ∧ ∃ answer, k.Answered le db.ledger answer ∧
        v = answer.head?.bind Row.first?) (fun _ t => see t = db) :=
  ensures_firstValue (h.reads k s hs db)

/-- Whether there is a table is told by the answer to that question. -/
theorem ensures_isPresent_of {pre post : σ → Prop} {ledger : Option (List LedgerRow)}
    {failed : Failure → σ → Prop} {s : Statement}
    (hs : LedgerQuery.statement l.executor.dialect l.table .presence = .ok s)
    (h : Ensures pre (l.executor.query s.sql s.bindings)
      (fun answer t => post t ∧ LedgerQuery.presence.Answered le ledger answer) failed) :
    Ensures pre l.isPresent (fun b t => post t ∧ b = ledger.isSome) failed := by
  have hstatement : s = l.executor.dialect.hasTable (l.schema.compiler.tableName l.table) := by
    cases hs
    simp [SchemaCompiler.tableName, Schema.compiler, schema]
  rw [hstatement] at h
  refine (ensures_firstValue h).bind fun v => Ensures.of_imp ?_
  rintro ⟨answer, ⟨n, hfirst, hn⟩, rfl⟩
  rw [hfirst]
  refine ensures_pure fun t ht => ⟨ht, ?_⟩
  rw [Bool.eq_iff_iff, ← hn]
  simp

theorem ensures_isPresent (h : l.executor.Serves l.table le see) :
    Ensures (see · = db) l.isPresent
      (fun b t => see t = db ∧ b = db.ledger.isSome) (fun _ t => see t = db) :=
  ensures_isPresent_of rfl (h.reads .presence _ rfl db)

theorem ensures_applied (h : l.executor.Serves l.table le see) :
    Ensures (see · = db) l.applied
      (fun units t => see t = db ∧ units.Perm (db.rows.map LedgerRow.read))
      (fun _ t => see t = db) := by
  refine (ensures_fetch h .rows rfl).weaken (fun _ hs => hs) ?_ (fun _ _ hs => hs)
  rintro units t ⟨ht, answer, hanswer, hread⟩
  refine ⟨ht, ?_⟩
  cases hledger : db.ledger with
  | none => simp [hledger, LedgerQuery.Answered] at hanswer
  | some stored =>
      simp only [hledger, LedgerQuery.Answered] at hanswer
      obtain ⟨listed, hperm, -, rfl⟩ := hanswer
      rw [AppliedUnit.mapM_ofRow] at hread
      cases hread
      rw [Database.rows, hledger]
      exact hperm.map LedgerRow.read

theorem ensures_appliedIds (h : l.executor.Serves l.table le see) :
    Ensures (see · = db) l.appliedIds
      (fun ids t => see t = db ∧ ids.Perm db.recorded) (fun _ t => see t = db) := by
  refine (ensures_applied h).bind fun units => ensures_pure ?_
  rintro t ⟨ht, hperm⟩
  refine ⟨ht, ?_⟩
  simpa [Database.recorded, LedgerRow.read, Function.comp_def] using hperm.map (·.identifier)

/-- The number of the last batch is read without a change to the database. -/
theorem ensures_lastBatchNumber (h : l.executor.Serves l.table le see) :
    Ensures (see · = db) l.lastBatchNumber
      (fun n t => see t = db ∧ n = LedgerRow.lastBatch db.rows) (fun _ t => see t = db) := by
  have haggregate : Ensures (see · = db) (l.queries.aggregate l.query .max "batch")
      (fun v t => see t = db ∧ ∃ stored, db.ledger = some stored ∧
        v = (stored.map (·.batch)).max?.map Value.int) (fun _ t => see t = db) := by
    refine ensures_ofExcept_bind (fun s hs => ?_) (fun _ _ hs => hs)
    refine (ensures_fetchValue h .highest hs).bind fun v => ensures_pure ?_
    rintro t ⟨ht, answer, hanswer, rfl⟩
    cases hledger : db.ledger with
    | none => simp [hledger, LedgerQuery.Answered] at hanswer
    | some stored =>
        simp only [hledger, LedgerQuery.Answered] at hanswer
        refine ⟨ht, stored, rfl, ?_⟩
        rw [hanswer, LedgerQuery.maxBatch]
        cases (stored.map (·.batch)).max? <;> rfl
  refine haggregate.bind fun v => Ensures.of_imp ?_
  rintro ⟨stored, hledger, rfl⟩
  have hrows : db.rows = stored := by simp [Database.rows, hledger]
  rw [hrows, LedgerRow.lastBatch]
  cases (stored.map (·.batch)).max? with
  | none => exact ensures_pure fun _ ht => ⟨ht, rfl⟩
  | some n => exact ensures_pure fun _ ht => ⟨ht, rfl⟩

theorem ensures_nextBatchNumber (h : l.executor.Serves l.table le see) :
    Ensures (see · = db) l.nextBatchNumber
      (fun n t => see t = db ∧ n = LedgerRow.lastBatch db.rows + 1) (fun _ t => see t = db) := by
  refine (ensures_lastBatchNumber h).bind fun n => ensures_pure ?_
  rintro t ⟨ht, rfl⟩
  exact ⟨ht, rfl⟩

theorem ensures_lastBatch (h : l.executor.Serves l.table le see) :
    Ensures (see · = db) l.lastBatch
      (fun units t => see t = db ∧ units.Perm ((db.rows.filter fun r =>
        LedgerRow.lastBatch db.rows ≠ 0 ∧ r.batch = LedgerRow.lastBatch db.rows).map LedgerRow.read))
      (fun _ t => see t = db) := by
  refine (ensures_lastBatchNumber h).bind fun batch => Ensures.of_imp ?_
  rintro rfl
  split
  · rename_i hzero
    exact ensures_pure fun _ ht => ⟨ht, by simp [hzero]⟩
  · rename_i hnonzero
    refine (ensures_fetch h (.batch (LedgerRow.lastBatch db.rows)) rfl).weaken (fun _ hs => hs) ?_
      (fun _ _ hs => hs)
    rintro units t ⟨ht, answer, hanswer, hread⟩
    refine ⟨ht, ?_⟩
    cases hledger : db.ledger with
    | none => simp [hledger, LedgerQuery.Answered] at hanswer
    | some stored =>
        have hrows : db.rows = stored := by simp [Database.rows, hledger]
        simp only [hledger, LedgerQuery.Answered] at hanswer
        obtain ⟨listed, hperm, -, rfl⟩ := hanswer
        rw [AppliedUnit.mapM_ofRow] at hread
        cases hread
        simp only [hrows] at hperm hnonzero ⊢
        simpa [hnonzero] using hperm.map LedgerRow.read

/-- Finding the rows that are to be reverted changes nothing. -/
theorem ensures_targets (h : l.executor.Serves l.table le see) (scope : Scope) :
    Ensures (see · = db) (Migrator.targets l scope)
      (fun picked t => see t = db ∧ scope.Picks le db.rows picked) (fun _ t => see t = db) := by
  have hsorted : ∀ {units : List AppliedUnit} {rows : List AppliedUnit}, units.Perm rows →
      (AppliedUnit.newestFirst units).Perm rows ∧
        (AppliedUnit.newestFirst units).Pairwise AppliedUnit.NotOlder :=
    fun hperm => ⟨(AppliedUnit.newestFirst_perm _).trans hperm, AppliedUnit.pairwise_newestFirst _⟩
  cases scope with
  | lastBatch => exact (ensures_lastBatch h).bind fun _ => ensures_pure fun _ ht =>
      ⟨ht.1, hsorted ht.2⟩
  | all => exact (ensures_applied h).bind fun _ => ensures_pure fun _ ht => ⟨ht.1, hsorted ht.2⟩
  | steps n =>
      refine (ensures_fetch h (.newest n) rfl).weaken (fun _ hs => hs) ?_ (fun _ _ hs => hs)
      rintro units t ⟨ht, answer, hanswer, hread⟩
      refine ⟨ht, ?_⟩
      cases hledger : db.ledger with
      | none => simp [hledger, LedgerQuery.Answered] at hanswer
      | some stored =>
          simp only [hledger, LedgerQuery.Answered] at hanswer
          obtain ⟨listed, hperm, hordered, rfl⟩ := hanswer
          rw [AppliedUnit.mapM_ofRow] at hread
          cases hread
          rw [Database.rows, hledger]
          exact ⟨listed, hperm, hordered, rfl⟩

/-! ### Writing -/

/-- Making the table adds no row and removes none, wherever it fails. -/
theorem ensures_ensure (h : l.executor.Serves l.table le see) :
    Ensures (see · = db) l.ensure (fun _ t => db.SameContent (see t))
      (fun _ t => db.SameContent (see t)) := by
  refine ((ensures_isPresent h).weaken (fun _ hs => hs) (fun _ _ ht => ht)
    (fun _ t (ht : see t = db) => ht ▸ .refl db)).bind fun present => ?_
  split
  · exact ensures_pure fun t ht => ht.1 ▸ .refl db
  have hplain : (l.blueprint.changesColumns && l.schema.executor.dialect.rebuildsTables) = false := rfl
  unfold Schema.blueprint
  simp only [hplain, Bool.false_eq_true, if_false]
  refine ensures_ofExcept_bind (fun statements hstatements => ?_) (fun _ t ht => ht.1 ▸ .refl db)
  -- Every statement so far has kept the content, and so does the next one.
  refine (ensures_forM statements fun sql hsql => ?_).weaken
    (fun t ht => (ht.1 ▸ .refl db : db.SameContent (see t))) (fun _ _ ht => ht) (fun _ _ ht => ht)
  refine Ensures.discard ?_
  intro s hs
  refine (h.creates l rfl rfl statements hstatements sql hsql (see s)).weaken (fun _ h => h)
    ?_ ?_ s rfl
  · rintro _ t (ht | ⟨hnone, ht⟩)
    · exact ht ▸ hs
    · refine hs.trans ⟨?_, ?_⟩
      · rw [ht]
        simp [Database.rows, hnone]
      · rw [ht]
  · intro _ t ht
    exact ht ▸ hs

/-- Noting a unit adds one row. -/
theorem ensures_record (h : l.executor.Serves l.table le see) (id : String) (batch : Int64) :
    Ensures (see · = db) (l.record id batch)
      (fun _ t => ∃ stored appliedAt, db.ledger = some stored ∧
        see t = { db with ledger := some (stored ++ [⟨id, batch, appliedAt⟩]) })
      (fun _ t => see t = db) := by
  refine Ensures.discard (ensures_ofExcept_bind (fun s hs => ?_) (fun _ _ hs => hs))
  refine (h.inserts ⟨id, batch, (Stamp.ofInstant l.now l.offset).text⟩ s hs db).weaken
    (fun _ hs => hs) ?_ (fun _ _ hs => hs)
  rintro _ t ⟨stored, hledger, ht⟩
  exact ⟨stored, _, hledger, ht⟩

/-- Noting that a unit is gone removes its rows. -/
theorem ensures_remove (h : l.executor.Serves l.table le see) (id : String) :
    Ensures (see · = db) (l.remove id)
      (fun _ t => ∃ stored, db.ledger = some stored ∧
        see t = { db with ledger := some (stored.filter (·.identifier ≠ id)) })
      (fun _ t => see t = db) :=
  Ensures.discard (ensures_ofExcept_bind (fun s hs => h.deletes id s hs db) (fun _ _ hs => hs))

/-! ### What a ledger keeps -/

theorem keeps_isPresent {view : σ → δ} (h : l.executor.Keeping view) : Keeps view l.isPresent :=
  Schema.keeps_countsAny h _

theorem keeps_ensure {view : σ → δ} (h : l.executor.Keeping view) : Keeps view l.ensure := by
  refine (keeps_isPresent h).bind fun present => ?_
  split
  · exact keeps_pure ()
  · exact Schema.keeps_blueprint h _

theorem keeps_fetch {view : σ → δ} (h : l.executor.Keeping view) (q : Query) :
    Keeps view (l.fetch q) :=
  (QueryRunner.keeps_get h _).bind fun _ => keeps_ofExcept _ _

theorem keeps_lastBatchNumber {view : σ → δ} (h : l.executor.Keeping view) :
    Keeps view l.lastBatchNumber := by
  refine (QueryRunner.keeps_aggregate h _ _ _).bind fun v => ?_
  split
  · exact keeps_pure _
  · exact keeps_pure _
  · exact keeps_pure _

theorem keeps_targets {view : σ → δ} (h : l.executor.Keeping view) (scope : Scope) :
    Keeps view (Migrator.targets l scope) := by
  cases scope with
  | lastBatch =>
      refine Keeps.bind ((keeps_lastBatchNumber h).bind fun batch => ?_) fun _ => keeps_pure _
      split
      · exact keeps_pure _
      · exact keeps_fetch h _
  | steps n => exact keeps_fetch h _
  | all => exact (keeps_fetch h _).bind fun _ => keeps_pure _

theorem keeps_record {view : σ → δ} (h : l.executor.Keeping view) (id : String) (batch : Int64) :
    Keeps view (l.record id batch) :=
  (QueryRunner.keeps_write (r := l.queries) h _).discard

theorem keeps_remove {view : σ → δ} (h : l.executor.Keeping view) (id : String) :
    Keeps view (l.remove id) :=
  (QueryRunner.keeps_write (r := l.queries) h _).discard

end Ledger

end Relational
