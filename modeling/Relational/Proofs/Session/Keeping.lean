import Relational.Proofs.Action
import Relational.Session.Procedure
/-
Where an executor leads, everything above it leads.

Queries, schema changes and whole procedures reach the state through an executor and
in no other way.  `SchemaCall.MaySend` says which texts a call can hand to it.  If the
queries and statements with such texts lead along a preorder of states, then the call
does, whatever the answers are and wherever it fails.

The case used most is `Executor.Keeping`: no query and no statement touches what `see`
shows, so no procedure does.  This is what makes an open transaction a wall: its
executor keeps everything that is visible outside, hence so does a migration that runs
inside it.
-/
namespace Relational

open Action

variable {σ α δ : Type} {texts : String → Prop} {R : σ → σ → Prop} {see : σ → δ}

/-- Queries and statements with a text in `texts` lead along `R`. -/
structure Executor.LeadsOn (e : Executor σ) (texts : String → Prop) (R : σ → σ → Prop) : Prop where
  query : ∀ sql bindings, texts sql → Leads R (e.query sql bindings)
  execute : ∀ sql bindings, texts sql → Leads R (e.execute sql bindings)

/-- No query and no statement touches what `see` shows. -/
structure Executor.Keeping (e : Executor σ) (see : σ → δ) : Prop where
  query : ∀ sql bindings, Keeps see (e.query sql bindings)
  execute : ∀ sql bindings, Keeps see (e.execute sql bindings)

theorem Executor.Keeping.leadsOn {e : Executor σ} (h : e.Keeping see) :
    e.LeadsOn (fun _ => True) (Agree see) :=
  ⟨fun sql bindings _ => h.query sql bindings, fun sql bindings _ => h.execute sql bindings⟩

/-! ### What may be sent -/

/-- The text of a statement that compiles. -/
def IsText {ε : Type} (statement : Except ε Statement) (sql : String) : Prop :=
  ∃ s, statement = .ok s ∧ s.sql = sql

/-- One of the texts of a change that compiles. -/
def HasText {ε : Type} (statements : Except ε (List String)) (sql : String) : Prop :=
  ∃ texts, statements = .ok texts ∧ sql ∈ texts

/-- The blueprint is carried out by building its table anew. -/
def Blueprint.Rebuilds (b : Blueprint) (d : Dialect) : Prop :=
  (b.changesColumns && d.rebuildsTables) = true

instance (b : Blueprint) (d : Dialect) : Decidable (b.Rebuilds d) :=
  inferInstanceAs (Decidable (_ = true))

namespace Schema

/-- The query for the stored definition of a table. -/
def AsksDefinition (s : Schema σ) (table sql : String) : Prop :=
  ∃ statement, s.executor.dialect.tableDefinition (s.compiler.tableName table) = some statement ∧
    statement.sql = sql

/-- A text of the script that builds a blueprint's table anew, by some stored definition, or of what
gives it up. -/
def RebuildHas (s : Schema σ) (b : Blueprint) (sql : String) : Prop :=
  (∃ snapshot, HasText ({ s.compiler with snapshot }.compile b) sql) ∨
    sql ∈ s.executor.dialect.abandonRebuild

/-- A text of the script that drops some tables. -/
def WipeHas (s : Schema σ) (sql : String) : Prop :=
  ∃ names : List String, sql ∈ s.executor.dialect.disableForeignKeys.toList ++
    names.map s.executor.dialect.dropTableForWipe ++ s.executor.dialect.enableForeignKeys.toList

end Schema

namespace SchemaCall

/-- The blueprint that a call carries out by building its table anew, if it does. -/
def rebuilt? (d : Dialect) : SchemaCall → Option Blueprint
  | blueprint b => if b.Rebuilds d then some b else none
  | _ => none

theorem of_rebuilt? {c : SchemaCall} {d : Dialect} {b : Blueprint} (h : c.rebuilt? d = some b) :
    c = .blueprint b ∧ b.Rebuilds d := by
  cases c with
  | blueprint own =>
      obtain ⟨hrebuilds, hown⟩ := Option.ite_none_right_eq_some.mp h
      cases hown
      exact ⟨rfl, hrebuilds⟩
  | _ => cases h

end SchemaCall

/-- The texts that a call can hand to its executor, whatever the answers are. -/
def SchemaCall.MaySend (s : Schema σ) (sql : String) : SchemaCall → Prop
  | blueprint b =>
    if b.Rebuilds s.executor.dialect then s.AsksDefinition b.table sql ∨ s.RebuildHas b sql
    else HasText (s.compiler.compile b) sql
  | apply operation => HasText (s.compiler.compileOperation operation) sql
  | run plan => HasText (s.compiler.compilePlan plan) sql
  | statement own => own = sql
  | hasTable table => (s.executor.dialect.hasTable (s.compiler.tableName table)).sql = sql
  | hasColumn table column =>
    (s.executor.dialect.hasColumn (s.compiler.tableName table) column).sql = sql
  | tables => s.executor.dialect.listTables = sql
  | dropAll => s.executor.dialect.listTables = sql ∨ s.WipeHas sql
  | snapshot table => s.AsksDefinition table sql
  | get q => IsText (q.toSql s.executor.dialect) sql
  | first q | hasRows q => IsText ((q.take 1).toSql s.executor.dialect) sql
  | value q column => IsText (((q.select [column]).take 1).toSql s.executor.dialect) sql
  | aggregate q function column =>
    IsText ((q.reorder.withoutLimits.aggregateOf function column).toSql s.executor.dialect) sql
  | count q => IsText (q.toCountSql s.executor.dialect) sql
  | insert q rows => IsText (q.insertSql s.executor.dialect rows) sql
  | update q values => IsText (q.updateSql s.executor.dialect values) sql
  | delete q => IsText (q.deleteSql s.executor.dialect) sql
  | page q pager =>
    IsText (q.toCountSql s.executor.dialect) sql ∨
      IsText ((pager.apply q).toSql s.executor.dialect) sql
  | pageAfter q pager token =>
    ∃ past, pager.apply q token = .ok past ∧ IsText (past.toSql s.executor.dialect) sql

section Leads

variable [IsPreorder σ R]

namespace Executor

variable {e : Executor σ}

theorem LeadsOn.fetchValue (h : e.LeadsOn texts R) (s : Statement) (hs : texts s.sql) :
    Leads R (e.fetchValue s) :=
  ((h.query s.sql s.bindings hs).bind fun _ => leads_pure _).bind fun _ => leads_pure _

theorem LeadsOn.executeText (h : e.LeadsOn texts R) {sql : String} (hs : texts sql) :
    Leads R (e.executeText sql) :=
  (h.execute sql [] hs).discard

theorem LeadsOn.executeAll (h : e.LeadsOn texts R) {statements : List String}
    (hs : ∀ sql ∈ statements, texts sql) : Leads R (e.executeAll statements) :=
  leads_forM statements fun sql hsql => h.executeText (hs sql hsql)

theorem LeadsOn.executeScript (h : e.LeadsOn texts R) {statements recover : List String}
    (hs : ∀ sql ∈ statements, texts sql) (hrecover : ∀ sql ∈ recover, texts sql) :
    Leads R (e.executeScript statements recover) :=
  (h.executeAll hs).tryCatch fun failure =>
    (leads_forM recover fun sql hsql => (h.executeText (hrecover sql hsql)).regardless).bind
      fun _ => leads_throw failure

end Executor

/-! ### Queries -/

namespace QueryRunner

variable {r : QueryRunner σ}

theorem leads_get (h : r.executor.LeadsOn texts R) (q : Query)
    (hs : ∀ sql, IsText (q.toSql r.executor.dialect) sql → texts sql) : Leads R (r.get q) :=
  leads_ofExcept_bind fun s hq => (h.query s.sql s.bindings (hs _ ⟨s, hq, rfl⟩)).bind fun _ =>
    leads_pure _

theorem leads_fetchValue (h : r.executor.LeadsOn texts R) {statement : Except QueryError Statement}
    (hs : ∀ sql, IsText statement sql → texts sql) (f : Option Value → α) :
    Leads R (compiled statement >>= fun s => r.executor.fetchValue s >>= fun v => pure (f v)) :=
  leads_ofExcept_bind fun s hq => (h.fetchValue s (hs _ ⟨s, hq, rfl⟩)).bind fun _ => leads_pure _

/-- Every write compiles a statement and executes it. -/
theorem leads_write (h : r.executor.LeadsOn texts R) {statement : Except QueryError Statement}
    (hs : ∀ sql, IsText statement sql → texts sql) :
    Leads R (compiled statement >>= fun s => r.executor.execute s.sql s.bindings) :=
  leads_ofExcept_bind fun s hq => h.execute s.sql s.bindings (hs _ ⟨s, hq, rfl⟩)

end QueryRunner

/-! ### Schema changes -/

namespace Schema

variable {s : Schema σ}

/-- Every plain change compiles statements and runs them in order. -/
theorem leads_change (h : s.executor.LeadsOn texts R)
    {statements : Except SchemaError (List String)}
    (hs : ∀ sql, HasText statements sql → texts sql) :
    Leads R (compiled statements >>= fun statements => s.executor.executeAll statements) :=
  leads_ofExcept_bind fun own hown => h.executeAll fun sql hsql => hs sql ⟨own, hown, hsql⟩

theorem leads_snapshot (h : s.executor.LeadsOn texts R) {table : String}
    (hs : ∀ sql, s.AsksDefinition table sql → texts sql) : Leads R (s.snapshot table) := by
  unfold snapshot
  dsimp only
  split
  · exact leads_pure _
  · rename_i statement hstatement
    refine (h.query statement.sql statement.bindings (hs _ ⟨statement, hstatement, rfl⟩)).bind
      fun rows => ?_
    split
    · exact leads_pure _
    · exact (leads_ofExcept _ _).map _

theorem blueprint_of_rebuilds {b : Blueprint} (h : b.Rebuilds s.executor.dialect) :
    s.blueprint b = (do
      let snapshot ← s.snapshot b.table
      let statements ← compiled (({ s.compiler with snapshot }).compile b)
      s.executor.executeScript statements s.executor.dialect.abandonRebuild) :=
  if_pos h

theorem blueprint_of_not_rebuilds {b : Blueprint} (h : ¬ b.Rebuilds s.executor.dialect) :
    s.blueprint b = (do s.executor.executeAll (← compiled (s.compiler.compile b))) :=
  if_neg h

theorem leads_blueprint (h : s.executor.LeadsOn texts R) {b : Blueprint}
    (hs : ∀ sql, (SchemaCall.blueprint b).MaySend s sql → texts sql) :
    Leads R (s.blueprint b) := by
  by_cases hrebuilds : b.Rebuilds s.executor.dialect
  · simp only [SchemaCall.MaySend, if_pos hrebuilds] at hs
    rw [blueprint_of_rebuilds hrebuilds]
    refine (leads_snapshot h fun sql hsql => hs sql (.inl hsql)).bind fun snapshot => ?_
    refine leads_ofExcept_bind fun statements hstatements => h.executeScript ?_ ?_
    · exact fun sql hsql => hs sql (.inr (.inl ⟨snapshot, statements, hstatements, hsql⟩))
    · exact fun sql hsql => hs sql (.inr (.inr hsql))
  · simp only [SchemaCall.MaySend, if_neg hrebuilds] at hs
    rw [blueprint_of_not_rebuilds hrebuilds]
    exact leads_change h hs

theorem leads_countsAny (h : s.executor.LeadsOn texts R) {statement : Statement}
    (hs : texts statement.sql) : Leads R (s.countsAny statement) := by
  refine (h.fetchValue statement hs).bind fun v => ?_
  split
  · exact leads_pure _
  · exact leads_pure _

theorem leads_tables (h : s.executor.LeadsOn texts R) (hs : texts s.executor.dialect.listTables) :
    Leads R s.tables :=
  (h.query _ _ hs).bind fun _ => leads_pure _

theorem leads_dropAll (h : s.executor.LeadsOn texts R)
    (hs : ∀ sql, SchemaCall.dropAll.MaySend s sql → texts sql) : Leads R s.dropAll := by
  refine (leads_tables h (hs _ (.inl rfl))).bind fun names => Leads.bind ?_ fun _ => leads_pure _
  refine h.executeScript (fun sql hsql => hs sql (.inr ⟨names, hsql⟩)) fun sql hsql => ?_
  exact hs sql (.inr ⟨[], List.mem_append_right _ hsql⟩)

end Schema

/-! ### Procedures -/

/-- A call leads where its texts lead. -/
theorem SchemaCall.leads_perform {s : Schema σ} (h : s.executor.LeadsOn texts R) (c : SchemaCall)
    (hs : ∀ sql, c.MaySend s sql → texts sql) : Leads R (c.perform s) := by
  cases c with
  | blueprint b => exact Schema.leads_blueprint h hs
  | apply operation => exact Schema.leads_change h hs
  | run plan => exact Schema.leads_change h hs
  | statement sql => exact h.execute sql [] (hs sql rfl)
  | hasTable table => exact Schema.leads_countsAny h (hs _ rfl)
  | hasColumn table column => exact Schema.leads_countsAny h (hs _ rfl)
  | tables => exact Schema.leads_tables h (hs _ rfl)
  | dropAll => exact Schema.leads_dropAll h hs
  | snapshot table => exact Schema.leads_snapshot h hs
  | get q => exact QueryRunner.leads_get (r := s.queries) h q hs
  | first q =>
      exact (QueryRunner.leads_get (r := s.queries) h (q.take 1) hs).bind fun _ => leads_pure _
  | hasRows q =>
      refine Leads.bind ?_ fun _ => leads_pure _
      exact (QueryRunner.leads_get (r := s.queries) h (q.take 1) hs).bind fun _ => leads_pure _
  | value q column =>
      refine Leads.bind ?_ fun _ => leads_pure _
      exact (QueryRunner.leads_get (r := s.queries) h ((q.select [column]).take 1) hs).bind
        fun _ => leads_pure _
  | aggregate q function column => exact QueryRunner.leads_fetchValue h hs _
  | count q => exact QueryRunner.leads_fetchValue h hs _
  | insert q rows => exact QueryRunner.leads_write h hs
  | update q values => exact QueryRunner.leads_write h hs
  | delete q => exact QueryRunner.leads_write h hs
  | page q pager =>
      refine (QueryRunner.leads_fetchValue h (fun sql hsql => hs sql (.inl hsql)) _).bind fun _ => ?_
      refine Leads.bind ?_ fun _ => leads_pure _
      exact QueryRunner.leads_get (r := s.queries) h (pager.apply q) fun sql hsql =>
        hs sql (.inr hsql)
  | pageAfter q pager token =>
      refine leads_ofExcept_bind fun past hpast => Leads.bind ?_ fun _ => leads_ofExcept _ _
      exact QueryRunner.leads_get h past fun sql hsql => hs sql ⟨past, hpast, hsql⟩

/-- A procedure leads where all texts lead, whatever it asks for. -/
theorem Procedure.leads_perform {s : Schema σ} (h : s.executor.LeadsOn (fun _ => True) R)
    (p : Procedure α) : Leads R (p.perform s) := by
  induction p with
  | done a => exact leads_pure a
  | fail failure => exact leads_throw failure
  | call c next ih => exact (c.leads_perform h fun _ _ => trivial).bind fun answer => ih answer

end Leads

/-! ### What is kept -/

section Keeps

theorem QueryRunner.keeps_get {r : QueryRunner σ} (h : r.executor.Keeping see) (q : Query) :
    Keeps see (r.get q) :=
  leads_get h.leadsOn q fun _ _ => trivial

theorem QueryRunner.keeps_aggregate {r : QueryRunner σ} (h : r.executor.Keeping see) (q : Query)
    (function : Aggregate) (column : String) : Keeps see (r.aggregate q function column) :=
  leads_fetchValue h.leadsOn (fun _ _ => trivial) _

theorem QueryRunner.keeps_write {r : QueryRunner σ} (h : r.executor.Keeping see)
    (s : Except QueryError Statement) :
    Keeps see (compiled s >>= fun s => r.executor.execute s.sql s.bindings) :=
  leads_write h.leadsOn fun _ _ => trivial

variable {s : Schema σ}

theorem Schema.keeps_blueprint (h : s.executor.Keeping see) (b : Blueprint) :
    Keeps see (s.blueprint b) :=
  leads_blueprint h.leadsOn fun _ _ => trivial

theorem Schema.keeps_countsAny (h : s.executor.Keeping see) (statement : Statement) :
    Keeps see (s.countsAny statement) :=
  leads_countsAny h.leadsOn trivial

theorem Schema.keeps_tables (h : s.executor.Keeping see) : Keeps see s.tables :=
  leads_tables h.leadsOn trivial

/-- A procedure keeps what its executor keeps, whatever it asks for. -/
theorem Procedure.keeps_perform (h : s.executor.Keeping see) (p : Procedure α) :
    Keeps see (p.perform s) :=
  leads_perform h.leadsOn p

end Keeps

end Relational
