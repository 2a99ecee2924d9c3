import Relational.Proofs.Migration.Database
import Relational.Proofs.Migration.Traced
import Relational.Proofs.Migration.Rehearsal
import Relational.Proofs.Session.Verbs
/-
The switch for foreign keys inside a transaction.

A SQLite connection ignores the switch for foreign keys while a transaction is open.  Two
scripts turn it off and on: that of a rebuild, and the one that drops all tables.  They
are sent wherever a call for them is reached, so inside the transaction of a unit that has
one, too.  Nothing else that a unit asks for or its ledger is told is about the switch,
unless the unit is handed such a text itself.

Both directions compare the state behind a step with the one before it: the requests about
the switch stay the same along everything that is not a script, and no request is ever
lost along what follows one.
-/
namespace Relational

open Action SessionCommand

variable {σ α : Type}

/-! ### Requests about the switch -/

namespace Request

/-- The request goes through a transaction and is about the switch for foreign keys. -/
def switches : Request → Bool
  | query .transaction sql _ | execute .transaction sql _ => isSwitch sql
  | _ => false

/-- Foreign keys are turned off through a transaction. -/
def turnOff : Request :=
  execute .transaction "PRAGMA foreign_keys = OFF" []

theorem switches_turnOff : turnOff.switches = true := by
  decide

end Request

namespace Traced

/-- The requests about the switch. -/
abbrev switches (s : Traced σ) : List Request :=
  s.those Request.switches

theorem switches_ne_nil {s : Traced σ} : s.switches ≠ [] ↔ ∃ r ∈ s.requests, r.switches = true := by
  simp [those, List.filter_eq_nil_iff]

end Traced

open Traced (switches Grows)

/-- Texts that are not about the switch leave the requests about it as they are. -/
theorem Executor.traced_switches (e : Executor σ) :
    (e.traced .transaction).LeadsOn (fun sql => isSwitch sql = false) (Agree switches) where
  query _ _ hsql := keeps_tracing (List.forall_mem_singleton.mpr hsql) _
  execute _ _ hsql := keeps_tracing (List.forall_mem_singleton.mpr hsql) _

/-! ### Calls -/

namespace SchemaCall

/-- Made in state `r`, the call gets as far as to send a script that turns foreign keys off. -/
def TurnsOff (s : Schema σ) (r : σ) : SchemaCall → Prop
  | blueprint b => b.Rebuilds s.executor.dialect ∧ ∃ snapshot t statements,
      (s.snapshot b.table).outcome r = (.ok snapshot, t) ∧
      ({ s.compiler with snapshot }).compile b = .ok statements
  | dropAll => ∃ names t, s.tables.outcome r = (.ok names, t)
  | _ => False

variable {e : Executor σ} {s : Schema (Traced σ)} {c : SchemaCall} {r : Traced σ}

theorem leadsOn_switches (hs : s.executor = e.traced .transaction) :
    s.executor.LeadsOn (fun sql => isSwitch sql = false) (Agree switches) :=
  hs ▸ e.traced_switches

/-- A call that does not get as far as a script says nothing about the switch. -/
theorem switches_perform (hs : s.executor = e.traced .transaction) (hdialect : e.dialect = .sqlite)
    (hown : ∀ sql ∈ c.ownTexts, isSwitch sql = false) (h : ¬ c.TurnsOff s r) :
    ((c.perform s).outcome r).2.switches = r.switches := by
  have hsqlite : s.executor.dialect = .sqlite := by rw [hs]; exact hdialect
  have hleads := leadsOn_switches hs
  by_cases hall : c = .dropAll
  · subst hall
    have htables : Leads (Agree switches) s.tables :=
      Schema.leads_tables hleads (isSwitch_of_isPlain (hsqlite ▸ Dialect.isPlain_listTables))
    have hrun := htables r
    show ((s.tables >>= _).outcome r).2.switches = _
    rw [outcome_bind]
    rcases hnames : s.tables.outcome r with ⟨failure | names, q⟩
    · rw [hnames] at hrun
      exact hrun
    · exact absurd ⟨names, q, hnames⟩ h
  cases hrebuilt : c.rebuilt? s.executor.dialect with
  | none =>
      refine leads_perform hleads c (fun sql hsql => ?_) r
      by_cases hmem : sql ∈ c.ownTexts
      · exact hown sql hmem
      · exact isSwitch_of_isPlain (isPlain_of_maySend hsqlite hrebuilt hall hmem hsql)
  | some b =>
      obtain ⟨rfl, hrebuilds⟩ := of_rebuilt? hrebuilt
      have hsnapshot : Leads (Agree switches) (s.snapshot b.table) := by
        refine Schema.leads_snapshot hleads ?_
        rintro sql ⟨statement, hstatement, rfl⟩
        rw [hsqlite] at hstatement
        exact isSwitch_of_isPlain (Dialect.isPlain_tableDefinition hstatement)
      have hrun := hsnapshot r
      show ((s.blueprint b).outcome r).2.switches = _
      rw [Schema.blueprint_of_rebuilds hrebuilds, outcome_bind]
      rcases hfound : (s.snapshot b.table).outcome r with ⟨failure | snapshot, q⟩
      · rw [hfound] at hrun
        exact hrun
      · rw [hfound] at hrun
        cases hcompiled : ({ s.compiler with snapshot }).compile b with
        | error failure =>
            show ((Schema.compiled (({ s.compiler with snapshot }).compile b) >>= _).outcome
              q).2.switches = _
            rw [hcompiled]
            exact hrun
        | ok statements => exact absurd ⟨hrebuilds, snapshot, q, statements, hfound, hcompiled⟩ h

/-- A script is sent up to its first failure, so its first statement is sent in any case. -/
theorem mem_executeScript (hs : s.executor = e.traced .transaction) (sql : String)
    (rest recover : List String) :
    .execute .transaction sql [] ∈
      ((s.executor.executeScript (sql :: rest) recover).outcome r).2.requests := by
  have hgrows : s.executor.LeadsOn (fun _ => True) Grows := hs ▸ e.traced_grows .transaction
  have hfirst : .execute .transaction sql [] ∈
      ((s.executor.executeText sql).outcome r).2.requests := by
    rw [hs, e.requests_executeText]
    exact List.mem_append_right _ List.mem_cons_self
  have hrest : Leads Grows (s.executor.executeAll rest) := hgrows.executeAll fun _ _ => trivial
  have hall := (leads_behind_bind (s.executor.executeText sql) (fun _ => hrest) r).subset hfirst
  refine (leads_behind_tryCatch (R := Grows) (s.executor.executeAll (sql :: rest))
    (fun failure => ?_) r).subset hall
  exact (leads_forM recover fun text _ => (hgrows.executeText trivial).regardless).bind fun _ =>
    leads_throw failure

/-- A call that gets as far as a script turns foreign keys off. -/
theorem turnOff_mem_perform (hs : s.executor = e.traced .transaction) (hdialect : e.dialect = .sqlite)
    (h : c.TurnsOff s r) : Request.turnOff ∈ ((c.perform s).outcome r).2.requests := by
  have hsqlite : s.executor.dialect = .sqlite := by rw [hs]; exact hdialect
  have hgrows : s.executor.LeadsOn (fun _ => True) Grows := hs ▸ e.traced_grows .transaction
  cases c with
  | blueprint b =>
      obtain ⟨hrebuilds, snapshot, q, statements, hfound, hcompiled⟩ := h
      obtain ⟨definition, script, later, -, -, hscript, rfl⟩ := SchemaCompiler.compile_changes
        (k := { s.compiler with snapshot }) hsqlite hrebuilds.mode hrebuilds.changes_ne_nil hcompiled
      obtain ⟨-, items, -, rfl⟩ := Dialect.rebuildTable_eq_ok.mp hscript
      show Request.turnOff ∈ ((s.blueprint b).outcome r).2.requests
      rw [Schema.blueprint_of_rebuilds hrebuilds, outcome_bind, hfound]
      show Request.turnOff ∈ ((Schema.compiled (({ s.compiler with snapshot }).compile b) >>= _).outcome
        q).2.requests
      rw [hcompiled]
      exact mem_executeScript hs "PRAGMA foreign_keys = OFF" _ _
  | dropAll =>
      obtain ⟨names, q, hnames⟩ := h
      show Request.turnOff ∈ ((s.tables >>= _).outcome r).2.requests
      rw [outcome_bind, hnames]
      have hscript := mem_executeScript (r := q) hs "PRAGMA foreign_keys = OFF"
        (names.map s.executor.dialect.dropTableForWipe ++ s.executor.dialect.enableForeignKeys.toList)
        s.executor.dialect.enableForeignKeys.toList
      refine (leads_behind_bind (R := Grows) _ (fun _ => leads_pure names) q).subset ?_
      rw [hsqlite] at hscript ⊢
      exact hscript
  | _ => cases h

end SchemaCall

/-! ### Procedures -/

namespace Procedure

/-- Every call that the procedure can come to, whatever it is answered, is of a kind. -/
def Makes (kind : SchemaCall → Prop) : Procedure α → Prop
  | done _ | fail _ => True
  | call c next => kind c ∧ ∀ answer, (next answer).Makes kind

/-- Run from `r`, the procedure comes to make a call, and makes it in state `t`. -/
inductive Reaches (s : Schema σ) : Procedure α → σ → SchemaCall → σ → Prop
  | here {c : SchemaCall} {next : c.Answer → Procedure α} {r : σ} : Reaches s (.call c next) r c r
  | later {c : SchemaCall} {next : c.Answer → Procedure α} {r q t : σ} {answer : c.Answer}
      {reached : SchemaCall} (hanswer : (c.perform s).outcome r = (.ok answer, q))
      (hlater : Reaches s (next answer) q reached t) : Reaches s (.call c next) r reached t

variable {e : Executor σ} {s : Schema (Traced σ)}

theorem switches_perform (hs : s.executor = e.traced .transaction) (hdialect : e.dialect = .sqlite)
    {p : Procedure α} (hown : p.Makes fun c => ∀ sql ∈ c.ownTexts, isSwitch sql = false)
    {r : Traced σ} (h : ∀ c t, p.Reaches s r c t → ¬ c.TurnsOff s t) :
    ((p.perform s).outcome r).2.switches = r.switches := by
  induction p generalizing r with
  | done a => rfl
  | fail failure => rfl
  | call c next ih =>
      have hcall := SchemaCall.switches_perform hs hdialect hown.1 (h c r .here)
      rw [perform, outcome_bind]
      cases hrun : (c.perform s).outcome r with
      | mk result q =>
          rw [hrun] at hcall
          cases result with
          | error failure => exact hcall
          | ok answer =>
              have hlater := ih answer (hown.2 answer) fun reached t hreached =>
                h reached t (.later hrun hreached)
              exact hlater.trans hcall

theorem turnOff_mem_perform (hs : s.executor = e.traced .transaction) (hdialect : e.dialect = .sqlite)
    {p : Procedure α} {c : SchemaCall} {r t : Traced σ} (hreached : p.Reaches s r c t)
    (h : c.TurnsOff s t) : Request.turnOff ∈ ((p.perform s).outcome r).2.requests := by
  have hgrows : s.executor.LeadsOn (fun _ => True) Grows := by
    rw [hs]
    exact e.traced_grows .transaction
  induction hreached with
  | @here c next r =>
      have hcall := SchemaCall.turnOff_mem_perform hs hdialect h
      exact (leads_behind_bind (c.perform s)
        (fun answer => Procedure.leads_perform hgrows (next answer)) r).subset hcall
  | @later c next r q t answer reached hanswer hlater ih =>
      rw [perform, outcome_bind, hanswer]
      exact ih h

end Procedure

/-! ### Units -/

section Leads

variable {R : σ → σ → Prop} [IsPreorder σ R] {texts : String → Prop}

theorem Ledger.leads_record {l : Ledger σ} (h : l.executor.LeadsOn texts R)
    (hplain : ∀ sql, IsPlain sql → texts sql) (id : String) (batch : Int64) :
    Leads R (l.record id batch) := by
  refine Leads.discard (QueryRunner.leads_write (r := l.queries) h ?_)
  rintro sql ⟨statement, hstatement, rfl⟩
  exact hplain _ (Query.isPlain_insertSql hstatement)

theorem Ledger.leads_remove {l : Ledger σ} (h : l.executor.LeadsOn texts R)
    (hplain : ∀ sql, IsPlain sql → texts sql) (id : String) : Leads R (l.remove id) := by
  refine Leads.discard (QueryRunner.leads_write (r := l.queries) h ?_)
  rintro sql ⟨statement, hstatement, rfl⟩
  exact hplain _ (Query.isPlain_deleteSql hstatement)

namespace Migrator

/-- Does what a unit does in an open transaction, and ends the transaction. -/
def carryOutInside (m : Migrator σ) (u : MigrationUnit) (name : String) (tx : Transaction σ)
    (way : Way) (batch : Int64) : Action σ Unit := do
  tryCatch (m.carryOut u name tx.executor way batch) fun failure => do
    tx.rollback.regardless
    throw failure
  tx.commit

/-- What comes behind the unit's own calls leads on from there: the note in the ledger, the commit and
the rollback. -/
theorem leads_behind_procedure (m : Migrator σ) (u : MigrationUnit) (name : String)
    (tx : Transaction σ) (h : tx.executor.LeadsOn texts R) (hplain : ∀ sql, IsPlain sql → texts sql)
    (hcommit : Leads R tx.commit) (hrollback : Leads R tx.rollback) (way : Way) (batch : Int64)
    (r : σ) :
    R (((u.procedure way).perform (m.schemaOn name tx.executor)).outcome r).2
      ((m.carryOutInside u name tx way batch).outcome r).2 := by
  have hl : (m.ledger name tx.executor).executor.LeadsOn texts R := h
  have hcarried : R (((u.procedure way).perform (m.schemaOn name tx.executor)).outcome r).2
      ((m.carryOut u name tx.executor way batch).outcome r).2 := by
    refine leads_behind_bind _ (fun _ => ?_) r
    cases way with
    | up => exact Ledger.leads_record hl hplain u.id batch
    | down => exact Ledger.leads_remove hl hplain u.id
  have hcaught := leads_behind_tryCatch (R := R) (m.carryOut u name tx.executor way batch)
    (fun failure => hrollback.regardless.bind fun _ => leads_throw failure) r
  exact IsTrans.trans _ _ _ hcarried
    (IsTrans.trans _ _ _ hcaught (leads_behind_bind _ (fun _ => hcommit) r))

end Migrator

end Leads

namespace Migrator

theorem outcome_begin_traced (c : Connection σ) (s : Traced σ) :
    c.traced.begin.outcome s = match c.begin.outcome s.state with
      | (.ok tx, t) => (.ok tx.traced, ⟨t, s.requests ++ [.begin]⟩)
      | (.error e, t) => (.error e, ⟨t, s.requests ++ [.begin]⟩) := by
  show (tracing [.begin] c.begin >>= fun tx => pure tx.traced).outcome s = _
  rw [outcome_bind, outcome_tracing]
  rcases c.begin.outcome s.state with ⟨e | tx, t⟩
  · rfl
  · rfl

/-- Behind a unit with a transaction of its own is what its transaction leaves. -/
theorem runUnit_behind {m : Migrator σ} {u : MigrationUnit} (hpretend : m.pretend = false)
    (htransaction : u.transaction = true) (name : String) (c : Connection σ) (way : Way)
    (batch : Int64) (s : σ) :
    ((m.runUnit u name c way batch).outcome s).2 =
      ((m.carryOutWhole u name c way batch).outcome s).2 := by
  unfold runUnit
  simp only [hpretend, htransaction, Bool.false_eq_true, if_false, if_true]
  rw [outcome_bind]
  rcases (m.carryOutWhole u name c way batch).outcome s with ⟨e | x, t⟩
  · rfl
  · rfl

theorem carryOutWhole_eq (m : Migrator σ) (u : MigrationUnit) (name : String) (c : Connection σ)
    (way : Way) (batch : Int64) : m.carryOutWhole u name c way batch =
      (c.begin >>= fun tx => m.carryOutInside u name tx way batch) :=
  rfl

/-- **What turns foreign keys off inside a transaction.**  When a unit with a transaction of its own
runs on SQLite, something about the switch for foreign keys is sent through the transaction exactly if
the unit comes to a call that rebuilds a table, and gets as far as the script for that, or to one that
drops all tables.  Texts the unit is handed are left out: they are passed on as they are. -/
theorem switched_inside_iff (m : Migrator σ) {u : MigrationUnit} {c : Connection σ} {way : Way}
    (hpretend : m.pretend = false) (htransaction : u.transaction = true)
    (hsqlite : ∀ s tx t, c.begin.outcome s = (.ok tx, t) → tx.executor.dialect = .sqlite)
    (hown : (u.procedure way).Makes fun call => ∀ sql ∈ call.ownTexts, isSwitch sql = false)
    (name : String) (batch : Int64) (s : σ) :
    (∃ request ∈ ((m.traced.runUnit u name c.traced way batch).outcome ⟨s, []⟩).2.requests,
      request.switches = true) ↔
    ∃ tx t, c.begin.outcome s = (.ok tx, t) ∧ ∃ call r,
      (u.procedure way).Reaches (m.traced.schemaOn name tx.traced.executor) ⟨t, [.begin]⟩ call r ∧
      call.TurnsOff (m.traced.schemaOn name tx.traced.executor) r := by
  rw [← Traced.switches_ne_nil, runUnit_behind (m := m.traced) hpretend htransaction,
    carryOutWhole_eq, outcome_bind, outcome_begin_traced]
  rcases hbegin : c.begin.outcome s with ⟨e | tx, t⟩
  · constructor
    · intro hne
      exact absurd rfl hne
    · rintro ⟨tx, t', hok, -⟩
      cases hok
  have hdialect := hsqlite s tx t hbegin
  constructor
  · intro hne
    by_contra hnone
    have hcalls := Procedure.switches_perform (s := m.traced.schemaOn name tx.traced.executor)
      (r := ⟨t, [.begin]⟩) rfl hdialect hown fun call r hreached hturns =>
        hnone ⟨tx, t, rfl, call, r, hreached, hturns⟩
    have hrest := leads_behind_procedure (R := Agree switches) m.traced u name tx.traced
      tx.executor.traced_switches (fun _ => isSwitch_of_isPlain)
      (keeps_tracing (List.forall_mem_singleton.mpr rfl) _)
      (keeps_tracing (List.forall_mem_singleton.mpr rfl) _) way batch ⟨t, [.begin]⟩
    exact hne (hrest.trans hcalls)
  · rintro ⟨tx, t, hok, call, r, hreached, hturns⟩
    cases hok
    have hcalls := Procedure.turnOff_mem_perform (s := m.traced.schemaOn name tx.traced.executor) rfl
      hdialect hreached hturns
    have hrest := leads_behind_procedure (R := Grows) m.traced u name tx.traced
      (tx.executor.traced_grows .transaction) (fun _ _ => trivial) (leads_tracing _ _)
      (leads_tracing _ _) way batch ⟨t, [.begin]⟩
    exact Traced.switches_ne_nil.mpr ⟨_, hrest.subset hcalls, Request.switches_turnOff⟩

/-! ### Longer titles in a transaction -/

/-- Makes the titles of posts longer, in a transaction of its own. -/
def titlesUnit : MigrationUnit :=
  { unitOfCalls [.blueprint Schema.longerTitles] with transaction := true }

/-- Runs the unit on the mock connection. -/
def titlesRun : Except Failure (List PretendedUnit) × Traced Mock :=
  (ofMock.traced.runUnit titlesUnit "main" (Mock.connection "main" .sqlite).traced .up 1).outcome
    ⟨Schema.storedPosts, []⟩

/-- The unit goes through, and its transaction is told to turn foreign keys off and on. -/
theorem titlesRun_eq : titlesRun.1 = .ok [] ∧ titlesRun.2.requests.filter Request.switches =
    [.turnOff, .execute .transaction "PRAGMA foreign_keys = ON" []] := by
  decide +kernel

theorem turnOff_mem_titlesRun : Request.turnOff ∈ titlesRun.2.requests := by
  have hmem : Request.turnOff ∈ titlesRun.2.requests.filter Request.switches := by
    rw [titlesRun_eq.2]
    exact List.mem_cons_self
  exact List.mem_of_mem_filter hmem

/-- The switch is used because the unit comes to a rebuild and gets as far as its script. -/
theorem titles_switched_by_rebuild :
    (ofMock.pretend = false ∧ titlesUnit.transaction = true ∧
      (titlesUnit.procedure .up).Makes fun call => ∀ sql ∈ call.ownTexts, isSwitch sql = false) ∧
    ∃ tx t, (Mock.connection "main" .sqlite).begin.outcome Schema.storedPosts = (.ok tx, t) ∧
      ∃ call r,
        (titlesUnit.procedure .up).Reaches (ofMock.traced.schemaOn "main" tx.traced.executor)
          ⟨t, [.begin]⟩ call r ∧
        call.TurnsOff (ofMock.traced.schemaOn "main" tx.traced.executor) r := by
  have hown : (titlesUnit.procedure .up).Makes fun call =>
      ∀ sql ∈ call.ownTexts, isSwitch sql = false :=
    ⟨List.forall_mem_nil _, fun _ => trivial⟩
  have hsqlite : ∀ s tx t, (Mock.connection "main" .sqlite).begin.outcome s = (.ok tx, t) →
      tx.executor.dialect = .sqlite := by
    intro s tx t hbegin
    obtain ⟨_, _, -, hopened⟩ := outcome_bind_eq_ok hbegin
    cases hopened
    rfl
  have hmem := turnOff_mem_titlesRun
  rw [titlesRun] at hmem
  exact ⟨⟨rfl, rfl, hown⟩,
    (switched_inside_iff ofMock rfl rfl hsqlite hown "main" 1 Schema.storedPosts).mp
      ⟨_, hmem, Request.switches_turnOff⟩⟩

/-- A unit can succeed though something about the switch was sent through its transaction. -/
theorem titles_switched_inside :
    titlesRun.1 = .ok [] ∧ ¬ ∀ request ∈ titlesRun.2.requests, request.switches = false := by
  refine ⟨titlesRun_eq.1, fun hnone => ?_⟩
  have hoff := hnone _ turnOff_mem_titlesRun
  rw [Request.switches_turnOff] at hoff
  cases hoff

end Migrator

end Relational
