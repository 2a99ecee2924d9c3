import Relational.Proofs.Migration.Database
import Relational.Proofs.Migration.Traced
import Relational.Proofs.Session.Plan
/-
What is noted while pretending, against what is run for real.

A unit made of changes and statements is rehearsed on an executor that notes statements
and finds nothing.  As long as no table is built anew the same texts are compiled both
times, so the notes are what the real run executes.  The first change that builds a table
anew ends the rehearsal: the stored definition is asked for and not found, and without it
the compiler gives up, though the real run went through.  The induction is on the unit's
calls.
-/
namespace Relational

open Action

variable {σ α : Type}

theorem Action.discard_unit (a : Action σ Unit) : discard a = a :=
  id_map a

/-! ### Calls that change something -/

namespace SchemaCall

/-- The call changes tables, or runs a statement as it is. -/
def IsChange : SchemaCall → Prop
  | blueprint _ | apply _ | run _ | statement _ => True
  | _ => False

/-- The statements of a change that looks nothing up. -/
def texts (k : SchemaCompiler) : SchemaCall → Except SchemaError (List String)
  | blueprint b => k.compile b
  | apply operation => k.compileOperation operation
  | run plan => k.compilePlan plan
  | statement sql => .ok [sql]
  | _ => .ok []

variable {s : Schema σ}

/-- A change that builds no table anew compiles statements and runs them. -/
theorem discard_perform {c : SchemaCall} (hchange : c.IsChange)
    (hplain : c.rebuilt? s.executor.dialect = none) :
    discard (c.perform s) =
      Schema.compiled (c.texts s.compiler) >>= fun statements => s.executor.executeAll statements := by
  cases c with
  | blueprint b =>
      have hrebuilds : ¬ b.Rebuilds s.executor.dialect := by simpa [rebuilt?] using hplain
      exact (discard_unit _).trans (Schema.blueprint_of_not_rebuilds hrebuilds)
  | apply operation => exact discard_unit _
  | run plan => exact discard_unit _
  | statement sql => exact (bind_pure_unit (x := s.executor.executeText sql)).symm
  | _ => cases hchange

end SchemaCall

theorem Procedure.perform_ofCalls_cons (c : SchemaCall) (rest : List SchemaCall) (s : Schema σ) :
    (ofCalls (c :: rest)).perform s = discard (c.perform s) >>= fun _ => (ofCalls rest).perform s := by
  show _ = ((fun _ => ()) <$> c.perform s) >>= _
  rw [map_eq_pure_bind, bind_assoc]
  simp only [pure_bind]
  rfl

/-! ### Statements in order -/

theorem Executor.executed_executeAll {e : Executor σ} {route : Route} {statements : List String}
    {s t : Traced σ} (h : ((e.traced route).executeAll statements).outcome s = (.ok (), t)) :
    t.executed = s.executed ++ statements := by
  induction statements generalizing s with
  | nil =>
      cases h
      exact (List.append_nil _).symm
  | cons sql rest ih =>
      obtain ⟨⟨⟩, r, hfirst, hrest⟩ := outcome_bind_eq_ok
        (a := (e.traced route).executeText sql) (f := fun _ => (e.traced route).executeAll rest) h
      have hr : r.executed = s.executed ++ [sql] := by
        have htraced := e.requests_executeText route sql s
        rw [hfirst] at htraced
        rw [Traced.executed, htraced, List.filterMap_append]
        rfl
      rw [ih hrest, hr, List.append_assoc, List.singleton_append]

theorem Executor.outcome_executeAll_recorder (d : Dialect) (statements log : List String) :
    ((Executor.recorder d).executeAll statements).outcome log = (.ok (), log ++ statements) := by
  induction statements generalizing log with
  | nil => rw [List.append_nil]; rfl
  | cons sql rest ih =>
      show ((Executor.recorder d).executeText sql >>= fun _ =>
        (Executor.recorder d).executeAll rest).outcome log = _
      rw [outcome_bind, show ((Executor.recorder d).executeText sql).outcome log =
        (.ok (), log ++ [sql]) from rfl]
      simp only
      rw [ih, List.append_assoc, List.singleton_append]

/-! ### Rehearsals -/

/-- The failure of a change whose stored definition is not known. -/
def Schema.lacking (s : Schema σ) (b : Blueprint) : Failure :=
  .schema (.invalidBlueprint (s.compiler.tableName b.table) .definitionNeeded)

/-- The same schema on an executor that only takes notes. -/
def Schema.rehearsing (s : Schema σ) : Schema (List String) :=
  { s with executor := .recorder s.executor.dialect }

variable {s : Schema σ}

/-- A change that compiles by itself is noted as it compiles. -/
theorem SchemaCall.outcome_rehearsing {s : Schema σ} {c : SchemaCall} (hchange : c.IsChange)
    (hplain : c.rebuilt? s.executor.dialect = none) {statements : List String}
    (hok : c.texts s.compiler = .ok statements) (log : List String) :
    (discard (c.perform s.rehearsing)).outcome log = (.ok (), log ++ statements) := by
  rw [discard_perform (s := s.rehearsing) hchange hplain,
    show c.texts s.rehearsing.compiler = .ok statements from hok]
  exact Executor.outcome_executeAll_recorder _ statements log

theorem Schema.outcome_snapshot_rehearsing (s : Schema σ) (table : String) (log : List String) :
    (s.rehearsing.snapshot table).outcome log = (.ok none, log) := by
  unfold snapshot
  dsimp only
  split
  · rfl
  · rfl

/-- A table that was built anew for real cannot be built anew on an executor that finds nothing. -/
theorem Schema.outcome_blueprint_rehearsing {s : Schema σ} {b : Blueprint} {r t : σ}
    (hrebuilds : b.Rebuilds s.executor.dialect) (hrun : (s.blueprint b).outcome r = (.ok (), t))
    (log : List String) : (s.rehearsing.blueprint b).outcome log = (.error (s.lacking b), log) := by
  rw [blueprint_of_rebuilds hrebuilds] at hrun
  obtain ⟨snapshot, q, -, hcompiled⟩ := outcome_bind_eq_ok hrun
  obtain ⟨statements, q', hstatements, -⟩ := outcome_bind_eq_ok hcompiled
  have hok := (outcome_ofExcept_eq_ok hstatements).1
  have hlacks := SchemaCompiler.compile_without_definition (k := { s.compiler with snapshot })
    hrebuilds hok
  rw [blueprint_of_rebuilds (s := s.rehearsing) hrebuilds, outcome_bind,
    outcome_snapshot_rehearsing]
  show (compiled (({ s.compiler with snapshot := none }).compile b) >>= _).outcome log = _
  rw [hlacks]
  rfl

/-- Calls that went through for real are rehearsed up to the first that builds a table anew, and up
to there the notes are what was executed. -/
theorem Procedure.outcome_rehearsing {e : Executor σ} {route : Route} {s : Schema (Traced σ)}
    (hs : s.executor = e.traced route) {calls : List SchemaCall} (hchanges : ∀ c ∈ calls, c.IsChange)
    {r t : Traced σ} (hrun : ((ofCalls calls).perform s).outcome r = (.ok (), t)) :
    match calls.findSome? (·.rebuilt? s.executor.dialect) with
    | none => ∃ sent, t.executed = r.executed ++ sent ∧
        ∀ log, ((ofCalls calls).perform s.rehearsing).outcome log = (.ok (), log ++ sent)
    | some b => ∀ log,
        (((ofCalls calls).perform s.rehearsing).outcome log).1 = .error (s.lacking b) := by
  induction calls generalizing r with
  | nil =>
      cases hrun
      exact ⟨[], (List.append_nil _).symm, fun log => by rw [List.append_nil]; rfl⟩
  | cons c rest ih =>
      obtain ⟨hchange, hrest⟩ := List.forall_mem_cons.mp hchanges
      rw [perform_ofCalls_cons] at hrun
      obtain ⟨⟨⟩, q, hfirst, hlater⟩ := outcome_bind_eq_ok hrun
      rw [List.findSome?_cons]
      cases hrebuilt : c.rebuilt? s.executor.dialect with
      | some b =>
          obtain ⟨rfl, hrebuilds⟩ := SchemaCall.of_rebuilt? hrebuilt
          intro log
          rw [SchemaCall.perform, discard_unit] at hfirst
          rw [perform_ofCalls_cons, outcome_bind, SchemaCall.perform, discard_unit,
            Schema.outcome_blueprint_rehearsing hrebuilds hfirst]
      | none =>
          rw [SchemaCall.discard_perform hchange hrebuilt] at hfirst
          obtain ⟨statements, q', hstatements, hexecuted⟩ := outcome_bind_eq_ok hfirst
          obtain ⟨hok, rfl⟩ := outcome_ofExcept_eq_ok hstatements
          rw [hs] at hexecuted
          have hq := Executor.executed_executeAll hexecuted
          -- The same statements are noted, so the rest is rehearsed behind them.
          have hnoted (log : List String) :
              ((ofCalls (c :: rest)).perform s.rehearsing).outcome log =
                ((ofCalls rest).perform s.rehearsing).outcome (log ++ statements) := by
            rw [perform_ofCalls_cons, outcome_bind,
              SchemaCall.outcome_rehearsing hchange hrebuilt hok]
          have hend := ih hrest hlater
          simp only [hnoted]
          cases hfind : rest.findSome? (·.rebuilt? s.executor.dialect) with
          | some b =>
              rw [hfind] at hend
              exact fun log => hend (log ++ statements)
          | none =>
              rw [hfind] at hend
              obtain ⟨sent, hsent, hlog⟩ := hend
              refine ⟨statements ++ sent, ?_, fun log => ?_⟩
              · rw [hsent, hq, List.append_assoc]
              · rw [hlog, List.append_assoc]

namespace Migrator

theorem rehearse_eq (m : Migrator σ) (u : MigrationUnit) (name : String) (e : Executor σ)
    (route : Route) (way : Way) :
    let s := m.traced.schemaOn name (e.traced route)
    let run := ((u.procedure way).perform s.rehearsing).outcome []
    m.rehearse u name e.dialect way = run.1.map fun () => run.2 :=
  rfl

/-- **A rehearsal is true up to the first table that is built anew.**  When changes and statements
went through for real, the rehearsal of them notes exactly what was executed, in order, unless one of
them builds a table anew: then it fails for want of that table's definition. -/
theorem rehearsed_unless_rebuilt (m : Migrator σ) (name : String) (e : Executor σ) (route : Route)
    {u : MigrationUnit} {way : Way} {calls : List SchemaCall}
    (hbody : u.procedure way = .ofCalls calls) (hchanges : ∀ c ∈ calls, c.IsChange)
    {s : σ} {t : Traced σ}
    (hrun : ((u.procedure way).perform (m.traced.schemaOn name (e.traced route))).outcome ⟨s, []⟩ =
      (.ok (), t)) :
    m.rehearse u name e.dialect way =
      match calls.findSome? (·.rebuilt? e.dialect) with
      | none => .ok t.executed
      | some b => .error (.schema
          (.invalidBlueprint (m.config.tablePrefixFor name ++ b.table) .definitionNeeded)) := by
  have hend := Procedure.outcome_rehearsing (s := m.traced.schemaOn name (e.traced route)) rfl hchanges
    (hbody ▸ hrun)
  rw [rehearse_eq m u name e route way, hbody]
  have hdialect : (m.traced.schemaOn name (e.traced route)).executor.dialect = e.dialect := rfl
  rw [hdialect] at hend
  cases hfind : calls.findSome? (·.rebuilt? e.dialect) with
  | some b =>
      rw [hfind] at hend
      rw [hend []]
      rfl
  | none =>
      rw [hfind] at hend
      obtain ⟨sent, hsent, hlog⟩ := hend
      rw [hlog, hsent]
      rfl

/-! ### Two units on a mock connection -/

/-- A migrator on one connection that knows the definition of the posts. -/
def ofMock : Migrator Mock where
  registry := {
    config := { default := "main", connections := [("main", { dialect := .sqlite })] }
    opened := [("main", Mock.connection "main" .sqlite)] }
  now := ⟨0, 0⟩

def unitOfCalls (calls : List SchemaCall) : MigrationUnit where
  id := "001"
  up := .ofCalls calls
  down := .done ()

/-- Runs a unit's calls on the mock connection. -/
def ranOnMock (calls : List SchemaCall) : Except Failure Unit × Traced Mock :=
  (((unitOfCalls calls).procedure .up).perform (ofMock.traced.schemaOn "main"
    ((Mock.executor "main" "" .sqlite).traced .direct))).outcome ⟨Schema.storedPosts, []⟩

/-- Makes a table, names it anew and drops another. -/
def writersCalls : List SchemaCall :=
  [.blueprint ((Blueprint.create "authors").add { name := "name", type := .text }),
    .apply (.rename "authors" "writers"), .apply (.dropIfExists "readers"),
    .statement "UPDATE writers SET name = ''"]

/-- Nothing is built anew, so all four statements are rehearsed. -/
theorem writers_rehearsed :
    ∃ t, ranOnMock writersCalls = (.ok (), t) ∧ t.executed.length = 4 ∧
      ofMock.rehearse (unitOfCalls writersCalls) "main" .sqlite .up = .ok t.executed := by
  have hrun : (ranOnMock writersCalls).1 = .ok () := by decide +kernel
  refine ⟨(ranOnMock writersCalls).2, Prod.ext hrun rfl, by decide +kernel, ?_⟩
  exact rehearsed_unless_rebuilt ofMock "main" (Mock.executor "main" "" .sqlite) .direct rfl
    (by simp [writersCalls, SchemaCall.IsChange]) (Prod.ext hrun rfl)

/-- Longer titles take a rebuild: it goes through, and its rehearsal fails. -/
theorem longer_titles_not_rehearsed :
    (ranOnMock [.blueprint Schema.longerTitles]).1 = .ok () ∧
    (ranOnMock [.blueprint Schema.longerTitles]).2.executed.length = 9 ∧
    ofMock.rehearse (unitOfCalls [.blueprint Schema.longerTitles]) "main" .sqlite .up =
      .error (.schema (.invalidBlueprint "posts" .definitionNeeded)) := by
  decide +kernel

end Migrator

end Relational
