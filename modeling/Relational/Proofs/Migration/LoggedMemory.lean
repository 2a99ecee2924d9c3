import Relational.Proofs.Migration.Hosting
import Relational.Proofs.Migration.Memory
/-
A database in memory with a log of what was tried.

It is `Memory` with a list behind it, to which a statement that installs a unit adds the
unit's name, whatever becomes of the statement.  Statements of a ledger add nothing.  Of
the two units of its migrator one has a transaction of its own and one has none.  What a
statement adds is left open at first, so that a log can tell of reverting as well.
-/
namespace Relational

open Action

/-- Databases in memory, and the units whose statements were tried. -/
structure LoggedMemory where
  memory : Memory
  log : List String := []

namespace LoggedMemory

variable {α β : Type}

/-- Does something to the databases and adds names to the log. -/
def logged (names : List String) (a : Action Memory α) : Action LoggedMemory α :=
  ExceptT.mk fun s =>
    let (result, memory) := a.outcome s.memory
    (result, { memory, log := s.log ++ names })

theorem outcome_logged (names : List String) (a : Action Memory α) (s : LoggedMemory) :
    (logged names a).outcome s =
      ((a.outcome s.memory).1, ⟨(a.outcome s.memory).2, s.log ++ names⟩) :=
  rfl

theorem ensures_logged {pre : Memory → Prop} {a : Action Memory α} {ok : α → Memory → Prop}
    {failed : Failure → Memory → Prop} (h : Ensures pre a ok failed) (names log : List String) :
    Ensures (fun s => pre s.memory ∧ s.log = log) (logged names a)
      (fun x t => ok x t.memory ∧ t.log = log ++ names)
      (fun e t => failed e t.memory ∧ t.log = log ++ names) := by
  rintro s ⟨hs, rfl⟩
  have hend := h s.memory hs
  rw [outcome_logged]
  rcases hrun : a.outcome s.memory with ⟨e | x, t⟩
  · rw [hrun] at hend
    exact ⟨hend, rfl⟩
  · rw [hrun] at hend
    exact ⟨hend, rfl⟩

/-- Where the log does not matter, it is as if there were none. -/
theorem ensures_within {pre : Memory → Prop} {a : Action Memory α} {ok : α → Memory → Prop}
    {failed : Failure → Memory → Prop} (h : Ensures pre a ok failed) (names : List String) :
    Ensures (fun s => pre s.memory) (logged names a) (fun x t => ok x t.memory)
      (fun e t => failed e t.memory) :=
  fun s hs => ((ensures_logged h names s.log).weaken (fun _ hr => hr) (fun _ _ ht => ht.1)
    (fun _ _ ht => ht.1)) s ⟨hs, rfl⟩

theorem spares_logged {see : Memory → β} {a : Action Memory α} (h : Action.Spares see a) :
    Action.Spares (fun s : LoggedMemory => (see s.memory, s.log)) (logged [] a) := by
  rintro ⟨d, log⟩
  refine (ensures_logged (h d) [] log).weaken (fun _ hs => Prod.mk.inj hs) ?_ ?_
  · rintro x t ⟨hsee, hlog⟩
    exact Prod.ext hsee (hlog.trans (List.append_nil log))
  · rintro e t ⟨⟨hsee, hplain⟩, hlog⟩
    exact ⟨Prod.ext hsee (hlog.trans (List.append_nil log)), hplain⟩

/-! ### What it does -/

/-- The unit that a statement installs, if it does. -/
def installed (sql : String) : List String :=
  ((Memory.effects.find? (·.2.1 = sql)).map (·.1)).toList

def executor (place : Memory.Place) : Executor LoggedMemory where
  dialect := .sqlite
  query := fun sql bindings => logged [] ((Memory.executor place).query sql bindings)
  execute := fun sql bindings =>
    logged (installed sql) ((Memory.executor place).execute sql bindings)

def transaction (name : String) : Transaction LoggedMemory where
  executor := executor .inside
  commit := logged [] (Memory.transaction name).commit
  rollback := logged [] (Memory.transaction name).rollback

def connection (name : String) : Connection LoggedMemory where
  name := name
  executor := executor (.shared name)
  begin := do
    let _ ← logged [] (Memory.connection name).begin
    return transaction name

/-! ### Other logs -/

/-- What a statement adds to the log. -/
abbrev Notes : Type := String → List String

variable (notes : Notes)

def executorWith (place : Memory.Place) : Executor LoggedMemory where
  dialect := .sqlite
  query := fun sql bindings => logged [] ((Memory.executor place).query sql bindings)
  execute := fun sql bindings => logged (notes sql) ((Memory.executor place).execute sql bindings)

def transactionWith (name : String) : Transaction LoggedMemory where
  executor := executorWith notes .inside
  commit := logged [] (Memory.transaction name).commit
  rollback := logged [] (Memory.transaction name).rollback

def connectionWith (name : String) : Connection LoggedMemory where
  name := name
  executor := executorWith notes (.shared name)
  begin := do
    let _ ← logged [] (Memory.connection name).begin
    return transactionWith notes name

/-- Statements of a ledger add nothing. -/
def Notes.Quiet (notes : Notes) : Prop :=
  ∀ sql ∈ Memory.insertText :: Memory.deleteText :: Memory.createTexts, notes sql = []

/-- What is added when a unit is reverted. -/
def undoing (id : String) : String :=
  "undo " ++ id

/-- The unit that a statement installs or removes, if it does. -/
def installedOrRemoved : Notes := fun sql =>
  installed sql ++ ((Memory.effects.find? (·.2.2 = sql)).map fun effect => undoing effect.1).toList

theorem quiet_installed : Notes.Quiet installed := by
  unfold Notes.Quiet
  decide +kernel

theorem quiet_installedOrRemoved : Notes.Quiet installedOrRemoved := by
  unfold Notes.Quiet
  decide +kernel

/-! ### It serves migrations -/

theorem serves (place : Memory.Place) :
    (executorWith notes place).Serves Memory.table Memory.textOrder
      fun s => place.database s.memory where
  reads k s hs db := ensures_within ((Memory.serves place).reads k s hs db) _
  creates l hl htable statements hcompile sql hsql db := by
    rw [Memory.compile_blueprint (by rw [hl]; rfl) htable] at hcompile
    cases hcompile
    exact ensures_within ((Memory.ensures_execute place sql [] db).weaken (fun _ hs => hs)
      (fun _ _ ht => Memory.change_create hsql ht) (fun _ _ hs => hs)) (notes sql)
  inserts r s hs db := ensures_within ((Memory.serves place).inserts r s hs db) _
  deletes id s hs db := ensures_within ((Memory.serves place).deletes id s hs db) _

end LoggedMemory

/-- Who sees a database sees its ledger. -/
theorem Executor.Serves.of_ledger {σ : Type} {e : Executor σ} {table : String}
    {le : String → String → Bool} {see : σ → Database} (h : e.Serves table le see) :
    e.Serves table le fun s => { ledger := (see s).ledger } where
  reads k s hs db := by
    rintro r rfl
    exact ((h.reads k s hs (see r)).weaken (fun _ hr => hr)
      (fun _ t ht => ⟨by rw [ht.1], ht.2⟩) (fun _ t ht => by rw [ht])) r rfl
  creates l hl htable statements hcompile sql hsql db := by
    rintro r rfl
    refine ((h.creates l hl htable statements hcompile sql hsql (see r)).weaken (fun _ hr => hr)
      ?_ (fun _ t ht => by rw [ht])) r rfl
    rintro _ t (ht | ⟨hnone, ht⟩)
    · exact .inl (by rw [ht])
    · exact .inr ⟨hnone, by rw [ht]⟩
  inserts row s hs db := by
    rintro r rfl
    refine ((h.inserts row s hs (see r)).weaken (fun _ hr => hr) ?_
      (fun _ t ht => by rw [ht])) r rfl
    rintro _ t ⟨stored, hstored, ht⟩
    exact ⟨stored, hstored, by rw [ht]⟩
  deletes id s hs db := by
    rintro r rfl
    refine ((h.deletes id s hs (see r)).weaken (fun _ hr => hr) ?_
      (fun _ t ht => by rw [ht])) r rfl
    rintro _ t ⟨stored, hstored, ht⟩
    exact ⟨stored, hstored, by rw [ht]⟩

namespace LoggedMemory

variable {β : Type}

theorem spares_step {α : Type} {see : Memory → β} (hsteady : Memory.Steady see)
    {f : Memory → Option (α × Memory)} (h : ∀ s x t, f s = some (x, t) → see t = see s) :
    Action.Spares see (Memory.step f) := by
  intro d
  have hplain : Ensures (fun _ => True) (Memory.step f) (fun _ _ => True) (fun e _ => e.IsPlain) := by
    intro s _
    rw [Memory.outcome_step]
    split
    · trivial
    · rename_i heq
      split at heq
      · cases heq
      · cases heq
        trivial
  refine ((Memory.keeps_step hsteady h).ensures d |>.and hplain).weaken (fun _ hs => ⟨hs, trivial⟩)
    (fun _ _ ht => ht.1) (fun _ _ ht => ht)

/-- The ledger's statements spare the log, and what is not in their place. -/
theorem executor_spares {notes : Notes} (hquiet : notes.Quiet) (place : Memory.Place)
    (see : Memory → β) (hsteady : Memory.Steady see)
    (hstore : ∀ db s, see (place.store db s) = see s) (way : Way) :
    (executorWith notes place).SparesFor Memory.table (fun s => (see s.memory, s.log)) way := by
  have hquery : ∀ sql bindings, Action.Spares see ((Memory.executor place).query sql bindings) := by
    intro sql bindings
    simp only [Memory.executor]
    refine spares_step hsteady fun s x t hstep => ?_
    obtain ⟨rows, -, hend⟩ := Option.map_eq_some_iff.mp hstep
    cases hend
    rfl
  have hexecute : ∀ sql bindings, Action.Spares see ((Memory.executor place).execute sql bindings) := by
    intro sql bindings
    simp only [Memory.executor]
    refine spares_step hsteady fun s x t hstep => ?_
    obtain ⟨db, -, hend⟩ := Option.map_eq_some_iff.mp hstep
    cases hend
    exact hstore db s
  have hsilent : ∀ {sql}, notes sql = [] → ∀ bindings, Action.Spares
      (fun s => (see s.memory, s.log)) ((executorWith notes place).execute sql bindings) := by
    intro sql hsql bindings
    simp only [executorWith, hsql]
    exact spares_logged (hexecute sql bindings)
  have hspares : (executorWith notes place).Spares Memory.table fun s => (see s.memory, s.log) := by
    refine ⟨fun k s _ => spares_logged (hquery s.sql s.bindings), ?_, ?_⟩
    · intro l hl htable statements hcompile sql hsql
      rw [Memory.compile_blueprint (by rw [hl]; rfl) htable] at hcompile
      cases hcompile
      exact hsilent (hquiet sql (by simp [hsql])) []
    · intro r s hs
      cases (Memory.insertSql_row r).symm.trans hs
      exact hsilent (hquiet _ (by simp)) _
  cases way with
  | up => exact hspares
  | down =>
      refine ⟨hspares, fun id s hs => ?_⟩
      cases (Memory.deleteSql_id id).symm.trans hs
      exact hsilent (hquiet _ (by simp)) _

/-! ### A migrator on two connections -/

/-- The ledgers of all connections, and the log. -/
def lookout : Lookout LoggedMemory (List String) where
  place := id
  ledgers := fun s name => (s.memory.databases name).ledger
  trail := log
  Marks := fun u before after => after = before ++ [u.id]

/-- Two units, one on each of two connections; only the first has a transaction. -/
def units : List MigrationUnit :=
  [Memory.unitOf none ("001_people", "CREATE TABLE people (id INTEGER)", "DROP TABLE people"),
    { Memory.unitOf (some "archive")
        ("002_events", "CREATE TABLE events (id INTEGER)", "DROP TABLE events") with
      transaction := false }]

def migrator : Migrator LoggedMemory where
  registry := {
    config := {
      default := "main"
      connections := [("main", { dialect := .sqlite }), ("archive", { dialect := .sqlite })] }
    opened := [("main", connection "main"), ("archive", connection "archive")] }
  registered := units
  now := ⟨0, 0⟩

/-- The same migrator with another log. -/
def migratorWith (notes : Notes) : Migrator LoggedMemory :=
  { migrator with
    registry := { migrator.registry with
      opened := [("main", connectionWith notes "main"), ("archive", connectionWith notes "archive")] } }

theorem units_migrator : migrator.units = .ok units :=
  Migrator.units_of_registered (by decide +kernel) (by decide)
    (by simp only [migrator, units, List.pairwise_pair]; decide) (by decide)

theorem units_migratorWith (notes : Notes) : (migratorWith notes).units = .ok units :=
  units_migrator

theorem known_migratorWith (notes : Notes) : (migratorWith notes).known = units := by
  rw [Migrator.known, units_migratorWith]

theorem known_migrator : migrator.known = units :=
  known_migratorWith installed

/-- What is added when a unit is run that way. -/
def entry (u : MigrationUnit) : Way → String
  | .up => u.id
  | .down => undoing u.id

/-- Running a unit adds its entry to the log. -/
def entries (way : Way) (u : MigrationUnit) (before after : List String) : Prop :=
  after = before ++ [entry u way]

/-- The log tells of the units that are run that way. -/
def Notes.Tell (notes : Notes) (way : Way) : Prop :=
  ∀ u ∈ units, ∃ sql, u.procedure way = .ofStatements [sql] ∧ notes sql = [entry u way] ∧
    ∀ db, ∃ names, Memory.change db sql [] = some { db with installed := names }

theorem tell_installed : Notes.Tell installed .up := by
  intro u hu
  simp only [units, List.mem_cons, List.not_mem_nil, or_false] at hu
  rcases hu with rfl | rfl
  · exact ⟨_, rfl, by decide, fun db => ⟨_, rfl⟩⟩
  · exact ⟨_, rfl, by decide, fun db => ⟨_, rfl⟩⟩

theorem tell_installedOrRemoved (way : Way) : Notes.Tell installedOrRemoved way := by
  intro u hu
  simp only [units, List.mem_cons, List.not_mem_nil, or_false] at hu
  rcases hu with rfl | rfl
  · cases way with
    | up => exact ⟨_, rfl, by decide, fun db => ⟨_, rfl⟩⟩
    | down => exact ⟨_, rfl, by decide, fun db => ⟨_, rfl⟩⟩
  · cases way with
    | up => exact ⟨_, rfl, by decide, fun db => ⟨_, rfl⟩⟩
    | down => exact ⟨_, rfl, by decide, fun db => ⟨_, rfl⟩⟩

variable {notes : Notes} {way : Way}

/-- Running a unit adds its entry to the log, however far it gets, and does not touch a ledger. -/
theorem leaves (htell : notes.Tell way) (place : Memory.Place) (see : Memory → β)
    (hsteady : Memory.Steady see)
    (hstore : ∀ db s, db.ledger = (place.database s).ledger → see (place.store db s) = see s)
    {u : MigrationUnit} (hu : u ∈ units) {schema : Schema LoggedMemory}
    (hschema : schema.executor = executorWith notes place) :
    (u.procedure way).Leaves schema log (entries way u) fun s => see s.memory := by
  obtain ⟨sql, hprocedure, hnotes, hchange⟩ := htell u hu
  intro k log
  have hmemory : Ensures (see · = k) ((Memory.executor place).execute sql [])
      (fun _ t => see t = k) (fun _ t => see t = k) := by
    simp only [Memory.executor]
    refine Memory.ensures_step hsteady ?_
    intro s n t hs hstep
    obtain ⟨db, hdb, hend⟩ := Option.map_eq_some_iff.mp hstep
    obtain ⟨names, hnames⟩ := hchange (place.database s)
    cases hend
    cases hnames.symm.trans hdb
    exact (hstore { place.database s with installed := names } s rfl).trans hs
  have hexecute : Ensures (fun s => see s.memory = k ∧ s.log = log)
      ((executorWith notes place).execute sql [])
      (fun _ t => see t.memory = k ∧ t.log = log ++ [entry u way])
      (fun _ t => see t.memory = k ∧ t.log = log ++ [entry u way]) := by
    rw [← hnotes]
    exact ensures_logged hmemory (notes sql) log
  rw [← hschema] at hexecute
  rw [hprocedure]
  exact hexecute.bind fun _ => ensures_pure fun _ ht => ht

/-- What is watched when units are run that way. -/
def lookoutOf (way : Way) : Lookout LoggedMemory (List String) :=
  { lookout with Marks := entries way }

theorem transaction_hosts (hquiet : notes.Quiet) (name : String) :
    (transactionWith notes name).Hosts Memory.table Memory.textOrder (lookoutOf way) name fun s =>
      s.memory.work.ledger where
  executor := (serves notes .inside).of_ledger
  aside := executor_spares hquiet .inside (fun s name => (s.databases name).ledger) (fun _ _ => rfl)
    (fun _ _ => rfl) .up
  commit x ledger := by
    have hcommit : Ensures
        (fun s => ((fun p => (s.databases p).ledger), s.work.ledger) = (x.1, ledger))
        (Memory.transaction name).commit
        (fun _ t => (fun p => (t.databases p).ledger) = Function.update x.1 name ledger)
        (fun _ t => ((fun p => (t.databases p).ledger), t.work.ledger) = (x.1, ledger)) := by
      simp only [Memory.transaction]
      refine Memory.ensures_step (fun _ _ => rfl) ?_
      intro s y t hs hstep
      cases hstep
      obtain ⟨hledgers, hwork⟩ := Prod.mk.inj hs
      rw [← hledgers, ← hwork]
      funext p
      exact Function.apply_update (fun _ => Database.ledger) s.databases name s.work p
    refine (ensures_logged hcommit [] x.2).weaken ?_ ?_ ?_
    · rintro s ⟨rfl, rfl⟩
      exact ⟨rfl, rfl⟩
    · rintro _ t ⟨hledgers, hlog⟩
      exact Prod.ext hledgers (hlog.trans (List.append_nil x.2))
    · rintro _ t ⟨hledgers, hlog⟩
      exact Prod.ext (Prod.mk.inj hledgers).1 (hlog.trans (List.append_nil x.2))
  rollback := by
    have hrollback : Action.Spares (fun s name => (s.databases name).ledger)
        (Memory.transaction name).rollback := by
      simp only [Memory.transaction]
      refine spares_step (fun _ _ => rfl) fun s x t hstep => ?_
      cases hstep
      rfl
    exact keeps_of_ensures fun x => (spares_logged hrollback x).weaken (fun _ hs => hs)
      (fun _ _ ht => ht) (fun _ _ ht => ht.1)

/-- A migrator that works on these databases: of the two units it may know some, and it need not know
them on the same connections. -/
structure Works (notes : Notes) (m : Migrator LoggedMemory) : Prop where
  known : ∀ u ∈ m.known, u ∈ units
  opened : m.registry.opened = (migratorWith notes).registry.opened
  others : ∀ dialect, m.registry.adapter? dialect = none
  table : ∀ name ∈ ["main", "archive"], m.config.ledgerTableFor name = Memory.table

variable {m : Migrator LoggedMemory}

theorem admits (hquiet : notes.Quiet) (htell : notes.Tell way) (hknown : ∀ u ∈ m.known, u ∈ units)
    {name : String} (htable : m.config.ledgerTableFor name = Memory.table) :
    m.Admits Memory.textOrder (lookoutOf way) way name (connectionWith notes name) where
  executor := by
    rw [htable]
    exact (serves notes (.shared name)).of_ledger
  aside := by
    rw [htable]
    refine executor_spares hquiet (.shared name)
      (fun s => fun other : { n // n ≠ name } => (s.databases other).ledger)
      (fun _ _ => rfl) (fun db s => ?_) way
    funext other
    exact congrArg Database.ledger (Function.update_of_ne other.2 _ _)
  direct u hu _ _ := by
    refine leaves htell (.shared name) (fun s other => (s.databases other).ledger)
      (fun _ _ => rfl) ?_ (hknown u hu) rfl
    intro db s hdb
    funext other
    refine (Function.apply_update (fun _ => Database.ledger) s.databases name db other).trans ?_
    rw [hdb]
    exact congrFun (Function.update_eq_self name _) other
  begin x := by
    have hbegin : Ensures (fun s => (fun p => (s.databases p).ledger) = x.1)
        (Memory.connection name).begin
        (fun _ t => (fun p => (t.databases p).ledger) = x.1 ∧ t.work.ledger = x.1 name)
        (fun _ t => (fun p => (t.databases p).ledger) = x.1) := by
      simp only [Memory.connection]
      refine Memory.ensures_step (fun _ _ => rfl) ?_
      intro s tx t hs hstep
      cases hstep
      exact ⟨hs, congrFun hs name⟩
    refine ((ensures_logged hbegin [] x.2).weaken (fun _ hs => Prod.mk.inj hs) (fun _ _ ht => ht)
      ?_).bind fun _ => ensures_pure ?_
    · rintro _ t ⟨hledgers, hlog⟩
      exact Prod.ext hledgers (hlog.trans (List.append_nil x.2))
    · rintro t ⟨⟨hledgers, hwork⟩, hlog⟩
      refine ⟨Prod.ext hledgers (hlog.trans (List.append_nil x.2)),
        fun s => s.memory.work.ledger, hwork, ?_, ?_, ?_⟩
      · rw [htable]
        exact transaction_hosts hquiet name
      · rw [htable]
        exact executor_spares hquiet .inside (fun s name => (s.databases name).ledger)
          (fun _ _ => rfl) (fun _ _ => rfl) way
      · intro u hu _ _
        refine leaves htell .inside
          (fun s => (s.work.ledger, fun p => (s.databases p).ledger)) (fun _ _ => rfl)
          ?_ (hknown u hu) rfl
        intro db s hdb
        exact Prod.ext hdb rfl

/-- A registry that has these connections, and makes no others, hands out what is asked for or fails
plainly. -/
theorem ensures_get_opened {β : Type} {see : LoggedMemory → β} {r : Registry LoggedMemory}
    {connection : String → Connection LoggedMemory}
    (hopened : r.opened = ["main", "archive"].map fun name => (name, connection name))
    (hothers : ∀ dialect, r.adapter? dialect = none) {good : String → Connection LoggedMemory → Prop}
    (hgood : ∀ name ∈ ["main", "archive"], good name (connection name)) (name : String) (x : β) :
    Ensures (see · = x) (r.get name) (fun c s => see s = x ∧ good name c)
      (fun e s => see s = x ∧ e.IsPlain) := by
  unfold Registry.get
  split
  · rename_i c hc
    rw [hopened] at hc
    obtain ⟨hname, rfl⟩ := Memory.lookup_opened ["main", "archive"] hc
    exact ensures_pure fun s hs => ⟨hs, hgood name hname⟩
  · refine ensures_ofExcept_bind (fun found _ => ?_) fun _ _ hs => ⟨hs, trivial⟩
    simp only [Registry.connect, hothers]
    exact ensures_throw fun _ hs => ⟨hs, trivial⟩

/-- The registry hands out the connections that admit units. -/
theorem Works.ensures_get (h : Works notes m) (hquiet : notes.Quiet) (htell : notes.Tell way)
    (name : String) (x : Watched (List String)) :
    Ensures ((lookoutOf way).see · = x) (m.registry.get name)
      (fun c s => (lookoutOf way).see s = x ∧
        m.Admits Memory.textOrder (lookoutOf way) way name c)
      (fun e s => (lookoutOf way).see s = x ∧ e.IsPlain) :=
  ensures_get_opened h.opened h.others
    (fun name hname => admits hquiet htell h.known (h.table name hname)) name x

theorem Works.hosting (h : Works notes m) (hquiet : notes.Quiet) (htell : notes.Tell .up) :
    m.Hosting Memory.textOrder (lookoutOf .up) :=
  fun name x => (h.ensures_get hquiet htell name x).weaken (fun _ hs => hs)
    (fun _ _ hs => ⟨hs.1, hs.2.hosted⟩) (fun _ _ hs => hs)

theorem works_migratorWith (notes : Notes) : Works notes (migratorWith notes) where
  known u hu := by rwa [known_migratorWith] at hu
  opened := rfl
  others _ := rfl
  table := (by decide : ∀ name ∈ ["main", "archive"], migrator.config.ledgerTableFor name = _)

theorem hosting : migrator.Hosting Memory.textOrder lookout :=
  (works_migratorWith installed).hosting quiet_installed tell_installed

end LoggedMemory

end Relational
