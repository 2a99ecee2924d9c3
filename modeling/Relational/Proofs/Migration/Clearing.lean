import Mathlib.Data.List.Infix
import Relational.Proofs.Migration.Stepwise
/-
What a fresh start drops, and what it leaves.

All tables of a connection are dropped that its dialect lists.  SQLite lists them by a
pattern, which is to leave out the engine's own tables; but an underscore stands for any
character there, so it leaves out every table whose name goes on behind `sqlite`.  A ledger
of such a name is not dropped, and keeps its rows (`Wiped.rows_eq`).

`Clearing` says what is relied on: every table is listed but those, and dropping one takes
it out of its own database and does nothing else.  Connections are visited one after the
other, so what one lists must not depend on what the ones before it have dropped; that is
why each is asked to have a database of its own.
-/
namespace Relational

open Action

variable {σ δ : Type}

/-! ### Patterns -/

/-- Whether a text is like a pattern: an underscore stands for any character, a percent sign for any
text, and capital letters are like small ones. -/
def Text.isLike : List Char → List Char → Bool
  | [], text => text.isEmpty
  | '%' :: pattern, text => text.tails.any (isLike pattern)
  | '_' :: pattern, text => text.tail?.any (isLike pattern)
  | c :: pattern, text => text.head?.any (·.toLower == c.toLower) && isLike pattern text.tail

namespace Text

/-- Characters that stand for themselves are there in this or the other case. -/
theorem isLike_append {stem pattern text : List Char} (hplain : ∀ c ∈ stem, c ≠ '%' ∧ c ≠ '_') :
    isLike (stem ++ pattern) text = true ↔ ∃ front rest, text = front ++ rest ∧
      front.map Char.toLower = stem.map Char.toLower ∧ isLike pattern rest = true := by
  induction stem generalizing text with
  | nil => simp
  | cons c stem ih =>
      obtain ⟨⟨hpercent, hunderscore⟩, hstem⟩ := List.forall_mem_cons.mp hplain
      rw [List.cons_append, isLike.eq_4 _ _ _ hpercent hunderscore]
      cases text with
      | nil => simp
      | cons d text =>
          simp only [List.head?_cons, Option.any_some, List.tail_cons, Bool.and_eq_true, beq_iff_eq,
            ih hstem]
          constructor
          · rintro ⟨hd, front, rest, rfl, hfront, hrest⟩
            exact ⟨d :: front, rest, rfl, by simp [hd, hfront], hrest⟩
          · rintro ⟨_ | ⟨e, front⟩, rest, htext, hfront, hrest⟩
            · simp at hfront
            · obtain ⟨rfl, rfl⟩ := List.cons.inj htext
              obtain ⟨he, hfront⟩ := List.cons.inj hfront
              exact ⟨he, front, rest, rfl, hfront, hrest⟩

/-- Behind the stem there is at least one character more. -/
theorem isLike_underscore_percent (text : List Char) :
    isLike ['_', '%'] text = true ↔ text ≠ [] := by
  cases text with
  | nil => simp [isLike]
  | cons c rest => simp [isLike, List.mem_tails]

end Text

namespace Dialect

/-- The names that SQLite does not list are like this. -/
def unlistedPattern : String := "sqlite_%"

theorem listTables_sqlite : listTables .sqlite =
    "SELECT name FROM sqlite_master WHERE type = 'table' AND name NOT LIKE '" ++ unlistedPattern ++
      "' ORDER BY name" := by
  decide +kernel

/-- Whether a table of that name is listed. -/
def listsTable : Dialect → String → Bool
  | sqlite, table => !Text.isLike unlistedPattern.toList table.toList
  | _, _ => true

/-- Any name is left out that goes on behind the name of the engine. -/
theorem listsTable_sqlite_eq_false {table : String} : listsTable .sqlite table = false ↔
    ∃ stem c rest, table.toList = stem ++ c :: rest ∧ stem.map Char.toLower = "sqlite".toList := by
  have hpattern : unlistedPattern.toList = "sqlite".toList ++ ['_', '%'] := rfl
  have hlower : "sqlite".toList.map Char.toLower = "sqlite".toList := by decide +kernel
  simp only [listsTable, Bool.not_eq_false', hpattern]
  rw [Text.isLike_append (by simp), hlower]
  constructor
  · rintro ⟨stem, _ | ⟨c, rest⟩, htable, hstem, hrest⟩
    · exact absurd rfl ((Text.isLike_underscore_percent _).mp hrest)
    · exact ⟨stem, c, rest, htable, hstem⟩
  · rintro ⟨stem, c, rest, htable, hstem⟩
    exact ⟨stem, c :: rest, htable, hstem,
      (Text.isLike_underscore_percent _).mpr (List.cons_ne_nil c rest)⟩

end Dialect

/-! ### What is watched -/

/-- What is watched of tables. -/
structure Inventory (σ : Type) where
  /-- The dialect of a connection. -/
  dialect : String → Dialect
  /-- The names of all tables of a database, its ledger among them. -/
  tables : σ → String → List String

/-- The ledgers, and the names of the tables, of all databases. -/
abbrev Survey : Type := (String → Option (List LedgerRow)) × (String → List String)

/-- What is watched of ledgers and tables. -/
def Lookout.survey (w : Lookout σ δ) (v : Inventory σ) (s : σ) : Survey :=
  (w.ledgers s, v.tables s)

theorem Executor.executeAll_append (e : Executor σ) (first second : List String) :
    e.executeAll (first ++ second) = e.executeAll first >>= fun _ => e.executeAll second :=
  List.forM_append

namespace Survey

/-- Behind `y`, tables of these names have been dropped from a database: its ledger is gone if it is
one of them, and other databases are as they were. -/
structure Drops (place ledger : String) (tables : List String) (x y : Survey) : Prop where
  ledgers : y.1 = Function.update x.1 place (if ledger ∈ tables then none else x.1 place)
  tables : ∀ other, other ≠ place → y.2 other = x.2 other

variable {place ledger : String} {x y z : Survey}

theorem Drops.nil (x : Survey) : Drops place ledger [] x x :=
  ⟨by simp, fun _ _ => rfl⟩

theorem Drops.cons {table : String} {tables : List String} (h : Drops place ledger [table] x y)
    (hrest : Drops place ledger tables y z) : Drops place ledger (table :: tables) x z := by
  refine ⟨?_, fun other hother => (hrest.tables other hother).trans (h.tables other hother)⟩
  rw [hrest.ledgers, h.ledgers, Function.update_idem, Function.update_self]
  congr 1
  by_cases htable : ledger = table
  · simp [htable]
  · simp [htable]

theorem Drops.elsewhere {tables : List String} (h : Drops place ledger tables x y) {other : String}
    (hother : other ≠ place) : y.1 other = x.1 other := by
  rw [h.ledgers, Function.update_of_ne hother]

end Survey

namespace Migrator

variable {m : Migrator σ} {w : Lookout σ δ} {v : Inventory σ}

/-- A connection whose tables can be listed and dropped.  The listing is of those that the dialect
lists.  Dropping one of them takes the ledger away if it is the ledger, and does nothing to other
databases; switching foreign keys does nothing to any.  Nothing is said of what fails. -/
structure Cleared (m : Migrator σ) (w : Lookout σ δ) (v : Inventory σ) (name : String)
    (c : Connection σ) : Prop where
  dialect : c.executor.dialect = v.dialect name
  lists : ∀ x, Ensures (w.survey v · = x) (c.executor.query (v.dialect name).listTables [])
    (fun rows t => w.survey v t = x ∧ rows.filterMap Schema.firstText? =
      (x.2 (w.place name)).filter (v.dialect name).listsTable) (fun _ _ => True)
  drops : ∀ table, (∃ s, table ∈ v.tables s (w.place name)) → ∀ x, Ensures (w.survey v · = x)
    (c.executor.execute ((v.dialect name).dropTableForWipe table) [])
    (fun _ t => Survey.Drops (w.place name) (m.config.ledgerTableFor name) [table] x (w.survey v t))
    (fun _ _ => True)
  switches : ∀ sql ∈ (v.dialect name).disableForeignKeys.toList ++
      (v.dialect name).enableForeignKeys.toList,
    ∀ x, Ensures (w.survey v · = x) (c.executor.execute sql []) (fun _ t => w.survey v t = x)
      (fun _ _ => True)

/-- Tables can be listed and dropped on every connection that the registry hands out, and a ledger is
one of the tables of its database. -/
structure Clearing (m : Migrator σ) (w : Lookout σ δ) (v : Inventory σ) : Prop where
  ledger : ∀ s name, (w.ledgers s (w.place name)).isSome = true →
    m.config.ledgerTableFor name ∈ v.tables s (w.place name)
  connection : ∀ name x, Ensures (w.survey v · = x) (m.registry.get name)
    (fun c t => w.survey v t = x ∧ m.Cleared w v name c) (fun _ _ => True)

/-- The tables that are listed on a connection. -/
def listed (w : Lookout σ δ) (v : Inventory σ) (x : Survey) (name : String) : List String :=
  (x.2 (w.place name)).filter (v.dialect name).listsTable

/-! ### One connection -/

theorem ensures_tables {name : String} {c : Connection σ} (hc : m.Cleared w v name c) (x : Survey) :
    Ensures (w.survey v · = x) ({ executor := c.executor } : Schema σ).tables
      (fun tables t => w.survey v t = x ∧ tables = listed w v x name) (fun _ _ => True) := by
  have hlists := hc.lists x
  rw [← hc.dialect] at hlists
  refine hlists.bind fun rows => ensures_pure ?_
  rintro t ⟨ht, hrows⟩
  rw [listed, ← hc.dialect]
  exact ⟨ht, hrows⟩

/-- Statements that change neither tables nor rows. -/
theorem ensures_executeAll_switches {name : String} {c : Connection σ} (hc : m.Cleared w v name c)
    {statements : List String} (hsub : statements ⊆ (v.dialect name).disableForeignKeys.toList ++
      (v.dialect name).enableForeignKeys.toList) (x : Survey) :
    Ensures (w.survey v · = x) (c.executor.executeAll statements) (fun _ t => w.survey v t = x)
      (fun _ _ => True) :=
  ensures_forM statements fun sql hsql => (hc.switches sql (hsub hsql) x).discard

theorem ensures_executeAll_drops {name : String} {c : Connection σ} (hc : m.Cleared w v name c)
    {tables : List String} (htables : ∀ table ∈ tables, ∃ s, table ∈ v.tables s (w.place name))
    (x : Survey) :
    Ensures (w.survey v · = x)
      (c.executor.executeAll (tables.map (v.dialect name).dropTableForWipe))
      (fun _ t => Survey.Drops (w.place name) (m.config.ledgerTableFor name) tables x (w.survey v t))
      (fun _ _ => True) := by
  induction tables generalizing x with
  | nil =>
      refine ensures_pure ?_
      rintro s rfl
      exact .nil _
  | cons table rest ih =>
      obtain ⟨htable, hrest⟩ := List.forall_mem_cons.mp htables
      have hdrop : Ensures (w.survey v · = x)
          (c.executor.executeText ((v.dialect name).dropTableForWipe table))
          (fun _ t => Survey.Drops (w.place name) (m.config.ledgerTableFor name) [table] x
            (w.survey v t)) (fun _ _ => True) := (hc.drops table htable x).discard
      refine hdrop.bind fun _ s hs => ?_
      exact ((ih hrest (w.survey v s)).weaken (fun _ ht => ht) (fun _ _ ht => hs.cons ht)
        fun _ _ ht => ht) s rfl

/-- Dropping all tables of a connection drops those that are listed. -/
theorem ensures_dropAll {name : String} {c : Connection σ} (hc : m.Cleared w v name c) (x : Survey) :
    Ensures (w.survey v · = x) ({ executor := c.executor } : Schema σ).dropAll
      (fun tables t => tables = listed w v x name ∧
        Survey.Drops (w.place name) (m.config.ledgerTableFor name) tables x (w.survey v t))
      (fun _ _ => True) := by
  rintro s rfl
  refine ((ensures_tables hc (w.survey v s)).bind fun tables =>
    Ensures.of_imp fun htables => ?_) s rfl
  have hoccur : ∀ table ∈ tables, ∃ s, table ∈ v.tables s (w.place name) := fun table htable =>
    ⟨s, (List.mem_filter.mp (htables ▸ htable)).1⟩
  have hscript : Ensures (w.survey v · = w.survey v s)
      (c.executor.executeAll ((v.dialect name).disableForeignKeys.toList ++
        tables.map (v.dialect name).dropTableForWipe ++ (v.dialect name).enableForeignKeys.toList))
      (fun _ t => Survey.Drops (w.place name) (m.config.ledgerTableFor name) tables (w.survey v s)
        (w.survey v t)) (fun _ _ => True) := by
    rw [Executor.executeAll_append, Executor.executeAll_append, bind_assoc]
    refine (ensures_executeAll_switches hc (List.subset_append_left _ _) _).bind fun _ => ?_
    refine (ensures_executeAll_drops hc hoccur _).bind fun _ r hr => ?_
    exact ((ensures_executeAll_switches hc (List.subset_append_right _ _) (w.survey v r)).weaken
      (fun _ ht => ht) (fun _ t (ht : w.survey v t = w.survey v r) => ht ▸ hr) fun _ _ ht => ht) r rfl
  have hwhole : Ensures (w.survey v · = w.survey v s)
      (c.executor.executeScript ((v.dialect name).disableForeignKeys.toList ++
          tables.map (v.dialect name).dropTableForWipe ++ (v.dialect name).enableForeignKeys.toList)
        (v.dialect name).enableForeignKeys.toList)
      (fun _ t => Survey.Drops (w.place name) (m.config.ledgerTableFor name) tables (w.survey v s)
        (w.survey v t)) (fun _ _ => True) :=
    hscript.tryCatch fun _ => (ensures_any _).bind fun _ => ensures_throw fun _ _ => trivial
  dsimp only
  rw [hc.dialect]
  exact hwhole.bind fun _ => ensures_pure fun _ ht => ⟨htables, ht⟩

theorem ensures_dropTables (hpretend : m.pretend = false) (hclear : m.Clearing w v) (name : String)
    (x : Survey) :
    Ensures (w.survey v · = x) (m.dropTables name)
      (fun tables t => tables = listed w v x name ∧
        Survey.Drops (w.place name) (m.config.ledgerTableFor name) tables x (w.survey v t))
      (fun _ _ => True) := by
  refine (hclear.connection name x).bind fun c => Ensures.of_imp fun hc => ?_
  simp only [hpretend, Bool.false_eq_true, if_false]
  exact ensures_dropAll hc x

theorem ensures_dropTables_pretending (hpretend : m.pretend = true) (hclear : m.Clearing w v)
    (name : String) (x : Survey) :
    Ensures (w.survey v · = x) (m.dropTables name)
      (fun tables t => w.survey v t = x ∧ tables = listed w v x name) (fun _ _ => True) := by
  refine (hclear.connection name x).bind fun c => Ensures.of_imp fun hc => ?_
  simp only [hpretend, if_true]
  exact ensures_tables hc x

/-! ### One connection after the other -/

/-- What is left when the tables of some connections have been dropped: ledgers that are not listed,
and whatever is in other databases. -/
structure Wiped (m : Migrator σ) (w : Lookout σ δ) (v : Inventory σ) (names : List String)
    (x y : Survey) : Prop where
  elsewhere : ∀ place, (∀ name ∈ names, w.place name ≠ place) → y.1 place = x.1 place
  ledgers : ∀ name ∈ names, y.1 (w.place name) =
    if m.config.ledgerTableFor name ∈ listed w v x name then none else x.1 (w.place name)

variable {names : List String} {x y : Survey} {name : String}

theorem Wiped.nil (x : Survey) : m.Wiped w v [] x x :=
  ⟨fun _ _ => rfl, nofun⟩

/-- One connection in front of others that have databases of their own. -/
theorem Wiped.cons {z : Survey} (hapart : ∀ other ∈ names, w.place other ≠ w.place name)
    (h : Survey.Drops (w.place name) (m.config.ledgerTableFor name) (listed w v x name) x y)
    (hrest : m.Wiped w v names y z) : m.Wiped w v (name :: names) x z where
  elsewhere place hplace := by
    obtain ⟨hname, hnames⟩ := List.forall_mem_cons.mp hplace
    rw [hrest.elsewhere place hnames, h.elsewhere (Ne.symm hname)]
  ledgers other hother := by
    rcases List.mem_cons.mp hother with rfl | hother
    · rw [hrest.elsewhere _ hapart, h.ledgers, Function.update_self]
    · rw [hrest.ledgers other hother, h.elsewhere (hapart other hother), listed,
        h.tables _ (hapart other hother), ← listed]

/-- Each connection drops what it lists at the start. -/
theorem ensures_mapM_dropTables (hpretend : m.pretend = false) (hclear : m.Clearing w v)
    (hapart : (names.map w.place).Nodup) (x : Survey) :
    Ensures (w.survey v · = x) (names.mapM m.dropTables)
      (fun dropped t => dropped = names.map (listed w v x) ∧ m.Wiped w v names x (w.survey v t))
      (fun _ _ => True) := by
  induction names generalizing x with
  | nil =>
      rw [List.mapM_nil]
      refine ensures_pure ?_
      rintro s rfl
      exact ⟨rfl, .nil _⟩
  | cons name rest ih =>
      rw [List.map_cons, List.nodup_cons] at hapart
      have hother : ∀ other ∈ rest, w.place other ≠ w.place name := fun other hmem heq =>
        hapart.1 (heq ▸ List.mem_map_of_mem hmem)
      rw [List.mapM_cons]
      refine (ensures_dropTables hpretend hclear name x).bind fun tables => ?_
      rintro s ⟨rfl, hs⟩
      refine ((ih hapart.2 (w.survey v s)).bind fun dropped => ensures_pure ?_) s rfl
      rintro t ⟨rfl, hwiped⟩
      refine ⟨?_, .cons hother hs hwiped⟩
      rw [List.map_cons]
      refine congrArg _ (List.map_congr_left fun other hmem => ?_)
      rw [listed, hs.tables _ (hother other hmem), listed]

theorem ensures_mapM_dropTables_pretending (hpretend : m.pretend = true) (hclear : m.Clearing w v)
    (names : List String) (x : Survey) :
    Ensures (w.survey v · = x) (names.mapM m.dropTables)
      (fun dropped t => w.survey v t = x ∧ dropped = names.map (listed w v x))
      (fun _ _ => True) := by
  induction names with
  | nil =>
      rw [List.mapM_nil]
      exact ensures_pure fun s hs => ⟨hs, rfl⟩
  | cons name rest ih =>
      rw [List.mapM_cons]
      refine (ensures_dropTables_pretending hpretend hclear name x).bind fun tables =>
        Ensures.of_imp fun htables => ih.bind fun dropped => ensures_pure ?_
      rintro t ⟨ht, rfl⟩
      exact ⟨ht, by rw [htables, List.map_cons]⟩

/-- A ledger that is not listed keeps its rows, and no other has any. -/
theorem Wiped.rows_eq {s t : σ} (h : m.Wiped w v names (w.survey v s) (w.survey v t))
    (hclear : m.Clearing w v) (hname : name ∈ names) :
    w.rows t (w.place name) =
      if (v.dialect name).listsTable (m.config.ledgerTableFor name) = true then []
      else w.rows s (w.place name) := by
  have hledger : w.ledgers t (w.place name) =
      if m.config.ledgerTableFor name ∈ listed w v (w.survey v s) name then none
      else w.ledgers s (w.place name) := h.ledgers name hname
  have hlisted : m.config.ledgerTableFor name ∈ listed w v (w.survey v s) name ↔
      m.config.ledgerTableFor name ∈ v.tables s (w.place name) ∧
        (v.dialect name).listsTable (m.config.ledgerTableFor name) = true := List.mem_filter
  rw [Lookout.rows, hledger]
  by_cases hlists : (v.dialect name).listsTable (m.config.ledgerTableFor name) = true
  · rw [if_pos hlists]
    by_cases hpresent : (w.ledgers s (w.place name)).isSome = true
    · rw [if_pos (hlisted.mpr ⟨hclear.ledger s name hpresent, hlists⟩), Option.getD_none]
    · rw [Option.not_isSome_iff_eq_none.mp hpresent, ite_self, Option.getD_none]
  · rw [if_neg hlists, if_neg fun hmem => hlists (hlisted.mp hmem).2, Lookout.rows]

end Migrator

namespace LoggedMemory

/-! ### Databases in memory that know their tables -/

/-- Whether the log says last that the unit was run, and not that it was undone. -/
def isInstalled (log : List String) (id : String) : Bool :=
  (log.filter fun entry => entry = id || entry = undoing id).getLast? = some id

/-- The tables of a database, in the order of their names. -/
def tablesOf (s : LoggedMemory) (place : String) : List String :=
  (if place = "archive" ∧ isInstalled s.log "002_events" then ["events"] else []) ++
    (if (s.memory.databases place).ledger.isSome then [Memory.table] else []) ++
      if place = "main" ∧ isInstalled s.log "001_people" then ["people"] else []

/-- The statements that drop one of the tables, or switch the checking of foreign keys. -/
def clearingTexts : List String :=
  ["events", Memory.table, "people"].map (Dialect.dropTableForWipe .sqlite) ++
    ((Dialect.disableForeignKeys .sqlite).toList ++ (Dialect.enableForeignKeys .sqlite).toList)

/-- What such a statement adds to the log. -/
def undone (name sql : String) : List String :=
  if name = "archive" ∧ sql = Dialect.dropTableForWipe .sqlite "events" then [undoing "002_events"]
  else if name = "main" ∧ sql = Dialect.dropTableForWipe .sqlite "people" then
    [undoing "001_people"]
  else []

/-- What it makes of a database. -/
def cleared (db : Database) (sql : String) : Database :=
  if sql = Dialect.dropTableForWipe .sqlite Memory.table then { db with ledger := none } else db

/-- Executes such a statement. -/
def clear (name sql : String) : Action Memory UInt64 :=
  Memory.step fun s =>
    some (0, Memory.Place.store (.shared name) (cleared (s.databases name) sql) s)

variable (notes : Notes)

/-- Lists tables and drops them, besides what is understood anyway. -/
def clearingExecutor (name : String) : Executor LoggedMemory where
  dialect := .sqlite
  query := fun sql bindings =>
    if sql = Dialect.listTables .sqlite then do
      return (tablesOf (← get) name).map fun t => Row.ofList [("name", .text t)]
    else (executorWith notes (.shared name)).query sql bindings
  execute := fun sql bindings =>
    if sql ∈ clearingTexts then logged (undone name sql) (clear name sql)
    else (executorWith notes (.shared name)).execute sql bindings

def clearingConnection (name : String) : Connection LoggedMemory :=
  { connectionWith notes name with executor := clearingExecutor notes name }

/-- The migrator on such connections. -/
def clearingMigrator : Migrator LoggedMemory :=
  { migratorWith notes with
    registry := { (migratorWith notes).registry with
      opened := ["main", "archive"].map fun name => (name, clearingConnection notes name) } }

/-- What there is to be watched of the tables. -/
def inventory : Inventory LoggedMemory where
  dialect := fun _ => .sqlite
  tables := tablesOf

variable {notes : Notes} {way : Way}

theorem query_clearing {name sql : String} (h : sql ≠ Dialect.listTables .sqlite)
    (bindings : List Value) : (clearingExecutor notes name).query sql bindings =
      (executorWith notes (.shared name)).query sql bindings :=
  if_neg h

theorem execute_clearing {name sql : String} (h : sql ∉ clearingTexts) (bindings : List Value) :
    (clearingExecutor notes name).execute sql bindings =
      (executorWith notes (.shared name)).execute sql bindings :=
  if_neg h

/-- Reading a ledger is not listing tables. -/
theorem sql_ne_listTables {k : LedgerQuery} {s : Statement}
    (hs : LedgerQuery.statement .sqlite Memory.table k = .ok s) :
    s.sql ≠ Dialect.listTables .sqlite := by
  have hfront : Memory.newestText.toList.isPrefixOf (Dialect.listTables .sqlite).toList = false := by
    decide +kernel
  cases k with
  | presence =>
      cases hs
      decide +kernel
  | rows =>
      cases Memory.statement_rows.symm.trans hs
      decide +kernel
  | highest =>
      cases Memory.statement_highest.symm.trans hs
      decide +kernel
  | batch n =>
      cases (Memory.statement_batch n).symm.trans hs
      show Memory.batchText ≠ _
      decide +kernel
  | newest n =>
      cases (Memory.statement_newest n).symm.trans hs
      intro heq
      rw [← show Memory.newestText ++ toString n = _ from heq, (Memory.newest_text n).1] at hfront
      cases hfront

/-- Nor is writing one, or installing a unit, dropping a table. -/
theorem clearingTexts_disjoint :
    ∀ sql ∈ Memory.insertText :: Memory.deleteText :: Memory.createTexts, sql ∉ clearingTexts := by
  decide +kernel

/-! ### It serves migrations as well -/

theorem serves_clearing (name : String) :
    (clearingExecutor notes name).Serves Memory.table Memory.textOrder
      fun s => s.memory.databases name where
  reads k s hs db := by
    rw [query_clearing (sql_ne_listTables hs)]
    exact (serves notes (.shared name)).reads k s hs db
  creates l hl htable statements hcompile sql hsql db := by
    rw [Memory.compile_blueprint (by rw [hl]; rfl) htable] at hcompile
    cases hcompile
    rw [execute_clearing (clearingTexts_disjoint sql (by simp [hsql]))]
    exact (serves notes (.shared name)).creates
      { l with executor := executorWith notes (.shared name) } rfl htable Memory.createTexts
      (Memory.compile_blueprint rfl htable) sql hsql db
  inserts r s hs db := by
    have hsql := hs
    cases (Memory.insertSql_row r).symm.trans hs
    rw [execute_clearing (clearingTexts_disjoint _ (by simp))]
    exact (serves notes (.shared name)).inserts r _ hsql db
  deletes id s hs db := by
    have hsql := hs
    cases (Memory.deleteSql_id id).symm.trans hs
    rw [execute_clearing (clearingTexts_disjoint _ (by simp))]
    exact (serves notes (.shared name)).deletes id _ hsql db

theorem sparesFor_clearing {β : Type} {see : LoggedMemory → β} {name : String}
    (h : (executorWith notes (.shared name)).SparesFor Memory.table see way) :
    (clearingExecutor notes name).SparesFor Memory.table see way := by
  have hspares : (clearingExecutor notes name).Spares Memory.table see := by
    refine ⟨fun k s hs => ?_, fun l hl htable statements hcompile sql hsql => ?_, fun r s hs => ?_⟩
    · rw [query_clearing (sql_ne_listTables hs)]
      exact h.spares.reads k s hs
    · rw [Memory.compile_blueprint (by rw [hl]; rfl) htable] at hcompile
      cases hcompile
      rw [execute_clearing (clearingTexts_disjoint sql (by simp [hsql]))]
      exact h.spares.creates { l with executor := executorWith notes (.shared name) } rfl htable
        Memory.createTexts (Memory.compile_blueprint rfl htable) sql hsql
    · have hsql := hs
      cases (Memory.insertSql_row r).symm.trans hs
      rw [execute_clearing (clearingTexts_disjoint _ (by simp))]
      exact h.spares.inserts r _ hsql
  cases way with
  | up => exact hspares
  | down =>
      refine ⟨hspares, fun id s hs => ?_⟩
      have hsql := hs
      cases (Memory.deleteSql_id id).symm.trans hs
      rw [execute_clearing (clearingTexts_disjoint _ (by simp))]
      exact h.2 id _ hsql

/-- Running a unit drops no tables. -/
theorem perform_clearing {name : String} {u : MigrationUnit} (hu : u ∈ units) (way : Way)
    {m : Migrator LoggedMemory} :
    (u.procedure way).perform (m.schemaOn name (clearingExecutor notes name)) =
      (u.procedure way).perform (m.schemaOn name (executorWith notes (.shared name))) := by
  have hother : ∀ u ∈ units, ∀ way, ∃ sql, u.procedure way = .ofStatements [sql] ∧
      sql ∉ clearingTexts := by
    intro u hu way
    simp only [units, List.mem_cons, List.not_mem_nil, or_false] at hu
    rcases hu with rfl | rfl
    · cases way with
      | up => exact ⟨_, rfl, by decide +kernel⟩
      | down => exact ⟨_, rfl, by decide +kernel⟩
    · cases way with
      | up => exact ⟨_, rfl, by decide +kernel⟩
      | down => exact ⟨_, rfl, by decide +kernel⟩
  obtain ⟨sql, hprocedure, hsql⟩ := hother u hu way
  rw [hprocedure]
  show (clearingExecutor notes name).execute sql [] >>= _ = _
  rw [execute_clearing hsql]
  rfl

theorem known_clearingMigrator : (clearingMigrator notes).known = units :=
  known_migratorWith notes

theorem admits_clearing (hquiet : notes.Quiet) (htell : notes.Tell way) (name : String)
    (hname : name ∈ ["main", "archive"]) :
    (clearingMigrator notes).Admits Memory.textOrder (lookoutOf way) way name
      (clearingConnection notes name) := by
  have htable : (clearingMigrator notes).config.ledgerTableFor name = Memory.table :=
    (works_migratorWith notes).table name hname
  have hbase : (clearingMigrator notes).Admits Memory.textOrder (lookoutOf way) way name
      (connectionWith notes name) :=
    admits hquiet htell (fun u hu => by rwa [known_clearingMigrator] at hu) htable
  have haside := hbase.aside
  rw [htable] at haside
  refine ⟨?_, ?_, fun u hu hconnection htransaction k d => ?_, hbase.begin⟩
  · rw [htable]
    exact (serves_clearing name).of_ledger
  · rw [htable]
    exact sparesFor_clearing haside
  · have hsame : (u.procedure way).perform
        ((clearingMigrator notes).schemaOn name (clearingExecutor notes name)) = _ :=
      perform_clearing (by rwa [known_clearingMigrator] at hu) way
    show Action.Ensures _ ((u.procedure way).perform
      ((clearingMigrator notes).schemaOn name (clearingExecutor notes name))) _ _
    rw [hsame]
    exact hbase.direct u hu hconnection htransaction k d

/-! ### Its tables are cleared -/

/-- The tables that there are. -/
def tableNames : List String :=
  ["events", Memory.table, "people"]

theorem mem_tableNames {s : LoggedMemory} {place table : String} (h : table ∈ tablesOf s place) :
    table ∈ tableNames := by
  simp only [tablesOf, List.mem_append, List.mem_ite_nil_right, List.mem_singleton] at h
  rcases h with (⟨-, rfl⟩ | ⟨-, rfl⟩) | ⟨-, rfl⟩
  · simp [tableNames]
  · simp [tableNames]
  · simp [tableNames]

/-- Other entries do not matter. -/
theorem isInstalled_append {log more : List String} {id : String}
    (h : ∀ entry ∈ more, entry ≠ id ∧ entry ≠ undoing id) :
    isInstalled (log ++ more) id = isInstalled log id := by
  have hnone : more.filter (fun entry => entry = id || entry = undoing id) = [] :=
    List.filter_eq_nil_iff.mpr fun entry hentry => by simp [h entry hentry]
  rw [isInstalled, List.filter_append, hnone, List.append_nil, ← isInstalled]

/-- A database has the tables that it had if something is done in another one, or if nothing of it is
undone. -/
theorem tablesOf_eq {s t : LoggedMemory} {place name sql : String}
    (hledger : (t.memory.databases place).ledger = (s.memory.databases place).ledger)
    (hlog : t.log = s.log ++ undone name sql) (hplace : place = name → undone name sql = []) :
    tablesOf t place = tablesOf s place := by
  have hsame : ∀ id, (place = "archive" ∧ id = "002_events" ∨ place = "main" ∧ id = "001_people") →
      isInstalled t.log id = isInstalled s.log id := by
    intro id hid
    rw [hlog]
    refine isInstalled_append fun entry hentry => ?_
    by_cases hname : place = name
    · rw [hplace hname] at hentry
      cases hentry
    · unfold undone at hentry
      split at hentry
      · rename_i hevents
        rcases hid with ⟨rfl, -⟩ | ⟨-, rfl⟩
        · exact absurd hevents.1.symm hname
        · rw [List.mem_singleton.mp hentry]
          decide
      · split at hentry
        · rename_i hpeople
          rcases hid with ⟨-, rfl⟩ | ⟨rfl, -⟩
          · rw [List.mem_singleton.mp hentry]
            decide
          · exact absurd hpeople.1.symm hname
        · cases hentry
  unfold tablesOf
  rw [hledger]
  congr 1
  · congr 1
    by_cases harchive : place = "archive"
    · rw [hsame _ (.inl ⟨harchive, rfl⟩)]
    · simp [harchive]
  · by_cases hmain : place = "main"
    · rw [hsame _ (.inr ⟨hmain, rfl⟩)]
    · simp [hmain]

/-- What becomes of the ledgers, and which databases keep their tables. -/
theorem ensures_execute_clearing {name sql : String} (hsql : sql ∈ clearingTexts) (x : Survey) :
    Ensures ((lookoutOf way).survey inventory · = x)
      ((clearingExecutor notes name).execute sql [])
      (fun _ t => ((lookoutOf way).survey inventory t).1 = Function.update x.1 name
          (if sql = Dialect.dropTableForWipe .sqlite Memory.table then none else x.1 name) ∧
        ∀ place, (place = name → undone name sql = [] ∧
            sql ≠ Dialect.dropTableForWipe .sqlite Memory.table) →
          ((lookoutOf way).survey inventory t).2 place = x.2 place) (fun _ _ => True) := by
  rintro s rfl
  have hexecute : (clearingExecutor notes name).execute sql [] =
      logged (undone name sql) (clear name sql) := if_pos hsql
  have hclear : Ensures
      (fun r : Memory => (fun p => (r.databases p).ledger) = (lookoutOf way).ledgers s)
      (clear name sql)
      (fun _ t => (fun p => (t.databases p).ledger) =
        Function.update ((lookoutOf way).ledgers s) name
          (if sql = Dialect.dropTableForWipe .sqlite Memory.table then none
            else (lookoutOf way).ledgers s name))
      (fun _ _ => True) := by
    refine (Memory.ensures_step (fun _ _ => rfl) ?_).weaken (fun _ hr => hr) (fun _ _ ht => ht)
      fun _ _ _ => trivial
    intro r n t hr hend
    cases hend
    rw [← hr]
    funext place
    refine (Function.apply_update (fun _ => Database.ledger) r.databases name _ place).trans ?_
    congr 1
    rw [cleared]
    split
    · rfl
    · rfl
  rw [hexecute]
  refine ((ensures_logged hclear (undone name sql) s.log).weaken (fun _ hr => hr) ?_
    fun _ _ _ => trivial) s ⟨rfl, rfl⟩
  rintro n t ⟨hledgers, hlog⟩
  refine ⟨hledgers, fun place hplace => tablesOf_eq ?_ hlog fun hname => (hplace hname).1⟩
  refine (congrFun hledgers place).trans ?_
  by_cases hname : place = name
  · rw [if_neg (hplace hname).2, Function.update_eq_self]
    rfl
  · rw [Function.update_of_ne hname]
    rfl

/-- Its tables can be listed and dropped. -/
theorem cleared_clearing (name : String) (hname : name ∈ ["main", "archive"]) :
    (clearingMigrator notes).Cleared (lookoutOf way) inventory name
      (clearingConnection notes name) where
  dialect := rfl
  lists x := by
    rintro s rfl
    have hquery : (clearingConnection notes name).executor.query
        (inventory.dialect name).listTables [] =
          (do return (tablesOf (← get) name).map fun t => Row.ofList [("name", .text t)]) := by
      simp only [clearingConnection, clearingExecutor, inventory, if_true]
    have hlisted : ∀ table ∈ tablesOf s name, Dialect.listsTable .sqlite table = true :=
      fun table htable => (by decide +kernel :
        ∀ table ∈ tableNames, Dialect.listsTable .sqlite table = true) table (mem_tableNames htable)
    rw [hquery]
    refine ⟨rfl, ?_⟩
    rw [List.filterMap_map]
    exact List.filterMap_some.trans (List.filter_eq_self.mpr hlisted).symm
  drops table htable x := by
    obtain ⟨s, hs⟩ := htable
    have hmem := mem_tableNames hs
    have hsql : Dialect.dropTableForWipe .sqlite table ∈ clearingTexts :=
      List.mem_append_left _ (List.mem_map_of_mem hmem)
    have hledger : Dialect.dropTableForWipe .sqlite table =
        Dialect.dropTableForWipe .sqlite Memory.table ↔ Memory.table ∈ [table] :=
      (by decide +kernel : ∀ table ∈ tableNames, Dialect.dropTableForWipe .sqlite table =
        Dialect.dropTableForWipe .sqlite Memory.table ↔ Memory.table ∈ [table]) table hmem
    refine (ensures_execute_clearing hsql x).weaken (fun _ hs => hs) ?_ fun _ _ ht => ht
    rintro n t ⟨hledgers, htables⟩
    have htable : (clearingMigrator notes).config.ledgerTableFor name = Memory.table :=
      (works_migratorWith notes).table name hname
    refine ⟨?_, fun other hother => htables other fun hsame => absurd hsame hother⟩
    rw [htable, hledgers]
    simp only [hledger]
    rfl
  switches sql hsql x := by
    have hplain : ∀ name ∈ ["main", "archive"], undone name sql = [] ∧
        sql ≠ Dialect.dropTableForWipe .sqlite Memory.table := 
      (by decide +kernel : ∀ sql ∈ (Dialect.disableForeignKeys .sqlite).toList ++
          (Dialect.enableForeignKeys .sqlite).toList, ∀ name ∈ ["main", "archive"],
        undone name sql = [] ∧ sql ≠ Dialect.dropTableForWipe .sqlite Memory.table) sql hsql
    refine (ensures_execute_clearing (List.mem_append_right _ hsql) x).weaken (fun _ hs => hs) ?_
      fun _ _ ht => ht
    rintro n t ⟨hledgers, htables⟩
    refine Prod.ext ?_ (funext fun place => htables place fun _ => hplain name hname)
    rw [hledgers, if_neg (hplain name hname).2, Function.update_eq_self]

theorem clearing : (clearingMigrator notes).Clearing (lookoutOf way) inventory where
  ledger s name hsome := by
    have htable : (clearingMigrator notes).config.ledgerTableFor name = Memory.table := by
      have hnone : ((clearingMigrator notes).config.settings? name).bind (·.ledgerTable) = none := by
        refine Option.bind_eq_none_iff.mpr fun settings hsettings => ?_
        have hfound : (["main", "archive"].map fun n =>
            (n, ({ dialect := .sqlite } : ConnectionConfig))).lookup name = some settings := hsettings
        rw [(Memory.lookup_opened _ hfound).2]
      rw [Config.ledgerTableFor, hnone]
      rfl
    refine List.mem_append_left _ (List.mem_append_right _ ?_)
    rw [htable]
    exact List.mem_ite_nil_right.mpr ⟨hsome, List.mem_singleton_self _⟩
  connection name x := (ensures_get_opened rfl (fun _ => rfl)
    (fun name hname => cleared_clearing name hname) name x).weaken (fun _ hs => hs)
    (fun _ _ hc => hc) fun _ _ _ => trivial

end LoggedMemory

end Relational
