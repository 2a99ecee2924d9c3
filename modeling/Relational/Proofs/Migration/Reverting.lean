import Relational.Proofs.Migration.Applying
/-
What a run that reverts units has done when it ends.

A run visits one connection after the other and asks each ledger anew what to revert, so
what it takes of a ledger depends on what it has taken out before, should connections
share one.  `Swept` says which units a run has reverted behind some connections, in that
order, and `Retreat` what is left in the ledgers: everything but the rows of those units.
A run that fails has stopped at looking something up or at a unit, which is `Halted`.
-/
namespace Relational

open Action

variable {σ δ : Type}

namespace Migrator

/-- Every connection the registry hands out admits that units are reverted.  Getting it changes
nothing, and can only fail plainly. -/
def Yielding (m : Migrator σ) (le : String → String → Bool) (w : Lookout σ δ) : Prop :=
  ∀ name x, Ensures (w.see · = x) (m.registry.get name)
    (fun c s => w.see s = x ∧ m.Admits le w .down name c) (fun e s => w.see s = x ∧ e.IsPlain)

/-- The rows that are left when units are reverted: in the ledgers that these belong to, none of
theirs. -/
def without (m : Migrator σ) (w : Lookout σ δ) (units : List MigrationUnit)
    (rows : String → List LedgerRow) : String → List LedgerRow :=
  fun place => (rows place).filter fun r => ∀ u ∈ units, m.placeOf w u = place → r.identifier ≠ u.id

variable {m : Migrator σ} {le : String → String → Bool} {w : Lookout σ δ}

theorem Yielding.stamped (h : m.Yielding le w) (now : Instant) :
    ({ m with now } : Migrator σ).Yielding le w :=
  fun name x => (h name x).weaken (fun _ hs => hs)
    (fun _ _ hc => ⟨hc.1, hc.2.executor, hc.2.aside, hc.2.direct, hc.2.begin⟩) (fun _ _ hs => hs)

theorem without_nil (rows : String → List LedgerRow) : m.without w [] rows = rows := by
  funext place
  simp [without]

theorem without_append (units more : List MigrationUnit) (rows : String → List LedgerRow) :
    m.without w (units ++ more) rows = m.without w more (m.without w units rows) := by
  funext place
  rw [without, without, without, List.filter_filter]
  refine List.filter_congr fun r _ => ?_
  rw [← Bool.decide_and]
  refine decide_eq_decide.mpr ⟨fun h => ⟨fun u hu => h u (List.mem_append_right _ hu),
    fun u hu => h u (List.mem_append_left _ hu)⟩, fun h u hu => ?_⟩
  exact (List.mem_append.mp hu).elim (h.2 u) (h.1 u)

/-- One more unit is taken out of its ledger. -/
theorem without_snoc (units : List MigrationUnit) (u : MigrationUnit)
    (rows : String → List LedgerRow) :
    m.without w (units ++ [u]) rows = Function.update (m.without w units rows) (m.placeOf w u)
      ((m.without w units rows (m.placeOf w u)).filter (·.identifier ≠ u.id)) := by
  rw [without_append]
  funext place
  by_cases hplace : place = m.placeOf w u
  · subst hplace
    rw [Function.update_self, without]
    simp
  · rw [Function.update_of_ne hplace, without]
    exact List.filter_eq_self.mpr fun r _ => by simp [Ne.symm hplace]

theorem mem_of_mem_without {units : List MigrationUnit} {rows : String → List LedgerRow}
    {place : String} {r : LedgerRow} (h : r ∈ m.without w units rows place) : r ∈ rows place :=
  (List.mem_filter.mp h).1

/-! ### Looking up -/

/-- What reads one ledger and spares the rest changes nothing. -/
theorem ensures_reading {α : Type} {a : Action σ α} {place : String} {x : Watched δ}
    (ok : α → Prop)
    (h : ∀ db, db = { ledger := x.1 place } → Ensures (w.database place · = db) a
      (fun y t => w.database place t = db ∧ ok y) (fun _ t => w.database place t = db))
    (hspares : Action.Spares (fun s => (w.see s).beside place) a) :
    Ensures (w.see · = x) a (fun y t => w.see t = x ∧ ok y) (fun e t => w.see t = x ∧ e.IsPlain) := by
  have hsame : ∀ t, w.see t = (Function.update x.1 place (x.1 place), x.2) → w.see t = x := by
    intro t ht
    rw [ht, Function.update_eq_self]
  refine (ensures_see (fun y ledger => ledger = x.1 place ∧ ok y) (fun ledger => ledger = x.1 place)
    ((h _ rfl).weaken (fun t ht => congrArg (Database.mk · ∅) ht)
      (fun y t ht => ⟨congrArg Database.ledger ht.1, ht.2⟩)
      (fun _ t ht => congrArg Database.ledger ht)) hspares).weaken (fun _ hs => hs) ?_ ?_
  · rintro y t ⟨_, ⟨rfl, hy⟩, ht⟩
    exact ⟨hsame t ht, hy⟩
  · rintro e t ⟨⟨_, rfl, ht⟩, hplain⟩
    exact ⟨hsame t ht, hplain⟩

/-- The units that are reverted on a connection whose ledger holds these rows, in that order. -/
def Picked (m : Migrator σ) (le : String → String → Bool) (scope : Scope) (name : String)
    (stored : List LedgerRow) (units : List MigrationUnit) : Prop :=
  ∃ picked, scope.Picks le stored picked ∧ units = picked.filterMap (m.unitOf? m.known name)

theorem mem_of_unitOf? {units : List MigrationUnit} {name : String} {row : AppliedUnit}
    {u : MigrationUnit} (h : m.unitOf? units name row = some u) :
    u ∈ units ∧ m.connectionName u = name ∧ u.id = row.identifier := by
  have hfound := List.find?_some h
  simp only [Bool.and_eq_true, beq_iff_eq] at hfound
  exact ⟨List.mem_of_find?_eq_some h, hfound.2, hfound.1⟩

/-- What is reverted on a connection are known units that run there. -/
theorem Picked.of_mem {scope : Scope} {name : String} {stored : List LedgerRow}
    {units : List MigrationUnit} (h : m.Picked le scope name stored units) {u : MigrationUnit}
    (hu : u ∈ units) : u ∈ m.known ∧ m.connectionName u = name := by
  obtain ⟨picked, -, rfl⟩ := h
  obtain ⟨row, -, hrow⟩ := List.mem_filterMap.mp hu
  obtain ⟨hknown, hname, -⟩ := mem_of_unitOf? hrow
  exact ⟨hknown, hname⟩

/-! ### Progress -/

/-- Behind some units: their rows and no others are gone, and they and no others have been run. -/
structure Retreat (m : Migrator σ) (w : Lookout σ δ) (before : String → List LedgerRow) (d : δ)
    (done : List MigrationUnit) (s : σ) : Prop where
  rows : w.rows s = m.without w done before
  ran : Ran w.Marks done d (w.trail s)

/-- A run that was to revert some units has stopped at one, which may have been run but is still
noted. -/
def BrokenOff (m : Migrator σ) (w : Lookout σ δ) (before : String → List LedgerRow) (d : δ)
    (done units : List MigrationUnit) (e : Failure) (t : σ) : Prop :=
  ∃ front u back batch cause, units = front ++ u :: back ∧
    e = .unit u.id batch ((done ++ front).map (·.id)) cause ∧
    w.rows t = m.without w (done ++ front) before ∧
    (Ran w.Marks (done ++ front) d (w.trail t) ∨ Ran w.Marks (done ++ front ++ [u]) d (w.trail t))

/-- The units a run reverts on some connections that it visits in this order. -/
inductive Swept (m : Migrator σ) (le : String → String → Bool) (w : Lookout σ δ) (scope : Scope)
    (before : String → List LedgerRow) : List String → List MigrationUnit → Prop
  | nil : Swept m le w scope before [] []
  | snoc {names : List String} {done units : List MigrationUnit} {name : String}
    (h : Swept m le w scope before names done)
    (hpicked : m.Picked le scope name (m.without w done before (w.place name)) units) :
    Swept m le w scope before (names ++ [name]) (done ++ units)

/-- Where a run that fails has stopped: at looking something up, or at a unit. -/
inductive Halted (m : Migrator σ) (le : String → String → Bool) (w : Lookout σ δ) (scope : Scope)
    (before : String → List LedgerRow) (d : δ) (all : List String) : Failure → σ → Prop
  | lookup {names rest : List String} {name : String} {done : List MigrationUnit} {e : Failure}
    {t : σ} (hsplit : all = names ++ name :: rest) (hswept : m.Swept le w scope before names done)
    (hplain : e.IsPlain) (h : m.Retreat w before d done t) :
    Halted m le w scope before d all e t
  | unit {names rest : List String} {name : String} {done units : List MigrationUnit}
    {e : Failure} {t : σ} (hsplit : all = names ++ name :: rest)
    (hswept : m.Swept le w scope before names done)
    (hpicked : m.Picked le scope name (m.without w done before (w.place name)) units)
    (h : m.BrokenOff w before d done units e t) : Halted m le w scope before d all e t

variable {before : String → List LedgerRow} {d : δ} {done : List MigrationUnit}

theorem Retreat.of_see {s t : σ} (h : m.Retreat w before d done s) (ht : w.see t = w.see s) :
    m.Retreat w before d done t := by
  obtain ⟨hrows, htrail⟩ := rows_of_see ht
  exact ⟨hrows ▸ h.rows, htrail ▸ h.ran⟩

/-- A unit that succeeds takes a run one further. -/
theorem Retreat.snoc {u : MigrationUnit} {s t : σ} (h : m.Retreat w before d done s)
    (ht : Reverted w (m.placeOf w u) u (w.see s) (w.see t)) :
    m.Retreat w before d (done ++ [u]) t := by
  obtain ⟨stored, hstored, hledgers, hmark⟩ := ht
  refine ⟨?_, h.ran.snoc hmark⟩
  have hstored' : w.rows s (m.placeOf w u) = stored := congrArg (·.getD []) hstored
  rw [without_snoc, ← h.rows, hstored']
  funext place
  refine Eq.trans (congrArg (·.getD []) (congrFun hledgers place)) ?_
  by_cases hplace : place = m.placeOf w u
  · rw [hplace, Function.update_self, Function.update_self, Option.getD_some]
  · rw [Function.update_of_ne hplace, Function.update_of_ne hplace]
    rfl

/-- A run that meets a unit which fails has stopped there. -/
theorem Retreat.brokenOff {front back : List MigrationUnit} {u : MigrationUnit} {s t : σ}
    {batch : Int64} {cause : Failure} (h : m.Retreat w before d (done ++ front) s)
    (ht : Failed w u (w.see s) (w.see t)) :
    m.BrokenOff w before d done (front ++ u :: back)
      (.unit u.id batch ((done ++ front).map (·.id)) cause) t := by
  obtain ⟨hledgers, htrail⟩ := ht
  have hrows : w.rows t = w.rows s := rows_eq_of_ledgers hledgers
  refine ⟨front, u, back, batch, cause, rfl, rfl, hrows.trans h.rows, ?_⟩
  rcases htrail with htrail | hmark
  · have hsame : w.trail t = w.trail s := htrail
    exact .inl (hsame ▸ h.ran)
  · exact .inr (h.ran.snoc hmark)

/-- Wherever a run has stopped, rows of some units are gone and nothing else has been done to its
ledgers. -/
theorem Halted.exists_without {scope : Scope} {all : List String} {e : Failure} {t : σ}
    (h : m.Halted le w scope before d all e t) : ∃ kept, w.rows t = m.without w kept before := by
  cases h with
  | lookup _ _ _ h => exact ⟨_, h.rows⟩
  | unit _ _ _ h =>
      obtain ⟨front, u, back, batch, cause, -, -, hrows, -⟩ := h
      exact ⟨_, hrows⟩

/-! ### Runs -/

theorem ensures_revertAll_noted (hpretend : m.pretend = false) {name : String} {c : Connection σ}
    (hc : m.Admits le w .down name c) {rows : List AppliedUnit} {all front : List MigrationUnit}
    (hall : all = front ++ rows.filterMap (m.unitOf? m.known name)) (report : MigrationReport)
    (hreport : report.rolledBack = (done ++ front).map (·.id)) :
    Ensures (m.Retreat w before d (done ++ front)) (m.revertAll m.known name c report rows)
      (fun report t => report.rolledBack = (done ++ all).map (·.id) ∧
        m.Retreat w before d (done ++ all) t)
      (m.BrokenOff w before d done all) := by
  induction rows generalizing front report with
  | nil =>
      rw [List.filterMap_nil, List.append_nil] at hall
      subst hall
      exact ensures_pure fun s hs => ⟨hreport, hs⟩
  | cons row rest ih =>
      unfold revertAll
      split
      · rename_i hnone
        refine ih ?_ report hreport
        rw [hall, List.filterMap_cons, hnone]
      · rename_i u hu
        intro s hs
        obtain ⟨hknown, hname, -⟩ := mem_of_unitOf? hu
        have hplace : w.place name = m.placeOf w u := by rw [placeOf, hname]
        rw [List.filterMap_cons, hu] at hall
        refine ((ensures_runNext_noted hpretend hc hknown hname _ _ (w.see s)).weaken
          (fun _ hr => hr) (fun _ _ ht => ht.reverted) ?_).bind (fun pretended t ht => ?_) s rfl
        · rintro _ t ⟨⟨cause, rfl⟩, ht⟩
          rw [hreport, hall]
          exact hs.brokenOff ht
        · rw [hplace] at ht
          have hmore : all = (front ++ [u]) ++ rest.filterMap (m.unitOf? m.known name) := by
            rw [hall, List.append_assoc]
            rfl
          refine ih hmore _ ?_ t ?_
          · rw [← List.append_assoc, List.map_append, ← hreport]
            rfl
          · rw [← List.append_assoc]
            exact hs.snoc ht

/-- A connection reverts what its ledger is picked for. -/
theorem ensures_revertOn_of (henv : m.Yielding le w) (scope : Scope) (name : String)
    (report : MigrationReport) {x : Watched δ} {ok : MigrationReport → σ → Prop}
    {failed : Failure → σ → Prop} (hplain : ∀ e t, w.see t = x → e.IsPlain → failed e t)
    (hrun : ∀ c picked, m.Admits le w .down name c →
      scope.Picks le ((x.1 (w.place name)).getD []) picked →
      Ensures (w.see · = x) (m.revertAll m.known name c report picked) ok failed) :
    Ensures (w.see · = x) (m.revertOn m.known scope report name) ok failed := by
  have hread : ∀ {α : Type} {a : Action σ α} {read : α → Prop},
      Ensures (w.see · = x) a (fun y t => w.see t = x ∧ read y)
        (fun e t => w.see t = x ∧ e.IsPlain) →
      Ensures (w.see · = x) a (fun y t => w.see t = x ∧ read y) failed :=
    fun h => h.weaken (fun _ hr => hr) (fun _ _ hr => hr) (fun e t hr => hplain e t hr.1 hr.2)
  refine (hread (henv name x)).bind fun c => Ensures.of_imp fun hc => ?_
  have hl : (m.ledger name c.executor).executor.Serves (m.ledger name c.executor).table le
    (w.database (w.place name)) := hc.executor
  have haside : (m.ledger name c.executor).executor.Spares (m.ledger name c.executor).table
    fun s => (w.see s).beside (w.place name) := hc.aside.spares
  refine (hread (ensures_reading (fun present => present = (x.1 (w.place name)).isSome) ?_
    (Ledger.spares_isPresent haside))).bind fun present => Ensures.of_imp fun hpresent => ?_
  · rintro _ rfl
    exact Ledger.ensures_isPresent hl
  split
  · refine (hread (ensures_reading (scope.Picks le ((x.1 (w.place name)).getD [])) ?_
      (Ledger.spares_targets haside scope))).bind fun picked => Ensures.of_imp fun hpicks =>
        hrun c picked hc hpicks
    rintro _ rfl
    exact Ledger.ensures_targets hl scope
  · -- Without a ledger it is as if there were nothing to revert.
    rename_i hmissing
    have hledger : x.1 (w.place name) = none := by
      rw [hpresent] at hmissing
      simpa using hmissing
    refine hrun c [] hc ?_
    rw [hledger]
    exact scope.picks_nil le

/-- Behind some connections, the next one gives up what is left in its ledger. -/
theorem ensures_revertOn_noted (hpretend : m.pretend = false) (henv : m.Yielding le w)
    (scope : Scope) (name : String) (report : MigrationReport)
    (hreport : report.rolledBack = done.map (·.id)) :
    Ensures (m.Retreat w before d done) (m.revertOn m.known scope report name)
      (fun report t => ∃ units,
        m.Picked le scope name (m.without w done before (w.place name)) units ∧
        report.rolledBack = (done ++ units).map (·.id) ∧ m.Retreat w before d (done ++ units) t)
      (fun e t => (e.IsPlain ∧ m.Retreat w before d done t) ∨ ∃ units,
        m.Picked le scope name (m.without w done before (w.place name)) units ∧
        m.BrokenOff w before d done units e t) := by
  intro s hs
  refine ensures_revertOn_of henv scope name report
    (fun _ _ ht hplain => .inl ⟨hplain, hs.of_see ht⟩) (fun c picked hc hpicks => ?_) s rfl
  have hpicked : m.Picked le scope name (m.without w done before (w.place name))
      (picked.filterMap (m.unitOf? m.known name)) := by
    refine ⟨picked, ?_, rfl⟩
    rw [← hs.rows]
    exact hpicks
  refine (@ensures_revertAll_noted σ δ m le w before d done hpretend name c hc picked _ [] rfl
    report (by rwa [List.append_nil])).weaken (fun t ht => ?_)
    (fun report t ht => ⟨_, hpicked, ht⟩) (fun e t ht => .inr ⟨_, hpicked, ht⟩)
  rw [List.append_nil]
  exact hs.of_see ht

/-- However far a run gets, it has reverted what the connections behind it gave up. -/
theorem ensures_sweep (hpretend : m.pretend = false) (henv : m.Yielding le w) (scope : Scope)
    {all visited rest : List String} (hall : all = visited ++ rest)
    (hswept : m.Swept le w scope before visited done) (report : MigrationReport)
    (hreport : report.rolledBack = done.map (·.id)) :
    Ensures (m.Retreat w before d done) (rest.foldlM (m.revertOn m.known scope) report)
      (fun report t => ∃ units, m.Swept le w scope before all units ∧
        report.rolledBack = units.map (·.id) ∧ m.Retreat w before d units t)
      (m.Halted le w scope before d all) := by
  induction rest generalizing visited done report with
  | nil =>
      rw [List.append_nil] at hall
      subst hall
      rw [List.foldlM_nil]
      exact ensures_pure fun s hs => ⟨done, hswept, hreport, hs⟩
  | cons name rest ih =>
      rw [List.foldlM_cons]
      refine ((ensures_revertOn_noted hpretend henv scope name report hreport).weaken
        (fun _ hs => hs) (fun _ _ ht => ht) ?_).bind fun report => ?_
      · rintro e t (⟨hplain, ht⟩ | ⟨units, hpicked, ht⟩)
        · exact .lookup hall hswept hplain ht
        · exact .unit hall hswept hpicked ht
      · rintro t ⟨units, hpicked, hreport, ht⟩
        exact ih (by rw [hall, List.append_assoc]; rfl) (hswept.snoc hpicked) report hreport t ht

/-- A run that reverts has reverted what the connections gave up one after the other, or stops on
the way. -/
theorem ensures_revert_noted (hpretend : m.pretend = false) (henv : m.Yielding le w)
    (scope : Scope) :
    Ensures (fun s => w.rows s = before ∧ w.trail s = d) (m.revert m.known scope)
      (fun report t => ∃ units, m.Swept le w scope before (m.involved m.known) units ∧
        report.rolledBack = units.map (·.id) ∧ m.Retreat w before d units t)
      (m.Halted le w scope before d (m.involved m.known)) := by
  refine (ensures_sweep hpretend henv scope (List.nil_append _).symm .nil {} rfl).weaken ?_
    (fun _ _ ht => ht) (fun _ _ ht => ht)
  rintro s ⟨rfl, rfl⟩
  exact ⟨(without_nil _).symm, .nil _⟩

/-- The scope of a rollback. -/
def scopeOf : Option UInt64 → Scope
  | some n => if n = 0 then .lastBatch else .steps n
  | none => .lastBatch

theorem exists_involved_eq (units : List MigrationUnit) :
    ∃ rest, m.involved units = m.config.default :: rest :=
  ⟨_, List.eraseDups_cons⟩

/-- A run that finds no units has stopped before the first connection. -/
theorem ensures_loading {α : Type} {f : List MigrationUnit → Action σ α} {ok : α → σ → Prop}
    {scope : Scope}
    (h : m.units = .ok m.known → Ensures (fun s => w.rows s = before ∧ w.trail s = d) (f m.known) ok
      (m.Halted le w scope before d (m.involved m.known))) :
    Ensures (fun s => w.rows s = before ∧ w.trail s = d) (m.loadUnits >>= f) ok
      (m.Halted le w scope before d (m.involved m.known)) := by
  refine ensures_loadUnits_bind (fun e he s hs => ?_) h
  obtain ⟨rest, hrest⟩ := m.exists_involved_eq m.known
  obtain ⟨rfl, rfl⟩ := hs
  have hsplit : m.involved m.known = [] ++ m.config.default :: rest := hrest
  exact .lookup hsplit .nil (m.failsPlainly_units e he) ⟨(without_nil _).symm, .nil _⟩

/-- A rollback reverts what is in its scope on one connection after the other, or stops on the
way. -/
theorem ensures_rollback (hpretend : m.pretend = false) (henv : m.Yielding le w)
    (steps : Option UInt64) :
    Ensures (fun s => w.rows s = before ∧ w.trail s = d) (m.rollback steps)
      (fun report t => ∃ units, m.Swept le w (scopeOf steps) before (m.involved m.known) units ∧
        report.rolledBack = units.map (·.id) ∧ m.Retreat w before d units t)
      (m.Halted le w (scopeOf steps) before d (m.involved m.known)) :=
  ensures_loading fun _ => ensures_revert_noted hpretend henv (scopeOf steps)

/-! ### What was reverted where -/

theorem Swept.of_mem {scope : Scope} {names : List String}
    (h : m.Swept le w scope before names done) {u : MigrationUnit} (hu : u ∈ done) :
    u ∈ m.known ∧ m.connectionName u ∈ names := by
  induction h with
  | nil => cases hu
  | snoc h hpicked ih =>
      rcases List.mem_append.mp hu with hu | hu
      · exact ⟨(ih hu).1, List.mem_append_left _ (ih hu).2⟩
      · obtain ⟨hknown, hname⟩ := hpicked.of_mem hu
        exact ⟨hknown, List.mem_append_right _ (by simp [hname])⟩

theorem filter_connection_eq_nil {units : List MigrationUnit} {name : String}
    (h : ∀ u ∈ units, m.connectionName u ≠ name) :
    units.filter (m.connectionName · = name) = [] :=
  List.filter_eq_nil_iff.mpr fun u hu => by simpa using h u hu

theorem Picked.filter_connection {scope : Scope} {name : String} {stored : List LedgerRow}
    {units : List MigrationUnit} (h : m.Picked le scope name stored units) :
    units.filter (m.connectionName · = name) = units :=
  List.filter_eq_self.mpr fun _ hu => decide_eq_true (h.of_mem hu).2

/-- What was reverted on a connection is what it was picked for, when units of other connections
alone had been reverted before. -/
theorem Swept.exists_picked {scope : Scope} {names : List String}
    (h : m.Swept le w scope before names done) (hnodup : names.Nodup) {name : String}
    (hname : name ∈ names) :
    ∃ earlier, (∀ u ∈ earlier, u ∈ m.known ∧ m.connectionName u ≠ name) ∧
      m.Picked le scope name (m.without w earlier before (w.place name))
        (done.filter (m.connectionName · = name)) := by
  induction h with
  | nil => cases hname
  | @snoc names done units last h hpicked ih =>
      obtain ⟨hnames, -, hlast⟩ := List.nodup_append.mp hnodup
      rw [List.filter_append]
      by_cases heq : name = last
      · subst heq
        have hother : ∀ u ∈ done, m.connectionName u ≠ name := fun u hu =>
          hlast _ (h.of_mem hu).2 name (by simp)
        refine ⟨done, fun u hu => ⟨(h.of_mem hu).1, hother u hu⟩, ?_⟩
        rw [filter_connection_eq_nil hother, hpicked.filter_connection]
        exact hpicked
      · have hbefore : name ∈ names := by
          simpa [heq] using hname
        obtain ⟨earlier, hearlier, hpicks⟩ := ih hnames hbefore
        refine ⟨earlier, hearlier, ?_⟩
        have hother : ∀ u ∈ units, m.connectionName u ≠ name := fun u hu =>
          (hpicked.of_mem hu).2 ▸ Ne.symm heq
        rw [filter_connection_eq_nil hother, List.append_nil]
        exact hpicks

/-- Units are reverted connection by connection. -/
theorem Swept.eq_flatMap {scope : Scope} {names : List String}
    (h : m.Swept le w scope before names done) (hnodup : names.Nodup) :
    done = names.flatMap fun name => done.filter (m.connectionName · = name) := by
  induction h with
  | nil => rfl
  | @snoc names done units last h hpicked ih =>
      obtain ⟨hnames, -, hlast⟩ := List.nodup_append.mp hnodup
      have hdone : done.filter (m.connectionName · = last) = [] :=
        filter_connection_eq_nil fun u hu => hlast _ (h.of_mem hu).2 last (by simp)
      have hunits : ∀ name ∈ names, units.filter (m.connectionName · = name) = [] :=
        fun name hname => filter_connection_eq_nil fun u hu =>
          (hpicked.of_mem hu).2 ▸ Ne.symm (hlast name hname last (by simp))
      rw [List.flatMap_append, List.flatMap_singleton, List.filter_append, hdone, List.nil_append,
        hpicked.filter_connection]
      congr 1
      refine (ih hnames).trans (List.flatMap_congr fun name hname => ?_)
      rw [List.filter_append, hunits name hname, List.append_nil]

end Migrator

end Relational
