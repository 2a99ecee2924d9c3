import Relational.Proofs.Migration.Spared
/-
What a run of migrations relies on, whatever its units do.

`Lookout` says what is watched of a state: the rows of every ledger, and a trail of the
reader's choice on which running a unit leaves a mark.  `Migrator.Hosting` says that the
ledgers are tables of rows, that only their own statements act on them, that what fails
changes nothing, and that nothing but running units leaves marks.  Units may or may not
have a transaction of their own, and connections may share a ledger.
-/
namespace Relational

open Action

variable {σ δ κ ρ : Type}

/-! ### What is watched -/

/-- Every ledger, and the trail. -/
abbrev Watched (δ : Type) : Type := (String → Option (List LedgerRow)) × δ

/-- All but one ledger. -/
def Watched.beside (x : Watched δ) (place : String) : ({ p // p ≠ place } → Option (List LedgerRow)) × δ :=
  (fun other => x.1 other, x.2)

/-- What is watched is determined by one ledger and the rest. -/
theorem Watched.eq_update {x y : Watched δ} {place : String}
    (h : y.beside place = x.beside place) : y = (Function.update x.1 place (y.1 place), x.2) := by
  obtain ⟨hothers, htrail⟩ := Prod.mk.inj h
  refine Prod.ext (funext fun p => ?_) htrail
  show y.1 p = Function.update x.1 place (y.1 place) p
  by_cases hp : p = place
  · rw [hp, Function.update_self]
  · rw [Function.update_of_ne hp]
    exact congrFun hothers ⟨p, hp⟩

/-- What is watched of a state. -/
structure Lookout (σ δ : Type) where
  /-- The ledger of a connection; several may share one. -/
  place : String → String
  /-- The rows of each ledger, if there is such a table. -/
  ledgers : σ → String → Option (List LedgerRow)
  trail : σ → δ
  /-- What running a unit makes of the trail, however far it gets. -/
  Marks : MigrationUnit → δ → δ → Prop

namespace Lookout

variable (w : Lookout σ δ)

/-- All that is watched. -/
def see (s : σ) : Watched δ :=
  (w.ledgers s, w.trail s)

/-- The database of a ledger, of which nothing else is seen. -/
def database (place : String) (s : σ) : Database :=
  { ledger := w.ledgers s place }

/-- The rows of a ledger; a missing table has none. -/
def rows (s : σ) (place : String) : List LedgerRow :=
  (w.ledgers s place).getD []

end Lookout

/-- Performing the procedure does not touch what `keep` shows and leaves a mark on what `trail`
shows, however far it gets. -/
def Procedure.Leaves (p : Procedure Unit) (schema : Schema σ) (trail : σ → δ) (mark : δ → δ → Prop)
    (keep : σ → κ) : Prop :=
  ∀ k d, Ensures (fun s => keep s = k ∧ trail s = d) (p.perform schema)
    (fun _ t => keep t = k ∧ mark d (trail t)) (fun _ t => keep t = k ∧ mark d (trail t))

theorem Procedure.Leaves.of_keep {p : Procedure Unit} {schema : Schema σ} {trail : σ → δ}
    {mark : δ → δ → Prop} {keep : σ → κ} (h : p.Leaves schema trail mark keep) (f : κ → ρ) :
    p.Leaves schema trail mark fun s => f (keep s) := by
  intro k d s hs
  refine ((h (keep s) d).weaken (fun _ hr => hr) ?_ ?_) s ⟨rfl, hs.2⟩
  · exact fun _ t ht => ⟨(congrArg f ht.1).trans hs.1, ht.2⟩
  · exact fun _ t ht => ⟨(congrArg f ht.1).trans hs.1, ht.2⟩

/-- Running the unit does not touch what `keep` shows and leaves its mark, however far it gets. -/
def MigrationUnit.Leaves (u : MigrationUnit) (schema : Schema σ) (w : Lookout σ δ) (keep : σ → κ) :
    Prop :=
  ∀ k d, Ensures (fun s => keep s = k ∧ w.trail s = d) (u.up.perform schema)
    (fun _ t => keep t = k ∧ w.Marks u d (w.trail t))
    (fun _ t => keep t = k ∧ w.Marks u d (w.trail t))

/-! ### Transactions and connections -/

/-- What runs inside the transaction works on the copy `work` of a ledger.  A commit that succeeds
puts the copy in place of the ledger; one that fails, and a rollback whatever becomes of it, change
nothing. -/
structure Transaction.Hosts (tx : Transaction σ) (table : String) (le : String → String → Bool)
    (w : Lookout σ δ) (place : String) (work : σ → Option (List LedgerRow)) : Prop where
  executor : tx.executor.Serves table le fun s => { ledger := work s }
  aside : tx.executor.Spares table w.see
  commit : ∀ x ledger, Ensures (fun s => w.see s = x ∧ work s = ledger) tx.commit
    (fun _ t => w.see t = (Function.update x.1 place ledger, x.2)) (fun _ t => w.see t = x)
  rollback : Keeps w.see tx.rollback

namespace Migrator

/-- A connection that hosts the migrator under a name: its ledger is a table of rows, on which
units do not act, directly or in a transaction, which starts with a copy of it. -/
structure Hosted (m : Migrator σ) (le : String → String → Bool) (w : Lookout σ δ) (name : String)
    (c : Connection σ) : Prop where
  executor : c.executor.Serves (m.config.ledgerTableFor name) le (w.database (w.place name))
  aside : c.executor.Spares (m.config.ledgerTableFor name) fun s => (w.see s).beside (w.place name)
  direct : ∀ u ∈ m.known, m.connectionName u = name → u.transaction = false →
    u.Leaves (m.schemaOn name c.executor) w w.ledgers
  begin : ∀ x, Ensures (w.see · = x) c.begin
    (fun tx s => w.see s = x ∧ ∃ work, work s = x.1 (w.place name) ∧
      tx.Hosts (m.config.ledgerTableFor name) le w (w.place name) work ∧
      ∀ u ∈ m.known, m.connectionName u = name → u.transaction = true →
        u.Leaves (m.schemaOn name tx.executor) w fun s => (work s, w.ledgers s))
    (fun _ s => w.see s = x)

/-- Every connection the registry hands out hosts the migrator.  Getting it changes nothing, and
can only fail plainly. -/
def Hosting (m : Migrator σ) (le : String → String → Bool) (w : Lookout σ δ) : Prop :=
  ∀ name x, Ensures (w.see · = x) (m.registry.get name)
    (fun c s => w.see s = x ∧ m.Hosted le w name c) (fun e s => w.see s = x ∧ e.IsPlain)

/-- A connection on which units can be run one way: hosting is that of applying, with the statements
of the ledger that go with reverting spared as well. -/
structure Admits (m : Migrator σ) (le : String → String → Bool) (w : Lookout σ δ) (way : Way)
    (name : String) (c : Connection σ) : Prop where
  executor : c.executor.Serves (m.config.ledgerTableFor name) le (w.database (w.place name))
  aside : c.executor.SparesFor (m.config.ledgerTableFor name)
    (fun s => (w.see s).beside (w.place name)) way
  direct : ∀ u ∈ m.known, m.connectionName u = name → u.transaction = false →
    (u.procedure way).Leaves (m.schemaOn name c.executor) w.trail (w.Marks u) w.ledgers
  begin : ∀ x, Ensures (w.see · = x) c.begin
    (fun tx s => w.see s = x ∧ ∃ work, work s = x.1 (w.place name) ∧
      tx.Hosts (m.config.ledgerTableFor name) le w (w.place name) work ∧
      tx.executor.SparesFor (m.config.ledgerTableFor name) w.see way ∧
      ∀ u ∈ m.known, m.connectionName u = name → u.transaction = true →
        (u.procedure way).Leaves (m.schemaOn name tx.executor) w.trail (w.Marks u)
          fun s => (work s, w.ledgers s))
    (fun _ s => w.see s = x)

variable {m : Migrator σ} {le : String → String → Bool} {w : Lookout σ δ}

theorem Hosted.admits {name : String} {c : Connection σ} (h : m.Hosted le w name c) :
    m.Admits le w .up name c where
  executor := h.executor
  aside := h.aside
  direct := h.direct
  begin x := (h.begin x).weaken (fun _ hs => hs)
    (fun _ _ ⟨hs, work, hwork, htx, hunits⟩ => ⟨hs, work, hwork, htx, htx.aside, hunits⟩)
    (fun _ _ hs => hs)

theorem Admits.hosted {name : String} {c : Connection σ} (h : m.Admits le w .up name c) :
    m.Hosted le w name c where
  executor := h.executor
  aside := h.aside
  direct := h.direct
  begin x := (h.begin x).weaken (fun _ hs => hs)
    (fun _ _ ⟨hs, work, hwork, htx, _, hunits⟩ => ⟨hs, work, hwork, htx, hunits⟩)
    (fun _ _ hs => hs)

theorem Hosting.stamped (h : m.Hosting le w) (now : Instant) :
    ({ m with now } : Migrator σ).Hosting le w :=
  fun name x => (h name x).weaken (fun _ hs => hs)
    (fun _ _ hc => ⟨hc.1, hc.2.executor, hc.2.aside, hc.2.direct, hc.2.begin⟩) (fun _ _ hs => hs)

/-! ### Looking up -/

/-- What is ensured of one ledger holds among all, if the rest is spared. -/
theorem ensures_see {α : Type} {a : Action σ α} {place : String} {x : Watched δ}
    (ok : α → Option (List LedgerRow) → Prop) (failed : Option (List LedgerRow) → Prop)
    (h : Ensures (fun s => w.ledgers s place = x.1 place) a (fun y t => ok y (w.ledgers t place))
      (fun _ t => failed (w.ledgers t place)))
    (hspares : Action.Spares (fun s => (w.see s).beside place) a) :
    Ensures (w.see · = x) a
      (fun y t => ∃ ledger, ok y ledger ∧ w.see t = (Function.update x.1 place ledger, x.2))
      (fun e t => (∃ ledger, failed ledger ∧ w.see t = (Function.update x.1 place ledger, x.2)) ∧
        e.IsPlain) := by
  refine (h.and (hspares (x.beside place))).weaken ?_ ?_ ?_
  · rintro s rfl
    exact ⟨rfl, rfl⟩
  · exact fun y t ht => ⟨_, ht.1, Watched.eq_update ht.2⟩
  · exact fun e t ht => ⟨⟨_, ht.1, Watched.eq_update ht.2.1⟩, ht.2.2⟩

theorem rows_of_see {s t : σ} (h : w.see t = w.see s) :
    w.rows t = w.rows s ∧ w.trail t = w.trail s := by
  obtain ⟨hledgers, htrail⟩ := Prod.mk.inj h
  exact ⟨funext fun p => by rw [Lookout.rows, hledgers, Lookout.rows], htrail⟩

/-- A ledger that has the same rows as before, where nothing else has changed. -/
theorem rows_of_see_update {s t : σ} {place : String} {ledger : Option (List LedgerRow)}
    (hrows : ledger.getD [] = w.rows s place)
    (h : w.see t = (Function.update (w.ledgers s) place ledger, w.trail s)) :
    w.rows t = w.rows s ∧ w.trail t = w.trail s := by
  obtain ⟨hledgers, htrail⟩ := Prod.mk.inj h
  refine ⟨funext fun p => ?_, htrail⟩
  rw [Lookout.rows, hledgers]
  by_cases hp : p = place
  · rw [hp, Function.update_self, hrows]
  · rw [Function.update_of_ne hp, Lookout.rows]

/-- The standing is that of a ledger with these rows. -/
structure Standing.Of (st : Standing) (rows : List LedgerRow) : Prop where
  applied : ∀ id, id ∈ st.applied ↔ id ∈ rows.map (·.identifier)
  nextBatch : st.nextBatch = LedgerRow.lastBatch rows + 1

/-- Reading how a connection stands changes nothing. -/
theorem ensures_readStanding_of {name : String} {c : Connection σ} (hc : m.Hosted le w name c)
    (rows : String → List LedgerRow) (d : δ) :
    Ensures (fun s => w.rows s = rows ∧ w.trail s = d) (readStanding (m.ledger name c.executor) name)
      (fun st t => (w.rows t = rows ∧ w.trail t = d) ∧ st.connection = name ∧
        st.Of (rows (w.place name)))
      (fun e t => (w.rows t = rows ∧ w.trail t = d) ∧ e.IsPlain) := by
  rintro s ⟨rfl, rfl⟩
  have hl : (m.ledger name c.executor).executor.Serves (m.ledger name c.executor).table le
    (w.database (w.place name)) := hc.executor
  have hread : Ensures (w.database (w.place name) · = w.database (w.place name) s) _ _ _ :=
    ensures_readStanding hl name
  refine (ensures_see
    (fun st ledger => ledger.getD [] = w.rows s (w.place name) ∧ st.connection = name ∧
      st.Of (w.rows s (w.place name)))
    (fun ledger => ledger.getD [] = w.rows s (w.place name))
    (hread.weaken (fun r hr => congrArg (Database.mk · ∅) hr) ?_
      (fun _ _ hr => congrArg Database.rows hr)) (Ledger.spares_readStanding hc.aside name)).weaken
    (fun _ hr => hr) ?_ ?_ s rfl
  · rintro st r ⟨hr, hname, happlied, hbatch⟩
    exact ⟨congrArg Database.rows hr, hname, happlied, hbatch⟩
  · rintro st r ⟨ledger, ⟨hledger, hname, hof⟩, hr⟩
    exact ⟨rows_of_see_update hledger hr, hname, hof⟩
  · rintro _ r ⟨⟨ledger, hledger, hr⟩, hplain⟩
    exact ⟨rows_of_see_update hledger hr, hplain⟩

/-- Looking up how a connection stands changes no row and leaves no mark. -/
theorem ensures_standing_of (hpretend : m.pretend = false) (henv : m.Hosting le w)
    (rows : String → List LedgerRow) (d : δ) (name : String) :
    Ensures (fun s => w.rows s = rows ∧ w.trail s = d) (m.standing false name)
      (fun st t => (w.rows t = rows ∧ w.trail t = d) ∧ st.connection = name ∧
        st.Of (rows (w.place name)))
      (fun e t => (w.rows t = rows ∧ w.trail t = d) ∧ e.IsPlain) := by
  rw [standing_eq hpretend]
  rintro s ⟨rfl, rfl⟩
  refine ((henv name (w.see s)).weaken (fun _ hs => hs) (fun _ _ hc => hc)
    (fun _ _ ht => ⟨rows_of_see ht.1, ht.2⟩)).bind (fun c => Ensures.of_imp fun hc => ?_) s rfl
  have hl : (m.ledger name c.executor).executor.Serves (m.ledger name c.executor).table le
    (w.database (w.place name)) := hc.executor
  have hmade : Ensures (w.see · = w.see s) (m.ledger name c.executor).ensure
      (fun _ t => w.rows t = w.rows s ∧ w.trail t = w.trail s)
      (fun e t => (w.rows t = w.rows s ∧ w.trail t = w.trail s) ∧ e.IsPlain) := by
    have hensure : Ensures (w.database (w.place name) · = w.database (w.place name) s) _ _ _ :=
      Ledger.ensures_ensure hl
    refine (ensures_see (fun _ ledger => ledger.getD [] = w.rows s (w.place name))
      (fun ledger => ledger.getD [] = w.rows s (w.place name))
      (hensure.weaken (fun t ht => congrArg (Database.mk · ∅) ht) (fun _ _ ht => ht.1)
        (fun _ _ ht => ht.1)) (Ledger.spares_ensure hc.aside)).weaken (fun _ ht => ht) ?_ ?_
    · rintro _ t ⟨ledger, hledger, ht⟩
      exact rows_of_see_update hledger ht
    · rintro _ t ⟨⟨ledger, hledger, ht⟩, hplain⟩
      exact ⟨rows_of_see_update hledger ht, hplain⟩
  exact hmade.bind fun _ => ensures_readStanding_of hc (w.rows s) (w.trail s)

/-! ### One unit -/

/-- What becomes of the rows of the ledger that a unit is noted in. -/
inductive Written (u : MigrationUnit) (batch : Int64) :
    Way → List LedgerRow → List LedgerRow → Prop
  | up (stored : List LedgerRow) (appliedAt : String) :
    Written u batch .up stored (stored ++ [⟨u.id, batch, appliedAt⟩])
  | down (stored : List LedgerRow) :
    Written u batch .down stored (stored.filter (·.identifier ≠ u.id))

/-- Behind a unit that was carried out it is noted in its ledger, and has left its mark. -/
def Carried (w : Lookout σ δ) (place : String) (u : MigrationUnit) (batch : Int64) (way : Way)
    (x y : Watched δ) : Prop :=
  ∃ stored written, x.1 place = some stored ∧ Written u batch way stored written ∧
    y.1 = Function.update x.1 place (some written) ∧ w.Marks u x.2 y.2

/-- Behind a unit that was applied there is one more row in its ledger, and its mark. -/
def Applied (w : Lookout σ δ) (place : String) (u : MigrationUnit) (batch : Int64)
    (x y : Watched δ) : Prop :=
  ∃ stored appliedAt, x.1 place = some stored ∧
    y.1 = Function.update x.1 place (some (stored ++ [⟨u.id, batch, appliedAt⟩])) ∧
    w.Marks u x.2 y.2

/-- Behind a unit that was reverted its ledger has no row of it, and there is its mark. -/
def Reverted (w : Lookout σ δ) (place : String) (u : MigrationUnit) (x y : Watched δ) : Prop :=
  ∃ stored, x.1 place = some stored ∧
    y.1 = Function.update x.1 place (some (stored.filter (·.identifier ≠ u.id))) ∧
    w.Marks u x.2 y.2

/-- Behind a unit that failed every ledger is as before; the unit may have been run. -/
def Failed (w : Lookout σ δ) (u : MigrationUnit) (x y : Watched δ) : Prop :=
  y.1 = x.1 ∧ (y.2 = x.2 ∨ w.Marks u x.2 y.2)

theorem Carried.applied {place : String} {u : MigrationUnit} {batch : Int64} {x y : Watched δ}
    (h : Carried w place u batch .up x y) : Applied w place u batch x y := by
  obtain ⟨stored, written, hstored, hwritten, hledgers, hmark⟩ := h
  cases hwritten with
  | up stored appliedAt => exact ⟨stored, appliedAt, hstored, hledgers, hmark⟩

theorem Carried.reverted {place : String} {u : MigrationUnit} {batch : Int64} {x y : Watched δ}
    (h : Carried w place u batch .down x y) : Reverted w place u x y := by
  obtain ⟨stored, written, hstored, hwritten, hledgers, hmark⟩ := h
  cases hwritten with
  | down stored => exact ⟨stored, hstored, hledgers, hmark⟩

variable {u : MigrationUnit} {name : String} {way : Way}

/-- Noting what was done with a unit changes the rows of its ledger, which `mine` shows, and
nothing that `rest` shows. -/
theorem ensures_note {l : Ledger σ} {mine : σ → Option (List LedgerRow)} {rest : σ → ρ}
    (hserves : l.executor.Serves l.table le fun s => { ledger := mine s })
    (haside : l.executor.SparesFor l.table rest way) (batch : Int64)
    (ledger : Option (List LedgerRow)) (k : ρ) :
    Ensures (fun s => mine s = ledger ∧ rest s = k)
      (match way with
        | .up => l.record u.id batch
        | .down => l.remove u.id)
      (fun _ t => (∃ stored written, ledger = some stored ∧ Written u batch way stored written ∧
        mine t = some written) ∧ rest t = k)
      (fun _ t => mine t = ledger ∧ rest t = k) := by
  have hmine : ∀ t, mine t = ledger → ({ ledger := mine t } : Database) = { ledger } :=
    fun _ ht => congrArg (Database.mk · ∅) ht
  cases way with
  | up =>
      refine ((Ledger.ensures_record hserves u.id batch).and
        (Ledger.spares_record haside.spares u.id batch k)).weaken
        (fun t ht => ⟨hmine t ht.1, ht.2⟩) ?_
        (fun _ t ht => ⟨congrArg Database.ledger ht.1, ht.2.1⟩)
      rintro _ t ⟨⟨stored, appliedAt, hstored, ht⟩, hrest⟩
      exact ⟨⟨stored, _, hstored, .up stored appliedAt, congrArg Database.ledger ht⟩, hrest⟩
  | down =>
      refine ((Ledger.ensures_remove hserves u.id).and
        (Ledger.spares_remove haside u.id k)).weaken
        (fun t ht => ⟨hmine t ht.1, ht.2⟩) ?_
        (fun _ t ht => ⟨congrArg Database.ledger ht.1, ht.2.1⟩)
      rintro _ t ⟨⟨stored, hstored, ht⟩, hrest⟩
      exact ⟨⟨stored, _, hstored, .down stored, congrArg Database.ledger ht⟩, hrest⟩

/-- Where a unit runs on an executor, `mine` is the ledger it is noted in and `rest` what else is
to be kept. -/
theorem ensures_carryOut_noted {e : Executor σ} {mine : σ → Option (List LedgerRow)} {rest : σ → ρ}
    (hserves : e.Serves (m.config.ledgerTableFor name) le fun s => { ledger := mine s })
    (haside : e.SparesFor (m.config.ledgerTableFor name) (fun s => (rest s, w.trail s)) way)
    (hu : (u.procedure way).Leaves (m.schemaOn name e) w.trail (w.Marks u)
      fun s => (mine s, rest s))
    (batch : Int64) (ledger : Option (List LedgerRow)) (k : ρ) (d : δ) :
    Ensures (fun s => (mine s, rest s) = (ledger, k) ∧ w.trail s = d)
      (m.carryOut u name e way batch)
      (fun _ t => (∃ stored written, ledger = some stored ∧ Written u batch way stored written ∧
        mine t = some written) ∧ rest t = k ∧ w.Marks u d (w.trail t))
      (fun _ t => mine t = ledger ∧ rest t = k ∧ w.Marks u d (w.trail t)) := by
  refine ((hu (ledger, k) d).weaken (fun _ hs => hs) (fun _ _ ht => ht) ?_).bind fun _ => ?_
  · rintro _ t ⟨hkeep, hmark⟩
    obtain ⟨hmine, hrest⟩ := Prod.mk.inj hkeep
    exact ⟨hmine, hrest, hmark⟩
  · rintro t ⟨hkeep, hmark⟩
    obtain ⟨hmine, hrest⟩ := Prod.mk.inj hkeep
    refine ((ensures_note (l := m.ledger name e) hserves haside batch ledger
      (k, w.trail t)).weaken (fun _ hr => hr) ?_ ?_) t ⟨hmine, Prod.ext hrest rfl⟩
    · rintro _ r ⟨hnoted, hkept⟩
      obtain ⟨hrest, htrail⟩ := Prod.mk.inj hkept
      exact ⟨hnoted, hrest, htrail ▸ hmark⟩
    · rintro _ r ⟨hr, hkept⟩
      obtain ⟨hrest, htrail⟩ := Prod.mk.inj hkept
      exact ⟨hr, hrest, htrail ▸ hmark⟩

/-- Without a transaction a unit acts on its connection. -/
theorem ensures_carryOut_direct {c : Connection σ} (hc : m.Admits le w way name c)
    (hknown : u ∈ m.known) (hname : m.connectionName u = name)
    (htransaction : u.transaction = false) (batch : Int64) (x : Watched δ) :
    Ensures (w.see · = x) (m.carryOut u name c.executor way batch)
      (fun _ t => Carried w (w.place name) u batch way x (w.see t))
      (fun _ t => Failed w u x (w.see t)) := by
  have hu := (hc.direct u hknown hname htransaction).of_keep fun ledgers =>
    (ledgers (w.place name), fun other : { p // p ≠ w.place name } => ledgers other)
  have hledgers : ∀ t, (fun other : { p // p ≠ w.place name } => w.ledgers t other) =
      (fun other : { p // p ≠ w.place name } => x.1 other) →
      w.ledgers t = Function.update x.1 (w.place name) (w.ledgers t (w.place name)) := by
    intro t ht
    have hbeside : Watched.beside (w.ledgers t, x.2) (w.place name) = x.beside (w.place name) :=
      Prod.ext ht rfl
    exact congrArg Prod.fst (Watched.eq_update hbeside)
  refine (ensures_carryOut_noted hc.executor hc.aside hu batch (x.1 (w.place name))
    (fun other : { p // p ≠ w.place name } => x.1 other) x.2).weaken ?_ ?_ ?_
  · rintro s rfl
    exact ⟨rfl, rfl⟩
  · rintro _ t ⟨⟨stored, written, hstored, hwritten, hmine⟩, hrest, hmark⟩
    exact ⟨stored, written, hstored, hwritten, (hledgers t hrest).trans (by rw [hmine]), hmark⟩
  · rintro _ t ⟨hmine, hrest, hmark⟩
    exact ⟨(hledgers t hrest).trans (by rw [hmine, Function.update_eq_self]), .inr hmark⟩

/-- With a transaction it acts on a copy, which counts once it is committed. -/
theorem ensures_carryOutWhole_noted {c : Connection σ} (hc : m.Admits le w way name c)
    (hknown : u ∈ m.known) (hname : m.connectionName u = name)
    (htransaction : u.transaction = true) (batch : Int64) (x : Watched δ) :
    Ensures (w.see · = x) (m.carryOutWhole u name c way batch)
      (fun _ t => Carried w (w.place name) u batch way x (w.see t))
      (fun _ t => Failed w u x (w.see t)) := by
  refine ((hc.begin x).weaken (fun _ hs => hs) (fun _ _ ht => ht)
    (fun _ t (ht : w.see t = x) => ⟨congrArg Prod.fst ht, .inl (congrArg Prod.snd ht)⟩)).bind
    fun tx => ?_
  rintro s ⟨rfl, work, hwork, htx, haside, hunits⟩
  have hinside : Ensures (fun r => (work r, w.ledgers r) = (work s, w.ledgers s) ∧
        w.trail r = w.trail s)
      (tryCatch (m.carryOut u name tx.executor way batch) fun failure => do
        tx.rollback.regardless
        throw failure)
      (fun _ t => (∃ stored written, work s = some stored ∧ Written u batch way stored written ∧
        work t = some written) ∧ w.ledgers t = w.ledgers s ∧
        w.Marks u (w.trail s) (w.trail t))
      (fun _ t => Failed w u (w.see s) (w.see t)) := by
    refine Ensures.tryCatch ((ensures_carryOut_noted htx.executor haside
      (hunits u hknown hname htransaction) batch (work s) (w.ledgers s) (w.trail s)).weaken
      (fun _ hr => hr) (fun _ _ ht => ht) (fun _ _ ht => ht.2)) fun failure => ?_
    rintro t ⟨hledgers, hmark⟩
    have hfailed : ∀ r, w.see r = w.see t → Failed w u (w.see s) (w.see r) := by
      intro r hr
      rw [hr]
      exact ⟨hledgers, .inr hmark⟩
    refine (((htx.rollback.regardless.ensures (w.see t)).weaken (fun _ hr => hr)
      (fun _ _ hr => hr) fun _ => hfailed).bind fun _ => ensures_throw hfailed) t rfl
  refine (hinside.bind fun _ => ?_) s ⟨rfl, rfl⟩
  rintro t ⟨⟨stored, written, hstored, hwritten, ht⟩, hledgers, hmark⟩
  refine ((htx.commit (w.see t) (work t)).weaken (fun _ hr => hr) ?_ ?_) t ⟨rfl, rfl⟩
  · intro _ r hr
    refine ⟨stored, written, hwork ▸ hstored, hwritten, ?_, ?_⟩
    · rw [hr, ← ht]
      exact congrArg (Function.update · _ _) hledgers
    · rw [hr]
      exact hmark
  · intro _ r hr
    rw [hr]
    exact ⟨hledgers, .inr hmark⟩

/-- A unit as a run meets it; a failure tells which units were done before it. -/
theorem ensures_runNext_noted (hpretend : m.pretend = false) {c : Connection σ}
    (hc : m.Admits le w way name c) (hknown : u ∈ m.known) (hname : m.connectionName u = name)
    (batch : Int64) (done : List String) (x : Watched δ) :
    Ensures (w.see · = x) (m.runNext u name c way batch done)
      (fun _ t => Carried w (w.place name) u batch way x (w.see t))
      (fun e t => (∃ cause, e = .unit u.id batch done cause) ∧ Failed w u x (w.see t)) := by
  refine Ensures.tryCatch ?_ fun cause => ensures_throw fun _ hs => ⟨⟨cause, rfl⟩, hs⟩
  unfold runUnit
  simp only [hpretend, Bool.false_eq_true, if_false]
  split
  · rename_i htransaction
    exact (ensures_carryOutWhole_noted hc hknown hname htransaction batch x).bind fun _ =>
      ensures_pure fun _ ht => ht
  · rename_i htransaction
    exact (ensures_carryOut_direct hc hknown hname (by simpa using htransaction) batch x).bind
      fun _ => ensures_pure fun _ ht => ht

theorem ensures_runNext_up (hpretend : m.pretend = false) {c : Connection σ}
    (hc : m.Hosted le w name c) (hknown : u ∈ m.known) (hname : m.connectionName u = name)
    (batch : Int64) (done : List String) (x : Watched δ) :
    Ensures (w.see · = x) (m.runNext u name c .up batch done)
      (fun _ t => Applied w (w.place name) u batch x (w.see t))
      (fun e t => (∃ cause, e = .unit u.id batch done cause) ∧ Failed w u x (w.see t)) :=
  (ensures_runNext_noted hpretend hc.admits hknown hname batch done x).weaken (fun _ hs => hs)
    (fun _ _ ht => ht.applied) (fun _ _ ht => ht)

end Migrator

end Relational
