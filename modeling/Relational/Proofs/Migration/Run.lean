import Relational.Proofs.Migration.Consistency
/-
A run keeps the ledgers in step, however far it gets.

A run first looks up what the ledgers say and then works through a list of units.
When it applies units, the ledgers may have changed since they were looked up, but
only by what the run itself added, so a unit that was pending then and has not come up
yet is still not listed.  When it reverts units nothing has to be known beforehand.
-/
namespace Relational

open Action

variable {σ : Type} {le : String → String → Bool} {view : σ → String → Database}

/-- What is ensured of one database holds among all, if the others are kept. -/
theorem Action.Ensures.spread {α : Type} {a : Action σ α} {name : String} {v : String → Database}
    (ok : α → Database → Prop) (failed : Failure → Database → Prop)
    (h : Ensures (view · name = v name) a (fun x t => ok x (view t name))
      (fun e t => failed e (view t name)))
    (hkeep : Keeps (fun s => fun other : { n // n ≠ name } => view s other) a) :
    Ensures (view · = v) a
      (fun x t => ok x (view t name) ∧ ∀ other, other ≠ name → view t other = v other)
      (fun e t => failed e (view t name) ∧ ∀ other, other ≠ name → view t other = v other) := by
  refine (h.and_keeps hkeep fun other => v other).weaken ?_ ?_ ?_
  · intro s hs
    exact ⟨congrFun hs name, funext fun other => congrFun hs other⟩
  · intro x t ht
    exact ⟨ht.1, fun other hother => congrFun ht.2 ⟨other, hother⟩⟩
  · intro e t ht
    exact ⟨ht.1, fun other hother => congrFun ht.2 ⟨other, hother⟩⟩

/-- What changes neither one database nor the others changes none. -/
theorem Action.Keeps.all {α : Type} {a : Action σ α} {name : String} (hkeep : Keeps (view · name) a)
    (hothers : Keeps (fun s => fun other : { n // n ≠ name } => view s other) a) :
    Keeps view a := by
  intro s
  funext other
  by_cases heq : other = name
  · rw [heq]
    exact hkeep s
  · exact congrFun (hothers s) ⟨other, heq⟩

namespace Migrator

variable {m : Migrator σ}

/-- The same databases, although ledgers without rows may have been made. -/
def Untouched (v w : String → Database) : Prop :=
  ∀ name, (v name).SameContent (w name)

theorem Untouched.refl (v : String → Database) : Untouched v v := fun name => .refl (v name)

theorem Untouched.trans {u v w : String → Database} (huv : Untouched u v) (hvw : Untouched v w) :
    Untouched u w :=
  fun name => (huv name).trans (hvw name)

theorem Untouched.recorded {v w : String → Database} (h : Untouched v w) (name : String) :
    (w name).recorded = (v name).recorded := by
  simp [Database.recorded, (h name).1]

theorem Untouched.of_one {v w : String → Database} {name : String}
    (h : (v name).SameContent (w name)) (hother : ∀ other, other ≠ name → w other = v other) :
    Untouched v w := by
  intro other
  by_cases heq : other = name
  · rw [heq]
    exact h
  · rw [hother other heq]
    exact .refl (v other)

/-! ### Looking up -/

/-- What needs the units goes on with those that are known, or fails to find them. -/
theorem ensures_loadUnits_bind {α : Type} {f : List MigrationUnit → Action σ α} {pre : σ → Prop}
    {ok : α → σ → Prop} {failed : Failure → σ → Prop}
    (hfailed : ∀ e, m.units = .error e → ∀ s, pre s → failed e s)
    (h : m.units = .ok m.known → Ensures pre (f m.known) ok failed) :
    Ensures pre (m.loadUnits >>= f) ok failed := by
  have hload : Ensures pre m.loadUnits (fun units s => pre s ∧ m.units = .ok units) failed :=
    ensures_ofExcept (fun _ hunits _ hs => ⟨hs, hunits⟩) hfailed
  refine hload.bind fun units => Ensures.of_imp fun hunits => ?_
  have hknown : m.known = units := by rw [known, hunits]
  rw [← hknown] at hunits ⊢
  exact h hunits

/-- Reads how a connection stands off its ledger, which may be missing. -/
def readStanding (l : Ledger σ) (name : String) : Action σ Standing := do
  if ← l.isPresent then
    let applied ← l.appliedIds
    return ⟨name, applied, ← l.nextBatchNumber⟩
  else return ⟨name, [], 1⟩

/-- Reading finds exactly what the ledger lists, and the number of the batch to come. -/
theorem ensures_readStanding {l : Ledger σ} {see : σ → Database} {db : Database}
    (h : l.executor.Serves l.table le see) (name : String) :
    Ensures (see · = db) (readStanding l name)
      (fun st t => see t = db ∧ st.connection = name ∧ (∀ id, id ∈ st.applied ↔ id ∈ db.recorded) ∧
        st.nextBatch = LedgerRow.lastBatch db.rows + 1) (fun _ t => see t = db) := by
  refine (Ledger.ensures_isPresent h).bind fun present => Ensures.of_imp fun hpresent => ?_
  split
  · refine (Ledger.ensures_appliedIds h).bind fun applied => Ensures.of_imp fun happlied => ?_
    refine (Ledger.ensures_nextBatchNumber h).bind fun batch => ensures_pure ?_
    rintro t ⟨ht, rfl⟩
    exact ⟨ht, rfl, fun id => happlied.mem_iff, rfl⟩
  · rename_i hmissing
    have hledger : db.ledger = none := by
      rw [hpresent] at hmissing
      simpa using hmissing
    have hnone : db.rows = [] := by
      rw [Database.rows, hledger]
      rfl
    refine ensures_pure fun t ht => ⟨ht, rfl, fun id => ?_, ?_⟩
    · simp [Database.recorded, hnone]
    · rw [hnone]
      rfl

theorem keeps_readStanding {δ : Type} {see : σ → δ} {l : Ledger σ} (h : l.executor.Keeping see)
    (name : String) : Keeps see (readStanding l name) := by
  refine (Ledger.keeps_isPresent h).bind fun present => ?_
  split
  · refine (Keeps.bind (Ledger.keeps_fetch h _) fun _ => keeps_pure _).bind fun applied => ?_
    exact (Keeps.bind (Ledger.keeps_lastBatchNumber h) fun _ => keeps_pure _).bind fun _ =>
      keeps_pure _
  · exact keeps_pure _

/-- Unless nothing is to be changed, a connection's ledger is made before it is read. -/
theorem standing_eq (hpretend : m.pretend = false) (name : String) :
    m.standing false name = (do
      let c ← m.registry.get name
      (m.ledger name c.executor).ensure
      readStanding (m.ledger name c.executor) name) := by
  unfold standing readStanding
  simp only [hpretend, Bool.false_eq_true, if_false]

/-- Looking up what a ledger says changes nothing but that the ledger may be made, and finds
everything it lists. -/
theorem ensures_standing (hpretend : m.pretend = false) (henv : m.Environment le view)
    (v : String → Database) (name : String) :
    Ensures (fun s => Untouched v (view s)) (m.standing false name)
      (fun st t => Untouched v (view t) ∧ st.connection = name ∧
        ∀ id ∈ (v name).recorded, id ∈ st.applied) (fun _ t => Untouched v (view t)) := by
  rw [standing_eq hpretend]
  intro s hs
  refine ((henv name (view s)).weaken (fun _ hs => hs) (fun _ _ hc => hc)
    (fun _ t (ht : view t = view s) => ht ▸ hs)).bind (fun c => Ensures.of_imp fun hc => ?_) s rfl
  have hl : (m.ledger name c.executor).executor.Serves (m.ledger name c.executor).table le
    (view · name) := hc.executor
  have hmade : Ensures (view · = view s) (m.ledger name c.executor).ensure
      (fun _ t => Untouched v (view t)) (fun _ t => Untouched v (view t)) := by
    have hensure := Ensures.spread (v := view s) (fun _ => (view s name).SameContent)
      (fun _ => (view s name).SameContent) (Ledger.ensures_ensure hl)
      (Ledger.keeps_ensure hc.apart)
    exact hensure.weaken (fun _ hs => hs) (fun _ _ ht => hs.trans (.of_one ht.1 ht.2))
      (fun _ _ ht => hs.trans (.of_one ht.1 ht.2))
  refine hmade.bind fun _ t ht => ?_
  have hread := Ensures.spread (v := view t)
    (fun st db => db = view t name ∧ st.connection = name ∧
      ∀ id ∈ (view t name).recorded, id ∈ st.applied)
    (fun _ db => db = view t name)
    ((ensures_readStanding hl name).weaken (fun _ hr => hr)
      (fun _ _ hr => ⟨hr.1, hr.2.1, fun id => (hr.2.2.1 id).mpr⟩) (fun _ _ hr => hr))
    (keeps_readStanding hc.apart name)
  refine hread.weaken (fun _ hr => hr) ?_ ?_ t rfl
  · rintro st r ⟨⟨hr, hname, happlied⟩, hother⟩
    refine ⟨ht.trans (.of_one (hr ▸ .refl _) hother), hname, ?_⟩
    rw [← ht.recorded name]
    exact happlied
  · rintro _ r ⟨hr, hother⟩
    exact ht.trans (.of_one (hr ▸ .refl _) hother)

theorem mem_involved {units : List MigrationUnit} {u : MigrationUnit} (hu : u ∈ units) :
    m.connectionName u ∈ m.involved units := by
  rw [involved, List.mem_eraseDups]
  exact List.mem_cons_of_mem _ (List.mem_map.mpr ⟨u, hu, rfl⟩)

theorem nodup_eraseDups (names : List String) : names.eraseDups.Nodup := by
  induction hlength : names.length using Nat.strongRecOn generalizing names with
  | ind length ih =>
      cases names with
      | nil => exact .nil
      | cons name rest =>
          rw [List.eraseDups_cons, List.nodup_cons]
          refine ⟨by simp [List.mem_eraseDups], ih _ ?_ _ rfl⟩
          rw [← hlength]
          exact Nat.lt_succ_of_le (List.length_filter_le _ rest)

theorem nodup_involved (units : List MigrationUnit) : (m.involved units).Nodup :=
  nodup_eraseDups _

/-- The connection of every unit has been looked up. -/
theorem exists_standing {units : List MigrationUnit} {standings : List Standing}
    (hnames : standings.map (·.connection) = m.involved units) {u : MigrationUnit} (hu : u ∈ units) :
    ∃ st ∈ standings, st.connection = m.connectionName u ∧ m.standingOf? standings u = some st := by
  have hmem : m.connectionName u ∈ standings.map (·.connection) := by
    rw [hnames]
    exact mem_involved hu
  obtain ⟨st, hst, hname⟩ := List.mem_map.mp hmem
  have hsome : (m.standingOf? standings u).isSome = true :=
    List.find?_isSome.mpr ⟨st, hst, by simpa using hname⟩
  obtain ⟨found, hfound⟩ := Option.isSome_iff_exists.mp hsome
  exact ⟨found, List.mem_of_find?_eq_some hfound, by simpa using List.find?_some hfound, hfound⟩

/-- No ledger lists a unit that is pending. -/
theorem not_recorded_of_isPending {v : String → Database} {units : List MigrationUnit}
    {standings : List Standing} (hnames : standings.map (·.connection) = m.involved units)
    (happlied : ∀ st ∈ standings, ∀ id ∈ (v st.connection).recorded, id ∈ st.applied)
    {u : MigrationUnit} (hu : u ∈ units) (hpending : m.isPending standings u = true) :
    u.id ∉ (v (m.connectionName u)).recorded := by
  intro hrecorded
  obtain ⟨st, hst, hname, hfound⟩ := exists_standing hnames hu
  have happ : u.id ∈ st.applied := happlied st hst u.id (by rwa [hname])
  rw [isPending, hfound] at hpending
  simp [happ] at hpending

/-! ### Applying -/

/-- What is known while units are applied: the ledgers are in step, and list none of the units
still to come. -/
def Ready (m : Migrator σ) (pending : List MigrationUnit) (v : String → Database) : Prop :=
  m.Consistent v ∧ ∀ u ∈ pending, u.id ∉ (v (m.connectionName u)).recorded

/-- A unit that is applied leaves the others pending, as they have other names. -/
theorem Ready.carried {v : String → Database} {u : MigrationUnit} {rest : List MigrationUnit}
    (h : m.Ready (u :: rest) v) (hknown : u ∈ m.known)
    (hnodup : ((u :: rest).map (·.id)).Nodup) {batch : Int64} {db : Database}
    (hdb : u.Carried batch (v (m.connectionName u)) .up db) :
    m.Ready rest (Function.update v (m.connectionName u) db) := by
  refine ⟨h.1.carried hknown hdb fun _ => h.2 u (by simp), fun w hw => ?_⟩
  have hne : w.id ≠ u.id := by
    intro heq
    rw [List.map_cons, List.nodup_cons] at hnodup
    exact hnodup.1 (List.mem_map.mpr ⟨w, hw, heq⟩)
  have hw' := h.2 w (by simp [hw])
  by_cases hname : m.connectionName w = m.connectionName u
  · rw [hname] at hw' ⊢
    rw [Function.update_self, hdb.recorded_up]
    simp [hw', hne]
  · rw [Function.update_of_ne hname]
    exact hw'

variable (hpretend : m.pretend = false) (henv : m.Environment le view)
  (htransaction : ∀ u ∈ m.known, u.transaction = true)

include hpretend henv htransaction

/-- However far applying gets, the ledgers are in step. -/
theorem ensures_applyAll (standings : List Standing) (pending : List MigrationUnit)
    (hknown : ∀ u ∈ pending, u ∈ m.known) (hnodup : (pending.map (·.id)).Nodup)
    (report : MigrationReport) :
    Ensures (fun s => m.Ready pending (view s)) (m.applyAll standings report pending)
      (fun _ t => m.Consistent (view t)) (fun _ t => m.Consistent (view t)) := by
  induction pending generalizing report with
  | nil => exact ensures_pure fun s hs => hs.1
  | cons u rest ih =>
      intro s hs
      unfold applyAll
      have hu := hknown u (by simp)
      refine ((henv (m.connectionName u) (view s)).weaken (fun _ hr => hr) (fun _ _ hc => hc)
        (fun _ t (ht : view t = view s) => ht ▸ hs.1)).bind
        (fun c => Ensures.of_imp fun hc => ?_) s rfl
      refine ((ensures_runNext hpretend hc hu rfl (htransaction u hu) .up _ _ (view s)).weaken
        (fun _ hr => hr) (fun _ _ hr => hr)
        (fun _ t (ht : view t = view s) => ht ▸ hs.1)).bind fun pretended => ?_
      rintro t ⟨db, hdb, ht⟩
      refine ih (fun w hw => hknown w (by simp [hw])) ?_ _ t ?_
      · rw [List.map_cons, List.nodup_cons] at hnodup
        exact hnodup.2
      · show m.Ready rest (view t)
        rw [ht]
        exact hs.carried hu hnodup hdb

theorem ensures_applyPending {units : List MigrationUnit} (hunits : m.units = .ok units) :
    Ensures (fun s => m.Consistent (view s)) (m.applyPending units false)
      (fun _ t => m.Consistent (view t)) (fun _ t => m.Consistent (view t)) := by
  intro s hs
  have hknown : m.known = units := by
    rw [known, hunits]
  have hlookup : Ensures (fun t => Untouched (view s) (view t))
      ((m.involved units).mapM (m.standing false))
      (fun standings t => Untouched (view s) (view t) ∧
        standings.map (·.connection) = m.involved units ∧
        ∀ st ∈ standings, ∀ id ∈ (view s st.connection).recorded, id ∈ st.applied)
      (fun _ t => Untouched (view s) (view t)) :=
    ensures_mapM (·.connection) (fun st => ∀ id ∈ (view s st.connection).recorded, id ∈ st.applied)
      (m.involved units) fun name _ =>
        (ensures_standing hpretend henv (view s) name).weaken (fun _ ht => ht)
          (fun st t ht => ⟨ht.1, ht.2.1, ht.2.1 ▸ ht.2.2⟩) (fun _ _ ht => ht)
  refine (hlookup.weaken (fun _ ht => ht) (fun _ _ ht => ht)
    (fun _ t ht => hs.of_sameContent ht)).bind (fun standings => ?_) s (.refl _)
  rintro t ⟨ht, hnames, happlied⟩
  refine ensures_applyAll hpretend henv htransaction standings _ ?_ ?_ {} t
    ⟨hs.of_sameContent ht, ?_⟩
  · intro u hu
    rw [hknown]
    exact (List.mem_filter.mp hu).1
  · have hnodup := m.nodup_known
    rw [hknown] at hnodup
    exact hnodup.sublist (List.filter_sublist.map _)
  · intro u hu
    rw [ht.recorded]
    exact not_recorded_of_isPending hnames happlied (List.mem_filter.mp hu).1
      (List.mem_filter.mp hu).2

/-! ### Reverting -/

omit henv in
theorem ensures_revertAll {units : List MigrationUnit} (hunits : m.units = .ok units)
    {name : String} {c : Connection σ} (hc : m.Served le view name c) (rows : List AppliedUnit)
    (report : MigrationReport) :
    Ensures (fun s => m.Consistent (view s)) (m.revertAll units name c report rows)
      (fun _ t => m.Consistent (view t)) (fun _ t => m.Consistent (view t)) := by
  have hknown : m.known = units := by
    rw [known, hunits]
  induction rows generalizing report with
  | nil => exact ensures_pure fun s hs => hs
  | cons row rest ih =>
      unfold revertAll
      split
      · exact ih report
      · rename_i u hfound
        intro s hs
        have hu : u ∈ m.known := by
          rw [hknown]
          exact List.mem_of_find?_eq_some hfound
        have hname : m.connectionName u = name := by
          have := List.find?_some hfound
          simp only [Bool.and_eq_true, beq_iff_eq] at this
          exact this.2
        refine ((ensures_runNext hpretend hc hu hname (htransaction u hu) .down _ _
          (view s)).weaken (fun _ hr => hr) (fun _ _ hr => hr)
          (fun _ t (ht : view t = view s) => ht ▸ hs)).bind (fun pretended => ?_) s rfl
        rintro t ⟨db, hdb, ht⟩
        refine ih _ t ?_
        show m.Consistent (view t)
        subst hname
        rw [ht]
        exact hs.carried hu hdb (by simp)

theorem ensures_revertOn {units : List MigrationUnit} (hunits : m.units = .ok units)
    (scope : Scope) (report : MigrationReport) (name : String) :
    Ensures (fun s => m.Consistent (view s)) (m.revertOn units scope report name)
      (fun _ t => m.Consistent (view t)) (fun _ t => m.Consistent (view t)) := by
  intro s hs
  refine ((henv name (view s)).weaken (fun _ hr => hr) (fun _ _ hc => hc)
    (fun _ t (ht : view t = view s) => ht ▸ hs)).bind (fun c => Ensures.of_imp fun hc => ?_) s rfl
  have hl : (m.ledger name c.executor).executor.Serves (m.ledger name c.executor).table le
    (view · name) := hc.executor
  have hpresent : Keeps view (m.ledger name c.executor).isPresent :=
    Keeps.all (keeps_of_ensures fun db => (Ledger.ensures_isPresent hl).weaken (fun _ hr => hr)
      (fun _ _ hr => hr.1) (fun _ _ hr => hr)) (Ledger.keeps_isPresent hc.apart)
  have htargets : Keeps view (targets (m.ledger name c.executor) scope) :=
    Keeps.all (keeps_of_ensures fun db => (Ledger.ensures_targets hl scope).weaken (fun _ hr => hr)
      (fun _ _ hr => hr.1) (fun _ _ hr => hr)) (Ledger.keeps_targets hc.apart scope)
  have hread : ∀ {α : Type} {a : Action σ α}, Keeps view a →
      Ensures (view · = view s) a (fun _ t => view t = view s) (fun _ t => m.Consistent (view t)) :=
    fun hkeep => (hkeep.ensures (view s)).weaken (fun _ hr => hr) (fun _ _ hr => hr)
      (fun _ _ hr => hr ▸ hs)
  refine (hread hpresent).bind fun present => ?_
  split
  · refine (hread htargets).bind fun rows => ?_
    exact (ensures_revertAll hpretend htransaction hunits hc rows report).weaken
      (fun _ hr => hr ▸ hs) (fun _ _ hr => hr) (fun _ _ hr => hr)
  · exact ensures_pure fun t ht => ht ▸ hs

theorem ensures_revert {units : List MigrationUnit} (hunits : m.units = .ok units) (scope : Scope) :
    Ensures (fun s => m.Consistent (view s)) (m.revert units scope)
      (fun _ t => m.Consistent (view t)) (fun _ t => m.Consistent (view t)) :=
  ensures_foldlM _ (fun name _ report =>
    ensures_revertOn hpretend henv htransaction hunits scope report name) {}

end Migrator

end Relational
