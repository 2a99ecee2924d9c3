import Relational.Proofs.Migration.Asking
import Relational.Proofs.Migration.Clearing
import Relational.Proofs.Migration.TakenBack
import Relational.Proofs.Migration.Targets
import Relational.Session.Mock
/-
What a pretended run foretells of the real one.

A migrator that pretends takes the same way through its ledgers as one that does not, but
it finds them as they were at the start.  Where a real run reads a ledger that it has
changed itself, the pretended one assumes it to be empty: behind a reset, and behind
dropping all tables.  The first assumption is right as far as units go (`Swept.pending_eq`),
since whatever row is left has no unit that is known.  The second is wrong for a ledger that
is not listed among the tables (`Overlooked`); there the real run finds the old rows and
skips their units, whose tables it has just dropped.

While units are reverted, a connection must not find what the ones before it have changed,
so each is asked to have a ledger of its own.  What a ledger gives up is determined by its
rows (`Swept.eq`), so it does not matter that it is asked twice.
-/
namespace Relational

open Action

variable {σ δ : Type}

/-! ### What is picked -/

/-- No two texts come before each other. -/
def Strict (le : String → String → Bool) : Prop :=
  ∀ a b, le a b = true → le b a = true → a = b

theorem Memory.strict_textOrder : Strict textOrder := fun _ _ hab hba =>
  String.le_antisymm (of_decide_eq_true hab) (of_decide_eq_true hba)

/-- A batch and a name that come before others when the newest is first. -/
def ComesFirst (le : String → String → Bool) (p q : Int64 × String) : Prop :=
  q.1 < p.1 ∨ p.1 = q.1 ∧ le q.2 p.2 = true

variable {le : String → String → Bool}

theorem Strict.eq_of_comesFirst (hle : Strict le) {p q : Int64 × String} (hpq : ComesFirst le p q)
    (hqp : ComesFirst le q p) : p = q := by
  rcases hpq with hpq | ⟨hbatch, hpq⟩
  · rcases hqp with hqp | ⟨hbatch, -⟩
    · exact absurd hqp (Int64.lt_asymm hpq)
    · exact absurd (hbatch ▸ hpq) (Int64.lt_irrefl)
  · rcases hqp with hqp | ⟨-, hqp⟩
    · exact absurd (hbatch ▸ hqp) (Int64.lt_irrefl)
    · exact Prod.ext hbatch (hle _ _ hqp hpq)

/-- What is sorted comes in the same order each time, as far as batches and names go. -/
theorem Strict.map_eq {α : Type} (hle : Strict le) {key : α → Int64 × String} {xs ys : List α}
    (hperm : xs.Perm ys) (hxs : xs.Pairwise fun a b => ComesFirst le (key a) (key b))
    (hys : ys.Pairwise fun a b => ComesFirst le (key a) (key b)) : xs.map key = ys.map key :=
  (hperm.map key).eq_of_pairwise (fun _ _ _ _ => hle.eq_of_comesFirst) (List.pairwise_map.mpr hxs)
    (List.pairwise_map.mpr hys)

/-- The rows of a ledger determine what it is picked for, as far as names go. -/
theorem Scope.Picks.identifiers_eq (hle : Strict le) {scope : Scope} {stored : List LedgerRow}
    {picked again : List AppliedUnit} (h : scope.Picks le stored picked)
    (h' : scope.Picks le stored again) : picked.map (·.identifier) = again.map (·.identifier) := by
  have hsorted : picked.Perm again → picked.Pairwise AppliedUnit.NotOlder →
      again.Pairwise AppliedUnit.NotOlder →
      picked.map (·.identifier) = again.map (·.identifier) := by
    intro hperm hpicked hagain
    have hfirst : ∀ {units : List AppliedUnit}, units.Pairwise AppliedUnit.NotOlder →
        units.Pairwise fun a b =>
          ComesFirst Memory.textOrder (a.batch, a.identifier) (b.batch, b.identifier) :=
      fun hunits => hunits.imp fun hab =>
        hab.imp_right fun hab => ⟨hab.1, decide_eq_true (String.not_lt.mp hab.2)⟩
    have hkeys := Memory.strict_textOrder.map_eq hperm (hfirst hpicked) (hfirst hagain)
    simpa [Function.comp_def] using congrArg (List.map Prod.snd) hkeys
  cases scope with
  | lastBatch => exact hsorted (h.1.trans h'.1.symm) h.2 h'.2
  | all => exact hsorted (h.1.trans h'.1.symm) h.2 h'.2
  | steps n =>
      obtain ⟨listed, hperm, hordered, rfl⟩ := h
      obtain ⟨listed', hperm', hordered', rfl⟩ := h'
      have hfirst : ∀ {rows : List LedgerRow},
          rows.Pairwise (fun a b => LedgerRow.Precedes le b a) →
          rows.Pairwise fun a b => ComesFirst le (a.batch, a.identifier) (b.batch, b.identifier) :=
        fun hrows => hrows.imp fun hab => hab.imp_right fun hab => ⟨hab.1.symm, hab.2⟩
      have hkeys := hle.map_eq (hperm.trans hperm'.symm) (hfirst hordered) (hfirst hordered')
      have hnames := congrArg (fun keys => (keys.map Prod.snd).take n.toNat) hkeys
      simpa [Function.comp_def, LedgerRow.read, ← List.map_take] using hnames

namespace Migrator

variable {m : Migrator σ} {w : Lookout σ δ} {v : Inventory σ} {scope : Scope}
  {before : String → List LedgerRow} {names : List String} {done units : List MigrationUnit}

theorem Picked.eq (hle : Strict le) {name : String} {stored : List LedgerRow}
    {again : List MigrationUnit} (h : m.Picked le scope name stored units)
    (h' : m.Picked le scope name stored again) : units = again := by
  obtain ⟨picked, hpicks, rfl⟩ := h
  obtain ⟨picked', hpicks', rfl⟩ := h'
  have hnamed : ∀ rows : List AppliedUnit, rows.filterMap (m.unitOf? m.known name) =
      (rows.map (·.identifier)).filterMap (m.named name) := by
    intro rows
    rw [List.filterMap_map]
    rfl
  rw [hnamed, hnamed, hpicks.identifiers_eq hle hpicks']

/-- The rows of the ledgers determine what is reverted. -/
theorem Swept.eq (hle : Strict le) {again : List MigrationUnit}
    (h : m.Swept le w scope before names done) (h' : m.Swept le w scope before names again) :
    done = again := by
  induction h generalizing again with
  | nil =>
      generalize hnone : ([] : List String) = none at h'
      cases h' with
      | nil => rfl
      | snoc => simp at hnone
  | @snoc names done units name h hpicked ih =>
      generalize hmore : names ++ [name] = more at h'
      cases h' with
      | nil => simp at hmore
      | @snoc names' done' units' name' h' hpicked' =>
          obtain ⟨rfl, hname⟩ := List.append_inj' hmore rfl
          cases hname
          cases ih h'
          rw [hpicked.eq hle hpicked']

/-! ### What a report tells -/

/-- Who pretends tells of every unit that is listed, in the order in which they are; nobody else tells
of any. -/
def Accounts (m : Migrator σ) (report : MigrationReport) : Prop :=
  report.pretended.map (·.id) = if m.pretend then report.rolledBack ++ report.migrated else []

theorem Accounts.append {a b : MigrationReport} (ha : m.Accounts a) (hb : m.Accounts b)
    (hmigrated : a.migrated = []) (hrolledBack : b.rolledBack = []) : m.Accounts (a ++ b) := by
  show (a.pretended ++ b.pretended).map (·.id) = if m.pretend then
    (a.rolledBack ++ b.rolledBack) ++ (a.migrated ++ b.migrated) else []
  rw [List.map_append, ha, hb, hmigrated, hrolledBack]
  split
  · simp
  · rfl

theorem ensures_runNext_told (u : MigrationUnit) (name : String) (c : Connection σ) (way : Way)
    (batch : Int64) (earlier : List String) (pre : σ → Prop) :
    Ensures pre (m.runNext u name c way batch earlier)
      (fun told _ => told.map (·.id) = if m.pretend then [u.id] else []) (fun _ _ => True) := by
  have hunit : Ensures pre (m.runUnit u name c way batch)
      (fun told _ => told.map (·.id) = if m.pretend then [u.id] else []) (fun _ _ => True) := by
    unfold runUnit
    split
    · exact (ensures_any _).bind fun _ => ensures_pure fun _ _ => by simp
    · split
      · exact (ensures_any _).bind fun _ => ensures_pure fun _ _ => rfl
      · exact (ensures_any _).bind fun _ => ensures_pure fun _ _ => rfl
  exact hunit.tryCatch fun _ => ensures_throw fun _ _ => trivial

/-- A unit that is applied is listed behind the others. -/
theorem Accounts.migrated {report : MigrationReport} (h : m.Accounts report) {id : String}
    {told : List PretendedUnit} (htold : told.map (·.id) = if m.pretend then [id] else []) :
    m.Accounts { report with
      migrated := report.migrated ++ [id], pretended := report.pretended ++ told } := by
  show (report.pretended ++ told).map (·.id) = _
  rw [List.map_append, h, htold]
  split
  · simp
  · rfl

/-- So is one that is reverted, as long as none has been applied. -/
theorem Accounts.rolledBack {report : MigrationReport} (h : m.Accounts report)
    (hnone : report.migrated = []) {id : String} {told : List PretendedUnit}
    (htold : told.map (·.id) = if m.pretend then [id] else []) :
    m.Accounts { report with
      rolledBack := report.rolledBack ++ [id], pretended := report.pretended ++ told } := by
  show (report.pretended ++ told).map (·.id) = _
  rw [List.map_append, h, htold, hnone]
  split
  · simp
  · rfl

/-- What is told of applying units. -/
structure Upwards (m : Migrator σ) (units : List MigrationUnit) (report : MigrationReport) :
    Prop where
  accounts : m.Accounts report
  migrated : report.migrated = units.map (·.id)
  rolledBack : report.rolledBack = []
  dropped : report.dropped = []

/-- What is told of reverting units. -/
structure Downwards (m : Migrator σ) (units : List MigrationUnit) (report : MigrationReport) :
    Prop where
  accounts : m.Accounts report
  rolledBack : report.rolledBack = units.map (·.id)
  migrated : report.migrated = []
  dropped : report.dropped = []

theorem accounts_empty : m.Accounts {} := by
  show [] = _
  simp

theorem ensures_applyAll_told (standings : List Standing) {report : MigrationReport}
    (hreport : m.Upwards done report) (units : List MigrationUnit) (pre : σ → Prop) :
    Ensures pre (m.applyAll standings report units) (fun r _ => m.Upwards (done ++ units) r)
      (fun _ _ => True) := by
  induction units generalizing done report pre with
  | nil =>
      rw [List.append_nil]
      exact ensures_pure fun _ _ => hreport
  | cons u rest ih =>
      unfold applyAll
      refine (ensures_any _).bind fun c => ?_
      refine (ensures_runNext_told u _ c .up _ _ _).bind fun told s htold => ?_
      have hnext : m.Upwards (done ++ [u]) { report with
          migrated := report.migrated ++ [u.id], pretended := report.pretended ++ told } :=
        ⟨hreport.accounts.migrated htold, by rw [hreport.migrated, List.map_append]; rfl,
          hreport.rolledBack, hreport.dropped⟩
      have hrest := ih hnext (fun _ => True)
      rw [List.append_assoc] at hrest
      exact hrest s trivial

theorem ensures_revertAll_told {name : String} (c : Connection σ) {report : MigrationReport}
    (hreport : m.Downwards done report) (rows : List AppliedUnit) (pre : σ → Prop) :
    Ensures pre (m.revertAll m.known name c report rows)
      (fun r _ => m.Downwards (done ++ rows.filterMap (m.unitOf? m.known name)) r)
      (fun _ _ => True) := by
  induction rows generalizing done report pre with
  | nil =>
      rw [List.filterMap_nil, List.append_nil]
      exact ensures_pure fun _ _ => hreport
  | cons row rest ih =>
      unfold revertAll
      split
      · rename_i hnone
        rw [List.filterMap_cons, hnone]
        exact ih hreport pre
      · rename_i u hu
        rw [List.filterMap_cons, hu]
        refine (ensures_runNext_told u _ c .down _ _ _).bind fun told s htold => ?_
        have hnext : m.Downwards (done ++ [u]) { report with
            rolledBack := report.rolledBack ++ [u.id], pretended := report.pretended ++ told } :=
          ⟨hreport.accounts.rolledBack hreport.migrated htold,
            by rw [hreport.rolledBack, List.map_append]; rfl, hreport.migrated, hreport.dropped⟩
        have hrest := ih hnext (fun _ => True)
        rw [List.append_assoc] at hrest
        exact hrest s trivial

theorem ensures_revert_told (scope : Scope) (names : List String) {report : MigrationReport}
    (hreport : ∃ units, m.Downwards units report) :
    Ensures (fun _ : σ => True) (names.foldlM (m.revertOn m.known scope) report)
      (fun r _ => ∃ units, m.Downwards units r) (fun _ _ => True) := by
  induction names generalizing report with
  | nil =>
      rw [List.foldlM_nil]
      exact ensures_pure fun _ _ => hreport
  | cons name rest ih =>
      have hone : Ensures (fun _ : σ => True) (m.revertOn m.known scope report name)
          (fun r _ => ∃ units, m.Downwards units r) (fun _ _ => True) := by
        obtain ⟨done, hdone⟩ := hreport
        refine (ensures_any _).bind fun c => (ensures_any _).bind fun present => ?_
        split
        · refine (ensures_any _).bind fun rows => ?_
          exact (ensures_revertAll_told c hdone rows _).weaken (fun _ hs => hs)
            (fun _ _ hr => ⟨_, hr⟩) fun _ _ _ => trivial
        · exact ensures_pure fun _ _ => ⟨done, hdone⟩
      rw [List.foldlM_cons]
      exact hone.bind fun r s hr => ih hr s trivial

/-! ### Reverting -/

theorem Downwards.of_rolledBack {report : MigrationReport} (h : m.Downwards units report)
    (hrolledBack : report.rolledBack = done.map (·.id)) : m.Downwards done report :=
  ⟨h.accounts, hrolledBack, h.migrated, h.dropped⟩

/-- What a real run reverts is told by its report. -/
theorem ensures_revert_swept (hpretend : m.pretend = false) {marks : MigrationUnit → δ → δ → Prop}
    (henv : m.Yielding le (w.marking marks)) (scope : Scope) (before : String → List LedgerRow) :
    Ensures (w.rows · = before) (m.revert m.known scope)
      (fun report t => ∃ downs, m.Swept le w scope before (m.involved m.known) downs ∧
        m.Downwards downs report ∧ w.rows t = m.without w downs before) (fun _ _ => True) := by
  rintro s rfl
  have hnoted : Ensures
      (fun r => (w.marking marks).rows r = w.rows s ∧ (w.marking marks).trail r = w.trail s) _ _ _ :=
    ensures_revert_noted hpretend henv scope
  refine ((hnoted.and (ensures_revert_told scope (m.involved m.known)
    ⟨[], accounts_empty, rfl, rfl, rfl⟩)).weaken (fun _ hr => hr) ?_ fun _ _ _ => trivial) s
      ⟨⟨rfl, rfl⟩, trivial⟩
  rintro report t ⟨⟨downs, hswept, hrolledBack, hretreat⟩, units, htold⟩
  exact ⟨downs, hswept.of_marking, htold.of_rolledBack hrolledBack, hretreat.rows⟩

/-- Units in other ledgers have no rows to give up. -/
theorem without_of_apart {place : String} (h : ∀ u ∈ units, m.placeOf w u ≠ place) :
    m.without w units before place = before place :=
  List.filter_eq_self.mpr fun _ _ => decide_eq_true fun u hu hplace => absurd hplace (h u hu)

/-- A pretended run foresees on each connection what the real one reverts there, as nothing that was
reverted before had a row in its ledger. -/
theorem ensures_sweep_pretending (hpretend : m.pretend = true) (henv : m.Yielding le w)
    (halone : ∀ name ∈ m.involved m.known, m.Alone w name) (scope : Scope) (x : Watched δ)
    {visited rest : List String} (hall : m.involved m.known = visited ++ rest)
    (hswept : m.Swept le w scope (fun place => (x.1 place).getD []) visited done)
    {report : MigrationReport} (hreport : m.Downwards done report) :
    Ensures (w.see · = x) (rest.foldlM (m.revertOn m.known scope) report)
      (fun report _ => ∃ downs,
        m.Swept le w scope (fun place => (x.1 place).getD []) (m.involved m.known) downs ∧
        m.Downwards downs report) (fun _ _ => True) := by
  induction rest generalizing visited done report with
  | nil =>
      rw [List.append_nil] at hall
      rw [List.foldlM_nil, hall]
      exact ensures_pure fun s hs => ⟨done, hswept, hreport⟩
  | cons name rest ih =>
      have hapart : ∀ u ∈ done, m.placeOf w u ≠ w.place name := by
        intro u hu hplace
        have hvisited := (hswept.of_mem hu).2
        have hnodup := m.nodup_involved m.known
        rw [hall] at hnodup
        refine (List.nodup_append.mp hnodup).2.2 _ hvisited name (by simp) ?_
        exact halone name (by simp [hall]) _ (by simp [hall, hvisited]) hplace
      rw [List.foldlM_cons]
      refine Ensures.bind (?_ : Ensures (w.see · = x) _ (fun r t => w.see t = x ∧ ∃ units,
        m.Picked le scope name (m.without w done (fun place => (x.1 place).getD []) (w.place name))
          units ∧ m.Downwards (done ++ units) r) _) fun r => ?_
      · refine ensures_revertOn_of henv scope name report (fun _ _ _ _ => trivial)
          fun c picked _ hpicks => ?_
        refine (((keeps_revertAll_pretending hpretend c m.known picked report).ensures x).and
          (ensures_revertAll_told c hreport picked (w.see · = x))).weaken (fun _ ht => ⟨ht, ht⟩)
          (fun r t ht => ⟨ht.1, _, ⟨picked, ?_, rfl⟩, ht.2⟩) fun _ _ _ => trivial
        rw [without_of_apart hapart]
        exact hpicks
      · rintro t ⟨ht, units, hpicked, hr⟩
        exact ih (by rw [hall, List.append_assoc]; rfl) (hswept.snoc hpicked) hr t ht

theorem ensures_revert_pretending (hpretend : m.pretend = true) (henv : m.Yielding le w)
    (halone : ∀ name ∈ m.involved m.known, m.Alone w name) (scope : Scope) (s : σ) :
    Ensures (· = s) (m.revert m.known scope)
      (fun report _ => ∃ downs, m.Swept le w scope (w.rows s) (m.involved m.known) downs ∧
        m.Downwards downs report) (fun _ _ => True) := by
  have hstart : m.Downwards [] {} := ⟨accounts_empty, rfl, rfl, rfl⟩
  refine (ensures_sweep_pretending hpretend henv halone scope (w.see s)
    (List.nil_append _).symm .nil hstart).weaken ?_ (fun _ _ ht => ht) fun _ _ ht => ht
  rintro _ rfl
  rfl

/-! ### Applying -/

/-- What is applied are the units that the ledgers do not list, as far as they are looked up. -/
theorem ensures_applyPending_told {assumeEmpty : Bool} {pre : σ → Prop}
    {rows : String → List LedgerRow} (hunits : m.units = .ok m.known)
    (hlook : ∀ name, Ensures pre (m.standing assumeEmpty name)
      (fun st t => pre t ∧ st.connection = name ∧ st.Of (rows (w.place name))) (fun _ _ => True)) :
    Ensures pre (m.applyPending m.known assumeEmpty)
      (fun report _ => m.Upwards (m.pending w rows) report) (fun _ _ => True) := by
  have hlookup : Ensures pre ((m.involved m.known).mapM (m.standing assumeEmpty))
      (fun standings s => pre s ∧ standings.map (·.connection) = m.involved m.known ∧
        ∀ st ∈ standings, st.Of (rows (w.place st.connection))) (fun _ _ => True) :=
    ensures_mapM (·.connection) (fun st => st.Of (rows (w.place st.connection))) _ fun name _ =>
      (hlook name).weaken (fun _ hs => hs) (fun _ _ ht => ⟨ht.1, ht.2.1, ht.2.1 ▸ ht.2.2⟩)
        fun _ _ ht => ht
  refine hlookup.bind fun standings => Ensures.of_imp ?_
  rintro ⟨hnames, hof⟩
  rw [pending_of_units hunits hnames hof]
  have hstart : m.Upwards [] {} := ⟨accounts_empty, rfl, rfl, rfl⟩
  exact ensures_applyAll_told standings hstart (m.pending w rows) pre

/-- Looking up how things stand is the same for who pretends, unless the ledger is to be made. -/
theorem ensures_standing_rows (henv : m.Hosting le w) (rows : String → List LedgerRow) (trail : δ)
    (name : String) :
    Ensures (fun s => w.rows s = rows ∧ w.trail s = trail) (m.standing false name)
      (fun st t => (w.rows t = rows ∧ w.trail t = trail) ∧
        st.connection = name ∧ st.Of (rows (w.place name))) (fun _ _ => True) := by
  by_cases hpretend : m.pretend = true
  · rw [standing_pretending hpretend]
    intro s hs
    refine ((henv name (w.see s)).weaken (fun _ ht => ht) (fun _ _ ht => ht)
      (fun _ _ _ => trivial)).bind (fun c => Ensures.of_imp fun hc => ?_) s rfl
    refine (ensures_readStanding_of hc rows trail).weaken (fun t ht => ?_)
      (fun _ _ ht => ht) fun _ _ _ => trivial
    obtain ⟨hrows, htrail⟩ := rows_of_see ht
    exact ⟨hrows.trans hs.1, htrail.trans hs.2⟩
  · exact (ensures_standing_of (Bool.eq_false_of_not_eq_true hpretend) henv rows trail name).weaken
      (fun _ ht => ht) (fun _ _ ht => ht) fun _ _ _ => trivial

theorem ensures_applyPending_rows (henv : m.Hosting le w) (hunits : m.units = .ok m.known)
    (rows : String → List LedgerRow) :
    Ensures (w.rows · = rows) (m.applyPending m.known false)
      (fun report _ => m.Upwards (m.pending w rows) report) (fun _ _ => True) := by
  intro s hs
  exact ensures_applyPending_told hunits (ensures_standing_rows henv rows (w.trail s)) s ⟨hs, rfl⟩

theorem pending_nil : m.pending w (fun _ => []) = m.known :=
  List.filter_eq_self.mpr fun _ _ => decide_eq_true List.not_mem_nil

/-- Who assumes ledgers to be empty finds every unit pending. -/
theorem ensures_applyPending_assuming (w : Lookout σ δ) (hpretend : m.pretend = true)
    (hunits : m.units = .ok m.known) (pre : σ → Prop) :
    Ensures pre (m.applyPending m.known true) (fun report _ => m.Upwards m.known report)
      (fun _ _ => True) := by
  have hlook : ∀ name, Ensures (fun _ => True) (m.standing true name)
      (fun st _ => True ∧ st.connection = name ∧ st.Of []) (fun _ _ => True) := by
    intro name
    rw [standing_pretending hpretend]
    exact (ensures_any _).bind fun c => ensures_pure fun _ _ => ⟨trivial, rfl, fun id => .rfl, rfl⟩
  have happly : Ensures (fun _ => True) (m.applyPending m.known true)
      (fun report _ => m.Upwards (m.pending w fun _ => []) report) (fun _ _ => True) :=
    ensures_applyPending_told hunits hlook
  rw [pending_nil] at happly
  exact happly.weaken (fun _ _ => trivial) (fun _ _ ht => ht) fun _ _ ht => ht

/-- Behind a reset every unit is pending, whatever rows without a unit are left. -/
theorem Swept.pending_eq (h : m.Swept le w .all before (m.involved m.known) done) :
    m.pending w (m.without w done before) = m.known := by
  refine List.filter_eq_self.mpr fun u hu => decide_eq_true fun hlisted => ?_
  obtain ⟨r, hr, hid⟩ := List.mem_map.mp hlisted
  obtain ⟨hbefore, hkept⟩ := List.mem_filter.mp hr
  obtain ⟨earlier, hearlier, picked, hpicks, hunits⟩ :=
    h.exists_picked (m.nodup_involved _) (mem_involved hu)
  -- Units of other connections have other names, so the row was still there when its turn came.
  have hthere : r ∈ m.without w earlier before (m.placeOf w u) := by
    refine List.mem_filter.mpr ⟨hbefore, decide_eq_true fun other hother _ heq => ?_⟩
    obtain ⟨hknown, hname⟩ := hearlier other hother
    exact hname (congrArg _ (eq_of_id hknown hu (heq.symm.trans hid)))
  have hpicked : r.read ∈ picked := hpicks.1.mem_iff.mpr (List.mem_map_of_mem hthere)
  have hbehind : m.StandsBehind (m.connectionName u) r := ⟨u, hu, rfl, hid.symm⟩
  obtain ⟨found, hfound⟩ := exists_unitOf? hbehind
  obtain ⟨hknown, -, hfoundId⟩ := mem_of_unitOf? hfound
  have hsame : found = u := eq_of_id hknown hu (hfoundId.trans hid)
  have hdown : u ∈ done := by
    refine (List.mem_filter.mp (?_ : u ∈ done.filter (m.connectionName · = m.connectionName u))).1
    rw [hunits]
    exact List.mem_filterMap.mpr ⟨r.read, hpicked, hsame ▸ hfound⟩
  exact of_decide_eq_true hkept u hdown rfl hid

/-! ### Changes -/

/-- A change that is made to databases: a run, or a fresh start. -/
inductive Change where
  | run (command : Command)
  | fresh
  deriving DecidableEq, Repr

namespace Change

/-- Makes a change. -/
def make (m : Migrator σ) : Change → Action σ MigrationReport
  | run command => command.run m
  | fresh => m.fresh

/-- What a change reverts. -/
def reverts? : Change → Option Scope
  | run (.rollback steps) => some (scopeOf steps)
  | run .reset | run .refresh => some .all
  | run .migrate | fresh => none

/-- The units that a change applies; a fresh start applies those it finds pending. -/
def applies (m : Migrator σ) (w : Lookout σ δ) (before : String → List LedgerRow)
    (found : List MigrationUnit) : Change → List MigrationUnit
  | run .migrate => m.pending w before
  | run (.rollback _) | run .reset => []
  | run .refresh => m.known
  | fresh => found

/-- Only a fresh start depends on what it finds. -/
theorem applies_eq {before : String → List LedgerRow} {found other : List MigrationUnit}
    {change : Change} (h : change ≠ .fresh) :
    change.applies m w before found = change.applies m w before other := by
  cases change with
  | run command => cases command <;> rfl
  | fresh => exact absurd rfl h

/-- The tables that a change drops. -/
def drops (m : Migrator σ) (w : Lookout σ δ) (v : Inventory σ) (x : Survey) : Change → List String
  | run _ => []
  | fresh => ((m.involved m.known).map (listed w v x)).flatten

end Change

/-- What the report of a change says. -/
structure Reports (m : Migrator σ) (le : String → String → Bool) (w : Lookout σ δ)
    (before : String → List LedgerRow) (reverts? : Option Scope) (ups : List MigrationUnit)
    (dropped : List String) (report : MigrationReport) : Prop where
  accounts : m.Accounts report
  rolledBack : match reverts? with
    | some scope => ∃ downs, m.Swept le w scope before (m.involved m.known) downs ∧
      report.rolledBack = downs.map (·.id)
    | none => report.rolledBack = []
  migrated : report.migrated = ups.map (·.id)
  dropped : report.dropped = dropped

theorem Upwards.reports {report : MigrationReport} (h : m.Upwards units report) :
    m.Reports le w before none units [] report :=
  ⟨h.accounts, h.rolledBack, h.migrated, h.dropped⟩

theorem Downwards.reports {report : MigrationReport} (h : m.Downwards done report)
    (hswept : m.Swept le w scope before (m.involved m.known) done) :
    m.Reports le w before (some scope) [] [] report :=
  ⟨h.accounts, ⟨done, hswept, h.rolledBack⟩, h.migrated, h.dropped⟩

theorem Upwards.reports_behind {first report : MigrationReport} (h : m.Upwards units report)
    (hfirst : m.Downwards done first)
    (hswept : m.Swept le w scope before (m.involved m.known) done) :
    m.Reports le w before (some scope) units [] (first ++ report) where
  accounts := hfirst.accounts.append h.accounts hfirst.migrated h.rolledBack
  rolledBack := ⟨done, hswept, by
    show first.rolledBack ++ report.rolledBack = _
    rw [h.rolledBack, List.append_nil, hfirst.rolledBack]⟩
  migrated := by
    show first.migrated ++ report.migrated = _
    rw [hfirst.migrated, List.nil_append, h.migrated]
  dropped := by
    show first.dropped ++ report.dropped = _
    rw [hfirst.dropped, h.dropped, List.append_nil]

theorem Upwards.reports_dropped {report : MigrationReport} (h : m.Upwards units report)
    (dropped : List String) :
    m.Reports le w before none units dropped (({ dropped } : MigrationReport) ++ report) where
  accounts := Accounts.append accounts_empty h.accounts rfl h.rolledBack
  rolledBack := h.rolledBack
  migrated := h.migrated
  dropped := by
    show dropped ++ report.dropped = _
    rw [h.dropped, List.append_nil]

/-- The ledger of the unit's connection is not listed and has a row of the unit. -/
def Overlooked (m : Migrator σ) (w : Lookout σ δ) (v : Inventory σ)
    (before : String → List LedgerRow) (u : MigrationUnit) : Prop :=
  (v.dialect (m.connectionName u)).listsTable
    (m.config.ledgerTableFor (m.connectionName u)) = false ∧
    u.id ∈ m.listedBeside w before u

instance (before : String → List LedgerRow) (u : MigrationUnit) :
    Decidable (m.Overlooked w v before u) :=
  inferInstanceAs (Decidable (_ ∧ _))

/-- Behind dropping all tables the units are pending that are not overlooked. -/
theorem Wiped.pending_eq {s t : σ}
    (h : m.Wiped w v (m.involved m.known) (w.survey v s) (w.survey v t)) (hclear : m.Clearing w v) :
    m.pending w (w.rows t) = m.known.filter fun u => ¬m.Overlooked w v (w.rows s) u := by
  refine List.filter_congr fun u hu => decide_eq_decide.mpr ?_
  have hrows : w.rows t (m.placeOf w u) = _ := h.rows_eq hclear (mem_involved hu)
  rw [Overlooked, listedBeside, listedBeside, hrows]
  split
  · rename_i hlists
    simp [hlists]
  · rename_i hlists
    simp [placeOf, hlists]

variable {back : MigrationUnit → δ → δ → Prop} {change : Change}

/-- Ledgers of their own have places of their own. -/
theorem nodup_places (halone : ∀ name ∈ m.involved m.known, m.Alone w name) :
    ((m.involved m.known).map w.place).Nodup :=
  (m.nodup_involved m.known).map_on fun a ha b hb heq => halone b hb a ha heq

/-- What a change reports, by what its steps do: `reverted` holds behind reverting units and `emptied`
behind dropping all tables. -/
theorem ensures_make_of {s : σ} (reverted : List MigrationUnit → σ → Prop) (emptied : σ → Prop)
    {found : List MigrationUnit}
    (hrevert : ∀ scope, Ensures (· = s) (m.revert m.known scope)
      (fun report t => ∃ downs, m.Swept le w scope (w.rows s) (m.involved m.known) downs ∧
        m.Downwards downs report ∧ reverted downs t) (fun _ _ => True))
    (hmigrate : m.units = .ok m.known → Ensures (· = s) (m.applyPending m.known false)
      (fun report _ => m.Upwards (m.pending w (w.rows s)) report) (fun _ _ => True))
    (hrefresh : m.units = .ok m.known → ∀ downs,
      m.Swept le w .all (w.rows s) (m.involved m.known) downs →
      Ensures (reverted downs) (m.applyPending m.known m.pretend)
        (fun report _ => m.Upwards m.known report) (fun _ _ => True))
    (hdrop : change = .fresh → Ensures (· = s) ((m.involved m.known).mapM m.dropTables)
      (fun dropped t => dropped = (m.involved m.known).map (listed w v (w.survey v s)) ∧ emptied t)
      (fun _ _ => True))
    (hfresh : change = .fresh → m.units = .ok m.known → Ensures emptied
      (m.applyPending m.known m.pretend) (fun report _ => m.Upwards found report)
      (fun _ _ => True)) :
    Ensures (· = s) (change.make m)
      (fun report _ => m.Reports le w (w.rows s) change.reverts?
        (change.applies m w (w.rows s) found) (change.drops m w v (w.survey v s)) report)
      (fun _ _ => True) := by
  have hload : ∀ {f : List MigrationUnit → Action σ MigrationReport} {ok}, (m.units = .ok m.known →
      Ensures (· = s) (f m.known) ok (fun _ _ => True)) →
      Ensures (· = s) (m.loadUnits >>= f) ok (fun _ _ => True) :=
    ensures_loadUnits_bind fun _ _ _ _ => trivial
  cases change with
  | run command =>
      cases command with
      | migrate =>
          exact hload fun hunits => (hmigrate hunits).weaken (fun _ hs => hs)
            (fun _ _ hr => hr.reports) fun _ _ ht => ht
      | rollback steps =>
          exact hload fun _ => (hrevert _).weaken (fun _ hs => hs)
            (fun _ _ ⟨_, hswept, hr, _⟩ => hr.reports hswept) fun _ _ ht => ht
      | reset =>
          exact hload fun _ => (hrevert _).weaken (fun _ hs => hs)
            (fun _ _ ⟨_, hswept, hr, _⟩ => hr.reports hswept) fun _ _ ht => ht
      | refresh =>
          refine hload fun hunits => (hrevert .all).bind fun first => ?_
          rintro t ⟨downs, hswept, hfirst, ht⟩
          exact ((hrefresh hunits downs hswept).bind fun report => ensures_pure fun _ hr =>
            hr.reports_behind hfirst hswept) t ht
  | fresh =>
      refine hload fun hunits => (hdrop rfl).bind fun dropped => ?_
      rintro t ⟨rfl, ht⟩
      exact ((hfresh rfl hunits).bind fun report => ensures_pure fun _ hr =>
        hr.reports_dropped _) t ht

/-- What a real change reports. -/
theorem ensures_make (hm : m.Operating le w back)
    (halone : ∀ name ∈ m.involved m.known, m.Alone w name)
    (hclear : change = .fresh → m.Clearing w v) (s : σ) :
    Ensures (· = s) (change.make m)
      (fun report _ => m.Reports le w (w.rows s) change.reverts?
        (change.applies m w (w.rows s) (m.known.filter fun u => ¬m.Overlooked w v (w.rows s) u))
        (change.drops m w v (w.survey v s)) report) (fun _ _ => True) := by
  have happly : m.units = .ok m.known → ∀ rows, Ensures (w.rows · = rows)
      (m.applyPending m.known m.pretend) (fun report _ => m.Upwards (m.pending w rows) report)
      (fun _ _ => True) := by
    rw [hm.changes]
    exact ensures_applyPending_rows hm.hosting
  refine ensures_make_of (fun downs t => w.rows t = m.without w downs (w.rows s))
    (fun t => m.Wiped w v (m.involved m.known) (w.survey v s) (w.survey v t)) (fun scope => ?_)
    (fun hunits => ?_) (fun hunits downs hswept => ?_) (fun hfresh => ?_) fun hfresh hunits => ?_
  · exact (ensures_revert_swept hm.changes hm.yielding scope (w.rows s)).weaken
      (by rintro _ rfl; rfl) (fun _ _ ht => ht) fun _ _ ht => ht
  · exact (ensures_applyPending_rows hm.hosting hunits (w.rows s)).weaken
      (by rintro _ rfl; rfl) (fun _ _ hr => hr) fun _ _ ht => ht
  · have hagain := happly hunits (m.without w downs (w.rows s))
    rwa [hswept.pending_eq] at hagain
  · exact (ensures_mapM_dropTables hm.changes (hclear hfresh) (nodup_places halone)
      (w.survey v s)).weaken (by rintro _ rfl; rfl) (fun _ _ ht => ht) fun _ _ ht => ht
  · intro t ht
    have hanew := happly hunits (w.rows t) t rfl
    rwa [ht.pending_eq (hclear hfresh)] at hanew

/-- What a pretended change reports. -/
theorem ensures_make_pretending (hpretend : m.pretend = true) (hhosting : m.Hosting le w)
    (hyielding : m.Yielding le (w.marking back))
    (halone : ∀ name ∈ m.involved m.known, m.Alone w name)
    (hclear : change = .fresh → m.Clearing w v) (s : σ) :
    Ensures (· = s) (change.make m)
      (fun report _ => m.Reports le w (w.rows s) change.reverts?
        (change.applies m w (w.rows s) m.known) (change.drops m w v (w.survey v s)) report)
      (fun _ _ => True) := by
  have hassume : ∀ {pre : σ → Prop}, m.units = .ok m.known → Ensures pre
      (m.applyPending m.known m.pretend) (fun report _ => m.Upwards m.known report)
      (fun _ _ => True) := by
    intro pre hunits
    rw [hpretend]
    exact ensures_applyPending_assuming w hpretend hunits pre
  refine ensures_make_of (fun _ _ => True) (fun _ => True) (fun scope => ?_) (fun hunits => ?_)
    (fun hunits _ _ => hassume hunits) (fun hfresh => ?_) fun _ hunits => hassume hunits
  · exact (ensures_revert_pretending hpretend hyielding halone scope s).weaken (fun _ hs => hs)
      (fun _ _ ⟨downs, hswept, hr⟩ => ⟨downs, hswept.of_marking, hr, trivial⟩) fun _ _ ht => ht
  · exact (ensures_applyPending_rows hhosting hunits (w.rows s)).weaken
      (by rintro _ rfl; rfl) (fun _ _ hr => hr) fun _ _ ht => ht
  · exact (ensures_mapM_dropTables_pretending hpretend (hclear hfresh) (m.involved m.known)
      (w.survey v s)).weaken (by rintro _ rfl; rfl) (fun _ _ ht => ⟨ht.2, trivial⟩) fun _ _ ht => ht

/-! ### The two together -/

/-- The same migrator when it only tells what it would do. -/
def pretending (m : Migrator σ) : Migrator σ :=
  { m with pretend := true }

theorem Hosting.pretending (h : m.Hosting le w) : m.pretending.Hosting le w :=
  fun name x => (h name x).weaken (fun _ hs => hs)
    (fun _ _ hc => ⟨hc.1, hc.2.executor, hc.2.aside, hc.2.direct, hc.2.begin⟩) (fun _ _ hs => hs)

theorem Yielding.pretending (h : m.Yielding le w) : m.pretending.Yielding le w :=
  fun name x => (h name x).weaken (fun _ hs => hs)
    (fun _ _ hc => ⟨hc.1, hc.2.executor, hc.2.aside, hc.2.direct, hc.2.begin⟩) (fun _ _ hs => hs)

theorem Clearing.pretending (h : m.Clearing w v) : m.pretending.Clearing w v where
  ledger := h.ledger
  connection name x := (h.connection name x).weaken (fun _ hs => hs)
    (fun _ _ hc => ⟨hc.1, hc.2.dialect, hc.2.lists, hc.2.drops, hc.2.switches⟩) fun _ _ hs => hs

theorem Swept.of_pretending (h : m.pretending.Swept le w scope before names done) :
    m.Swept le w scope before names done := by
  induction h with
  | nil => exact .nil
  | snoc _ hpicked ih => exact ih.snoc hpicked

/-- **What a pretended change foretells.**  If it succeeds, and so does the real one from the same
state, the two have reverted and dropped the same, and of each step the pretended one tells in its
place.  Both have applied the same as well, unless it is a fresh start: then units are skipped for
real that a ledger has rows of which is not listed among the tables. -/
theorem pretended_foretells (hle : Strict le) (hm : m.Operating le w back)
    (halone : ∀ name ∈ m.involved m.known, m.Alone w name)
    (hclear : change = .fresh → m.Clearing w v) {s t t' : σ} {foretold real : MigrationReport}
    (hpretended : (change.make m.pretending).outcome s = (.ok foretold, t))
    (hreal : (change.make m).outcome s = (.ok real, t')) :
    foretold.pretended.map (·.id) = foretold.rolledBack ++ foretold.migrated ∧
    real.rolledBack = foretold.rolledBack ∧ real.dropped = foretold.dropped ∧
    (change ≠ .fresh → real.migrated = foretold.migrated) ∧
    (change = .fresh → foretold.migrated = m.known.map (·.id) ∧ real.migrated =
      (m.known.filter fun u => ¬m.Overlooked w v (w.rows s) u).map (·.id)) ∧
    (real.migrated = foretold.migrated ↔
      (change = .fresh → ∀ u ∈ m.known, ¬m.Overlooked w v (w.rows s) u)) := by
  have hbefore : m.pretending.Reports le w (w.rows s) change.reverts?
      (change.applies m w (w.rows s) m.known) (change.drops m w v (w.survey v s)) foretold :=
    (ensures_make_pretending rfl hm.hosting.pretending hm.yielding.pretending halone
      (fun hfresh => (hclear hfresh).pretending) s).of_ok rfl hpretended
  have hafter := (ensures_make hm halone hclear s).of_ok rfl hreal
  have hrolledBack : real.rolledBack = foretold.rolledBack := by
    have hforetold := hbefore.rolledBack
    have hdone := hafter.rolledBack
    cases hscope : change.reverts? with
    | none =>
        rw [hscope] at hforetold hdone
        exact hdone.trans hforetold.symm
    | some scope =>
        rw [hscope] at hforetold hdone
        obtain ⟨downs, hswept, hdowns⟩ := hforetold
        obtain ⟨downs', hswept', hdowns'⟩ := hdone
        rw [hdowns', hdowns, hswept'.eq hle hswept.of_pretending]
  have haccounts : foretold.pretended.map (·.id) = _ := hbefore.accounts
  refine ⟨haccounts, hrolledBack, hafter.dropped.trans hbefore.dropped.symm, ?_⟩
  by_cases hfresh : change = .fresh
  · subst hfresh
    have hforetold : foretold.migrated = m.known.map (·.id) := hbefore.migrated
    have hdone : real.migrated =
        (m.known.filter fun u => ¬m.Overlooked w v (w.rows s) u).map (·.id) := hafter.migrated
    refine ⟨absurd rfl, fun _ => ⟨hforetold, hdone⟩, ?_⟩
    rw [hforetold, hdone]
    constructor
    · intro heq _ u hu
      have hlength := congrArg List.length heq
      rw [List.length_map, List.length_map, List.length_filter_eq_length_iff] at hlength
      exact of_decide_eq_true (hlength u hu)
    · intro hnone
      rw [List.filter_eq_self.mpr fun u hu => decide_eq_true (hnone rfl u hu)]
  · have hmigrated : real.migrated = foretold.migrated := by
      rw [hafter.migrated, hbefore.migrated, Change.applies_eq hfresh]
    exact ⟨fun _ => hmigrated, fun h => absurd h hfresh,
      ⟨fun _ h => absurd h hfresh, fun _ => hmigrated⟩⟩

/-- A fresh start, once its units are known. -/
def freshWith (m : Migrator σ) (units : List MigrationUnit) : Action σ MigrationReport := do
  let dropped ← (m.involved units).mapM m.dropTables
  return { dropped := dropped.flatten } ++ (← m.applyPending units m.pretend)

theorem fresh_eq {m : Migrator σ} (hunits : m.units = .ok units) (s : σ) :
    m.fresh.outcome s = (m.freshWith units).outcome s := by
  show (Action.ofExcept id m.units >>= _).outcome s = _
  rw [hunits]
  rfl

end Migrator

namespace LoggedMemory

/-- Units are run on these connections as on the others. -/
theorem operating_clearing :
    (clearingMigrator installedOrRemoved).Operating Memory.textOrder (lookoutOf .up)
      (entries .down) where
  changes := rfl
  hosting name x := (ensures_get_opened rfl (fun _ => rfl)
    (admits_clearing quiet_installedOrRemoved (tell_installedOrRemoved .up)) name x).weaken
    (fun _ hs => hs) (fun _ _ hc => ⟨hc.1, hc.2.hosted⟩) fun _ _ hs => hs
  yielding := ensures_get_opened rfl (fun _ => rfl)
    (admits_clearing quiet_installedOrRemoved (tell_installedOrRemoved .down))

/-- Both units have been applied and have made their tables. -/
def settled : LoggedMemory :=
  { filled with log := ["001_people", "002_events"] }

theorem told_fresh_pretending :
    told (fun report t => (report.migrated, t.log))
        (((clearingMigrator installedOrRemoved).pretending.freshWith units).outcome settled) =
      some (["001_people", "002_events"], ["001_people", "002_events"]) := by
  decide +kernel

theorem told_fresh :
    told (fun report t => (report.dropped, t.log))
        (((clearingMigrator installedOrRemoved).freshWith units).outcome settled) =
      some (["migrations", "people", "events", "migrations"],
        ["001_people", "002_events", "undo 001_people", "undo 002_events", "001_people",
          "002_events"]) := by
  decide +kernel

end LoggedMemory

namespace Migrator

/-- A ledger of an ordinary name is listed, so a fresh start does what was foretold. -/
theorem logged_memory_foretells :
    let m := LoggedMemory.clearingMigrator LoggedMemory.installedOrRemoved
    let w := LoggedMemory.lookoutOf .up
    (Strict Memory.textOrder ∧ m.Operating Memory.textOrder w (LoggedMemory.entries .down) ∧
      (∀ name ∈ m.involved m.known, m.Alone w name) ∧ m.Clearing w LoggedMemory.inventory) ∧
    ∃ foretold t real t', (Change.fresh.make m.pretending).outcome LoggedMemory.settled =
        (.ok foretold, t) ∧
      (Change.fresh.make m).outcome LoggedMemory.settled = (.ok real, t') ∧
      t.log = ["001_people", "002_events"] ∧
      t'.log = ["001_people", "002_events", "undo 001_people", "undo 002_events", "001_people",
        "002_events"] ∧
      real.migrated = ["001_people", "002_events"] ∧ foretold.migrated = real.migrated ∧
      foretold.dropped = ["migrations", "people", "events", "migrations"] ∧
      real.rolledBack = foretold.rolledBack ∧ foretold.pretended.map (·.id) =
        foretold.rolledBack ++ ["001_people", "002_events"] := by
  intro m w
  have halone : ∀ name ∈ m.involved m.known, m.Alone w name := fun _ _ _ _ hplace => hplace
  have hclear : m.Clearing w LoggedMemory.inventory := LoggedMemory.clearing
  refine ⟨⟨Memory.strict_textOrder, LoggedMemory.operating_clearing, halone, hclear⟩, ?_⟩
  have hunits : m.units = .ok LoggedMemory.units :=
    LoggedMemory.units_migratorWith LoggedMemory.installedOrRemoved
  obtain ⟨foretold, t, hforetold, htold⟩ :=
    LoggedMemory.exists_of_told LoggedMemory.told_fresh_pretending
  obtain ⟨hmigrated, hlog⟩ := Prod.mk.inj htold
  obtain ⟨real, t', hreal, htold'⟩ := LoggedMemory.exists_of_told LoggedMemory.told_fresh
  obtain ⟨hdropped, hlog'⟩ := Prod.mk.inj htold'
  have hpretended : (Change.fresh.make m.pretending).outcome LoggedMemory.settled =
      (.ok foretold, t) := (fresh_eq (m := m.pretending) hunits _).trans hforetold
  have hdone : (Change.fresh.make m).outcome LoggedMemory.settled = (.ok real, t') :=
    (fresh_eq hunits _).trans hreal
  obtain ⟨htells, hrolledBack, hsame, -, -, hiff⟩ := pretended_foretells Memory.strict_textOrder
    LoggedMemory.operating_clearing halone (fun _ => hclear) hpretended hdone
  have hnone : ∀ u ∈ LoggedMemory.units,
      ¬m.Overlooked w LoggedMemory.inventory (w.rows LoggedMemory.settled) u := by
    decide +kernel
  rw [← show m.known = LoggedMemory.units from LoggedMemory.known_clearingMigrator] at hnone
  have happlied := hiff.mpr fun _ => hnone
  rw [hmigrated] at htells happlied
  exact ⟨foretold, t, real, t', hpretended, hdone, hlog, hlog', happlied,
    hmigrated.trans happlied.symm, hsame.symm.trans hdropped, hrolledBack, htells⟩

/-! ### A ledger that is not listed -/

/-- A migrator whose ledger has a name that goes on behind that of the engine. -/
def overlooking : Migrator Mock where
  registry := {
    config := {
      default := "main"
      connections := [("main", { dialect := .sqlite })]
      migrations := { ledgerTable := "sqlite3_migrations" } }
    opened := [("main", Mock.connection "main" .sqlite)] }
  registered := LoggedMemory.units.take 1
  now := ⟨0, 0⟩

theorem units_overlooking : overlooking.units = .ok (LoggedMemory.units.take 1) :=
  units_of_registered (by decide +kernel) (by decide) (List.pairwise_singleton _ _) (by decide)

/-- Of the two tables that there are only the people are listed; the ledger has the row of their
unit. -/
def peopleListed : Mock where
  rules := [
    { on := Dialect.listTables .sqlite, rows := [Row.ofList [("name", .text "people")]] },
    { on := "SELECT COUNT(*)", rows := [Row.ofList [("aggregate", .int 1)]] },
    { on := "MAX(", rows := [Row.ofList [("aggregate", .int 1)]] },
    { on := "SELECT \"identifier\"", rows := [Row.ofList [("identifier", .text "001_people"),
      ("batch", .int 1), ("applied_at", .text "2024-01-01 00:00:00")]] }]

/-- The pretended run tells of a unit that is skipped for real, where its table has been dropped. -/
theorem fresh_not_foretold :
    Dialect.listsTable .sqlite "sqlite3_migrations" = false ∧
    ((Change.fresh.make overlooking.pretending).outcome peopleListed).1.map
        (fun report => (report.migrated, report.dropped, report.pretended.map (·.id))) =
      .ok (["001_people"], ["people"], ["001_people"]) ∧
    ((Change.fresh.make overlooking).outcome peopleListed).1.map
        (fun report => (report.migrated, report.dropped)) = .ok ([], ["people"]) := by
  have hpretended : (Change.fresh.make overlooking.pretending).outcome peopleListed = _ :=
    fresh_eq (m := overlooking.pretending) units_overlooking peopleListed
  have hreal : (Change.fresh.make overlooking).outcome peopleListed = _ :=
    fresh_eq units_overlooking peopleListed
  rw [hpretended, hreal]
  decide +kernel

end Migrator

end Relational
