import Mathlib.Data.List.Nodup
import Relational.Proofs.Migration.LoggedMemory
/-
What a run that applies units has done when it ends.

Before anything is applied, the ledgers of all connections are read, so which units are
pending, and under which numbers they will be noted, depends on the ledgers as they were
then.  `Progress` is the invariant: behind some of the pending units every ledger holds
what it held before and one row for each of them, and only those have been run.  A unit
that succeeds takes one further (`Progress.snoc`); one that fails leaves the ledgers as
they are, which is `Stopped`.
-/
namespace Relational

open Action

/-! ### Batch numbers -/

namespace LedgerRow

/-- The highest batch number, zero without rows. -/
def highest (rows : List LedgerRow) : Int :=
  ((rows.map (·.batch.toInt)).max?).getD 0

theorem toInt_max (a b : Int64) : (max a b).toInt = max a.toInt b.toInt := by
  show (if a ≤ b then b else a).toInt = _
  rw [Int.max_def]
  by_cases h : a ≤ b
  · rw [if_pos h, if_pos (Int64.le_iff_toInt_le.mp h)]
  · rw [if_neg h, if_neg fun h' => h (Int64.le_iff_toInt_le.mpr h')]

theorem max?_toInt (batches : List Int64) :
    (batches.map Int64.toInt).max? = batches.max?.map Int64.toInt := by
  cases batches with
  | nil => rfl
  | cons n rest =>
      show some ((rest.map Int64.toInt).foldl max n.toInt) = some (rest.foldl max n).toInt
      congr 1
      induction rest generalizing n with
      | nil => rfl
      | cons k rest ih => rw [List.map_cons, List.foldl_cons, List.foldl_cons, ← toInt_max, ih]

theorem toInt_lastBatch (rows : List LedgerRow) : (lastBatch rows).toInt = highest rows := by
  have hmap : rows.map (·.batch.toInt) = (rows.map (·.batch)).map Int64.toInt := by
    rw [List.map_map]
    rfl
  rw [lastBatch, highest, hmap, max?_toInt]
  cases (rows.map (·.batch)).max? <;> rfl

/-- The highest batch number is that of a row, or there are none. -/
theorem highest_eq_zero_or (rows : List LedgerRow) :
    highest rows = 0 ∨ ∃ r ∈ rows, r.batch.toInt = highest rows := by
  rw [highest]
  cases hmax : (rows.map (·.batch.toInt)).max? with
  | none => exact .inl rfl
  | some n => exact .inr (List.mem_map.mp (List.max?_mem hmax))

theorem highest_eq {rows : List LedgerRow} {n : Int} (hle : ∀ r ∈ rows, r.batch.toInt ≤ n)
    (hmem : ∃ r ∈ rows, r.batch.toInt = n) : highest rows = n := by
  have hmax : (rows.map (·.batch.toInt)).max? = some n := by
    rw [List.max?_eq_some_iff]
    exact ⟨List.mem_map.mpr hmem, fun b hb => by
      obtain ⟨r, hr, rfl⟩ := List.mem_map.mp hb
      exact hle r hr⟩
  rw [highest, hmax, Option.getD_some]

theorem le_highest {rows : List LedgerRow} {r : LedgerRow} (hr : r ∈ rows) :
    r.batch.toInt ≤ highest rows := by
  have hmem : r.batch.toInt ∈ rows.map (·.batch.toInt) := List.mem_map_of_mem hr
  rw [highest]
  cases hmax : (rows.map (·.batch.toInt)).max? with
  | none =>
      rw [List.max?_eq_none_iff.mp hmax] at hmem
      cases hmem
  | some n => exact (List.max?_eq_some_iff.mp hmax).2 _ hmem

/-- The next batch has the next number if there is one. -/
theorem toInt_nextBatch {rows : List LedgerRow} (h : ∀ r ∈ rows, r.batch < Int64.maxValue) :
    (lastBatch rows + 1).toInt = 1 + highest rows := by
  have hlow := (lastBatch rows).le_toInt
  have hhigh : highest rows < 2 ^ 63 - 1 := by
    rcases highest_eq_zero_or rows with hzero | ⟨r, hr, hbatch⟩
    · omega
    · exact hbatch ▸ Int64.toInt_maxValue ▸ Int64.lt_iff_toInt_lt.mp (h r hr)
  rw [toInt_lastBatch] at hlow
  have hone : (1 : Int64).toInt = 1 := rfl
  rw [Int64.toInt_add, toInt_lastBatch, hone, Int.bmod_eq_of_le (by omega) (by omega), Int.add_comm]

end LedgerRow

variable {σ δ : Type}

/-! ### What has been run -/

/-- The units were run in this order, each once and none besides, which has made `d'` of `d`. -/
inductive Ran (Marks : MigrationUnit → δ → δ → Prop) : List MigrationUnit → δ → δ → Prop
  | nil (d : δ) : Ran Marks [] d d
  | snoc {done : List MigrationUnit} {u : MigrationUnit} {d d' d'' : δ} (h : Ran Marks done d d')
    (hmark : Marks u d' d'') : Ran Marks (done ++ [u]) d d''

theorem Ran.eq_of_nil {Marks : MigrationUnit → δ → δ → Prop} {d d' : δ} (h : Ran Marks [] d d') :
    d' = d := by
  generalize hunits : ([] : List MigrationUnit) = units at h
  cases h with
  | nil => rfl
  | snoc => simp at hunits

/-! ### Finding units -/

/-- If there is no result, it is for a plain failure. -/
def FailsPlainly {α : Type} (r : Except Failure α) : Prop :=
  ∀ e, r = .error e → e.IsPlain

section FailsPlainly

variable {α β γ : Type}

theorem failsPlainly_ok (x : α) : FailsPlainly (.ok x) :=
  fun _ h => nomatch h

theorem FailsPlainly.bind {r : Except Failure α} {f : α → Except Failure β} (hr : FailsPlainly r)
    (hf : ∀ x, FailsPlainly (f x)) : FailsPlainly (r >>= f) := by
  cases r with
  | ok x => exact hf x
  | error e => exact fun _ h => by cases h; exact hr e rfl

theorem failsPlainly_mapM {f : γ → Except Failure α} (h : ∀ x, FailsPlainly (f x)) (xs : List γ) :
    FailsPlainly (xs.mapM f) := by
  induction xs with
  | nil =>
      rw [List.mapM_nil]
      exact failsPlainly_ok []
  | cons x rest ih =>
      rw [List.mapM_cons]
      exact (h x).bind fun y => ih.bind fun ys => failsPlainly_ok (y :: ys)

theorem failsPlainly_forM {f : γ → Except Failure Unit} (h : ∀ x, FailsPlainly (f x))
    (xs : List γ) : FailsPlainly (xs.forM f) := by
  induction xs with
  | nil => exact failsPlainly_ok ()
  | cons x rest ih => exact (h x).bind fun _ => ih

theorem failsPlainly_configuration (r : Except ConfigError α) :
    FailsPlainly (r.mapError .configuration) := by
  cases r with
  | ok x => exact failsPlainly_ok x
  | error e => exact fun _ h => by cases h; trivial

end FailsPlainly

theorem Discovery.failsPlainly_read (c : Config) (connection : Option String)
    (names : List String) (content : String) : FailsPlainly (read c connection names content) := by
  unfold Discovery.read Discovery.load
  split
  · split
    · split
      · exact failsPlainly_ok _
      · exact fun _ h => by cases h; trivial
    · exact failsPlainly_ok _
  · exact failsPlainly_ok _

theorem Discovery.failsPlainly_scripts (c : Config) (fs : FileSystem) :
    FailsPlainly (scripts c fs) := by
  refine (failsPlainly_mapM (fun file => ?_) _).bind fun found => failsPlainly_ok _
  obtain ⟨names, content⟩ := file
  dsimp only
  split
  · exact failsPlainly_read c _ _ _
  · exact failsPlainly_ok _

theorem Migrator.failsPlainly_units (m : Migrator σ) : FailsPlainly m.units :=
  (Discovery.failsPlainly_scripts _ _).bind fun _ =>
    (failsPlainly_configuration _).bind fun units =>
      (failsPlainly_forM (fun _ => failsPlainly_configuration _) units).bind fun _ =>
        failsPlainly_ok units

namespace Migrator

variable {m : Migrator σ} {le : String → String → Bool} {w : Lookout σ δ}

/-- The ledger that a unit is noted in. -/
def placeOf (m : Migrator σ) (w : Lookout σ δ) (u : MigrationUnit) : String :=
  w.place (m.connectionName u)

/-- The names that the rows of a unit's own ledger list. -/
def listedBeside (m : Migrator σ) (w : Lookout σ δ) (rows : String → List LedgerRow)
    (u : MigrationUnit) : List String :=
  (rows (m.placeOf w u)).map (·.identifier)

/-- The units that their own ledgers do not list. -/
def pending (m : Migrator σ) (w : Lookout σ δ) (rows : String → List LedgerRow) :
    List MigrationUnit :=
  m.known.filter fun u => u.id ∉ m.listedBeside w rows u

/-- Every ledger holds what it held before, and behind that one row for each of the units that
belong to it, in their order, under the number behind its highest. -/
def Noted (m : Migrator σ) (w : Lookout σ δ) (units : List MigrationUnit)
    (before after : String → List LedgerRow) : Prop :=
  ∀ place, ∃ added, after place = before place ++ added ∧
    added.map (fun r => (r.identifier, r.batch.toInt)) =
      (units.filter (m.placeOf w · = place)).map fun u =>
        (u.id, 1 + LedgerRow.highest (before place))

theorem Noted.nil (rows : String → List LedgerRow) : m.Noted w [] rows rows :=
  fun _ => ⟨[], by simp, rfl⟩

theorem Noted.eq_of_nil {before after : String → List LedgerRow} (h : m.Noted w [] before after) :
    after = before := by
  funext place
  obtain ⟨added, hadded, hnone⟩ := h place
  rw [hadded, List.map_eq_nil_iff.mp hnone, List.append_nil]

/-- The rows that were added to a ledger name the units that belong to it, and are of one batch. -/
theorem Noted.exists_added {units : List MigrationUnit} {before after : String → List LedgerRow}
    (h : m.Noted w units before after) (place : String) :
    ∃ added, after place = before place ++ added ∧
      added.map (·.identifier) = (units.filter (m.placeOf w · = place)).map (·.id) ∧
      ∀ r ∈ added, r.batch.toInt = 1 + LedgerRow.highest (before place) := by
  obtain ⟨added, hadded, hrows⟩ := h place
  refine ⟨added, hadded, ?_, fun r hr => ?_⟩
  · have hnames := congrArg (List.map Prod.fst) hrows
    simpa [Function.comp_def] using hnames
  · have hpair := List.mem_map_of_mem (f := fun r : LedgerRow => (r.identifier, r.batch.toInt)) hr
    rw [hrows] at hpair
    obtain ⟨u, -, hu⟩ := List.mem_map.mp hpair
    exact (Prod.mk.inj hu).2.symm

/-- A ledger lists what it listed before, and the units that were noted in it. -/
theorem Noted.mem_listed {units : List MigrationUnit} {before after : String → List LedgerRow}
    (h : m.Noted w units before after) (u : MigrationUnit) (id : String) :
    id ∈ m.listedBeside w after u ↔ id ∈ m.listedBeside w before u ∨
      ∃ v ∈ units, m.placeOf w v = m.placeOf w u ∧ v.id = id := by
  obtain ⟨added, hadded, hids, -⟩ := h.exists_added (m.placeOf w u)
  rw [listedBeside, hadded, List.map_append, List.mem_append, hids, listedBeside]
  simp [and_assoc]

/-- One more unit that is noted in its ledger. -/
theorem Noted.snoc {units : List MigrationUnit} {u : MigrationUnit}
    {before after after' : String → List LedgerRow} (h : m.Noted w units before after)
    (r : LedgerRow) (hid : r.identifier = u.id)
    (hbatch : r.batch.toInt = 1 + LedgerRow.highest (before (m.placeOf w u)))
    (hrow : after' = Function.update after (m.placeOf w u) (after (m.placeOf w u) ++ [r])) :
    m.Noted w (units ++ [u]) before after' := by
  intro place
  obtain ⟨added, hadded, hnames⟩ := h place
  rw [hrow]
  by_cases hplace : m.placeOf w u = place
  · subst hplace
    refine ⟨added ++ [r], ?_, ?_⟩
    · rw [Function.update_self, hadded, List.append_assoc]
    · rw [List.map_append, hnames, List.filter_append, List.map_append]
      simp [hid, hbatch]
  · refine ⟨added, ?_, ?_⟩
    · rw [Function.update_of_ne (Ne.symm hplace), hadded]
    · rw [hnames, List.filter_append]
      simp [hplace]

/-! ### Progress -/

/-- Behind some units: they are noted, and they and no others have been run. -/
structure Progress (m : Migrator σ) (w : Lookout σ δ) (before : String → List LedgerRow) (d : δ)
    (done : List MigrationUnit) (s : σ) : Prop where
  noted : m.Noted w done before (w.rows s)
  ran : Ran w.Marks done d (w.trail s)

/-- Where a run that fails has stopped: at looking something up, or at a unit, which may have been
run but is not noted. -/
inductive Stopped (m : Migrator σ) (w : Lookout σ δ) (before : String → List LedgerRow) (d : δ)
    (all : List MigrationUnit) : Failure → σ → Prop
  | lookup {done rest : List MigrationUnit} {e : Failure} {t : σ} (hsplit : all = done ++ rest)
    (hplain : e.IsPlain) (h : m.Progress w before d done t) : Stopped m w before d all e t
  | unit {done rest : List MigrationUnit} {u : MigrationUnit} {batch : Int64} {cause : Failure}
    {t : σ} (hsplit : all = done ++ u :: rest)
    (hbatch : batch.toInt = 1 + LedgerRow.highest (before (m.placeOf w u)))
    (hnoted : m.Noted w done before (w.rows t))
    (hran : Ran w.Marks done d (w.trail t) ∨ Ran w.Marks (done ++ [u]) d (w.trail t)) :
    Stopped m w before d all (.unit u.id batch (done.map (·.id)) cause) t

variable {before : String → List LedgerRow} {d : δ}

theorem rows_eq_of_ledgers {s t : σ} (h : w.ledgers t = w.ledgers s) : w.rows t = w.rows s :=
  funext fun place => by rw [Lookout.rows, h, Lookout.rows]

theorem Progress.of_see {done : List MigrationUnit} {s t : σ} (h : m.Progress w before d done s)
    (ht : w.see t = w.see s) : m.Progress w before d done t := by
  obtain ⟨hrows, htrail⟩ := rows_of_see ht
  exact ⟨hrows ▸ h.noted, htrail ▸ h.ran⟩

theorem Progress.nil {s : σ} (h : w.rows s = before ∧ w.trail s = d) :
    m.Progress w before d [] s := by
  obtain ⟨rfl, rfl⟩ := h
  exact ⟨.nil _, .nil _⟩

theorem Progress.of_nil {s : σ} (h : m.Progress w before d [] s) :
    w.rows s = before ∧ w.trail s = d :=
  ⟨h.noted.eq_of_nil, h.ran.eq_of_nil⟩

/-- A unit that succeeds takes a run one further. -/
theorem Progress.snoc {done : List MigrationUnit} {u : MigrationUnit} {s t : σ} {batch : Int64}
    (h : m.Progress w before d done s)
    (hbatch : batch.toInt = 1 + LedgerRow.highest (before (m.placeOf w u)))
    (ht : Applied w (m.placeOf w u) u batch (w.see s) (w.see t)) :
    m.Progress w before d (done ++ [u]) t := by
  obtain ⟨stored, appliedAt, hstored, hledgers, hmark⟩ := ht
  refine ⟨h.noted.snoc ⟨u.id, batch, appliedAt⟩ rfl hbatch (funext fun place => ?_),
    h.ran.snoc hmark⟩
  have hstored' : w.rows s (m.placeOf w u) = stored := congrArg (·.getD []) hstored
  have hplace := congrArg (·.getD []) (congrFun hledgers place)
  rw [hstored']
  refine Eq.trans hplace ?_
  by_cases hu : place = m.placeOf w u
  · rw [hu, Function.update_self, Function.update_self, Option.getD_some]
  · rw [Function.update_of_ne hu, Function.update_of_ne hu]
    rfl

/-- A run that meets a unit which fails has stopped there. -/
theorem Progress.stopped {all done rest : List MigrationUnit} {u : MigrationUnit} {s t : σ}
    {batch : Int64} {cause : Failure} (h : m.Progress w before d done s)
    (hsplit : all = done ++ u :: rest)
    (hbatch : batch.toInt = 1 + LedgerRow.highest (before (m.placeOf w u)))
    (ht : Failed w u (w.see s) (w.see t)) :
    m.Stopped w before d all (.unit u.id batch (done.map (·.id)) cause) t := by
  obtain ⟨hledgers, htrail⟩ := ht
  have hrows : w.rows t = w.rows s := rows_eq_of_ledgers hledgers
  refine .unit hsplit hbatch (hrows ▸ h.noted) ?_
  rcases htrail with htrail | hmark
  · have hsame : w.trail t = w.trail s := htrail
    exact .inl (hsame ▸ h.ran)
  · exact .inr (h.ran.snoc hmark)

/-- Wherever a run has stopped, its ledgers have the first of the units noted and nothing else has
been done to them. -/
theorem Stopped.exists_noted {all : List MigrationUnit} {e : Failure} {t : σ}
    (h : m.Stopped w before d all e t) : ∃ done, done <+: all ∧ m.Noted w done before (w.rows t) := by
  cases h with
  | lookup hsplit _ h => exact ⟨_, ⟨_, hsplit.symm⟩, h.noted⟩
  | unit hsplit _ hnoted _ => exact ⟨_, ⟨_, hsplit.symm⟩, hnoted⟩

/-! ### Runs -/

theorem ensures_applyAll_up (hpretend : m.pretend = false) (henv : m.Hosting le w)
    {standings : List Standing} {all : List MigrationUnit} (hknown : ∀ u ∈ all, u ∈ m.known)
    (hbatch : ∀ u ∈ all, (((m.standingOf? standings u).map Standing.nextBatch).getD 1).toInt =
      1 + LedgerRow.highest (before (m.placeOf w u)))
    (done rest : List MigrationUnit) (hsplit : all = done ++ rest) (report : MigrationReport)
    (hreport : report.migrated = done.map (·.id)) :
    Ensures (m.Progress w before d done) (m.applyAll standings report rest)
      (fun report t => report.migrated = all.map (·.id) ∧ m.Progress w before d all t)
      (m.Stopped w before d all) := by
  induction rest generalizing done report with
  | nil =>
      rw [List.append_nil] at hsplit
      subst hsplit
      exact ensures_pure fun s hs => ⟨hreport, hs⟩
  | cons u rest ih =>
      intro s hs
      have hu : u ∈ all := by
        rw [hsplit]
        simp
      unfold applyAll
      refine ((henv (m.connectionName u) (w.see s)).weaken (fun _ hr => hr) (fun _ _ hc => hc)
        (fun _ t ht => .lookup hsplit ht.2 (hs.of_see ht.1))).bind
        (fun c => Ensures.of_imp fun hc => ?_) s rfl
      refine ((ensures_runNext_up hpretend hc (hknown u hu) rfl _ report.migrated (w.see s)).weaken
        (fun _ hr => hr) (fun _ _ hr => hr) ?_).bind fun pretended t ht => ?_
      · rintro _ t ⟨⟨cause, rfl⟩, ht⟩
        rw [hreport]
        exact hs.stopped hsplit (hbatch u hu) ht
      · refine ih (done ++ [u]) (by rw [hsplit, List.append_assoc]; rfl) _ ?_ t
          (hs.snoc (hbatch u hu) ht)
        rw [hreport, List.map_append]
        rfl

theorem pending_of_units {units : List MigrationUnit} (hunits : m.units = .ok units)
    {standings : List Standing} (hnames : standings.map (·.connection) = m.involved units)
    (hof : ∀ st ∈ standings, st.Of (before (w.place st.connection))) :
    units.filter (m.isPending standings) = m.pending w before := by
  rw [pending, known, hunits]
  refine List.filter_congr fun u hu => ?_
  obtain ⟨st, hst, hname, hfound⟩ := exists_standing hnames hu
  have happlied := (hof st hst).applied u.id
  rw [hname] at happlied
  rw [isPending, hfound]
  rw [Option.any_some, List.contains_eq_mem, ← decide_not]
  exact decide_eq_decide.mpr (not_congr happlied)

/-- Some units that are found apply to the ledgers what these do not list, or the run stops on the
way. -/
theorem ensures_applyPending_noted (hpretend : m.pretend = false) (henv : m.Hosting le w)
    (hfits : ∀ u ∈ m.pending w before, ∀ r ∈ before (m.placeOf w u), r.batch < Int64.maxValue)
    {units : List MigrationUnit} (hunits : m.units = .ok units) :
    Ensures (m.Progress w before d []) (m.applyPending units false)
      (fun report t => report.migrated = (m.pending w before).map (·.id) ∧
        m.Progress w before d (m.pending w before) t)
      (m.Stopped w before d (m.pending w before)) := by
  have hlookup : Ensures (m.Progress w before d []) ((m.involved units).mapM (m.standing false))
      (fun standings s => m.Progress w before d [] s ∧
        standings.map (·.connection) = m.involved units ∧
        ∀ st ∈ standings, st.Of (before (w.place st.connection)))
      (m.Stopped w before d (m.pending w before)) :=
    ensures_mapM (·.connection) (fun st => st.Of (before (w.place st.connection))) _ fun name _ =>
      (ensures_standing_of hpretend henv before d name).weaken (fun _ hs => hs.of_nil)
        (fun _ _ ht => ⟨.nil ht.1, ht.2.1, ht.2.1 ▸ ht.2.2⟩)
        (fun _ t ht => .lookup rfl ht.2 (.nil ht.1))
  refine hlookup.bind fun standings => Ensures.of_imp ?_
  rintro ⟨hnames, hof⟩
  rw [pending_of_units hunits hnames hof]
  refine ensures_applyAll_up hpretend henv (fun u hu => (List.mem_filter.mp hu).1) ?_ [] _ rfl {}
    rfl
  intro u hu
  have hmem : u ∈ units := by
    have := (List.mem_filter.mp hu).1
    rwa [known, hunits] at this
  obtain ⟨st, hst, hname, hfound⟩ := exists_standing hnames hmem
  rw [hfound, Option.map_some, Option.getD_some, (hof st hst).nextBatch, hname]
  exact LedgerRow.toInt_nextBatch (hfits u hu)

/-- A run applies what its ledgers do not list, or stops on the way. -/
theorem ensures_migrate (hpretend : m.pretend = false) (henv : m.Hosting le w)
    (hfits : ∀ u ∈ m.pending w before, ∀ r ∈ before (m.placeOf w u), r.batch < Int64.maxValue) :
    Ensures (fun s => w.rows s = before ∧ w.trail s = d) m.migrate
      (fun report t => report.migrated = (m.pending w before).map (·.id) ∧
        m.Progress w before d (m.pending w before) t)
      (m.Stopped w before d (m.pending w before)) := by
  exact ensures_loadUnits_bind (fun e he s hs => .lookup rfl (m.failsPlainly_units e he) (.nil hs))
    fun hunits => (ensures_applyPending_noted hpretend henv hfits hunits).weaken
      (fun _ hs => .nil hs) (fun _ _ ht => ht) fun _ _ ht => ht

/-! ### What a run has done -/

theorem eq_of_id {u v : MigrationUnit} (hu : u ∈ m.known) (hv : v ∈ m.known) (h : u.id = v.id) :
    u = v :=
  List.inj_on_of_nodup_map m.nodup_known hu hv h

theorem ascending_pending (rows : String → List LedgerRow) :
    (m.pending w rows).Pairwise fun u v => u.id < v.id :=
  m.ascending_known.filter _

/-- Of the pending units, a ledger lists those that were noted. -/
theorem Noted.mem_listed_iff {done rest : List MigrationUnit} {before after : String → List LedgerRow}
    (h : m.Noted w done before after) (hsplit : m.pending w before = done ++ rest)
    {u : MigrationUnit} (hu : u ∈ m.pending w before) :
    u.id ∈ m.listedBeside w after u ↔ u ∈ done := by
  have hfresh : u.id ∉ m.listedBeside w before u := by
    simpa using (List.mem_filter.mp hu).2
  have hids : ∀ v ∈ done, v.id = u.id → v = u := by
    intro v hv heq
    have hv' : v ∈ m.pending w before := by
      rw [hsplit]
      exact List.mem_append_left rest hv
    have hnodup : ((m.pending w before).map (·.id)).Nodup :=
      m.nodup_known.sublist (List.filter_sublist.map _)
    exact List.inj_on_of_nodup_map hnodup hv' hu heq
  rw [h.mem_listed]
  constructor
  · rintro (hlisted | ⟨v, hv, -, heq⟩)
    · exact absurd hlisted hfresh
    · exact hids v hv heq ▸ hv
  · exact fun hdone => .inr ⟨u, hdone, rfl, rfl⟩

/-- Behind a run that has noted all that was pending, nothing is. -/
theorem Noted.pending_eq_nil {before after : String → List LedgerRow}
    (h : m.Noted w (m.pending w before) before after) : m.pending w after = [] := by
  refine List.filter_eq_nil_iff.mpr fun u hu => ?_
  rw [decide_eq_true_eq, not_not]
  by_cases hlisted : u.id ∈ m.listedBeside w before u
  · exact (h.mem_listed u u.id).mpr (.inl hlisted)
  · exact (h.mem_listed u u.id).mpr
      (.inr ⟨u, List.mem_filter.mpr ⟨hu, decide_eq_true hlisted⟩, rfl, rfl⟩)

/-- Where nothing is pending, a run changes no row and runs no unit. -/
theorem ensures_migrate_again (hpretend : m.pretend = false) (henv : m.Hosting le w)
    (hnone : m.pending w before = []) :
    Ensures (fun s => w.rows s = before ∧ w.trail s = d) m.migrate
      (fun report t => report.migrated = [] ∧ w.rows t = before ∧ w.trail t = d)
      (fun _ t => w.rows t = before ∧ w.trail t = d) := by
  refine (ensures_migrate hpretend henv ?_).weaken (fun _ hs => hs) ?_ ?_
  · rw [hnone]
    exact fun u hu => absurd hu List.not_mem_nil
  · rintro report t ⟨hreport, ht⟩
    rw [hnone] at hreport ht
    exact ⟨hreport, ht.of_nil⟩
  · rintro e t ht
    rw [hnone] at ht
    cases ht with
    | lookup hsplit _ h =>
        rw [(List.append_eq_nil_iff.mp hsplit.symm).1] at h
        exact h.of_nil
    | unit hsplit => simp at hsplit

/-- **A run applies what is pending.**  Unless its numbers run out, a run that succeeds has run and
noted what its ledgers did not list, and the next one has nothing to do; one that fails at a unit
tells which units it has noted before that. -/
theorem migrate_applies_pending (hpretend : m.pretend = false) (henv : m.Hosting le w) {s : σ}
    (hfits : ∀ place, ∀ r ∈ w.rows s place, r.batch < Int64.maxValue) :
    let pending := m.pending w (w.rows s)
    pending.Pairwise (fun u v => u.id < v.id) ∧
    match m.migrate.outcome s with
    | (.ok report, t) =>
      report.migrated = pending.map (·.id) ∧
      m.Noted w pending (w.rows s) (w.rows t) ∧
      Ran w.Marks pending (w.trail s) (w.trail t) ∧
      ∀ now, match ({ m with now } : Migrator σ).migrate.outcome t with
        | (.ok again, r) => again.migrated = [] ∧ w.rows r = w.rows t ∧ w.trail r = w.trail t
        | (.error _, r) => w.rows r = w.rows t ∧ w.trail r = w.trail t
    | (.error (.unit id batch applied _), t) =>
      ∃ done u rest, pending = done ++ u :: rest ∧ id = u.id ∧ applied = done.map (·.id) ∧
        batch.toInt = 1 + LedgerRow.highest (w.rows s (m.placeOf w u)) ∧
        m.Noted w done (w.rows s) (w.rows t) ∧
        (Ran w.Marks done (w.trail s) (w.trail t) ∨
          Ran w.Marks (done ++ [u]) (w.trail s) (w.trail t)) ∧
        (∀ v ∈ u :: rest, v.id ∉ m.listedBeside w (w.rows t) v) ∧
        ∀ name ∈ applied, name < id
    | (.error _, t) =>
      ∃ done rest, pending = done ++ rest ∧ m.Noted w done (w.rows s) (w.rows t) ∧
        Ran w.Marks done (w.trail s) (w.trail t) := by
  intro pending
  have hascending : pending.Pairwise fun u v => u.id < v.id := ascending_pending _
  refine ⟨hascending, ?_⟩
  have hrun := ensures_migrate hpretend henv (fun _ _ => hfits _) s ⟨rfl, rfl⟩
  rcases hend : m.migrate.outcome s with ⟨e | report, t⟩
  · rw [hend] at hrun
    change m.Stopped w (w.rows s) (w.trail s) pending e t at hrun
    cases hrun with
    | @lookup done rest _ _ hsplit hplain h =>
        cases e with
        | unit => exact hplain.elim
        | _ => exact ⟨done, rest, hsplit, h.noted, h.ran⟩
    | @unit done rest u batch cause _ hsplit hbatch hnoted hran =>
        rw [hsplit] at hascending
        have hparts := List.pairwise_append.mp hascending
        refine ⟨done, u, rest, hsplit, rfl, rfl, hbatch, hnoted, hran, fun v hv => ?_, ?_⟩
        · have hpending : v ∈ pending := by
            rw [hsplit]
            exact List.mem_append_right done hv
          rw [hnoted.mem_listed_iff hsplit hpending]
          exact fun hdone => (String.lt_irrefl v.id) (hparts.2.2 v hdone v hv)
        · intro name hname
          obtain ⟨v, hv, rfl⟩ := List.mem_map.mp hname
          exact hparts.2.2 v hv u (by simp)
  · rw [hend] at hrun
    obtain ⟨hreport, hprogress⟩ := hrun
    refine ⟨hreport, hprogress.noted, hprogress.ran, fun now => ?_⟩
    have hagain := ensures_migrate_again (m := { m with now }) hpretend (henv.stamped now)
      hprogress.noted.pending_eq_nil t ⟨rfl, rfl⟩
    rcases hnext : ({ m with now } : Migrator σ).migrate.outcome t with ⟨e | again, r⟩
    · rw [hnext] at hagain
      exact hagain
    · rw [hnext] at hagain
      exact hagain

/-- Where running a unit adds its entry to a log, the log lists what was run. -/
theorem log_of_ran {way : Way} {done : List MigrationUnit} {log log' : List String}
    (h : Ran (LoggedMemory.lookoutOf way).Marks done log log') :
    log' = log ++ done.map (LoggedMemory.entry · way) := by
  induction h with
  | nil log => simp
  | @snoc done u _ _ _ _ hmark ih =>
      refine Eq.trans hmark ?_
      rw [ih, List.map_append, List.append_assoc]
      rfl

/-- Of databases in memory one has no ledger yet, and the other's lists another unit. -/
theorem logged_memory_applies_pending :
    let m := LoggedMemory.migrator
    let w := LoggedMemory.lookout
    let archive : Database := { ledger := some [⟨"000_start", 6, "2024-01-01 00:00:00"⟩] }
    let s : LoggedMemory :=
      { memory := { databases := fun name => if name = "archive" then archive else {} } }
    (m.pretend = false ∧ m.Hosting Memory.textOrder w ∧
      ∀ place, ∀ r ∈ w.rows s place, r.batch < Int64.maxValue) ∧
    ∀ report t, m.migrate.outcome s = (.ok report, t) →
      report.migrated = ["001_people", "002_events"] ∧ t.log = ["001_people", "002_events"] ∧
      (w.rows t "main").map (fun r => (r.identifier, r.batch.toInt)) = [("001_people", 1)] ∧
      (w.rows t "archive").map (fun r => (r.identifier, r.batch.toInt)) =
        [("000_start", 6), ("002_events", 7)] := by
  intro m w archive s
  have hfits : ∀ place, ∀ r ∈ w.rows s place, r.batch < Int64.maxValue := by
    intro place r hr
    have hrows : w.rows s place = if place = "archive" then archive.rows else [] := by
      show (if place = "archive" then archive else {} : Database).rows = _
      split
      · rfl
      · rfl
    rw [hrows] at hr
    split at hr
    · rw [List.mem_singleton.mp hr]
      decide
    · cases hr
  have hpending : m.pending w (w.rows s) = LoggedMemory.units := by
    rw [pending, LoggedMemory.known_migrator]
    exact List.filter_eq_self.mpr (by decide)
  refine ⟨⟨rfl, LoggedMemory.hosting, hfits⟩, fun report t hrun => ?_⟩
  have hend := (migrate_applies_pending rfl LoggedMemory.hosting hfits).2
  rw [hrun] at hend
  obtain ⟨hreport, hnoted, hran, -⟩ := hend
  rw [hpending] at hreport hnoted hran
  have hlog : Ran (LoggedMemory.lookoutOf .up).Marks LoggedMemory.units (w.trail s) (w.trail t) :=
    hran
  refine ⟨hreport, log_of_ran hlog, ?_, ?_⟩
  · obtain ⟨added, hadded, hnames⟩ := hnoted "main"
    rw [hadded, List.map_append, hnames]
    decide
  · obtain ⟨added, hadded, hnames⟩ := hnoted "archive"
    rw [hadded, List.map_append, hnames]
    decide

end Migrator

end Relational
