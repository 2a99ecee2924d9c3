import Mathlib.Algebra.GroupWithZero.Nat
import Mathlib.Data.List.Nodup
import Relational.Proofs.Migration.Memory
import Relational.Proofs.Migration.Run
/-
How things stand with the units, and with the rows that no unit stands behind.

The status joins two lists, the units that are found and the rows of all ledgers, over the
pair of a name and a connection.  A unit stands for the row of its name in the ledger of
its own connection, and what is left over of the ledgers is listed behind the units.  What
makes the join count nothing twice is `nodup_keys`: no two entries have that pair in
common, neither two units, as these have names of their own, nor two rows, nor a unit and
a row that is left over.  `exists_entry` is the other half: no row is lost.
-/
namespace Relational

open Action

variable {σ : Type} {le : String → String → Bool}

/-! ### Reading ledgers -/

/-- All rows are read if their query is answered. -/
theorem Ledger.ensures_applied_of {l : Ledger σ} {pre post : σ → Prop} {stored : List LedgerRow}
    {failed : Failure → σ → Prop} {s : Statement}
    (hs : LedgerQuery.statement l.executor.dialect l.table .rows = .ok s)
    (h : Ensures pre (l.executor.query s.sql s.bindings)
      (fun answer t => post t ∧ LedgerQuery.rows.Answered le (some stored) answer) failed) :
    Ensures pre l.applied (fun rows t => post t ∧ rows.Perm (stored.map LedgerRow.read)) failed := by
  have hget : Ensures pre
      (l.queries.get (((l.query.orderBy "batch" .asc).orderBy "identifier" .asc).select
        LedgerQuery.columns))
      (fun answer t => post t ∧ LedgerQuery.rows.Answered le (some stored) answer) failed :=
    ensures_ofExcept_ok_bind hs (h.bind fun _ => ensures_pure fun _ ht => ht)
  refine hget.bind fun answer => Ensures.of_imp ?_
  rintro ⟨listed, hperm, -, rfl⟩
  rw [AppliedUnit.mapM_ofRow]
  exact ensures_pure fun t ht => ⟨ht, hperm.map LedgerRow.read⟩

/-- The entry of a row that no unit stands behind. -/
def LedgerRow.missing (name : String) (r : LedgerRow) : StatusEntry :=
  ⟨r.identifier, name, some r.read, true⟩

namespace Migrator

variable {m : Migrator σ} {calm : σ → Prop} {view : σ → String → Option (List LedgerRow)}

/-- The connection answers what the ledger of a name is asked by the status.  This changes no ledger
and leaves the state one in which it is answered again. -/
structure Answering (m : Migrator σ) (le : String → String → Bool) (calm : σ → Prop)
    (view : σ → String → Option (List LedgerRow)) (name : String) (c : Connection σ) : Prop where
  presence : ∀ x, Ensures (fun s => calm s ∧ view s = x)
    (c.executor.query (c.executor.dialect.hasTable (m.config.ledgerTableFor name)).sql
      (c.executor.dialect.hasTable (m.config.ledgerTableFor name)).bindings)
    (fun answer t => (calm t ∧ view t = x) ∧ LedgerQuery.presence.Answered le (x name) answer)
    (fun _ _ => False)
  /-- A ledger that is there can be read. -/
  rows : ∃ statement,
    LedgerQuery.statement c.executor.dialect (m.config.ledgerTableFor name) .rows = .ok statement ∧
    ∀ x stored, x name = some stored → Ensures (fun s => calm s ∧ view s = x)
      (c.executor.query statement.sql statement.bindings)
      (fun answer t => (calm t ∧ view t = x) ∧ LedgerQuery.rows.Answered le (some stored) answer)
      (fun _ _ => False)

/-- As long as all is calm, the registry hands out the connections of the units, and they
answer. -/
def Legible (m : Migrator σ) (le : String → String → Bool) (calm : σ → Prop)
    (view : σ → String → Option (List LedgerRow)) : Prop :=
  ∀ name ∈ m.involved m.known, ∀ x, Ensures (fun s => calm s ∧ view s = x) (m.registry.get name)
    (fun c t => (calm t ∧ view t = x) ∧ m.Answering le calm view name c) (fun _ _ => False)

/-- The rows of each ledger; a missing table has none. -/
def rowsIn (ledgers : String → Option (List LedgerRow)) (name : String) : List LedgerRow :=
  (ledgers name).getD []

/-- What was read of the ledgers is what they hold. -/
def Read (ledgers : String → Option (List LedgerRow)) (p : String × List AppliedUnit) : Prop :=
  p.2.Perm ((rowsIn ledgers p.1).map LedgerRow.read)

theorem ensures_rowsOn (henv : m.Legible le calm view) (x : String → Option (List LedgerRow))
    {name : String} (hname : name ∈ m.involved m.known) :
    Ensures (fun s => calm s ∧ view s = x) (m.rowsOn name)
      (fun p t => (calm t ∧ view t = x) ∧ p.1 = name ∧ Read x p) (fun _ _ => False) := by
  refine (henv name hname x).bind fun c => Ensures.of_imp fun hc => ?_
  obtain ⟨statement, hstatement, hrows⟩ := hc.rows
  have hpresent := Ledger.ensures_isPresent_of (l := m.ledger name c.executor) rfl (hc.presence x)
  refine hpresent.bind fun present => Ensures.of_imp fun hpresent => ?_
  subst hpresent
  cases hledger : x name with
  | none => exact ensures_pure fun t ht => ⟨ht, rfl, by simp [Read, rowsIn, hledger]⟩
  | some stored =>
      have happlied := Ledger.ensures_applied_of (l := m.ledger name c.executor) hstatement
        (hrows x stored hledger)
      refine happlied.bind fun rows => ensures_pure fun t ht => ⟨ht.1, rfl, ?_⟩
      rw [Read, rowsIn, hledger]
      exact ht.2

/-! ### Entries -/

/-- The entry of a unit tells of the row of its name in the ledger of its own connection. -/
structure Tells (m : Migrator σ) (ledgers : String → Option (List LedgerRow)) (u : MigrationUnit)
    (e : StatusEntry) : Prop where
  id : e.id = u.id
  connection : e.connection = m.connectionName u
  found : e.missing = false
  row : ∀ row, e.row = some row ↔
    ∃ r ∈ rowsIn ledgers (m.connectionName u), r.identifier = u.id ∧ row = r.read

/-- The rows of a connection's ledger that match no unit. -/
def unmatched (m : Migrator σ) (units : List MigrationUnit)
    (ledgers : String → Option (List LedgerRow)) (name : String) : List LedgerRow :=
  (rowsIn ledgers name).filter fun r =>
    ∀ u ∈ units, m.connectionName u = name → u.id ≠ r.identifier

/-- What is left over of some ledgers. -/
def leftOver (m : Migrator σ) (units : List MigrationUnit)
    (ledgers : String → Option (List LedgerRow)) (names : List String) : List StatusEntry :=
  names.flatMap fun name => (m.unmatched units ledgers name).map (LedgerRow.missing name)

variable {units : List MigrationUnit} {ledgers : String → Option (List LedgerRow)}
  {found : List (String × List AppliedUnit)}

theorem unitOf?_eq_none {name : String} {row : AppliedUnit} :
    (m.unitOf? units name row).isNone = true ↔
      ∀ u ∈ units, m.connectionName u = name → u.id ≠ row.identifier := by
  rw [unitOf?, Option.isNone_iff_eq_none, List.find?_eq_none]
  refine forall₂_congr fun u _ => ?_
  simp only [Bool.and_eq_true, beq_iff_eq, not_and, imp_not_comm]

theorem missingOn_perm {p : String × List AppliedUnit} (h : Read ledgers p) :
    (m.missingOn units p.1 p.2).Perm
      ((m.unmatched units ledgers p.1).map (LedgerRow.missing p.1)) := by
  have hfilter := h.filter fun row => (m.unitOf? units p.1 row).isNone
  refine (hfilter.map _).trans (List.Perm.of_eq ?_)
  rw [List.filter_map, List.map_map, unmatched]
  congr 1
  refine List.filter_congr fun r _ => ?_
  rw [Function.comp_apply, Bool.eq_iff_iff, unitOf?_eq_none, decide_eq_true_eq]
  rfl

/-- What is listed behind the units are the rows that match none. -/
theorem flatMap_missingOn_perm (hfound : ∀ p ∈ found, Read ledgers p) :
    (found.flatMap fun (name, rows) => m.missingOn units name rows).Perm
      (m.leftOver units ledgers (found.map Prod.fst)) := by
  induction found with
  | nil => exact .refl _
  | cons p rest ih =>
      rw [leftOver, List.map_cons, List.flatMap_cons, List.flatMap_cons]
      exact (missingOn_perm (hfound p (by simp))).append (ih fun q hq => hfound q (by simp [hq]))

/-- A connection that was asked is looked up. -/
theorem exists_lookup {name : String} (hname : name ∈ found.map Prod.fst) :
    ∃ rows, found.lookup name = some rows ∧ (name, rows) ∈ found := by
  induction found with
  | nil => cases hname
  | cons p rest ih =>
      by_cases heq : name = p.1
      · subst heq
        exact ⟨p.2, by rw [List.lookup_cons, beq_self_eq_true], by simp⟩
      · have hrest : name ∈ rest.map Prod.fst := by
          simpa [heq] using hname
        obtain ⟨rows, hrows, hmem⟩ := ih hrest
        have hne : (name == p.1) = false := by simpa using heq
        exact ⟨rows, by rw [List.lookup_cons, hne, hrows], by simp [hmem]⟩

/-- If its ledger has no name twice, the entry of a unit tells of the row of its name. -/
theorem tells_unitStatus (hfound : ∀ p ∈ found, Read ledgers p) {u : MigrationUnit}
    (hname : m.connectionName u ∈ found.map Prod.fst)
    (hnodup : ((rowsIn ledgers (m.connectionName u)).map (·.identifier)).Nodup) :
    m.Tells ledgers u (m.unitStatus found u) where
  id := rfl
  connection := rfl
  found := rfl
  row row := by
    obtain ⟨rows, hrows, hmem⟩ := exists_lookup hname
    have hperm : rows.Perm ((rowsIn ledgers (m.connectionName u)).map LedgerRow.read) :=
      hfound _ hmem
    have hids : (rows.map (·.identifier)).Nodup := by
      rw [(hperm.map (·.identifier)).nodup_iff, List.map_map]
      exact hnodup
    show (found.lookup (m.connectionName u)).bind (List.find? fun r => r.identifier == u.id) = _ ↔ _
    rw [hrows, Option.bind_some]
    constructor
    · intro hfind
      have hmem := hperm.mem_iff.mp (List.mem_of_find?_eq_some hfind)
      obtain ⟨r, hr, rfl⟩ := List.mem_map.mp hmem
      have hid := List.find?_some hfind
      exact ⟨r, hr, beq_iff_eq.mp hid, rfl⟩
    · rintro ⟨r, hr, hid, rfl⟩
      have hread : r.read ∈ rows := hperm.mem_iff.mpr (List.mem_map_of_mem hr)
      have hsome : (rows.find? (·.identifier == u.id)).isSome = true :=
        List.find?_isSome.mpr ⟨r.read, hread, by simpa [LedgerRow.read] using hid⟩
      obtain ⟨other, hother⟩ := Option.isSome_iff_exists.mp hsome
      have hsame : other.identifier = r.read.identifier := by
        have := List.find?_some hother
        rw [beq_iff_eq] at this
        exact this.trans hid.symm
      rw [hother, List.inj_on_of_nodup_map hids (List.mem_of_find?_eq_some hother) hread hsame]

/-! ### Nothing is lost, and nothing is counted twice -/

/-- What an entry is about. -/
def key (e : StatusEntry) : String × String :=
  (e.id, e.connection)

variable {entryOf : MigrationUnit → StatusEntry} {names : List String}

theorem mem_leftOver {e : StatusEntry} : e ∈ m.leftOver units ledgers names ↔
    ∃ name ∈ names, ∃ r ∈ m.unmatched units ledgers name, LedgerRow.missing name r = e := by
  simp [leftOver]

theorem nodup_keys_units (hids : (units.map (·.id)).Nodup)
    (htells : ∀ u ∈ units, m.Tells ledgers u (entryOf u)) :
    ((units.map entryOf).map key).Nodup := by
  have hkeys : (units.map entryOf).map key = units.map fun u => (u.id, m.connectionName u) := by
    rw [List.map_map]
    exact List.map_congr_left fun u hu => Prod.ext (htells u hu).id (htells u hu).connection
  rw [hkeys]
  refine List.Nodup.of_map Prod.fst ?_
  rw [List.map_map]
  exact hids

theorem nodup_keys_leftOver (hnames : names.Nodup)
    (hnodup : ∀ name ∈ names, ((rowsIn ledgers name).map (·.identifier)).Nodup) :
    ((m.leftOver units ledgers names).map key).Nodup := by
  rw [leftOver, List.map_flatMap, List.nodup_flatMap]
  constructor
  · intro name hname
    refine List.Nodup.of_map Prod.fst ?_
    rw [List.map_map, List.map_map]
    exact (hnodup name hname).sublist (List.filter_sublist.map _)
  · refine hnames.imp fun {a b} hne => ?_
    refine List.disjoint_left.mpr ?_
    simp only [List.map_map, List.mem_map, Function.comp_apply, not_exists, not_and]
    rintro _ ⟨r, -, rfl⟩ s _ heq
    exact hne (congrArg Prod.snd heq).symm

/-- No two entries are about the same. -/
theorem nodup_keys (hids : (units.map (·.id)).Nodup)
    (htells : ∀ u ∈ units, m.Tells ledgers u (entryOf u)) (hnames : names.Nodup)
    (hnodup : ∀ name ∈ names, ((rowsIn ledgers name).map (·.identifier)).Nodup) :
    ((units.map entryOf ++ m.leftOver units ledgers names).map key).Nodup := by
  rw [List.map_append]
  refine List.Nodup.append (nodup_keys_units hids htells) (nodup_keys_leftOver hnames hnodup) ?_
  rw [List.disjoint_left]
  intro k hunit hrow
  obtain ⟨_, he, rfl⟩ := List.mem_map.mp hunit
  obtain ⟨u, hu, rfl⟩ := List.mem_map.mp he
  obtain ⟨_, he, hkey⟩ := List.mem_map.mp hrow
  obtain ⟨name, -, r, hr, rfl⟩ := mem_leftOver.mp he
  -- The row would be left over although the unit stands behind it.
  obtain ⟨hid, hname⟩ := Prod.mk.inj hkey
  exact of_decide_eq_true (List.mem_filter.mp hr).2 u hu
    ((htells u hu).connection.symm.trans hname.symm) ((htells u hu).id.symm.trans hid.symm)

/-- Every row has an entry. -/
theorem exists_entry (htells : ∀ u ∈ units, m.Tells ledgers u (entryOf u)) {name : String}
    (hname : name ∈ names) {r : LedgerRow} (hr : r ∈ rowsIn ledgers name) :
    ∃ e ∈ units.map entryOf ++ m.leftOver units ledgers names,
      key e = (r.identifier, name) ∧ e.row = some r.read := by
  by_cases hmatched : ∃ u ∈ units, m.connectionName u = name ∧ u.id = r.identifier
  · obtain ⟨u, hu, rfl, hid⟩ := hmatched
    exact ⟨entryOf u, List.mem_append_left _ (List.mem_map_of_mem hu),
      Prod.ext ((htells u hu).id.trans hid) (htells u hu).connection,
      ((htells u hu).row _).mpr ⟨r, hr, hid.symm, rfl⟩⟩
  · have hleft : r ∈ m.unmatched units ledgers name := by
      refine List.mem_filter.mpr ⟨hr, decide_eq_true fun u hu hconnection hid => ?_⟩
      exact hmatched ⟨u, hu, hconnection, hid⟩
    exact ⟨_, List.mem_append_right _ (mem_leftOver.mpr ⟨name, hname, r, hleft, rfl⟩), rfl, rfl⟩

/-- Of entries about different things, one alone is about what it is about. -/
theorem filter_key_eq {entries : List StatusEntry} (hnodup : (entries.map key).Nodup)
    {e : StatusEntry} (he : e ∈ entries) : entries.filter (key · = key e) = [e] := by
  have hsame : entries.filter (key · = key e) = entries.filter (· = e) :=
    List.filter_congr fun other hother => decide_eq_decide.mpr
      ⟨fun heq => List.inj_on_of_nodup_map hnodup hother he heq, congrArg key⟩
  rw [hsame, List.filter_eq, List.count_eq_one_of_mem hnodup.of_map he]
  rfl

/-! ### The status -/

/-- What is returned if every unit and every ledger can be read. -/
theorem exists_status (henv : m.Legible le calm view) (hunits : m.units = .ok units) {s : σ}
    (hs : calm s) : ∃ found t, m.status.outcome s =
        (.ok (units.map (m.unitStatus found) ++
          found.flatMap fun (name, rows) => m.missingOn units name rows), t) ∧
      view t = view s ∧ found.map Prod.fst = m.involved units ∧ ∀ p ∈ found, Read (view s) p := by
  have hknown : m.known = units := by rw [known, hunits]
  have hread : Ensures (fun s' => calm s' ∧ view s' = view s)
      ((m.involved units).mapM m.rowsOn)
      (fun found t => (calm t ∧ view t = view s) ∧ found.map Prod.fst = m.involved units ∧
        ∀ p ∈ found, Read (view s) p) (fun _ _ => False) :=
    ensures_mapM Prod.fst (Read (view s)) _ fun name hname =>
      ensures_rowsOn henv (view s) (hknown.symm ▸ hname)
  have hstatus : m.status = do
      let found ← (m.involved units).mapM m.rowsOn
      return units.map (m.unitStatus found) ++
        found.flatMap fun (name, rows) => m.missingOn units name rows := by
    unfold status loadUnits
    rw [hunits]
    rfl
  rw [hstatus, outcome_bind]
  have hend := hread s ⟨hs, rfl⟩
  rcases hrun : ((m.involved units).mapM m.rowsOn).outcome s with ⟨e | found, t⟩
  · rw [hrun] at hend
    exact hend.elim
  · rw [hrun] at hend
    exact ⟨found, t, rfl, hend.1.2, hend.2⟩

/-- **The status lists every row once.**  If no ledger has a name twice, the status returns the
units in the order of their names, each with the row of its name in the ledger of its own
connection, and behind them the rows that match no unit.  Of every row of an involved ledger there
is exactly one entry. -/
theorem status_lists_every_row (henv : m.Legible le calm view) (hunits : m.units = .ok units) {s : σ}
    (hs : calm s) (hnodup : ∀ name ∈ m.involved units,
      ((rowsIn (view s) name).map (·.identifier)).Nodup) :
    ∃ entryOf missing t,
      m.status.outcome s = (.ok (units.map entryOf ++ missing), t) ∧ view t = view s ∧
      units.Pairwise (fun u v => u.id < v.id) ∧
      (∀ u ∈ units, m.Tells (view s) u (entryOf u)) ∧
      missing.Perm (m.leftOver units (view s) (m.involved units)) ∧
      (∀ name ∈ m.involved units, ∀ r ∈ rowsIn (view s) name, ∃ e, e.row = some r.read ∧
        (units.map entryOf ++ missing).filter (key · = (r.identifier, name)) = [e]) ∧
      (units.map entryOf ++ missing).length = units.length +
        ((m.involved units).map fun name => (m.unmatched units (view s) name).length).sum := by
  have hknown : m.known = units := by rw [known, hunits]
  obtain ⟨found, t, hrun, hview, hnames, hfound⟩ := exists_status henv hunits hs
  have htells : ∀ u ∈ units, m.Tells (view s) u (m.unitStatus found u) := fun u hu =>
    tells_unitStatus hfound (hnames ▸ mem_involved hu) (hnodup _ (mem_involved hu))
  have hmissing : (found.flatMap fun (name, rows) => m.missingOn units name rows).Perm _ :=
    flatMap_missingOn_perm hfound
  rw [hnames] at hmissing
  have hids := m.nodup_known
  rw [hknown] at hids
  have hascending := m.ascending_known
  rw [hknown] at hascending
  have hperm := hmissing.append_left (units.map (m.unitStatus found))
  refine ⟨m.unitStatus found, _, t, hrun, hview, hascending, htells, hmissing, ?_, ?_⟩
  · intro name hname r hr
    obtain ⟨e, he, hkey, hrow⟩ := exists_entry htells hname hr
    have hkeys := nodup_keys hids htells (m.nodup_involved units) hnodup
    have hone := (hperm.filter (key · = key e)).trans (.of_eq (filter_key_eq hkeys he))
    rw [hkey] at hone
    exact ⟨e, hrow, List.perm_singleton.mp hone⟩
  · rw [hperm.length_eq, List.length_append, List.length_map, leftOver, List.length_flatMap]
    simp only [List.length_map]

end Migrator

namespace Memory

/-- The ledger of each connection. -/
def ledgers (s : Memory) (name : String) : Option (List LedgerRow) :=
  (s.databases name).ledger

/-- As long as no step is to fail, a query is answered if it is one that is understood. -/
theorem ensures_query_calm (name : String) {k : LedgerQuery} {statement : Statement}
    (hk : LedgerQuery.statement .sqlite table k = .ok statement)
    {x : String → Option (List LedgerRow)}
    (h : ∀ db : Database, db.ledger = x name →
      (answer db statement.sql statement.bindings).isSome = true) :
    Ensures (fun s => s.faults = [] ∧ ledgers s = x)
      ((executor (.shared name)).query statement.sql statement.bindings)
      (fun rows t => (t.faults = [] ∧ ledgers t = x) ∧ k.Answered textOrder (x name) rows)
      (fun _ _ => False) := by
  rintro s ⟨hfaults, rfl⟩
  obtain ⟨rows, hrows⟩ := Option.isSome_iff_exists.mp (h (s.databases name) rfl)
  simp only [executor, outcome_step, hfaults, List.head?_nil, List.drop_nil, Place.database, hrows]
  exact ⟨⟨rfl, rfl⟩, answered hk hrows⟩

theorem answering {name : String} (htable : migrator.config.ledgerTableFor name = table) :
    migrator.Answering textOrder (·.faults = []) ledgers name (connection name) := by
  obtain ⟨-, -, -, -, hpresence, hhighest, -⟩ := texts_differ
  refine ⟨fun x => ?_, ⟨rowsText, []⟩, ?_, fun x stored hstored => ?_⟩
  · rw [htable]
    refine ensures_query_calm name (k := .presence) rfl fun db _ => ?_
    rw [answer, if_pos rfl]
    rfl
  · rw [htable]
    exact statement_rows
  · rw [← hstored]
    refine ensures_query_calm name statement_rows fun db hdb => ?_
    rw [answer, if_neg hpresence, hdb, hstored, Option.bind_some, if_neg hhighest, if_pos rfl]
    rfl

theorem legible : migrator.Legible textOrder (·.faults = []) ledgers := by
  have htable : ∀ n ∈ ["main", "archive"], migrator.config.ledgerTableFor n = table := by
    decide
  have hopened : ∀ n ∈ ["main", "archive"], migrator.registry.get n = pure (connection n) := by
    intro n hn
    simp only [List.mem_cons, List.not_mem_nil, or_false] at hn
    rcases hn with rfl | rfl
    · rfl
    · rfl
  rw [Migrator.Legible, known_migrator]
  intro name hname x
  have hname : name ∈ ["main", "archive"] := hname
  rw [hopened name hname]
  exact ensures_pure fun s hs => ⟨hs, answering (htable name hname)⟩

end Memory

namespace Migrator

/-- A unit that was moved to another connection is pending there, and its row is left over. -/
theorem memory_status_lists_every_row :
    let m := Memory.migrator
    let main : Database := { ledger := some [⟨"001_people", 1, ""⟩, ⟨"002_events", 2, ""⟩] }
    let archive : Database := { ledger := some [⟨"001_people", 3, ""⟩] }
    let s : Memory := { databases := fun name => if name = "main" then main else archive }
    (m.Legible Memory.textOrder (·.faults = []) Memory.ledgers ∧ m.units = .ok Memory.units ∧
      s.faults = [] ∧ ∀ name ∈ m.involved Memory.units,
        ((rowsIn (Memory.ledgers s) name).map (·.identifier)).Nodup) ∧
    ∃ entries t, m.status.outcome s = (.ok entries, t) ∧ entries.length = 4 ∧
      ∃ e, e.row = some ⟨"002_events", 2, none⟩ ∧
        entries.filter (key · = ("002_events", "main")) = [e] := by
  intro m main archive s
  have hnodup : ∀ name ∈ m.involved Memory.units,
      ((rowsIn (Memory.ledgers s) name).map (·.identifier)).Nodup := by
    decide
  refine ⟨⟨Memory.legible, Memory.units_migrator, rfl, hnodup⟩, ?_⟩
  obtain ⟨entryOf, missing, t, hrun, -, -, -, -, hentries, hlength⟩ :=
    status_lists_every_row Memory.legible Memory.units_migrator (s := s) rfl hnodup
  obtain ⟨e, hrow, hone⟩ := hentries "main" (by decide) ⟨"002_events", 2, ""⟩ (by decide)
  exact ⟨_, t, hrun, hlength.trans (by decide), e, hrow, hone⟩

end Migrator

end Relational
