import Mathlib.Data.List.Perm.Basic
import Relational.Proofs.Migration.History
import Relational.Proofs.Migration.Stepwise
/-
Which rows a run that reverts units takes out of each ledger.

A scope is about the rows of one ledger: those of the highest batch, the newest so many, or
all of them.  The three are found in different ways, two by sorting what was read and one by
the query itself, but where names are distinct they come in the same order, and `Targets`
says which they are.  Connections are visited one after the other, and each is asked only
when its turn has come; `left` is what the ledgers hold by then.  If a connection shares its
ledger with none, that is what they held before the run.

Only targets with a unit that is known on the connection are taken out.  The units say which
rows these are: a ledger is asked to delete a name, and no other row has it.
-/
namespace Relational

open Action

variable {σ δ : Type}

namespace LedgerRow

/-- Of a later batch, or of the same batch and with a later name. -/
def Newer (a b : LedgerRow) : Prop :=
  b.batch < a.batch ∨ a.batch = b.batch ∧ b.identifier < a.identifier

/-- Rows with names of their own, whose batches are counted from one. -/
structure Sound (rows : List LedgerRow) : Prop where
  distinct : (rows.map (·.identifier)).Nodup
  positive : ∀ r ∈ rows, 0 < r.batch

theorem Sound.sublist {rows fewer : List LedgerRow} (h : Sound rows) (hsub : fewer.Sublist rows) :
    Sound fewer :=
  ⟨h.distinct.sublist (hsub.map _), fun r hr => h.positive r (hsub.subset hr)⟩

theorem Sound.eq_of_identifier {rows : List LedgerRow} (h : Sound rows) {a b : LedgerRow}
    (ha : a ∈ rows) (hb : b ∈ rows) (heq : a.identifier = b.identifier) : a = b :=
  List.inj_on_of_nodup_map h.distinct ha hb heq

theorem not_newer_self (r : LedgerRow) : ¬r.Newer r := by
  rintro (h | ⟨-, h⟩)
  · exact Int64.lt_irrefl h
  · exact String.lt_irrefl _ h

theorem nodup_of_newer {rows : List LedgerRow} (h : rows.Pairwise Newer) : rows.Nodup :=
  h.imp fun {a b} hab => by
    rintro rfl
    exact not_newer_self a hab

/-- Where names are distinct, an order that leaves open only which of two equal names is first is
strict. -/
theorem pairwise_newer {R : LedgerRow → LedgerRow → Prop} {rows : List LedgerRow}
    (hdistinct : (rows.map (·.identifier)).Nodup) (h : rows.Pairwise R)
    (hR : ∀ a b, R a b → a.identifier ≠ b.identifier → a.Newer b) : rows.Pairwise Newer :=
  (h.and (List.pairwise_map.mp hdistinct)).imp fun hab => hR _ _ hab.1 hab.2

theorem newer_of_notOlder {a b : LedgerRow} (h : AppliedUnit.NotOlder a.read b.read)
    (hne : a.identifier ≠ b.identifier) : a.Newer b := by
  rcases h with h | ⟨hbatch, h⟩
  · exact .inl h
  · exact .inr ⟨hbatch, Std.lt_of_le_of_ne (String.not_lt.mp h) (Ne.symm hne)⟩

theorem newer_of_precedes {a b : LedgerRow} (h : Precedes Memory.textOrder b a)
    (hne : a.identifier ≠ b.identifier) : a.Newer b := by
  rcases h with h | ⟨hbatch, h⟩
  · exact .inl h
  · exact .inr ⟨hbatch.symm, Std.lt_of_le_of_ne (of_decide_eq_true h) (Ne.symm hne)⟩

/-- Rows that were read in another order are rows in that order. -/
theorem exists_of_perm_read {picked : List AppliedUnit} {rows : List LedgerRow}
    (h : picked.Perm (rows.map read)) :
    ∃ listed : List LedgerRow, listed.Perm rows ∧ picked = listed.map read := by
  have hread : List.Forall₂ (fun a r => a = read r) (rows.map read) rows := by
    rw [List.forall₂_map_left_iff, List.forall₂_same]
    exact fun _ _ => rfl
  obtain ⟨listed, hlisted, hperm⟩ := List.perm_comp_forall₂ h hread
  rw [← List.forall₂_map_right_iff (R := Eq), List.forall₂_eq_eq_eq] at hlisted
  exact ⟨listed, hperm, hlisted⟩

/-- The rows of the last batch are those that no row is of a later batch than. -/
theorem filter_lastBatch_eq {stored : List LedgerRow} (hpositive : ∀ r ∈ stored, 0 < r.batch) :
    stored.filter (fun r => lastBatch stored ≠ 0 ∧ r.batch = lastBatch stored) =
      stored.filter fun r => ∀ other ∈ stored, other.batch ≤ r.batch := by
  refine List.filter_congr fun r hr => decide_eq_decide.mpr ⟨?_, fun h => ?_⟩
  · rintro ⟨-, hbatch⟩ other hother
    rw [Int64.le_iff_toInt_le, hbatch, toInt_lastBatch]
    exact le_highest hother
  · have hbatch : r.batch = lastBatch stored := by
      refine Int64.toInt_inj.mp (Eq.symm ?_)
      rw [toInt_lastBatch]
      exact highest_eq (fun other hother => Int64.le_iff_toInt_le.mp (h other hother)) ⟨r, hr, rfl⟩
    refine ⟨fun hzero => ?_, hbatch⟩
    have hpos := hpositive r hr
    rw [hbatch, hzero] at hpos
    exact Int64.lt_irrefl hpos

end LedgerRow

/-! ### What is in scope -/

/-- The rows of a ledger that are in scope, the newest first. -/
def Scope.Targets : Scope → List LedgerRow → List LedgerRow → Prop
  | lastBatch, stored, targets =>
    targets.Perm (stored.filter fun r => ∀ other ∈ stored, other.batch ≤ r.batch) ∧
    targets.Pairwise LedgerRow.Newer
  | steps n, stored, targets =>
    ∃ ordered : List LedgerRow, ordered.Perm stored ∧ ordered.Pairwise LedgerRow.Newer ∧
      targets = ordered.take n.toNat
  | all, stored, targets => targets.Perm stored ∧ targets.Pairwise LedgerRow.Newer

namespace Scope

variable {scope : Scope} {stored targets : List LedgerRow}

theorem Targets.pairwise (h : scope.Targets stored targets) : targets.Pairwise LedgerRow.Newer := by
  cases scope with
  | lastBatch => exact h.2
  | steps n =>
      obtain ⟨ordered, -, hordered, rfl⟩ := h
      exact hordered.sublist (List.take_sublist _ _)
  | all => exact h.2

theorem Targets.subset (h : scope.Targets stored targets) : targets ⊆ stored := by
  intro r hr
  cases scope with
  | lastBatch => exact (List.mem_filter.mp (h.1.mem_iff.mp hr)).1
  | steps n =>
      obtain ⟨ordered, hperm, -, rfl⟩ := h
      exact hperm.mem_iff.mp (List.mem_of_mem_take hr)
  | all => exact h.1.mem_iff.mp hr

/-- What a ledger is picked for are its targets. -/
theorem exists_targets {picked : List AppliedUnit} (hsound : LedgerRow.Sound stored)
    (h : scope.Picks Memory.textOrder stored picked) :
    ∃ targets, scope.Targets stored targets ∧ picked = targets.map LedgerRow.read := by
  have hsorted : ∀ {part rows : List LedgerRow}, part.Sublist stored → rows.Perm part →
      (rows.map LedgerRow.read).Pairwise AppliedUnit.NotOlder → rows.Pairwise LedgerRow.Newer := by
    intro part rows hpart hperm hordered
    have hdistinct := (hperm.map (·.identifier)).nodup_iff.mpr (hsound.sublist hpart).distinct
    exact LedgerRow.pairwise_newer hdistinct (List.pairwise_map.mp hordered)
      fun _ _ => LedgerRow.newer_of_notOlder
  cases scope with
  | lastBatch =>
      obtain ⟨hpicked, hordered⟩ := h
      rw [LedgerRow.filter_lastBatch_eq hsound.positive] at hpicked
      obtain ⟨rows, hperm, rfl⟩ := LedgerRow.exists_of_perm_read hpicked
      exact ⟨rows, ⟨hperm, hsorted List.filter_sublist hperm hordered⟩, rfl⟩
  | steps n =>
      obtain ⟨listed, hperm, hordered, rfl⟩ := h
      have hdistinct := (hperm.map (·.identifier)).nodup_iff.mpr hsound.distinct
      have hnewer := LedgerRow.pairwise_newer hdistinct hordered
        fun _ _ => LedgerRow.newer_of_precedes
      exact ⟨listed.take n.toNat, ⟨listed, hperm, hnewer, rfl⟩, rfl⟩
  | all =>
      obtain ⟨hpicked, hordered⟩ := h
      obtain ⟨rows, hperm, rfl⟩ := LedgerRow.exists_of_perm_read hpicked
      exact ⟨rows, ⟨hperm, hsorted (List.Sublist.refl _) hperm hordered⟩, rfl⟩

end Scope

namespace Migrator

variable {m : Migrator σ} {w : Lookout σ δ} {scope : Scope} {before : String → List LedgerRow}
  {d : δ} {targets : String → List LedgerRow} {names : List String}

/-! ### What is taken out -/

/-- A unit that runs on the connection stands behind the row. -/
def StandsBehind (m : Migrator σ) (name : String) (r : LedgerRow) : Prop :=
  ∃ u ∈ m.known, m.connectionName u = name ∧ u.id = r.identifier

instance (name : String) (r : LedgerRow) : Decidable (m.StandsBehind name r) :=
  inferInstanceAs (Decidable (∃ u ∈ m.known, m.connectionName u = name ∧ u.id = r.identifier))

/-- The units behind some rows on a connection, in their order. -/
def unitsBehind (m : Migrator σ) (name : String) (rows : List LedgerRow) : List MigrationUnit :=
  rows.filterMap fun r => m.unitOf? m.known name r.read

/-- The units that some connections revert, one connection after the other. -/
def downs (m : Migrator σ) (targets : String → List LedgerRow) (names : List String) :
    List MigrationUnit :=
  names.flatMap fun name => m.unitsBehind name (targets name)

/-- What is left when some connections have given up their targets: all rows but those with a unit
behind them. -/
def left (m : Migrator σ) (w : Lookout σ δ) (before : String → List LedgerRow)
    (targets : String → List LedgerRow) (names : List String) : String → List LedgerRow :=
  fun place => (before place).filter fun r =>
    ¬∃ name ∈ names, w.place name = place ∧ r ∈ targets name ∧ m.StandsBehind name r

/-- What is in scope on some connections that are visited in this order: each one's targets are
those of its ledger as the ones before it have left it. -/
def Aims (m : Migrator σ) (w : Lookout σ δ) (scope : Scope) (before : String → List LedgerRow)
    (targets : String → List LedgerRow) (names : List String) : Prop :=
  ∀ front name back, names = front ++ name :: back →
    scope.Targets (m.left w before targets front (w.place name)) (targets name)

/-- No other connection of a run has the same ledger. -/
def Alone (m : Migrator σ) (w : Lookout σ δ) (name : String) : Prop :=
  ∀ other ∈ m.involved m.known, w.place other = w.place name → other = name

theorem exists_unitOf? {name : String} {r : LedgerRow} (h : m.StandsBehind name r) :
    ∃ u, m.unitOf? m.known name r.read = some u := by
  obtain ⟨u, hu, hname, hid⟩ := h
  refine Option.isSome_iff_exists.mp (List.find?_isSome.mpr ⟨u, hu, ?_⟩)
  simp [hname, hid, LedgerRow.read]

theorem mem_unitsBehind {name : String} {rows : List LedgerRow} {u : MigrationUnit}
    (h : u ∈ m.unitsBehind name rows) :
    u ∈ m.known ∧ m.connectionName u = name ∧ ∃ r ∈ rows, u.id = r.identifier := by
  obtain ⟨r, hr, hu⟩ := List.mem_filterMap.mp h
  obtain ⟨hknown, hname, hid⟩ := mem_of_unitOf? hu
  exact ⟨hknown, hname, r, hr, hid⟩

theorem mem_of_mem_left {place : String} {r : LedgerRow}
    (h : r ∈ m.left w before targets names place) : r ∈ before place :=
  (List.mem_filter.mp h).1

/-- Of a ledger of its own a connection takes its targets, as far as there are units behind them. -/
theorem left_of_alone {name : String} (hname : name ∈ names)
    (halone : ∀ other ∈ names, w.place other = w.place name → other = name) :
    m.left w before targets names (w.place name) =
      (before (w.place name)).filter fun r => ¬(r ∈ targets name ∧ m.StandsBehind name r) := by
  refine List.filter_congr fun r _ => decide_eq_decide.mpr (not_congr ⟨?_, ?_⟩)
  · rintro ⟨other, hother, hplace, hr⟩
    rw [halone other hother hplace] at hr
    exact hr
  · exact fun hr => ⟨name, hname, rfl, hr⟩

/-- Connections with other ledgers leave a ledger as it is. -/
theorem left_of_apart {place : String} (h : ∀ name ∈ names, w.place name ≠ place) :
    m.left w before targets names place = before place :=
  List.filter_eq_self.mpr fun _ _ =>
    decide_eq_true fun ⟨name, hname, hplace, _⟩ => h name hname hplace

theorem left_congr {other : String → List LedgerRow} (h : ∀ name ∈ names, targets name = other name) :
    m.left w before targets names = m.left w before other names := by
  funext place
  refine List.filter_congr fun r _ => decide_eq_decide.mpr (not_congr ?_)
  refine exists_congr fun name => and_congr_right fun hname => ?_
  rw [h name hname]

theorem downs_congr {other : String → List LedgerRow} (h : ∀ name ∈ names, targets name = other name) :
    m.downs targets names = m.downs other names :=
  List.flatMap_congr fun name hname => by rw [h name hname]

theorem downs_snoc {name : String} :
    m.downs targets (names ++ [name]) = m.downs targets names ++ m.unitsBehind name (targets name) := by
  rw [downs, List.flatMap_append, List.flatMap_singleton]
  rfl

/-- As names are distinct, the names of the units are those of the rows that are taken out. -/
theorem without_eq_left (hsub : ∀ name ∈ names, targets name ⊆ before (w.place name))
    (hsound : ∀ name ∈ names, LedgerRow.Sound (before (w.place name))) :
    m.without w (m.downs targets names) before = m.left w before targets names := by
  funext place
  refine List.filter_congr fun r hr => decide_eq_decide.mpr ⟨fun h => ?_, fun h u hu hplace hid => ?_⟩
  · rintro ⟨name, hname, hplace, htarget, hstands⟩
    obtain ⟨u, hu⟩ := exists_unitOf? hstands
    obtain ⟨-, hconnection, hid⟩ := mem_of_unitOf? hu
    have hdown : u ∈ m.downs targets names :=
      List.mem_flatMap.mpr ⟨name, hname, List.mem_filterMap.mpr ⟨r, htarget, hu⟩⟩
    exact h u hdown (by rw [placeOf, hconnection, hplace]) hid.symm
  · obtain ⟨name, hname, hu⟩ := List.mem_flatMap.mp hu
    obtain ⟨hknown, hconnection, target, htarget, htid⟩ := mem_unitsBehind hu
    rw [placeOf, hconnection] at hplace
    subst hplace
    have hsame : r = target :=
      (hsound name hname).eq_of_identifier hr (hsub name hname htarget) (hid.trans htid)
    exact h ⟨name, hname, rfl, hsame ▸ htarget, u, hknown, hconnection, hid.symm⟩

/-! ### Aims -/

theorem Aims.subset (h : m.Aims w scope before targets names) {name : String} (hname : name ∈ names) :
    targets name ⊆ before (w.place name) := by
  obtain ⟨front, back, hsplit⟩ := List.append_of_mem hname
  exact fun r hr => mem_of_mem_left ((h front name back hsplit).subset hr)

theorem Aims.pairwise (h : m.Aims w scope before targets names) {name : String}
    (hname : name ∈ names) : (targets name).Pairwise LedgerRow.Newer := by
  obtain ⟨front, back, hsplit⟩ := List.append_of_mem hname
  exact (h front name back hsplit).pairwise

/-- The targets of a connection with a ledger of its own are those of the ledger before the
run. -/
theorem Aims.of_alone (h : m.Aims w scope before targets names) (hnodup : names.Nodup) {name : String}
    (hname : name ∈ names) (halone : ∀ other ∈ names, w.place other = w.place name → other = name) :
    scope.Targets (before (w.place name)) (targets name) := by
  obtain ⟨front, back, hsplit⟩ := List.append_of_mem hname
  have hapart : ∀ other ∈ front, w.place other ≠ w.place name := by
    intro other hother hplace
    have heq := halone other (by simp [hsplit, hother]) hplace
    rw [hsplit] at hnodup
    exact (List.nodup_append.mp hnodup).2.2 other hother name (by simp) heq
  have htargets := h front name back hsplit
  rwa [left_of_apart hapart] at htargets

theorem Aims.snoc (h : m.Aims w scope before targets names) {last : String} (hnew : last ∉ names)
    {rows : List LedgerRow}
    (hrows : scope.Targets (m.left w before targets names (w.place last)) rows) :
    m.Aims w scope before (Function.update targets last rows) (names ++ [last]) := by
  have hsame : ∀ part, part ⊆ names → ∀ name ∈ part,
      targets name = Function.update targets last rows name := by
    intro part hpart name hname
    rw [Function.update_of_ne]
    rintro rfl
    exact hnew (hpart hname)
  intro front name back hsplit
  rcases List.eq_nil_or_concat back with rfl | ⟨rest, end_, rfl⟩
  · obtain ⟨rfl, hlast⟩ := List.append_inj' hsplit rfl
    cases hlast
    rw [← left_congr (hsame names (List.Subset.refl _)), Function.update_self]
    exact hrows
  · rw [List.concat_eq_append, ← List.cons_append, ← List.append_assoc] at hsplit
    obtain ⟨hnames, -⟩ := List.append_inj' hsplit rfl
    have hfront : front ⊆ names := hnames ▸ List.subset_append_left _ _
    rw [← left_congr (hsame front hfront), ← hsame names (List.Subset.refl _) name (by simp [hnames])]
    exact h front name rest hnames

/-- A unit is reverted once. -/
theorem Aims.nodup_downs (h : m.Aims w scope before targets names) (hnodup : names.Nodup)
    (hsound : ∀ name ∈ names, LedgerRow.Sound (before (w.place name))) :
    (m.downs targets names).Nodup := by
  rw [downs, List.nodup_flatMap]
  constructor
  · intro name hname
    have hdistinct : (targets name).Pairwise fun a b => a.identifier ≠ b.identifier := by
      refine (LedgerRow.nodup_of_newer (h.pairwise hname)).imp_of_mem fun {a b} ha hb hne hid => hne ?_
      exact (hsound name hname).eq_of_identifier (h.subset hname ha) (h.subset hname hb) hid
    refine hdistinct.filterMap _ fun a b hne u hu v hv heq => hne ?_
    have hid : u.id = a.identifier := (mem_of_unitOf? hu).2.2
    have hid' : v.id = b.identifier := (mem_of_unitOf? hv).2.2
    rw [← hid, ← hid', heq]
  · refine hnodup.imp fun {a b} hne => ?_
    refine List.disjoint_left.mpr ?_
    intro u ha hb
    exact hne ((mem_unitsBehind ha).2.1.symm.trans (mem_unitsBehind hb).2.1)

/-- The next connection has its targets in what the ones before it have left of its ledger. -/
theorem Aims.exists_next (h : m.Aims w scope before targets names) {last : String}
    (hsound : ∀ name ∈ names ++ [last], LedgerRow.Sound (before (w.place name)))
    {units : List MigrationUnit}
    (hpicked : m.Picked Memory.textOrder scope last
      (m.without w (m.downs targets names) before (w.place last)) units) :
    ∃ rows, scope.Targets (m.left w before targets names (w.place last)) rows ∧
      units = m.unitsBehind last rows := by
  rw [without_eq_left (fun _ => h.subset) fun name hname => hsound name (by simp [hname])] at hpicked
  obtain ⟨picked, hpicks, rfl⟩ := hpicked
  have hleft := (hsound last (by simp)).sublist
    (List.filter_sublist : (m.left w before targets names (w.place last)).Sublist _)
  obtain ⟨rows, hrows, rfl⟩ := Scope.exists_targets hleft hpicks
  exact ⟨rows, hrows, List.filterMap_map⟩

/-- What some connections have reverted are the units behind their targets. -/
theorem Swept.exists_aims {done : List MigrationUnit}
    (h : m.Swept Memory.textOrder w scope before names done) (hnodup : names.Nodup)
    (hsound : ∀ name ∈ names, LedgerRow.Sound (before (w.place name))) :
    ∃ targets, m.Aims w scope before targets names ∧ done = m.downs targets names := by
  induction h with
  | nil => exact ⟨fun _ => [], fun front name back hsplit => by simp at hsplit, rfl⟩
  | @snoc names done units last h hpicked ih =>
      obtain ⟨hnames, -, hlast⟩ := List.nodup_append.mp hnodup
      have hnew : last ∉ names := fun hmem => hlast last hmem last (by simp) rfl
      obtain ⟨targets, haims, rfl⟩ := ih hnames fun name hname => hsound name (by simp [hname])
      obtain ⟨rows, hrows, rfl⟩ := haims.exists_next hsound hpicked
      have hsame : ∀ name ∈ names, targets name = Function.update targets last rows name := by
        intro name hname
        rw [Function.update_of_ne]
        rintro rfl
        exact hnew hname
      refine ⟨Function.update targets last rows, haims.snoc hnew hrows, ?_⟩
      rw [downs_snoc, Function.update_self, downs_congr hsame]

/-! ### Runs -/

/-- What a command that only reverts is about. -/
def Command.scope? : Command → Option Scope
  | .rollback steps => some (scopeOf steps)
  | .reset => some .all
  | _ => none

/-- A command that only reverts has reverted what the connections gave up one after the other, or
stops on the way. -/
theorem ensures_reverting {le : String → String → Bool} (hpretend : m.pretend = false)
    (henv : m.Yielding le w) {command : Command} (hscope : command.scope? = some scope) :
    Ensures (fun s => w.rows s = before ∧ w.trail s = d) (command.run m)
      (fun report t => ∃ units, m.Swept le w scope before (m.involved m.known) units ∧
        report.rolledBack = units.map (·.id) ∧ m.Retreat w before d units t)
      (m.Halted le w scope before d (m.involved m.known)) := by
  cases command with
  | rollback steps =>
      cases hscope
      exact ensures_rollback hpretend henv steps
  | reset =>
      cases hscope
      exact ensures_loading fun _ => ensures_revert_noted hpretend henv .all
  | migrate => cases hscope
  | refresh => cases hscope

/-- What a run has done that fails at a unit: the connections before have given up their targets, and
so far as there are units behind them, the targets in front of the unit's row are gone. -/
structure BrokenAt (m : Migrator σ) (w : Lookout σ δ) (scope : Scope)
    (before : String → List LedgerRow) (d : δ) (targets : String → List LedgerRow)
    (front : List String) (name : String) (back : List String) (earlier : List LedgerRow)
    (r : LedgerRow) (later : List LedgerRow) (u : MigrationUnit) (applied : List String) (t : σ) :
    Prop where
  involved : m.involved m.known = front ++ [name] ++ back
  aims : m.Aims w scope before targets (front ++ [name])
  split : targets name = earlier ++ r :: later
  unit : u ∈ m.known ∧ m.connectionName u = name ∧ u.id = r.identifier
  applied : applied = (m.downs targets front ++ m.unitsBehind name earlier).map (·.id)
  ran : Ran w.Marks (m.downs targets front ++ m.unitsBehind name earlier) d (w.trail t) ∨
    Ran w.Marks (m.downs targets front ++ m.unitsBehind name earlier ++ [u]) d (w.trail t)
  rows : w.rows t = m.left w before (Function.update targets name earlier) (front ++ [name])

namespace BrokenAt

variable {front back applied : List String} {name : String} {earlier later : List LedgerRow}
  {r : LedgerRow} {u : MigrationUnit} {t : σ}

/-- The row of the unit and the targets behind it are still there. -/
theorem mem_rows (h : m.BrokenAt w scope before d targets front name back earlier r later u applied t)
    {other : LedgerRow} (hother : other ∈ r :: later) : other ∈ w.rows t (w.place name) := by
  have hleft : other ∈ m.left w before targets front (w.place name) := by
    refine (h.aims front name [] rfl).subset ?_
    rw [h.split]
    exact List.mem_append_right earlier hother
  have hnew : other ∉ earlier := by
    have hnodup := LedgerRow.nodup_of_newer (h.aims.pairwise (by simp : name ∈ front ++ [name]))
    rw [h.split] at hnodup
    exact fun hmem => (List.nodup_append.mp hnodup).2.2 other hmem other hother rfl
  rw [h.rows]
  refine List.mem_filter.mpr ⟨mem_of_mem_left hleft, decide_eq_true ?_⟩
  rintro ⟨visited, hvisited, hplace, htaken, hstands⟩
  by_cases heq : visited = name
  · rw [heq, Function.update_self] at htaken
    exact hnew htaken
  · have hfront : visited ∈ front := by simpa [heq] using hvisited
    rw [Function.update_of_ne heq] at htaken
    exact of_decide_eq_true (List.mem_filter.mp hleft).2 ⟨visited, hfront, hplace, htaken, hstands⟩

/-- The targets of a connection with a ledger of its own are those of the ledger before the
run. -/
theorem targets_of_alone
    (h : m.BrokenAt w scope before d targets front name back earlier r later u applied t)
    {visited : String} (hvisited : visited ∈ front ++ [name]) (halone : m.Alone w visited) :
    scope.Targets (before (w.place visited)) (targets visited) := by
  have hnodup := m.nodup_involved m.known
  rw [h.involved] at hnodup
  refine h.aims.of_alone (List.nodup_append.mp hnodup).1 hvisited fun other hother => halone other ?_
  rw [h.involved]
  exact List.mem_append_left back hother

/-- A connection that is still to come keeps the rows of its own ledger. -/
theorem rows_of_alone
    (h : m.BrokenAt w scope before d targets front name back earlier r later u applied t)
    {next : String} (hnext : next ∈ back) (halone : m.Alone w next) :
    w.rows t (w.place next) = before (w.place next) := by
  have hnodup := m.nodup_involved m.known
  rw [h.involved] at hnodup
  rw [h.rows]
  refine left_of_apart fun visited hvisited hplace => ?_
  have heq : visited = next := by
    refine halone visited ?_ hplace
    rw [h.involved]
    exact List.mem_append_left back hvisited
  exact (List.nodup_append.mp hnodup).2.2 visited hvisited next hnext heq

end BrokenAt

/-- A run that fails at a unit has stopped at the row of the unit. -/
theorem Halted.exists_brokenAt {id : String} {batch : Int64} {applied : List String} {cause : Failure}
    {t : σ} (hsound : ∀ name ∈ m.involved m.known, LedgerRow.Sound (before (w.place name)))
    (h : m.Halted Memory.textOrder w scope before d (m.involved m.known)
      (.unit id batch applied cause) t) :
    ∃ targets front name back earlier r later u, id = u.id ∧
      m.BrokenAt w scope before d targets front name back earlier r later u applied t := by
  cases h with
  | lookup _ _ hplain _ => exact hplain.elim
  | @unit names rest name done units _ _ hsplit hswept hpicked h =>
      have hnodup := m.nodup_involved m.known
      rw [hsplit, List.append_cons] at hnodup
      obtain ⟨hnames, -, hlast⟩ := List.nodup_append.mp (List.nodup_append.mp hnodup).1
      have hnew : name ∉ names := fun hmem => hlast name hmem name (by simp) rfl
      have hsound' : ∀ other ∈ names ++ [name], LedgerRow.Sound (before (w.place other)) := by
        intro other hother
        refine hsound other ?_
        rw [hsplit, List.append_cons]
        exact List.mem_append_left rest hother
      obtain ⟨targets, haims, rfl⟩ := hswept.exists_aims hnames fun other hother =>
        hsound' other (by simp [hother])
      obtain ⟨rows, hrows, rfl⟩ := haims.exists_next hsound' hpicked
      obtain ⟨front, u, back, batch', cause', hunits, he, hleft, hran⟩ := h
      cases he
      -- The rows that no unit stands behind come in between.
      obtain ⟨first, behind, hfirst, hfront, hbehind⟩ := List.filterMap_eq_append_iff.mp hunits
      obtain ⟨skipped, r, later, hskipped, hnone, hu, -⟩ := List.filterMap_eq_cons_iff.mp hbehind
      have hearlier : m.unitsBehind name (first ++ skipped) = front := by
        rw [unitsBehind, List.filterMap_append, hfront, List.filterMap_eq_nil_iff.mpr hnone,
          List.append_nil]
      have hsame : ∀ part : List LedgerRow, ∀ other ∈ names,
          targets other = Function.update targets name part other := by
        intro part other hother
        rw [Function.update_of_ne]
        rintro rfl
        exact hnew hother
      refine ⟨Function.update targets name rows, names, name, rest, first ++ skipped, r, later, u, rfl,
        by rw [hsplit, List.append_cons], haims.snoc hnew hrows, ?_, ?_, ?_, ?_, ?_⟩
      · rw [Function.update_self, hfirst, hskipped, List.append_assoc]
      · obtain ⟨hknown, hname, hid⟩ := mem_of_unitOf? hu
        exact ⟨hknown, hname, hid⟩
      · rw [← downs_congr (hsame rows), hearlier]
      · rw [← downs_congr (hsame rows), hearlier]
        exact hran
      · rw [Function.update_idem, hleft, ← without_eq_left]
        · rw [downs_snoc, Function.update_self, hearlier, ← downs_congr (hsame _)]
        · intro other hother
          by_cases heq : other = name
          · rw [heq, Function.update_self]
            intro x hx
            refine mem_of_mem_left (hrows.subset ?_)
            rw [hfirst, hskipped, ← List.append_assoc]
            exact List.mem_append_left _ hx
          · rw [Function.update_of_ne heq]
            exact haims.subset (by simpa [heq] using hother)
        · exact hsound'

/-- A run that does not fail at a unit has stopped between two connections. -/
theorem Halted.exists_aims {e : Failure} {t : σ} (hplain : e.IsPlain)
    (hsound : ∀ name ∈ m.involved m.known, LedgerRow.Sound (before (w.place name)))
    (h : m.Halted Memory.textOrder w scope before d (m.involved m.known) e t) :
    ∃ targets front name back, m.involved m.known = front ++ name :: back ∧
      m.Aims w scope before targets front ∧ Ran w.Marks (m.downs targets front) d (w.trail t) ∧
      w.rows t = m.left w before targets front := by
  cases h with
  | unit _ _ _ h =>
      obtain ⟨_, _, _, _, _, -, rfl, -⟩ := h
      exact hplain.elim
  | @lookup names rest name done _ _ hsplit hswept _ h =>
      have hnodup := m.nodup_involved m.known
      rw [hsplit] at hnodup
      have hfront : ∀ other ∈ names, LedgerRow.Sound (before (w.place other)) := fun other hother =>
        hsound other (by simp [hsplit, hother])
      obtain ⟨targets, haims, rfl⟩ := hswept.exists_aims (List.nodup_append.mp hnodup).1 hfront
      exact ⟨targets, names, name, rest, hsplit, haims, h.ran,
        h.rows.trans (without_eq_left (fun _ => haims.subset) hfront)⟩

/-- **A run that reverts takes the targets of each ledger.**  It takes them out in their order, as
far as units are known behind them, and leaves every other row.  If it fails at a unit, the row of
the unit and all behind it are still there, and it tells the names of the rows that are not. -/
theorem revert_takes_targets (hpretend : m.pretend = false) (henv : m.Yielding Memory.textOrder w)
    {command : Command} (hscope : command.scope? = some scope) {s : σ}
    (hsound : ∀ name ∈ m.involved m.known, LedgerRow.Sound (w.rows s (w.place name))) :
    match (command.run m).outcome s with
    | (.ok report, t) => ∃ targets, m.Aims w scope (w.rows s) targets (m.involved m.known) ∧
      (m.downs targets (m.involved m.known)).Nodup ∧
      report.rolledBack = (m.downs targets (m.involved m.known)).map (·.id) ∧
      Ran w.Marks (m.downs targets (m.involved m.known)) (w.trail s) (w.trail t) ∧
      w.rows t = m.left w (w.rows s) targets (m.involved m.known) ∧
      ∀ name ∈ m.involved m.known, m.Alone w name →
        scope.Targets (w.rows s (w.place name)) (targets name) ∧
        w.rows t (w.place name) = (w.rows s (w.place name)).filter fun r =>
          ¬(r ∈ targets name ∧ m.StandsBehind name r)
    | (.error (.unit id _ applied _), t) => ∃ targets front name back earlier r later u, id = u.id ∧
      m.BrokenAt w scope (w.rows s) (w.trail s) targets front name back earlier r later u applied t ∧
      (∀ visited ∈ front ++ [name], m.Alone w visited →
        scope.Targets (w.rows s (w.place visited)) (targets visited)) ∧
      (∀ other ∈ r :: later, other ∈ w.rows t (w.place name)) ∧
      ∀ next ∈ back, m.Alone w next → w.rows t (w.place next) = w.rows s (w.place next)
    | (.error _, t) => ∃ targets front name back, m.involved m.known = front ++ name :: back ∧
      m.Aims w scope (w.rows s) targets front ∧
      Ran w.Marks (m.downs targets front) (w.trail s) (w.trail t) ∧
      w.rows t = m.left w (w.rows s) targets front := by
  have hnodup := m.nodup_involved m.known
  have hstart : w.rows s = w.rows s ∧ w.trail s = w.trail s := ⟨rfl, rfl⟩
  have hrun := ensures_reverting hpretend henv hscope s hstart
  rcases hend : (command.run m).outcome s with ⟨e | report, t⟩
  · rw [hend] at hrun
    change m.Halted Memory.textOrder w scope (w.rows s) (w.trail s) (m.involved m.known) e t at hrun
    cases e with
    | unit id batch applied cause =>
        obtain ⟨targets, front, name, back, earlier, r, later, u, hid, h⟩ := hrun.exists_brokenAt hsound
        exact ⟨targets, front, name, back, earlier, r, later, u, hid, h,
          fun _ => h.targets_of_alone, fun _ => h.mem_rows, fun _ => h.rows_of_alone⟩
    | _ => exact Halted.exists_aims (by trivial) hsound hrun
  · rw [hend] at hrun
    obtain ⟨_, hswept, hreport, hretreat⟩ := hrun
    obtain ⟨targets, haims, rfl⟩ := hswept.exists_aims hnodup hsound
    have hrows : w.rows t = m.left w (w.rows s) targets (m.involved m.known) :=
      hretreat.rows.trans (without_eq_left (fun _ => haims.subset) hsound)
    refine ⟨targets, haims, haims.nodup_downs hnodup hsound, hreport, hretreat.ran, hrows, ?_⟩
    intro name hname halone
    refine ⟨haims.of_alone hnodup hname halone, ?_⟩
    rw [hrows]
    exact left_of_alone hname halone

end Migrator

namespace LoggedMemory

/-- Behind some rows there is no unit: one is of a unit that nothing is known about, and one is in
the ledger of another connection. -/
def strayed : LoggedMemory where
  memory := { databases := fun name =>
    if name = "archive" then { ledger := some [⟨"002_events", 1, ""⟩, ⟨"001_people", 3, ""⟩] }
    else { ledger := some [⟨"000_gone", 1, ""⟩, ⟨"001_people", 2, ""⟩] } }

theorem told_strayed :
    told (fun report _ => report.rolledBack)
        (((migratorWith installedOrRemoved).revert units .lastBatch).outcome strayed) =
      some ["001_people"] := by
  decide +kernel

theorem sound_strayed (place : String) :
    LedgerRow.Sound ((lookoutOf .down).rows strayed place) := by
  have hrows : (lookoutOf .down).rows strayed place =
      if place = "archive" then [⟨"002_events", 1, ""⟩, ⟨"001_people", 3, ""⟩]
      else [⟨"000_gone", 1, ""⟩, ⟨"001_people", 2, ""⟩] := by
    show ((if place = "archive" then _ else _ : Database).ledger).getD [] = _
    split
    · rfl
    · rfl
  rw [hrows]
  split
  · exact ⟨by decide, by decide⟩
  · exact ⟨by decide, by decide⟩

end LoggedMemory

namespace Migrator

/-- Of the last batches only the row is taken out that has a unit behind it. -/
theorem logged_memory_takes_targets :
    let m := LoggedMemory.migratorWith LoggedMemory.installedOrRemoved
    let w := LoggedMemory.lookoutOf .down
    (m.pretend = false ∧ m.Yielding Memory.textOrder w ∧
      Command.scope? (.rollback none) = some .lastBatch ∧ ∀ name ∈ m.involved m.known,
        LedgerRow.Sound (w.rows LoggedMemory.strayed (w.place name))) ∧
    ∃ report t, (m.rollback none).outcome LoggedMemory.strayed = (.ok report, t) ∧
      report.rolledBack = ["001_people"] ∧
      w.rows t "main" = [⟨"000_gone", 1, ""⟩] ∧
      w.rows t "archive" = [⟨"002_events", 1, ""⟩, ⟨"001_people", 3, ""⟩] := by
  intro m w
  have hsound : ∀ name ∈ m.involved m.known,
      LedgerRow.Sound (w.rows LoggedMemory.strayed (w.place name)) :=
    fun name _ => LoggedMemory.sound_strayed (w.place name)
  refine ⟨⟨rfl, LoggedMemory.yielding, rfl, hsound⟩, ?_⟩
  have hunits := rollback_eq (LoggedMemory.units_migratorWith LoggedMemory.installedOrRemoved) none
    LoggedMemory.strayed
  obtain ⟨report, t, hrun, hreport⟩ := LoggedMemory.exists_of_told LoggedMemory.told_strayed
  have hrun' : (m.rollback none).outcome LoggedMemory.strayed = (.ok report, t) := hunits.trans hrun
  have hscope : Command.scope? (.rollback none) = some .lastBatch := rfl
  have hend := revert_takes_targets rfl LoggedMemory.yielding hscope hsound
  rw [Command.run, hrun'] at hend
  obtain ⟨targets, -, -, -, -, -, howned⟩ := hend
  have hinvolved : ∀ name ∈ ["main", "archive"], name ∈ m.involved m.known := by
    rw [LoggedMemory.known_migratorWith]
    decide
  have hfilter : ∀ (rows taken : List LedgerRow) name,
      rows.filter (fun r => ¬(r ∈ taken ∧ m.StandsBehind name r)) = rows.filter fun r =>
        ¬(r ∈ taken ∧ ∃ u ∈ LoggedMemory.units, m.connectionName u = name ∧ u.id = r.identifier) := by
    intro rows taken name
    refine List.filter_congr fun r _ => decide_eq_decide.mpr ?_
    rw [StandsBehind, LoggedMemory.known_migratorWith]
  obtain ⟨hmain, hrows⟩ := howned "main" (hinvolved _ (by decide)) fun _ _ hplace => hplace
  obtain ⟨harchive, hrows'⟩ := howned "archive" (hinvolved _ (by decide)) fun _ _ hplace => hplace
  have hmain' : targets "main" = [⟨"001_people", 2, ""⟩] :=
    List.perm_singleton.mp (hmain.1.trans (.of_eq (by decide)))
  have harchive' : targets "archive" = [⟨"001_people", 3, ""⟩] :=
    List.perm_singleton.mp (harchive.1.trans (.of_eq (by decide)))
  refine ⟨report, t, hrun', hreport, hrows.trans ?_, hrows'.trans ?_⟩
  · rw [hfilter, hmain']
    decide
  · rw [hfilter, harchive']
    decide

end Migrator

end Relational
