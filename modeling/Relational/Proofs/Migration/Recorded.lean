import Relational.Proofs.Migration.TakenBack
import Relational.Proofs.Migration.Targets
/-
A ledger on a connection of its own is a stack.

No ledger says in which order its rows were recorded; a reset takes them by batch and name.
With one connection the two orders are the same.  A run that applies units adds rows behind
the others, in the order of the units' names and under a number above all that are there,
whatever other names there are.  A run that reverts units takes the newest rows, so it takes
them off the end, and as long as no unit is forgotten it skips none of them.  `Stack` is
that invariant, and every run keeps it, however far it gets.

Numbers that were given up are given out again, so they count the runs that have rows left
and not those there were.  Each of these has a row of its own, and no number is higher than
the number of units.
-/
namespace Relational

open Action

variable {σ δ : Type}

namespace LedgerRow

theorem newer_asymm {a b : LedgerRow} (h : a.Newer b) : ¬b.Newer a := by
  rintro (h' | ⟨hbatch', h'⟩)
  · rcases h with h | ⟨hbatch, -⟩
    · exact Int64.lt_asymm h h'
    · exact Int64.lt_irrefl (hbatch ▸ h')
  · rcases h with h | ⟨-, h⟩
    · exact Int64.lt_irrefl (hbatch' ▸ h)
    · exact String.lt_asymm h h'

/-- Rows with the newest first are those with the newest last in reverse. -/
theorem eq_reverse_of_newer {targets rows : List LedgerRow} (hperm : targets.Perm rows)
    (htargets : targets.Pairwise Newer) (hrows : rows.Pairwise fun a b => b.Newer a) :
    targets = rows.reverse :=
  (hperm.trans (List.reverse_perm rows).symm).eq_of_pairwise
    (fun _ _ _ _ hab hba => absurd hba (newer_asymm hab)) htargets (List.pairwise_reverse.mpr hrows)

/-- What holds of later rows if it holds of earlier ones holds of the last rows alone. -/
theorem eq_append_of_pairwise {R : LedgerRow → LedgerRow → Prop} {p : LedgerRow → Bool}
    {rows : List LedgerRow} (h : rows.Pairwise R) (hp : ∀ a b, R a b → p a = true → p b = true) :
    rows = rows.filter (fun r => !p r) ++ rows.filter p := by
  induction rows with
  | nil => rfl
  | cons r rest ih =>
      obtain ⟨hfirst, hrest⟩ := List.pairwise_cons.mp h
      by_cases hr : p r = true
      · have hall : ∀ b ∈ r :: rest, p b = true := by
          intro b hb
          rcases List.mem_cons.mp hb with rfl | hb
          · exact hr
          · exact hp r b (hfirst b hb) hr
        rw [List.filter_eq_self.mpr hall, List.filter_eq_nil_iff.mpr, List.nil_append]
        exact fun b hb => by simp [hall b hb]
      · rw [List.filter_cons_of_neg hr, List.filter_cons_of_pos (by simpa using hr), List.cons_append]
        exact congrArg (r :: ·) (ih hrest)

end LedgerRow

/-- Where the newest row is last, what is in scope are the last rows. -/
theorem Scope.Targets.exists_kept {scope : Scope} {rows targets : List LedgerRow}
    (h : scope.Targets rows targets) (hrows : rows.Pairwise fun a b => b.Newer a) :
    ∃ kept, rows = kept ++ targets.reverse ∧ (scope = .all → kept = []) := by
  cases scope with
  | lastBatch =>
      have hsplit := LedgerRow.eq_append_of_pairwise
        (p := fun r => ∀ other ∈ rows, other.batch ≤ r.batch) hrows ?_
      · refine ⟨_, hsplit.trans (congrArg _ ?_), nofun⟩
        rw [LedgerRow.eq_reverse_of_newer h.1 h.2 (hrows.filter _), List.reverse_reverse]
      · intro a b hab ha
        refine decide_eq_true fun other hother => Int64.le_trans (of_decide_eq_true ha other hother) ?_
        rcases hab with hab | ⟨hab, -⟩
        · exact Int64.le_of_lt hab
        · exact Int64.le_of_eq hab.symm
  | steps n =>
      obtain ⟨ordered, hperm, hordered, rfl⟩ := h
      refine ⟨(ordered.drop n.toNat).reverse, ?_, nofun⟩
      rw [← List.reverse_append, List.take_append_drop,
        LedgerRow.eq_reverse_of_newer hperm hordered hrows, List.reverse_reverse]
  | all =>
      refine ⟨[], ?_, fun _ => rfl⟩
      rw [LedgerRow.eq_reverse_of_newer h.1 h.2 hrows, List.reverse_reverse, List.nil_append]

namespace Migrator

variable {m : Migrator σ} {w : Lookout σ δ} {back : MigrationUnit → δ → δ → Prop}
  {rows : List LedgerRow} {place : String}

/-! ### The invariant -/

/-- Every row is newer than those before it, no number is higher than there are rows so far, and of
every row there is a unit. -/
structure Stack (m : Migrator σ) (rows : List LedgerRow) : Prop where
  distinct : (rows.map (·.identifier)).Nodup
  recorded : rows.Pairwise fun a b => b.Newer a
  counted : ∀ (i : Nat) (r : LedgerRow), rows[i]? = some r →
    1 ≤ r.batch.toInt ∧ r.batch.toInt ≤ i + 1
  known : ∀ r ∈ rows, ∃ u ∈ m.known, u.id = r.identifier

namespace Stack

theorem nil : m.Stack [] :=
  ⟨.nil, .nil, fun i r h => by simp at h, nofun⟩

theorem of_prefix {kept : List LedgerRow} (h : m.Stack rows) (hkept : kept <+: rows) :
    m.Stack kept where
  distinct := h.distinct.sublist (hkept.sublist.map _)
  recorded := h.recorded.sublist hkept.sublist
  counted i r hr := by
    obtain ⟨rest, rfl⟩ := hkept
    obtain ⟨hi, -⟩ := List.getElem?_eq_some_iff.mp hr
    exact h.counted i r (by rw [List.getElem?_append_left hi, hr])
  known r hr := h.known r (hkept.subset hr)

/-- Units that are known besides do no harm. -/
theorem of_more {more : Migrator σ} (h : m.Stack rows)
    (hmore : ∀ u ∈ m.known, ∃ v ∈ more.known, v.id = u.id) : more.Stack rows where
  distinct := h.distinct
  recorded := h.recorded
  counted := h.counted
  known r hr := by
    obtain ⟨u, hu, hid⟩ := h.known r hr
    obtain ⟨v, hv, hid'⟩ := hmore u hu
    exact ⟨v, hv, hid'.trans hid⟩

theorem counted_of_mem (h : m.Stack rows) {r : LedgerRow} (hr : r ∈ rows) :
    1 ≤ r.batch.toInt ∧ r.batch.toInt ≤ rows.length := by
  obtain ⟨i, hi, rfl⟩ := List.mem_iff_getElem.mp hr
  have := h.counted i _ (List.getElem?_eq_getElem hi)
  omega

theorem sound (h : m.Stack rows) : LedgerRow.Sound rows where
  distinct := h.distinct
  positive r hr := by
    have := h.counted_of_mem hr
    rw [Int64.lt_iff_toInt_lt, Int64.toInt_zero]
    omega

/-- There are no more rows than units. -/
theorem length_le (h : m.Stack rows) : rows.length ≤ m.known.length := by
  have hsub : rows.map (·.identifier) ⊆ m.known.map (·.id) := by
    intro id hid
    obtain ⟨r, hr, rfl⟩ := List.mem_map.mp hid
    obtain ⟨u, hu, hid⟩ := h.known r hr
    exact List.mem_map.mpr ⟨u, hu, hid⟩
  have hle := (List.subperm_of_subset h.distinct hsub).length_le
  rwa [List.length_map, List.length_map] at hle

theorem lt_maxValue (h : m.Stack rows) (hmany : m.known.length < Int64.maxValue.toInt)
    {r : LedgerRow} (hr : r ∈ rows) : r.batch < Int64.maxValue := by
  have hcounted := h.counted_of_mem hr
  have hlength := h.length_le
  rw [Int64.lt_iff_toInt_lt]
  omega

theorem highest_le (h : m.Stack rows) :
    0 ≤ LedgerRow.highest rows ∧ LedgerRow.highest rows ≤ rows.length := by
  rcases LedgerRow.highest_eq_zero_or rows with hzero | ⟨r, hr, hbatch⟩
  · omega
  · have := h.counted_of_mem hr
    omega

end Stack

/-! ### One connection -/

/-- All units run on the default connection, and this is its ledger. -/
structure Single (m : Migrator σ) (w : Lookout σ δ) (place : String) : Prop where
  units : ∀ u ∈ m.known, m.connectionName u = m.config.default
  ledger : w.place m.config.default = place

namespace Single

theorem involved (h : m.Single w place) : m.involved m.known = [m.config.default] := by
  rw [Migrator.involved, List.eraseDups_cons, List.filter_eq_nil_iff.mpr]
  · rfl
  · intro name hname
    obtain ⟨u, hu, rfl⟩ := List.mem_map.mp hname
    simp [h.units u hu]

theorem placeOf_eq (h : m.Single w place) {u : MigrationUnit} (hu : u ∈ m.known) :
    m.placeOf w u = place := by
  rw [placeOf, h.units u hu, h.ledger]

/-- A unit stands behind every row. -/
theorem standsBehind (h : m.Single w place) (hstack : m.Stack rows) {r : LedgerRow} (hr : r ∈ rows) :
    m.StandsBehind m.config.default r := by
  obtain ⟨u, hu, hid⟩ := hstack.known r hr
  exact ⟨u, hu, h.units u hu, hid⟩

end Single

/-! ### Applying -/

variable {before after : String → List LedgerRow} {done : List MigrationUnit}

/-- Rows that a run adds are newer than those before them. -/
theorem Stack.noted (h : m.Stack (before place)) (hsingle : m.Single w place)
    (hdone : done <+: m.pending w before) (hnoted : m.Noted w done before after) :
    m.Stack (after place) := by
  have hpending : ∀ u ∈ done, u ∈ m.known ∧ u.id ∉ (before place).map (·.identifier) := by
    intro u hu
    obtain ⟨hknown, hfresh⟩ := List.mem_filter.mp (hdone.subset hu)
    rw [decide_eq_true_eq, listedBeside, hsingle.placeOf_eq hknown] at hfresh
    exact ⟨hknown, hfresh⟩
  have hhere : done.filter (m.placeOf w · = place) = done :=
    List.filter_eq_self.mpr fun u hu => decide_eq_true (hsingle.placeOf_eq (hpending u hu).1)
  obtain ⟨added, hadded, hids, hbatch⟩ := hnoted.exists_added place
  rw [hhere] at hids
  have hascending : (added.map (·.identifier)).Pairwise (· < ·) := by
    rw [hids]
    exact List.pairwise_map.mpr ((ascending_pending before).sublist hdone.sublist)
  have hunit : ∀ r ∈ added, ∃ u ∈ done, u.id = r.identifier := fun r hr =>
    List.mem_map.mp (hids ▸ List.mem_map_of_mem hr)
  obtain ⟨hlow, hhigh⟩ := h.highest_le
  rw [hadded]
  refine ⟨?_, ?_, ?_, ?_⟩
  · rw [List.map_append, List.nodup_append]
    refine ⟨h.distinct, hascending.imp fun hab => Std.ne_of_lt hab, ?_⟩
    rintro id hid _ hnew rfl
    rw [hids] at hnew
    obtain ⟨u, hu, rfl⟩ := List.mem_map.mp hnew
    exact (hpending u hu).2 hid
  · refine List.pairwise_append.mpr ⟨h.recorded, ?_, fun a ha b hb => .inl ?_⟩
    · refine (List.pairwise_map.mp hascending).imp_of_mem fun {a b} ha hb hab => .inr ⟨?_, hab⟩
      exact Int64.toInt_inj.mp ((hbatch b hb).trans (hbatch a ha).symm)
    · have hle := LedgerRow.le_highest ha
      have hnew := hbatch b hb
      rw [Int64.lt_iff_toInt_lt]
      omega
  · intro i r hr
    by_cases hi : i < (before place).length
    · rw [List.getElem?_append_left hi] at hr
      exact h.counted i r hr
    · rw [List.getElem?_append_right (by omega)] at hr
      have hnew := hbatch r (List.mem_of_getElem? hr)
      omega
  · intro r hr
    rcases List.mem_append.mp hr with hr | hr
    · exact h.known r hr
    · obtain ⟨u, hu, hid⟩ := hunit r hr
      exact ⟨u, (hpending u hu).1, hid⟩

/-- Applying adds to the stack, however far it gets. -/
theorem ensures_applyPending_stack (hm : m.Operating Memory.textOrder w back)
    (hsingle : m.Single w place) (hmany : m.known.length < Int64.maxValue.toInt)
    (hunits : m.units = .ok m.known) :
    Ensures (fun s => m.Stack (w.rows s place)) (m.applyPending m.known false)
      (fun _ t => m.Stack (w.rows t place)) (fun _ t => m.Stack (w.rows t place)) := by
  intro s hs
  have hstart : m.Progress w (w.rows s) (w.trail s) [] s := .nil ⟨rfl, rfl⟩
  have hfits : ∀ u ∈ m.pending w (w.rows s), ∀ r ∈ w.rows s (m.placeOf w u),
      r.batch < Int64.maxValue := by
    intro u hu r hr
    rw [hsingle.placeOf_eq (List.mem_filter.mp hu).1] at hr
    exact hs.lt_maxValue hmany hr
  refine ((ensures_applyPending_noted hm.changes hm.hosting hfits hunits).weaken (fun _ hr => hr)
    (fun _ t ht => hs.noted hsingle (List.prefix_refl _) ht.2.noted) ?_) s hstart
  intro e t ht
  obtain ⟨done, hdone, hnoted⟩ := ht.exists_noted
  exact hs.noted hsingle hdone hnoted

/-! ### Reverting -/

/-- Some of the last rows are gone, and these are the units that were reverted, in that order. -/
def Popped (m : Migrator σ) (rows kept : List LedgerRow) (downs : List MigrationUnit) : Prop :=
  (∀ u ∈ downs, u ∈ m.known) ∧ ∃ gone, rows = kept ++ gone ∧
    downs.map (·.id) = (gone.map (·.identifier)).reverse

theorem Popped.nil (rows : List LedgerRow) : m.Popped rows rows [] :=
  ⟨nofun, [], by simp, rfl⟩

/-- The units are those of the last rows, the last one first. -/
theorem Popped.ids_prefix {kept : List LedgerRow} (h : m.Popped rows kept done) :
    done.map (·.id) <+: (rows.map (·.identifier)).reverse := by
  obtain ⟨-, gone, rfl, hids⟩ := h
  rw [List.map_append, List.reverse_append, hids]
  exact List.prefix_append _ _

theorem Popped.isPrefix {kept : List LedgerRow} (h : m.Popped rows kept done) : kept <+: rows := by
  obtain ⟨-, gone, hrows, -⟩ := h
  exact ⟨gone, hrows.symm⟩

/-- The units behind rows have the names of these, if there is one behind each. -/
theorem ids_unitsBehind {name : String} (h : ∀ r ∈ rows, m.StandsBehind name r) :
    (m.unitsBehind name rows).map (·.id) = rows.map (·.identifier) := by
  induction rows with
  | nil => rfl
  | cons r rest ih =>
      obtain ⟨u, hu⟩ := exists_unitOf? (h r (by simp))
      have hid : u.id = r.identifier := (mem_of_unitOf? hu).2.2
      rw [unitsBehind, List.filterMap_cons, hu, List.map_cons, List.map_cons, hid]
      exact congrArg _ (ih fun other hother => h other (by simp [hother]))

/-- The first of the targets are the last rows, and taking them out leaves the others. -/
theorem Stack.popped (h : m.Stack rows) (hsingle : m.Single w place) {scope : Scope}
    {part rest : List LedgerRow} (htargets : scope.Targets rows (part ++ rest)) :
    m.Popped rows
      (rows.filter fun r => ¬(r ∈ part ∧ m.StandsBehind m.config.default r))
      (m.unitsBehind m.config.default part) := by
  obtain ⟨kept, hrows, -⟩ := htargets.exists_kept h.recorded
  rw [List.reverse_append, ← List.append_assoc] at hrows
  have hstands : ∀ r ∈ rows, m.StandsBehind m.config.default r := fun r => hsingle.standsBehind h
  have hleft : rows.filter (fun r => ¬(r ∈ part ∧ m.StandsBehind m.config.default r)) =
      kept ++ rest.reverse := by
    have hnodup := h.distinct.of_map
    rw [hrows] at hnodup
    rw [hrows, List.filter_append, List.filter_eq_self.mpr, List.filter_eq_nil_iff.mpr,
      List.append_nil]
    · intro r hr
      have hpart : r ∈ part := List.mem_reverse.mp hr
      simpa [hpart] using hstands r (by rw [hrows]; exact List.mem_append_right _ hr)
    · intro r hr
      refine decide_eq_true fun hpart => ?_
      exact (List.nodup_append.mp hnodup).2.2 r hr r (List.mem_reverse.mpr hpart.1) rfl
  refine ⟨fun u hu => (mem_unitsBehind hu).1, part.reverse, ?_, ?_⟩
  · rw [hleft]
    exact hrows
  · rw [List.map_reverse, List.reverse_reverse]
    refine ids_unitsBehind fun r hr => hstands r ?_
    exact htargets.subset (List.mem_append_left rest hr)

variable {d : δ} {scope : Scope}

theorem Single.sound (h : m.Single w place) (hstack : m.Stack (before place)) :
    ∀ name ∈ m.involved m.known, LedgerRow.Sound (before (w.place name)) := by
  intro name hname
  rw [h.involved, List.mem_singleton] at hname
  rw [hname, h.ledger]
  exact hstack.sound

/-- The connection has its targets in the ledger as it was before the run. -/
theorem Single.targets (h : m.Single w place) {targets : String → List LedgerRow}
    (haims : m.Aims w scope before targets [m.config.default]) :
    scope.Targets (before place) (targets m.config.default) := by
  have htargets := haims [] m.config.default [] rfl
  rwa [left_of_apart (by simp), h.ledger] at htargets

/-- What is left of the ledger when some rows have been taken out. -/
theorem Single.left_eq (h : m.Single w place) (targets : String → List LedgerRow) :
    m.left w before targets [m.config.default] place = (before place).filter fun r =>
      ¬(r ∈ targets m.config.default ∧ m.StandsBehind m.config.default r) := by
  have hleft : m.left w before targets [m.config.default] (w.place m.config.default) = _ :=
    left_of_alone (List.mem_singleton_self _) (by simp)
  rwa [h.ledger] at hleft

theorem Stack.popped_left (h : m.Stack (before place)) (hsingle : m.Single w place)
    {targets : String → List LedgerRow} {rest : List LedgerRow}
    (htargets : scope.Targets (before place) (targets m.config.default ++ rest)) :
    m.Popped (before place) (m.left w before targets [m.config.default] place)
      (m.unitsBehind m.config.default (targets m.config.default)) := by
  rw [hsingle.left_eq]
  exact h.popped hsingle htargets

/-- A reset takes out every row that there is a unit of. -/
theorem Stack.left_eq_nil (h : m.Stack (before place)) (hsingle : m.Single w place)
    {targets : String → List LedgerRow}
    (htargets : Scope.all.Targets (before place) (targets m.config.default)) :
    m.left w before targets [m.config.default] place = [] := by
  rw [hsingle.left_eq, List.filter_eq_nil_iff]
  intro r hr
  simpa [htargets.1.mem_iff.mpr hr] using hsingle.standsBehind h hr

/-- A run that has stopped at a unit has taken the targets in front of the unit's row off the stack,
and has run their units and perhaps that one. -/
theorem BrokenAt.popped {applied : List String} {earlier later : List LedgerRow}
    {targets : String → List LedgerRow} {r : LedgerRow} {u : MigrationUnit} {t : σ}
    (h : m.BrokenAt w scope before d targets [] m.config.default [] earlier r later u applied t)
    (hsingle : m.Single w place) (hstack : m.Stack (before place)) :
    w.rows t place <+: before place ∧ ∃ kept downs,
      m.Popped (before place) kept downs ∧ Ran w.Marks downs d (w.trail t) := by
  have htargets := hsingle.targets h.aims
  have hunit : m.unitsBehind m.config.default [r] = [u] := by
    obtain ⟨hknown, hname, hid⟩ := h.unit
    obtain ⟨v, hv⟩ := exists_unitOf? ⟨u, hknown, hname, hid⟩
    obtain ⟨hknown', -, hid'⟩ := mem_of_unitOf? hv
    rw [unitsBehind, List.filterMap_cons, hv, eq_of_id hknown' hknown (hid'.trans hid.symm)]
    rfl
  rw [h.split] at htargets
  have hpart : scope.Targets (before place)
      (Function.update targets m.config.default earlier m.config.default ++ r :: later) := by
    rwa [Function.update_self]
  have hmore : scope.Targets (before place) ((earlier ++ [r]) ++ later) := by
    rwa [List.append_assoc]
  refine ⟨?_, ?_⟩
  · rw [h.rows]
    exact (hstack.popped_left hsingle hpart).isPrefix
  · rcases h.ran with hran | hran
    · exact ⟨_, _, hstack.popped hsingle htargets, hran⟩
    · refine ⟨_, _, hstack.popped hsingle hmore, ?_⟩
      rw [unitsBehind, List.filterMap_append]
      rwa [← hunit] at hran

theorem eq_of_singleton {x name : String} {front rest : List String}
    (h : [x] = front ++ name :: rest) : front = [] ∧ name = x ∧ rest = [] := by
  cases front with
  | nil => simpa [eq_comm] using h
  | cons y ys => simp at h

/-- A run that reverts takes rows off the stack, all if it is to, and runs their units in that
order. -/
theorem ensures_revert_popped (hpretend : m.pretend = false) (henv : m.Yielding Memory.textOrder w)
    (hsingle : m.Single w place) (hstack : m.Stack (before place)) :
    Ensures (fun s => w.rows s = before ∧ w.trail s = d) (m.revert m.known scope)
      (fun report t => ∃ downs, m.Popped (before place) (w.rows t place) downs ∧
        report.rolledBack = downs.map (·.id) ∧ Ran w.Marks downs d (w.trail t) ∧
        (scope = .all → w.rows t place = []))
      (fun _ t => w.rows t place <+: before place ∧ ∃ kept downs,
        m.Popped (before place) kept downs ∧ Ran w.Marks downs d (w.trail t)) := by
  have hsound := hsingle.sound hstack
  refine (ensures_revert_noted hpretend henv scope).weaken (fun _ hs => hs) ?_ ?_
  · rintro report t ⟨_, hswept, hreport, hretreat⟩
    rw [hsingle.involved] at hswept hsound
    obtain ⟨targets, haims, rfl⟩ := hswept.exists_aims (List.nodup_singleton _) hsound
    have htargets := hsingle.targets haims
    have hrows : w.rows t = m.left w before targets [m.config.default] :=
      hretreat.rows.trans (without_eq_left (fun _ => haims.subset) hsound)
    have hdowns : m.downs targets [m.config.default] =
        m.unitsBehind m.config.default (targets m.config.default) := List.flatMap_singleton _ _
    have hall : scope.Targets (before place) (targets m.config.default ++ []) := by
      rwa [List.append_nil]
    rw [hdowns] at hreport hretreat
    rw [hrows]
    refine ⟨_, hstack.popped_left hsingle hall, hreport, hretreat.ran, ?_⟩
    rintro rfl
    exact hstack.left_eq_nil hsingle htargets
  · intro e t ht
    by_cases hplain : e.IsPlain
    · obtain ⟨targets, front, name, rest, hinvolved, -, hran, hrows⟩ :=
        ht.exists_aims hplain hsound
      rw [hsingle.involved] at hinvolved
      obtain ⟨rfl, -⟩ := eq_of_singleton hinvolved
      rw [hrows, left_of_apart (by simp)]
      exact ⟨List.prefix_refl _, _, [], .nil _, hran⟩
    · cases e with
      | unit id batch applied cause =>
          obtain ⟨targets, front, name, rest, earlier, r, later, u, -, h⟩ := ht.exists_brokenAt hsound
          have hinvolved := h.involved
          rw [hsingle.involved, List.append_assoc] at hinvolved
          obtain ⟨rfl, rfl, rfl⟩ := eq_of_singleton hinvolved
          exact h.popped hsingle hstack
      | _ => exact absurd (by trivial) hplain

/-- A reset takes all rows off the stack; one that finds no units takes none. -/
theorem ensures_reset_popped (hpretend : m.pretend = false) (henv : m.Yielding Memory.textOrder w)
    (hsingle : m.Single w place) (hstack : m.Stack (before place)) :
    Ensures (fun s => w.rows s = before ∧ w.trail s = d) m.reset
      (fun report t => ∃ downs, m.Popped (before place) [] downs ∧
        report.rolledBack = downs.map (·.id) ∧ Ran w.Marks downs d (w.trail t) ∧
        w.rows t place = [])
      (fun _ t => w.rows t place <+: before place ∧ ∃ kept downs,
        m.Popped (before place) kept downs ∧ Ran w.Marks downs d (w.trail t)) := by
  refine ensures_loadUnits_bind ?_ fun _ => ?_
  · rintro _ _ t ⟨rfl, rfl⟩
    exact ⟨List.prefix_refl _, _, [], .nil _, .nil _⟩
  refine (ensures_revert_popped hpretend henv hsingle hstack).weaken (fun _ hs => hs) ?_
    (fun _ _ ht => ht)
  rintro report t ⟨downs, hpopped, hreport, hran, hall⟩
  have hnone := hall rfl
  exact ⟨downs, hnone ▸ hpopped, hreport, hran, hnone⟩

/-- Reverting takes rows off the stack, however far it gets. -/
theorem ensures_revert_stack (hm : m.Operating Memory.textOrder w back) (hsingle : m.Single w place)
    (scope : Scope) :
    Ensures (fun s => m.Stack (w.rows s place)) (m.revert m.known scope)
      (fun _ t => m.Stack (w.rows t place)) (fun _ t => m.Stack (w.rows t place)) := by
  intro s hs
  have hstart : w.rows s = w.rows s ∧ w.trail s = w.trail s := ⟨rfl, rfl⟩
  have hsingle' : m.Single (w.marking back) place := ⟨hsingle.units, hsingle.ledger⟩
  refine ((ensures_revert_popped hm.changes hm.yielding hsingle' hs).weaken (fun _ hr => hr) ?_ ?_)
    s hstart
  · rintro _ t ⟨downs, hpopped, -⟩
    exact hs.of_prefix hpopped.isPrefix
  · rintro _ t ⟨hkept, -⟩
    exact hs.of_prefix hkept

/-! ### Histories -/

/-- The state behind some runs, each of a migrator of its own and whatever became of the ones
before. -/
def afterAll : List (Migrator σ × Command) → σ → σ
  | [], s => s
  | (m, command) :: rest, s => afterAll rest ((command.run m).outcome s).2

/-- The units of the first are known to the second. -/
def KnownTo (m more : Migrator σ) : Prop :=
  ∀ u ∈ m.known, ∃ v ∈ more.known, v.id = u.id

theorem KnownTo.length_le {more : Migrator σ} (h : m.KnownTo more) :
    m.known.length ≤ more.known.length := by
  have hsub : m.known.map (·.id) ⊆ more.known.map (·.id) := by
    intro id hid
    obtain ⟨u, hu, rfl⟩ := List.mem_map.mp hid
    obtain ⟨v, hv, hid⟩ := h u hu
    exact List.mem_map.mpr ⟨v, hv, hid⟩
  have hle := (List.subperm_of_subset m.nodup_known hsub).length_le
  rwa [List.length_map, List.length_map] at hle

/-- A run keeps the ledger a stack, however far it gets. -/
theorem ensures_run_stack (hm : m.Operating Memory.textOrder w back) (hsingle : m.Single w place)
    (hmany : m.known.length < Int64.maxValue.toInt) (command : Command) :
    Ensures (fun s => m.Stack (w.rows s place)) (command.run m)
      (fun _ t => m.Stack (w.rows t place)) (fun _ t => m.Stack (w.rows t place)) :=
  command.ensures_run_of hm.changes (fun _ hs => hs)
    (fun _ scope => ensures_revert_stack hm hsingle scope)
    (fun hunits => ensures_applyPending_stack hm hsingle hmany hunits)

/-- Behind runs that forget no unit the ledger is a stack, also for one who knows more units. -/
theorem stack_afterAll {runs : List (Migrator σ × Command)}
    (hruns : ∀ run ∈ runs, run.1.Operating Memory.textOrder w back ∧ run.1.Single w place)
    (hgrow : (runs.map Prod.fst ++ [m]).Pairwise KnownTo)
    (hmany : m.known.length < Int64.maxValue.toInt) {s : σ}
    (hs : ∀ more ∈ runs.map Prod.fst ++ [m], more.Stack (w.rows s place)) :
    m.Stack (w.rows (afterAll runs s) place) := by
  induction runs generalizing s with
  | nil => exact hs m (by simp)
  | cons run rest ih =>
      obtain ⟨first, command⟩ := run
      rw [List.map_cons, List.cons_append, List.pairwise_cons] at hgrow
      obtain ⟨hfirst, hgrow⟩ := hgrow
      obtain ⟨hm, hsingle⟩ := hruns _ List.mem_cons_self
      have hlength := (hfirst m (by simp)).length_le
      have hnext : first.Stack (w.rows ((command.run first).outcome s).2 place) :=
        (ensures_run_stack hm hsingle (by omega) command).behind (hs first (by simp))
      exact ih (fun run hrun => hruns run (List.mem_cons_of_mem _ hrun)) hgrow
        fun more hmore => hnext.of_more (hfirst more hmore)

/-- **A reset goes back the way the units came.**  Whatever runs there were on the connection since
its ledger was empty, and however they ended, if none has forgotten a unit, a reset reverts the
units in the reverse of the order in which the rows of the ledger were recorded.  Rows are recorded
behind those that are there. -/
theorem reset_reverses_recording {runs : List (Migrator σ × Command)}
    (hruns : ∀ run ∈ runs, run.1.Operating Memory.textOrder w back ∧ run.1.Single w place)
    (hm : m.Operating Memory.textOrder w back) (hsingle : m.Single w place)
    (hgrow : (runs.map Prod.fst ++ [m]).Pairwise KnownTo)
    (hmany : m.known.length < Int64.maxValue.toInt) {s : σ} (hempty : w.rows s place = []) :
    let r := afterAll runs s
    let recorded := (w.rows r place).map (·.identifier)
    match m.reset.outcome r with
    | (.ok report, t) => ∃ downs, (∀ u ∈ downs, u ∈ m.known) ∧
      downs.map (·.id) = recorded.reverse ∧ report.rolledBack = recorded.reverse ∧
      Ran back downs (w.trail r) (w.trail t) ∧ w.rows t place = []
    | (.error _, t) => ∃ downs, (∀ u ∈ downs, u ∈ m.known) ∧
      downs.map (·.id) <+: recorded.reverse ∧
      Ran back downs (w.trail r) (w.trail t) ∧ w.rows t place <+: w.rows r place := by
  intro r recorded
  have hstack : m.Stack (w.rows r place) := by
    refine stack_afterAll hruns hgrow hmany fun more _ => ?_
    rw [hempty]
    exact .nil
  have hsingle' : m.Single (w.marking back) place := ⟨hsingle.units, hsingle.ledger⟩
  have hstart : w.rows r = w.rows r ∧ w.trail r = w.trail r := ⟨rfl, rfl⟩
  have hrun := ensures_reset_popped hm.changes hm.yielding hsingle' hstack r hstart
  rcases hend : m.reset.outcome r with ⟨e | report, t⟩
  · rw [hend] at hrun
    obtain ⟨hkept, kept, downs, hpopped, hran⟩ := hrun
    exact ⟨downs, hpopped.1, hpopped.ids_prefix, hran, hkept⟩
  · rw [hend] at hrun
    obtain ⟨downs, ⟨hknown, gone, hgone, hids⟩, hreport, hran, hrows⟩ := hrun
    have hgone : w.rows r place = gone := hgone
    rw [← hgone] at hids
    exact ⟨downs, hknown, hids, hreport.trans hids, hran, hrows⟩

end Migrator

namespace LoggedMemory

/-- Both units on one connection. -/
def singleMigrator : Migrator LoggedMemory :=
  { migratorWith installedOrRemoved with
    registry := { (migratorWith installedOrRemoved).registry with
      config := { migrator.config with default := "archive" } } }

/-- The same before the unit was written whose name comes first. -/
def youngSingle : Migrator LoggedMemory :=
  { singleMigrator with registered := units.drop 1 }

theorem units_singleMigrator : singleMigrator.units = .ok units :=
  Migrator.units_of_registered (by decide +kernel) (by decide)
    (by simp only [singleMigrator, migratorWith, migrator, units, List.pairwise_pair]; decide)
    (by decide)

theorem units_youngSingle : youngSingle.units = .ok (units.drop 1) :=
  Migrator.units_of_registered (by decide +kernel) (by decide) (List.pairwise_singleton _ _)
    (by decide)

theorem known_singleMigrator : singleMigrator.known = units := by
  rw [Migrator.known, units_singleMigrator]

theorem known_youngSingle : youngSingle.known = units.drop 1 := by
  rw [Migrator.known, units_youngSingle]

theorem works_singleMigrator : Works installedOrRemoved singleMigrator where
  known u hu := by rwa [known_singleMigrator] at hu
  opened := rfl
  others _ := rfl
  table := by decide

theorem works_youngSingle : Works installedOrRemoved youngSingle where
  known u hu := by
    rw [known_youngSingle] at hu
    exact List.mem_of_mem_drop hu
  opened := rfl
  others _ := rfl
  table := by decide

theorem single_singleMigrator : singleMigrator.Single (lookoutOf .up) "archive" where
  units := by
    rw [known_singleMigrator]
    decide
  ledger := rfl

theorem single_youngSingle : youngSingle.Single (lookoutOf .up) "archive" where
  units := by
    rw [known_youngSingle]
    decide
  ledger := rfl

/-- The unit whose name comes last is applied, taken back and applied again before the other one
is. -/
def turns : List (Migrator LoggedMemory × Migrator.Command) :=
  [(youngSingle, .migrate), (youngSingle, .rollback none), (youngSingle, .migrate),
    (singleMigrator, .migrate)]

theorem afterAll_turns : Migrator.afterAll turns empty =
    ((singleMigrator.applyPending units false).outcome
      ((youngSingle.applyPending (units.drop 1) false).outcome
        ((youngSingle.revert (units.drop 1) .lastBatch).outcome
          ((youngSingle.applyPending (units.drop 1) false).outcome empty).2).2).2).2 := by
  simp only [turns, Migrator.afterAll, Migrator.Command.run, Migrator.migrate_eq units_singleMigrator,
    Migrator.migrate_eq units_youngSingle, Migrator.rollback_eq units_youngSingle, Migrator.scopeOf]

theorem recorded_turns :
    ((lookoutOf .up).rows (Migrator.afterAll turns empty) "archive").map (·.identifier) =
      ["002_events", "001_people"] := by
  rw [afterAll_turns]
  decide +kernel

theorem growing_turns : (turns.map Prod.fst ++ [singleMigrator]).Pairwise Migrator.KnownTo := by
  have hyoung : Migrator.KnownTo youngSingle youngSingle := fun u hu => ⟨u, hu, rfl⟩
  have hsingle : Migrator.KnownTo singleMigrator singleMigrator := fun u hu => ⟨u, hu, rfl⟩
  have hmore : Migrator.KnownTo youngSingle singleMigrator := by
    intro u hu
    rw [known_youngSingle] at hu
    rw [known_singleMigrator]
    exact ⟨u, List.mem_of_mem_drop hu, rfl⟩
  simp [turns, hyoung, hsingle, hmore]

end LoggedMemory

namespace Migrator

/-- The unit whose name comes first was recorded last, and is reverted first. -/
theorem logged_memory_reverses_recording :
    let m := LoggedMemory.singleMigrator
    let w := LoggedMemory.lookoutOf .up
    let back := LoggedMemory.entries .down
    ((∀ run ∈ LoggedMemory.turns, run.1.Operating Memory.textOrder w back ∧ run.1.Single w "archive") ∧
      m.Operating Memory.textOrder w back ∧ m.Single w "archive" ∧
      (LoggedMemory.turns.map Prod.fst ++ [m]).Pairwise KnownTo ∧
      m.known.length < Int64.maxValue.toInt ∧ w.rows LoggedMemory.empty "archive" = []) ∧
    ∀ report t, m.reset.outcome (afterAll LoggedMemory.turns LoggedMemory.empty) = (.ok report, t) →
      report.rolledBack = ["001_people", "002_events"] ∧ w.rows t "archive" = [] := by
  intro m w back
  have hm : m.Operating Memory.textOrder w back := LoggedMemory.works_singleMigrator.operating rfl
  have hyoung := LoggedMemory.works_youngSingle.operating rfl
  have hruns : ∀ run ∈ LoggedMemory.turns,
      run.1.Operating Memory.textOrder w back ∧ run.1.Single w "archive" := by
    have hfirst := And.intro hyoung LoggedMemory.single_youngSingle
    simp only [LoggedMemory.turns, List.forall_mem_cons]
    exact ⟨hfirst, hfirst, hfirst, ⟨hm, LoggedMemory.single_singleMigrator⟩, nofun⟩
  have hmany : m.known.length < Int64.maxValue.toInt := by
    rw [LoggedMemory.known_singleMigrator]
    decide
  have hempty : w.rows LoggedMemory.empty "archive" = [] := rfl
  refine ⟨⟨hruns, hm, LoggedMemory.single_singleMigrator, LoggedMemory.growing_turns, hmany,
    hempty⟩, fun report t hrun => ?_⟩
  have hend := reset_reverses_recording hruns hm LoggedMemory.single_singleMigrator
    LoggedMemory.growing_turns hmany hempty
  dsimp only at hend
  rw [hrun, LoggedMemory.recorded_turns] at hend
  obtain ⟨downs, -, -, hreport, -, hnone⟩ := hend
  exact ⟨hreport, hnone⟩

end Migrator

end Relational
