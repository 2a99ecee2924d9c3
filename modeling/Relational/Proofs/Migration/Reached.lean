import Relational.Proofs.Migration.History
import Relational.Proofs.Migration.Reverting
/-
The ledgers that runs lead to.

A history need not belong to one migrator: units are added between two runs, and others are
forgotten.  `Reached` starts with ledgers without rows and goes on with any run of any
migrator on the same ledgers, whatever becomes of it.  What such ledgers have in common is
that their batches count from one, and that there were at least as many runs as the highest
of them says.
-/
namespace Relational

open Action

variable {σ δ : Type}

/-- The same ledgers and trail, on which other marks are left. -/
def Lookout.marking (w : Lookout σ δ) (marks : MigrationUnit → δ → δ → Prop) : Lookout σ δ :=
  { w with Marks := marks }

namespace Migrator

/-- Runs change something, and the connections serve them whichever way units are run; a unit that
is reverted leaves a mark of its own. -/
structure Operating (m : Migrator σ) (le : String → String → Bool) (w : Lookout σ δ)
    (back : MigrationUnit → δ → δ → Prop) : Prop where
  changes : m.pretend = false
  hosting : m.Hosting le w
  yielding : m.Yielding le (w.marking back)

/-- States that runs lead to, and how many there were at most. -/
inductive Reached (le : String → String → Bool) (w : Lookout σ δ)
    (back : MigrationUnit → δ → δ → Prop) : Nat → σ → Prop
  | start {s : σ} (h : ∀ place, w.rows s place = []) : Reached le w back 0 s
  /-- Any command of any migrator, whether it succeeds or fails. -/
  | run {n : Nat} {s : σ} (h : Reached le w back n s) {m : Migrator σ} (hm : m.Operating le w back)
    (command : Command) : Reached le w back (n + 1) ((command.run m).outcome s).2
  /-- Tables are dropped, or rows are removed by hand. -/
  | loss {n : Nat} {s t : σ} (h : Reached le w back n s)
    (hrows : ∀ place, w.rows t place ⊆ w.rows s place) : Reached le w back n t

/-- The batches are numbered from one to `n`. -/
def Within (n : Nat) (rows : String → List LedgerRow) : Prop :=
  ∀ place, ∀ r ∈ rows place, 1 ≤ r.batch.toInt ∧ r.batch.toInt ≤ n

variable {m : Migrator σ} {le : String → String → Bool} {w : Lookout σ δ}
  {back : MigrationUnit → δ → δ → Prop} {n : Nat} {rows : String → List LedgerRow}

theorem Operating.stamped (h : m.Operating le w back) (now : Instant) :
    ({ m with now } : Migrator σ).Operating le w back :=
  ⟨h.changes, h.hosting.stamped now, h.yielding.stamped now⟩

/-- So they do if not all the units are registered. -/
theorem Operating.registering (h : m.Operating le w back) {registered : List MigrationUnit}
    (hfewer : ∀ u ∈ ({ m with registered } : Migrator σ).known, u ∈ m.known) :
    ({ m with registered } : Migrator σ).Operating le w back where
  changes := h.changes
  hosting name x := (h.hosting name x).weaken (fun _ hs => hs)
    (fun _ _ ⟨hs, hc⟩ => ⟨hs, hc.executor, hc.aside, fun u hu => hc.direct u (hfewer u hu),
      fun y => (hc.begin y).weaken (fun _ hs => hs)
        (fun _ _ ⟨hs, work, hwork, htx, hunits⟩ =>
          ⟨hs, work, hwork, htx, fun u hu => hunits u (hfewer u hu)⟩) (fun _ _ hs => hs)⟩)
    (fun _ _ hs => hs)
  yielding name x := (h.yielding name x).weaken (fun _ hs => hs)
    (fun _ _ ⟨hs, hc⟩ => ⟨hs, hc.executor, hc.aside, fun u hu => hc.direct u (hfewer u hu),
      fun y => (hc.begin y).weaken (fun _ hs => hs)
        (fun _ _ ⟨hs, work, hwork, htx, haside, hunits⟩ =>
          ⟨hs, work, hwork, htx, haside, fun u hu => hunits u (hfewer u hu)⟩) (fun _ _ hs => hs)⟩)
    (fun _ _ hs => hs)

/-! ### Batches -/

theorem Within.mono {k : Nat} (h : Within n rows) (hle : n ≤ k) : Within k rows :=
  fun place r hr => ⟨(h place r hr).1, (h place r hr).2.trans (Int.ofNat_le.mpr hle)⟩

theorem Within.of_subset {fewer : String → List LedgerRow} (h : Within n rows)
    (hsubset : ∀ place, fewer place ⊆ rows place) : Within n fewer :=
  fun place r hr => h place r (hsubset place hr)

theorem Within.without (h : Within n rows) (units : List MigrationUnit) :
    Within n (m.without w units rows) :=
  h.of_subset fun _ _ hr => mem_of_mem_without hr

theorem Within.lt_maxValue (h : Within n rows) (hn : n < Int64.maxValue.toInt) {place : String}
    {r : LedgerRow} (hr : r ∈ rows place) : r.batch < Int64.maxValue :=
  Int64.lt_iff_toInt_lt.mpr (Int.lt_of_le_of_lt (h place r hr).2 hn)

theorem Within.highest (h : Within n rows) (place : String) :
    0 ≤ LedgerRow.highest (rows place) ∧ LedgerRow.highest (rows place) ≤ n := by
  rcases LedgerRow.highest_eq_zero_or (rows place) with hzero | ⟨r, hr, hbatch⟩
  · omega
  · have := h place r hr
    omega

/-- Rows that are added are of the batch behind the highest. -/
theorem Within.noted {units : List MigrationUnit} {after : String → List LedgerRow}
    (h : Within n rows) (hnoted : m.Noted w units rows after) : Within (n + 1) after := by
  intro place r hr
  obtain ⟨added, hadded, -, hbatch⟩ := hnoted.exists_added place
  obtain ⟨hlow, hhigh⟩ := h.highest place
  rw [hadded, List.mem_append] at hr
  rcases hr with hr | hr
  · exact h.mono (Nat.le_succ n) place r hr
  · have := hbatch r hr
    omega

/-! ### Runs -/

/-- Reverting adds no rows. -/
theorem ensures_revert_within (h : m.Operating le w back) (scope : Scope) :
    Ensures (fun s => Within n (w.rows s)) (m.revert m.known scope)
      (fun _ t => Within n (w.rows t)) (fun _ t => Within n (w.rows t)) := by
  intro s hs
  have hstart : w.rows s = w.rows s ∧ w.trail s = w.trail s := ⟨rfl, rfl⟩
  refine ((ensures_revert_noted h.changes h.yielding scope).weaken (fun _ hr => hr) ?_ ?_) s hstart
  · rintro _ t ⟨units, -, -, ht⟩
    have hrows : w.rows t = _ := ht.rows
    exact hrows ▸ hs.without units
  · intro e t ht
    obtain ⟨kept, hrows⟩ := ht.exists_without
    have hrows : w.rows t = _ := hrows
    exact hrows ▸ hs.without kept

/-- Applying adds one batch. -/
theorem ensures_applyPending_within (h : m.Operating le w back) (hn : n < Int64.maxValue.toInt)
    {units : List MigrationUnit} (hunits : m.units = .ok units) :
    Ensures (fun s => Within n (w.rows s)) (m.applyPending units false)
      (fun _ t => Within (n + 1) (w.rows t)) (fun _ t => Within (n + 1) (w.rows t)) := by
  intro s hs
  have hstart : m.Progress w (w.rows s) (w.trail s) [] s := .nil ⟨rfl, rfl⟩
  refine ((ensures_applyPending_noted h.changes h.hosting
    (fun _ _ _ hr => hs.lt_maxValue hn hr) hunits).weaken (fun _ hr => hr) ?_ ?_) s hstart
  · exact fun _ t ht => hs.noted ht.2.noted
  · intro e t ht
    obtain ⟨done, -, hnoted⟩ := ht.exists_noted
    exact hs.noted hnoted

/-- However far a run gets, its ledgers have no more than one batch more. -/
theorem ensures_run_within (h : m.Operating le w back) (hn : n < Int64.maxValue.toInt) (command : Command) :
    Ensures (fun s => Within n (w.rows s)) (command.run m) (fun _ t => Within (n + 1) (w.rows t))
      (fun _ t => Within (n + 1) (w.rows t)) :=
  command.ensures_run_of h.changes (fun _ hs => hs.mono (Nat.le_succ n))
    (fun _ scope => ensures_revert_within h scope)
    (fun hunits => ensures_applyPending_within h hn hunits)

/-- **Batches count the runs.**  Ledgers that runs lead to have their batches numbered from one, and
by no more than there were runs. -/
theorem Reached.within {s : σ} (h : Reached le w back n s) (hn : n ≤ Int64.maxValue.toInt) :
    Within n (w.rows s) := by
  induction h with
  | start hempty =>
      intro place r hr
      rw [hempty] at hr
      cases hr
  | @run n s h m hm command ih =>
      exact (ensures_run_within hm (by omega) command).behind (ih (by omega))
  | loss h hrows ih => exact (ih hn).of_subset hrows

/-- One run after the other. -/
theorem Reached.after {s : σ} (h : Reached le w back n s) (hm : m.Operating le w back)
    (commands : List (Instant × Command)) :
    Reached le w back (n + commands.length) (m.after commands s) := by
  induction commands generalizing n s with
  | nil => exact h
  | cons first rest ih =>
      obtain ⟨now, command⟩ := first
      have hnext := ih (h.run (hm.stamped now) command)
      rwa [Nat.add_right_comm, Nat.add_assoc] at hnext

end Migrator

end Relational
