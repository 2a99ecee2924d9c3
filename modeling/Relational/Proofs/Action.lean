import Mathlib.Order.Defs.Unbundled
import Relational.Action
/-
What running an action does to the state.

Two kinds of statement are made.  `Ensures` says what holds behind an action that
starts where something is known, separately for the case that it succeeds and the
case that it fails, since a failure does not undo changes.  `Leads` relates the state
behind an action to the one before it whatever becomes of it; `Keeps` is the case that
a part of the state is the same.  Both follow the way an action is put together, so a
proof about an action is a proof about its steps.
-/
namespace Relational.Action

variable {σ α β γ : Type}

/-- The result of an action, and the state behind it. -/
def outcome (a : Action σ α) (s : σ) : Except Failure α × σ :=
  a.run.run s

@[simp] theorem outcome_pure (x : α) (s : σ) : (pure x : Action σ α).outcome s = (.ok x, s) := rfl

@[simp] theorem outcome_throw (e : Failure) (s : σ) :
    (throw e : Action σ α).outcome s = (.error e, s) := rfl

@[simp] theorem outcome_ofExcept_ok {ε : Type} (wrap : ε → Failure) (x : α) (s : σ) :
    (ofExcept wrap (.ok x) : Action σ α).outcome s = (.ok x, s) := rfl

theorem outcome_bind (a : Action σ α) (f : α → Action σ β) (s : σ) :
    (a >>= f).outcome s = match a.outcome s with
      | (.ok x, t) => (f x).outcome t
      | (.error e, t) => (.error e, t) := by
  show (ExceptT.bind a f).run.run s = _
  unfold outcome ExceptT.bind
  simp only [ExceptT.run, ExceptT.mk, StateT.run, bind, StateT.bind, ExceptT.bindCont]
  rcases h : a s with ⟨x | x, t⟩ <;> rfl

theorem outcome_tryCatch (a : Action σ α) (f : Failure → Action σ α) (s : σ) :
    (tryCatch a f).outcome s = match a.outcome s with
      | (.ok x, t) => (.ok x, t)
      | (.error e, t) => (f e).outcome t := by
  show (ExceptT.tryCatch a f).run.run s = _
  unfold outcome ExceptT.tryCatch
  simp only [ExceptT.run, ExceptT.mk, StateT.run, bind, StateT.bind]
  rcases h : a s with ⟨x | x, t⟩ <;> rfl

theorem outcome_discard (a : Action σ α) (s : σ) :
    (discard a).outcome s = match a.outcome s with
      | (.ok _, t) => (.ok (), t)
      | (.error e, t) => (.error e, t) := by
  show ((fun _ => ()) <$> a).outcome s = _
  rw [map_eq_pure_bind, outcome_bind]
  rfl

/-- Two steps that succeed together succeed one after the other. -/
theorem outcome_bind_eq_ok {a : Action σ α} {f : α → Action σ β} {s t : σ} {y : β}
    (h : (a >>= f).outcome s = (.ok y, t)) :
    ∃ x r, a.outcome s = (.ok x, r) ∧ (f x).outcome r = (.ok y, t) := by
  rw [outcome_bind] at h
  rcases hrun : a.outcome s with ⟨e | x, r⟩
  · rw [hrun] at h
    cases h
  · rw [hrun] at h
    exact ⟨x, r, rfl, h⟩

theorem outcome_discard_eq_ok {a : Action σ α} {s t : σ} {done : Unit}
    (h : (discard a).outcome s = (.ok done, t)) : ∃ x, a.outcome s = (.ok x, t) := by
  rw [outcome_discard] at h
  rcases hrun : a.outcome s with ⟨e | x, r⟩
  · rw [hrun] at h
    cases h
  · rw [hrun] at h
    cases h
    exact ⟨x, rfl⟩

theorem outcome_ofExcept_eq_ok {ε : Type} {wrap : ε → Failure} {r : Except ε α} {s t : σ} {x : α}
    (h : (ofExcept wrap r : Action σ α).outcome s = (.ok x, t)) : r = .ok x ∧ s = t := by
  cases r with
  | ok x =>
      cases h
      exact ⟨rfl, rfl⟩
  | error e => cases h

/-! ### What is ensured -/

/-- From a state in `pre`, the action ends in `ok` with its result, or in `failed` with the
failure. -/
def Ensures (pre : σ → Prop) (a : Action σ α) (ok : α → σ → Prop)
    (failed : Failure → σ → Prop) : Prop :=
  ∀ s, pre s → match a.outcome s with
    | (.ok x, t) => ok x t
    | (.error e, t) => failed e t

section Ensures

variable {pre : σ → Prop} {ok : α → σ → Prop} {failed : Failure → σ → Prop}

theorem Ensures.of_ok {a : Action σ α} (h : Ensures pre a ok failed) {s t : σ} {x : α}
    (hs : pre s) (hrun : a.outcome s = (.ok x, t)) : ok x t := by
  have := h s hs
  rw [hrun] at this
  exact this

theorem Ensures.of_error {a : Action σ α} (h : Ensures pre a ok failed) {s t : σ} {e : Failure}
    (hs : pre s) (hrun : a.outcome s = (.error e, t)) : failed e t := by
  have := h s hs
  rw [hrun] at this
  exact this

/-- What holds behind an action whether it succeeds or fails. -/
theorem Ensures.behind {a : Action σ α} {post : σ → Prop}
    (h : Ensures pre a (fun _ t => post t) (fun _ t => post t)) {s : σ} (hs : pre s) :
    post (a.outcome s).2 := by
  rcases hrun : a.outcome s with ⟨e | x, t⟩
  · exact h.of_error hs hrun
  · exact h.of_ok hs hrun

theorem ensures_pure {x : α} (h : ∀ s, pre s → ok x s) : Ensures pre (pure x) ok failed :=
  fun s hs => h s hs

theorem ensures_throw {e : Failure} (h : ∀ s, pre s → failed e s) :
    Ensures pre (throw e : Action σ α) ok failed :=
  fun s hs => h s hs

/-- Where nothing is asked for, it is ensured. -/
theorem ensures_any (a : Action σ α) : Ensures pre a (fun _ _ => True) (fun _ _ => True) := by
  intro s _
  rcases a.outcome s with ⟨e | x, t⟩
  · trivial
  · trivial

/-- What is known before may be more, and what is asked for behind it less. -/
theorem Ensures.weaken {a : Action σ α} {pre' : σ → Prop} {ok' : α → σ → Prop}
    {failed' : Failure → σ → Prop} (h : Ensures pre a ok failed) (hpre : ∀ s, pre' s → pre s)
    (hok : ∀ x s, ok x s → ok' x s) (hfailed : ∀ e s, failed e s → failed' e s) :
    Ensures pre' a ok' failed' := by
  intro s hs
  have := h s (hpre s hs)
  rcases hrun : a.outcome s with ⟨x | x, t⟩
  · rw [hrun] at this
    exact hfailed _ _ this
  · rw [hrun] at this
    exact hok _ _ this

/-- A fact that does not speak of the state can be assumed. -/
theorem Ensures.of_imp {a : Action σ α} {p : Prop} (h : p → Ensures pre a ok failed) :
    Ensures (fun s => pre s ∧ p) a ok failed :=
  fun s hs => h hs.2 s hs.1

theorem Ensures.bind {a : Action σ α} {f : α → Action σ β} {mid : α → σ → Prop}
    {ok : β → σ → Prop} (ha : Ensures pre a mid failed)
    (hf : ∀ x, Ensures (mid x) (f x) ok failed) : Ensures pre (a >>= f) ok failed := by
  intro s hs
  rw [outcome_bind]
  have := ha s hs
  rcases hrun : a.outcome s with ⟨e | x, t⟩
  · rw [hrun] at this
    exact this
  · rw [hrun] at this
    exact hf x t this

/-- What is ensured in two ways is ensured together. -/
theorem Ensures.and {a : Action σ α} {pre' : σ → Prop} {ok' : α → σ → Prop}
    {failed' : Failure → σ → Prop} (h : Ensures pre a ok failed) (h' : Ensures pre' a ok' failed') :
    Ensures (fun s => pre s ∧ pre' s) a (fun x t => ok x t ∧ ok' x t)
      (fun e t => failed e t ∧ failed' e t) := by
  intro s hs
  have hend := h s hs.1
  have hend' := h' s hs.2
  rcases hrun : a.outcome s with ⟨e | x, t⟩
  · rw [hrun] at hend hend'
    exact ⟨hend, hend'⟩
  · rw [hrun] at hend hend'
    exact ⟨hend, hend'⟩

theorem Ensures.discard {a : Action σ α} {ok : Unit → σ → Prop}
    (ha : Ensures pre a (fun _ => ok ()) failed) : Ensures pre (discard a) ok failed := by
  show Ensures pre ((fun _ => ()) <$> a) ok failed
  rw [map_eq_pure_bind]
  exact ha.bind fun _ => ensures_pure fun _ hs => hs

theorem Ensures.tryCatch {a : Action σ α} {f : Failure → Action σ α} {mid : Failure → σ → Prop}
    (ha : Ensures pre a ok mid) (hf : ∀ e, Ensures (mid e) (f e) ok failed) :
    Ensures pre (tryCatch a f) ok failed := by
  intro s hs
  rw [outcome_tryCatch]
  have := ha s hs
  rcases hrun : a.outcome s with ⟨e | x, t⟩
  · rw [hrun] at this
    exact hf e t this
  · rw [hrun] at this
    exact this

theorem ensures_ofExcept {ε : Type} {wrap : ε → Failure} {r : Except ε α}
    (hok : ∀ x, r = .ok x → ∀ s, pre s → ok x s)
    (hfailed : ∀ e, r = .error e → ∀ s, pre s → failed (wrap e) s) :
    Ensures pre (ofExcept wrap r) ok failed := by
  cases r with
  | ok x => exact ensures_pure (hok x rfl)
  | error e => exact ensures_throw (hfailed e rfl)

/-- Doing something for every member of a list, where every step keeps what is known. -/
theorem ensures_forM {f : γ → Action σ Unit} (names : List γ)
    (h : ∀ x ∈ names, Ensures pre (f x) (fun _ s => pre s) failed) :
    Ensures pre (names.forM f) (fun _ s => pre s) failed := by
  induction names with
  | nil => exact ensures_pure fun s hs => hs
  | cons x rest ih => exact (h x (by simp)).bind fun _ => ih fun z hz => h z (by simp [hz])

/-- Going on with a result that is known beforehand. -/
theorem ensures_ofExcept_bind {ε : Type} {wrap : ε → Failure} {r : Except ε γ}
    {f : γ → Action σ α} (hok : ∀ x, r = .ok x → Ensures pre (f x) ok failed)
    (hfailed : ∀ e s, pre s → failed (wrap e) s) :
    Ensures pre (ofExcept wrap r >>= f) ok failed := by
  cases r with
  | ok x => exact hok x rfl
  | error e => exact fun s hs => hfailed e s hs

/-- Going on with a result that is there. -/
theorem ensures_ofExcept_ok_bind {ε : Type} {wrap : ε → Failure} {r : Except ε γ} {x : γ}
    {f : γ → Action σ α} (hr : r = .ok x) (h : Ensures pre (f x) ok failed) :
    Ensures pre (ofExcept wrap r >>= f) ok failed := by
  subst hr
  exact h

/-- Doing something for every member of a list, each time with a result that names its member. -/
theorem ensures_mapM {f : γ → Action σ β} (key : β → γ) (good : β → Prop) (names : List γ)
    (h : ∀ x ∈ names, Ensures pre (f x) (fun y s => pre s ∧ key y = x ∧ good y) failed) :
    Ensures pre (names.mapM f) (fun ys s => pre s ∧ ys.map key = names ∧ ∀ y ∈ ys, good y)
      failed := by
  induction names with
  | nil =>
      rw [List.mapM_nil]
      exact ensures_pure fun s hs => ⟨hs, rfl, by simp⟩
  | cons x rest ih =>
      rw [List.mapM_cons]
      refine (h x (by simp)).bind fun y => Ensures.of_imp fun ⟨hkey, hgood⟩ => ?_
      refine (ih fun z hz => h z (by simp [hz])).bind fun ys => ensures_pure ?_
      rintro s ⟨hs, hkeys, hall⟩
      refine ⟨hs, by rw [List.map_cons, hkey, hkeys], ?_⟩
      intro z hz
      rcases List.mem_cons.mp hz with rfl | hz
      · exact hgood
      · exact hall z hz

/-- Going through a list with a result that is handed on, where every step keeps what is
known. -/
theorem ensures_foldlM {f : β → γ → Action σ β} (names : List γ)
    (h : ∀ x ∈ names, ∀ acc, Ensures pre (f acc x) (fun _ s => pre s) failed) (acc : β) :
    Ensures pre (names.foldlM f acc) (fun _ s => pre s) failed := by
  induction names generalizing acc with
  | nil =>
      rw [List.foldlM_nil]
      exact ensures_pure fun s hs => hs
  | cons x rest ih =>
      rw [List.foldlM_cons]
      exact (h x (by simp) acc).bind fun y => ih (fun z hz => h z (by simp [hz])) y

end Ensures

/-! ### Where an action leads -/

/-- Whatever becomes of the action, it leads from a state only to one that `R` relates to it. -/
def Leads (R : σ → σ → Prop) (a : Action σ α) : Prop :=
  ∀ s, R s (a.outcome s).2

section Leads

variable {R : σ → σ → Prop} [IsPreorder σ R]

theorem leads_pure (x : α) : Leads R (pure x : Action σ α) :=
  fun s => Std.Refl.refl s

theorem leads_throw (e : Failure) : Leads R (throw e : Action σ α) :=
  fun s => Std.Refl.refl s

/-- What follows leads on from where the first step ends. -/
theorem leads_behind_bind (a : Action σ α) {f : α → Action σ β} (hf : ∀ x, Leads R (f x)) (s : σ) :
    R (a.outcome s).2 ((a >>= f).outcome s).2 := by
  rw [outcome_bind]
  rcases a.outcome s with ⟨e | x, t⟩
  · exact Std.Refl.refl t
  · exact hf x t

theorem leads_behind_tryCatch (a : Action σ α) {f : Failure → Action σ α} (hf : ∀ e, Leads R (f e))
    (s : σ) : R (a.outcome s).2 ((tryCatch a f).outcome s).2 := by
  rw [outcome_tryCatch]
  rcases a.outcome s with ⟨e | x, t⟩
  · exact hf e t
  · exact Std.Refl.refl t

theorem Leads.bind {a : Action σ α} {f : α → Action σ β} (ha : Leads R a)
    (hf : ∀ x, Leads R (f x)) : Leads R (a >>= f) :=
  fun s => IsTrans.trans _ _ _ (ha s) (leads_behind_bind a hf s)

theorem Leads.tryCatch {a : Action σ α} {f : Failure → Action σ α} (ha : Leads R a)
    (hf : ∀ e, Leads R (f e)) : Leads R (tryCatch a f) :=
  fun s => IsTrans.trans _ _ _ (ha s) (leads_behind_tryCatch a hf s)

theorem Leads.map {a : Action σ α} (ha : Leads R a) (f : α → β) : Leads R (f <$> a) := by
  rw [map_eq_pure_bind]
  exact ha.bind fun x => leads_pure (f x)

theorem Leads.discard {a : Action σ α} (ha : Leads R a) : Leads R (discard a) :=
  ha.map fun _ => ()

theorem Leads.regardless {a : Action σ Unit} (ha : Leads R a) : Leads R a.regardless :=
  ha.tryCatch fun _ => leads_pure ()

theorem leads_ofExcept {ε : Type} (wrap : ε → Failure) (r : Except ε α) :
    Leads R (ofExcept wrap r : Action σ α) := by
  cases r with
  | ok x => exact leads_pure x
  | error e => exact leads_throw (wrap e)

/-- Going on with a result that is known beforehand. -/
theorem leads_ofExcept_bind {ε : Type} {wrap : ε → Failure} {r : Except ε γ} {f : γ → Action σ α}
    (hf : ∀ x, r = .ok x → Leads R (f x)) : Leads R (ofExcept wrap r >>= f) := by
  cases r with
  | ok x => exact hf x rfl
  | error e => exact leads_throw (wrap e)

theorem leads_forM {f : γ → Action σ Unit} (xs : List γ) (h : ∀ x ∈ xs, Leads R (f x)) :
    Leads R (xs.forM f) := by
  induction xs with
  | nil => exact leads_pure ()
  | cons x rest ih => exact (h x (by simp)).bind fun _ => ih fun z hz => h z (by simp [hz])

theorem leads_mapM {f : β → Action σ γ} (xs : List β) (h : ∀ x, Leads R (f x)) :
    Leads R (xs.mapM f) := by
  induction xs with
  | nil =>
      rw [List.mapM_nil]
      exact leads_pure []
  | cons x rest ih =>
      rw [List.mapM_cons]
      exact (h x).bind fun _ => ih.bind fun _ => leads_pure _

theorem leads_foldlM {f : β → γ → Action σ β} (xs : List γ) (h : ∀ acc x, Leads R (f acc x))
    (acc : β) : Leads R (xs.foldlM f acc) := by
  induction xs generalizing acc with
  | nil =>
      rw [List.foldlM_nil]
      exact leads_pure acc
  | cons x rest ih =>
      rw [List.foldlM_cons]
      exact (h acc x).bind ih

end Leads

/-! ### What is kept -/

/-- `t` shows the same as `s`. -/
def Agree (see : σ → β) (s t : σ) : Prop :=
  see t = see s

instance (see : σ → β) : IsPreorder σ (Agree see) where
  refl _ := rfl
  trans _ _ _ hst htu := Eq.trans htu hst

/-- What `see` shows of the state is the same behind the action, whatever becomes of it. -/
def Keeps (see : σ → β) (a : Action σ α) : Prop :=
  ∀ s, see (a.outcome s).2 = see s

section Keeps

variable {δ : Type} {see : σ → δ}

theorem keeps_pure (x : α) : Keeps see (pure x : Action σ α) :=
  leads_pure (R := Agree see) x

theorem keeps_throw (e : Failure) : Keeps see (throw e : Action σ α) :=
  leads_throw (R := Agree see) e

theorem Keeps.bind {a : Action σ α} {f : α → Action σ β} (ha : Keeps see a)
    (hf : ∀ x, Keeps see (f x)) : Keeps see (a >>= f) :=
  Leads.bind (R := Agree see) ha hf

theorem Keeps.tryCatch {a : Action σ α} {f : Failure → Action σ α} (ha : Keeps see a)
    (hf : ∀ e, Keeps see (f e)) : Keeps see (tryCatch a f) :=
  Leads.tryCatch (R := Agree see) ha hf

theorem Keeps.map {a : Action σ α} (ha : Keeps see a) (f : α → β) : Keeps see (f <$> a) :=
  Leads.map (R := Agree see) ha f

theorem Keeps.discard {a : Action σ α} (ha : Keeps see a) : Keeps see (discard a) :=
  Leads.discard (R := Agree see) ha

theorem Keeps.regardless {a : Action σ Unit} (ha : Keeps see a) : Keeps see a.regardless :=
  Leads.regardless (R := Agree see) ha

theorem keeps_ofExcept {ε : Type} (wrap : ε → Failure) (r : Except ε α) :
    Keeps see (ofExcept wrap r : Action σ α) :=
  leads_ofExcept (R := Agree see) wrap r

theorem keeps_mapM {f : β → Action σ γ} (xs : List β) (h : ∀ x, Keeps see (f x)) :
    Keeps see (xs.mapM f) :=
  leads_mapM (R := Agree see) xs h

theorem keeps_foldlM {f : β → γ → Action σ β} (xs : List γ) (h : ∀ acc x, Keeps see (f acc x))
    (acc : β) : Keeps see (xs.foldlM f acc) :=
  leads_foldlM (R := Agree see) xs h acc

theorem Keeps.ensures {a : Action σ α} (h : Keeps see a) (d : δ) :
    Ensures (see · = d) a (fun _ s => see s = d) (fun _ s => see s = d) := by
  intro s hs
  have hsee := (h s).trans hs
  rcases hrun : a.outcome s with ⟨e | x, t⟩
  · rw [hrun] at hsee
    exact hsee
  · rw [hrun] at hsee
    exact hsee

theorem keeps_of_ensures {a : Action σ α}
    (h : ∀ d, Ensures (see · = d) a (fun _ s => see s = d) (fun _ s => see s = d)) :
    Keeps see a := by
  intro s
  have hend := h (see s) s rfl
  rcases hrun : a.outcome s with ⟨e | x, t⟩
  · rw [hrun] at hend
    exact hend
  · rw [hrun] at hend
    exact hend

/-- What is ensured is ensured together with what is kept. -/
theorem Ensures.and_keeps {pre : σ → Prop} {a : Action σ α} {ok : α → σ → Prop}
    {failed : Failure → σ → Prop} (h : Ensures pre a ok failed) (hkeep : Keeps see a) (d : δ) :
    Ensures (fun s => pre s ∧ see s = d) a (fun x s => ok x s ∧ see s = d)
      (fun e s => failed e s ∧ see s = d) :=
  h.and (hkeep.ensures d)

end Keeps

end Relational.Action
