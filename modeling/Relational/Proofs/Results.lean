import Mathlib.Data.List.Forall2
import Mathlib.Logic.Relation
/-
Results of steps that can fail.

A step that is made with the result of another has gone on with it, and a list of steps that all
succeed has a list of results: each stands in the place of its step.
-/
namespace Relational

/-- Something went on with a result. -/
theorem exists_of_bind {ε α β : Type} {x : Except ε α} {f : α → Except ε β} {r : β}
    (h : x >>= f = .ok r) : ∃ a, x = .ok a ∧ f a = .ok r := by
  cases x with
  | ok a => exact ⟨a, rfl, h⟩
  | error e => cases h

/-- What goes on with a result has one, if the rest has. -/
theorem exists_bind {ε α β : Type} {x : Except ε α} {a : α} {f : α → Except ε β} (hx : x = .ok a)
    (h : ∃ r, f a = .ok r) : ∃ r, x >>= f = .ok r := by
  rw [hx]
  exact h

/-- Results of a list stand in its order. -/
theorem forall₂_of_mapM {ε α β : Type} {f : α → Except ε β} {xs : List α} {ys : List β}
    (h : xs.mapM f = .ok ys) : List.Forall₂ (fun x y => f x = .ok y) xs ys := by
  induction xs generalizing ys with
  | nil =>
      rw [List.mapM_nil] at h
      cases h
      exact .nil
  | cons x rest ih =>
      rw [List.mapM_cons] at h
      obtain ⟨y, hy, h⟩ := exists_of_bind h
      obtain ⟨others, hothers, h⟩ := exists_of_bind h
      cases h
      exact .cons hy (ih hothers)

/-- Every result is the result of a member. -/
theorem exists_of_mem_mapM {ε α β : Type} {f : α → Except ε β} {xs : List α} {ys : List β}
    (h : xs.mapM f = .ok ys) {y : β} (hy : y ∈ ys) : ∃ x ∈ xs, f x = .ok y := by
  have hall := forall₂_of_mapM h
  clear h
  induction hall with
  | nil => cases hy
  | @cons x _ _ _ hfirst _ ih =>
      rcases List.mem_cons.mp hy with rfl | hy
      · exact ⟨x, List.mem_cons_self, hfirst⟩
      · obtain ⟨other, hother, h⟩ := ih hy
        exact ⟨other, List.mem_cons_of_mem x hother, h⟩

/-- Every member has its result. -/
theorem exists_mapM_of_mem {ε α β : Type} {f : α → Except ε β} {xs : List α} {ys : List β}
    (h : xs.mapM f = .ok ys) {x : α} (hx : x ∈ xs) : ∃ y ∈ ys, f x = .ok y := by
  have hall := forall₂_of_mapM h
  clear h
  induction hall with
  | nil => cases hx
  | @cons _ y _ _ hfirst _ ih =>
      rcases List.mem_cons.mp hx with rfl | hx
      · exact ⟨y, List.mem_cons_self, hfirst⟩
      · obtain ⟨other, hother, h⟩ := ih hx
        exact ⟨other, List.mem_cons_of_mem y hother, h⟩

theorem mapM_of_forall₂ {ε α β : Type} {f : α → Except ε β} {xs : List α} {ys : List β}
    (h : List.Forall₂ (fun x y => f x = .ok y) xs ys) : xs.mapM f = .ok ys := by
  induction h with
  | nil => rfl
  | cons hfirst _ ih =>
      rw [List.mapM_cons, hfirst, ih]
      rfl

/-- The list has results if every member has one. -/
theorem exists_mapM_eq_ok_iff {ε α β : Type} {f : α → Except ε β} {xs : List α} :
    (∃ ys, xs.mapM f = .ok ys) ↔ ∀ x ∈ xs, ∃ y, f x = .ok y := by
  constructor
  · rintro ⟨ys, h⟩ x hx
    obtain ⟨y, -, hy⟩ := exists_mapM_of_mem h hx
    exact ⟨y, hy⟩
  · intro h
    induction xs with
    | nil => exact ⟨[], rfl⟩
    | cons x rest ih =>
        obtain ⟨y, hy⟩ := h x List.mem_cons_self
        obtain ⟨ys, hys⟩ := ih fun other hmem => h other (List.mem_cons_of_mem x hmem)
        refine ⟨y :: ys, ?_⟩
        rw [List.mapM_cons, hy, hys]
        rfl

/-- The first fault is the fault of the list. -/
theorem mapM_append_cons_of_error {ε α β : Type} {f : α → Except ε β} {xs rest : List α} {x : α}
    {fault : ε} (hbefore : ∀ y ∈ xs, ∃ z, f y = .ok z) (h : f x = .error fault) :
    (xs ++ x :: rest).mapM f = .error fault := by
  obtain ⟨ys, hys⟩ := exists_mapM_eq_ok_iff.mpr hbefore
  rw [List.mapM_append, hys, List.mapM_cons, h]
  rfl

theorem forall₂_comp {α β γ : Type} {R : α → β → Prop} {S : β → γ → Prop} {xs : List α}
    {zs : List γ} :
    List.Forall₂ (Relation.Comp R S) xs zs ↔ ∃ ys, List.Forall₂ R xs ys ∧ List.Forall₂ S ys zs := by
  constructor
  · intro h
    induction h with
    | nil => exact ⟨[], .nil, .nil⟩
    | cons hfirst _ ih =>
        obtain ⟨y, hxy, hyz⟩ := hfirst
        obtain ⟨ys, hxys, hyzs⟩ := ih
        exact ⟨y :: ys, .cons hxy hxys, .cons hyz hyzs⟩
  · rintro ⟨ys, hxy, hyz⟩
    induction hxy generalizing zs with
    | nil =>
        cases hyz
        exact .nil
    | cons hfirst _ ih =>
        cases hyz with
        | cons hsecond hrest => exact .cons ⟨_, hfirst, hsecond⟩ (ih hrest)

end Relational
