import Mathlib.Data.List.Basic
/-
Boolean formulas as they are written: propositions, AND, OR and parentheses.

Which formula a row of symbols is, and what its value is, is said twice.  The relations
follow the grammar, in which AND binds tighter than OR and parentheses group.  `value?`
reads from left to right and keeps, for every parenthesis that is open, the part of the
value it already has.  It finds the value of everything the grammar allows, so a row of
symbols has at most one.
-/
namespace Relational

/-- A symbol of a formula; of a proposition only its truth is kept. -/
inductive Symbol where
  | holds (b : Bool)
  | and
  | or
  | opening
  | closing
  deriving DecidableEq, Repr

/-! ### The grammar -/

mutual

/-- A proposition, or a formula in parentheses. -/
inductive IsFactor : List Symbol → Bool → Prop
  | holds (b : Bool) : IsFactor [.holds b] b
  | group {s : List Symbol} {b : Bool} (h : IsFormula s b) :
    IsFactor (.opening :: (s ++ [.closing])) b

/-- Factors with AND between them. -/
inductive IsTerm : List Symbol → Bool → Prop
  | factor {s : List Symbol} {b : Bool} (h : IsFactor s b) : IsTerm s b
  | and {s t : List Symbol} {a b : Bool} (hs : IsTerm s a) (ht : IsFactor t b) :
    IsTerm (s ++ .and :: t) (a && b)

/-- Terms with OR between them. -/
inductive IsFormula : List Symbol → Bool → Prop
  | term {s : List Symbol} {b : Bool} (h : IsTerm s b) : IsFormula s b
  | or {s t : List Symbol} {a b : Bool} (hs : IsFormula s a) (ht : IsTerm t b) :
    IsFormula (s ++ .or :: t) (a || b)

end

/-- A factor goes on the last term of a formula. -/
theorem IsFormula.and {s t : List Symbol} {a b : Bool} (hs : IsFormula s a) (ht : IsFactor t b) :
    ∃ v, IsFormula (s ++ .and :: t) v := by
  cases hs with
  | term hs => exact ⟨_, .term (.and hs ht)⟩
  | or hs hlast =>
      have h := IsFormula.or hs (.and hlast ht)
      rw [← List.cons_append, ← List.append_assoc] at h
      exact ⟨_, h⟩

/-! ### The reader -/

/-- What is read of a formula so far: `sum || (product && …)`. -/
structure Partial where
  sum : Bool := false
  product : Bool := true
  deriving DecidableEq, Repr

namespace Partial

/-- The value if nothing more comes. -/
def value (p : Partial) : Bool :=
  p.sum || p.product

/-- One more factor in the last term. -/
def times (p : Partial) (b : Bool) : Partial :=
  { p with product := p.product && b }

end Partial

mutual

/-- Reads on where a factor is due; `outer` are the formulas around the open parentheses. -/
def readFactor (outer : List Partial) (p : Partial) : List Symbol → Option Bool
  | .holds b :: rest => readConnector outer (p.times b) rest
  | .opening :: rest => readFactor (p :: outer) {} rest
  | _ => none

/-- Reads on behind a factor. -/
def readConnector (outer : List Partial) (p : Partial) : List Symbol → Option Bool
  | [] => if outer.isEmpty then some p.value else none
  | .and :: rest => readFactor outer p rest
  | .or :: rest => readFactor outer { sum := p.value } rest
  | .closing :: rest =>
    match outer with
    | [] => none
    | q :: outer => readConnector outer (q.times p.value) rest
  | _ => none

end

/-- The value of a formula, if the symbols are one. -/
def value? (s : List Symbol) : Option Bool :=
  readFactor [] {} s

/-! ### The reader finds what the grammar allows -/

mutual

theorem IsFactor.read {s : List Symbol} {b : Bool} : IsFactor s b →
    ∀ (outer : List Partial) (p : Partial) (rest : List Symbol),
      readFactor outer p (s ++ rest) = readConnector outer (p.times b) rest
  | .holds b, outer, p, rest => by
      rw [List.singleton_append, readFactor]
  | .group h, outer, p, rest => by
      obtain ⟨q, hq, hread⟩ := h.read (p :: outer) false (.closing :: rest)
      rw [List.cons_append, List.append_assoc, readFactor, List.singleton_append, hread,
        readConnector, hq, Bool.false_or]

theorem IsTerm.read {s : List Symbol} {b : Bool} : IsTerm s b →
    ∀ (outer : List Partial) (p : Partial) (rest : List Symbol),
      readFactor outer p (s ++ rest) = readConnector outer (p.times b) rest
  | .factor h, outer, p, rest => h.read outer p rest
  | .and hs ht, outer, p, rest => by
      rw [List.append_assoc, hs.read, List.cons_append, readConnector, ht.read]
      simp [Partial.times, Bool.and_assoc]

theorem IsFormula.read {s : List Symbol} {b : Bool} : IsFormula s b →
    ∀ (outer : List Partial) (sum : Bool) (rest : List Symbol),
      ∃ q : Partial, q.value = (sum || b) ∧
        readFactor outer { sum } (s ++ rest) = readConnector outer q rest
  | .term h, outer, sum, rest =>
      ⟨_, by simp [Partial.value, Partial.times], h.read outer { sum } rest⟩
  | .or (t := t) (b := b) hs ht, outer, sum, rest => by
      obtain ⟨q, hq, hread⟩ := hs.read outer sum (.or :: (t ++ rest))
      refine ⟨Partial.times { sum := q.value } b, ?_, ?_⟩
      · rw [← Bool.or_assoc, ← hq]
        simp [Partial.value, Partial.times]
      · rw [List.append_assoc, List.cons_append, hread, readConnector, ht.read]

end

/-- A formula has the value that is read off it, and no other. -/
theorem IsFormula.value?_eq {s : List Symbol} {b : Bool} (h : IsFormula s b) :
    value? s = some b := by
  obtain ⟨q, hq, hread⟩ := h.read [] false []
  rw [List.append_nil] at hread
  rw [value?, hread, readConnector, hq, Bool.false_or]
  rfl

example : value? [.holds true, .or, .holds false, .and, .holds false] = some true := rfl

example : value? [.opening, .holds true, .or, .holds false, .closing, .and, .holds false] =
    some false := rfl

end Relational
