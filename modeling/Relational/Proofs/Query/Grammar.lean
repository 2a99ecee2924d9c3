import Relational.Proofs.Query.Call
import Relational.Proofs.Query.Formula
/-
Conditions are well formed as they are written.

The flat sequence of tokens is never turned into a tree.  That it could be is the
invariant: there is no token, or the tokens are operands with connectors between them,
where an operand is a condition or such a sequence in parentheses.  A call that adds
something looks at the last token only, which is enough, as a sequence never ends with an
opening parenthesis.
-/
namespace Relational

open Conditions (joint atStart)

mutual

/-- A condition, or a group that is not empty. -/
inductive IsOperand : List Token → Prop
  | leaf (l : Leaf) : IsOperand [.leaf l]
  | group {s : List Token} (h : IsChain s) : IsOperand (.groupOpen :: (s ++ [.groupClose]))

/-- Operands with connectors between them. -/
inductive IsChain : List Token → Prop
  | operand {s : List Token} (h : IsOperand s) : IsChain s
  | next {s t : List Token} (hs : IsChain s) (c : Connector) (ht : IsOperand t) :
    IsChain (s ++ .connector c :: t)

end

namespace IsOperand

variable {s : List Token}

theorem ne_nil (h : IsOperand s) : s ≠ [] := by
  cases h with
  | leaf l => simp
  | group h => simp

theorem getLast?_ne (h : IsOperand s) : s.getLast? ≠ some .groupOpen := by
  cases h with
  | leaf l => simp
  | group h =>
      rw [← List.cons_append, List.getLast?_concat]
      simp

end IsOperand

namespace IsChain

variable {s : List Token}

theorem ne_nil (h : IsChain s) : s ≠ [] := by
  cases h with
  | operand h => exact h.ne_nil
  | next hs c ht => simp

theorem getLast?_ne (h : IsChain s) : s.getLast? ≠ some .groupOpen := by
  cases h with
  | operand h => exact h.getLast?_ne
  | next hs c ht =>
      rw [List.append_cons, List.getLast?_append_of_ne_nil _ ht.ne_nil]
      exact ht.getLast?_ne

/-- Behind a chain a connector is due. -/
theorem joint_eq (h : IsChain s) (c : Connector) : joint s c = [.connector c] := by
  have hstart : atStart s = false := by
    unfold atStart
    split
    · rename_i hlast
      exact absurd (List.getLast?_eq_none_iff.mp hlast) h.ne_nil
    · rename_i hlast
      exact absurd hlast h.getLast?_ne
    · rfl
  rw [joint, hstart]
  rfl

end IsChain

/-- An operand goes behind a sequence that may be empty. -/
theorem IsOperand.chain_append {s t : List Token} (ht : IsOperand t) (hs : s = [] ∨ IsChain s)
    (c : Connector) : IsChain (s ++ joint s c ++ t) := by
  rcases hs with rfl | hs
  · exact .operand ht
  · rw [hs.joint_eq, List.append_assoc]
    exact .next hs c ht

/-- Whatever calls write a sequence of conditions, it is well formed. -/
theorem Conditions.Reached.isChain {given : String → Prop} {c : Conditions} (h : c.Reached given) :
    c.tokens = [] ∨ IsChain c.tokens := by
  induction h with
  | empty => exact Or.inl rfl
  | fail h e ih => exact ih
  | push h connector hl ih => exact Or.inr ((IsOperand.leaf _).chain_append ih connector)
  | group h connector hinner hnone hne ih ihinner =>
      exact Or.inr ((IsOperand.group (ihinner.resolve_left hne)).chain_append ih connector)

end Relational
