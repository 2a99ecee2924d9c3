import Mathlib.Data.List.Induction
import Mathlib.Data.Nat.Digits.Defs
import Relational.Decimal.Layout
import Relational.Decimal.Reading
/-
Whole numbers survive being written and read.

The other way round, digits that are read are written again as they were, unless there is a zero
too many in front of them; then they are fewer.
-/
namespace Relational.Decimal

theorem natOfDigits_digitsOf (n : Nat) : natOfDigits (digitsOf n) = n :=
  Nat.ofDigitChars_ten_toDigits

theorem isDigit_of_mem_digitsOf {n : Nat} {c : Char} (h : c ∈ digitsOf n) : c.isDigit = true :=
  Nat.isDigit_of_mem_toDigits (by decide) (by decide) h

theorem digitsOf_ne_nil (n : Nat) : digitsOf n ≠ [] :=
  Nat.toDigits_ne_nil

/-- Only zero starts with a zero. -/
theorem digitsOf_eq_of_head? {n : Nat} (h : (digitsOf n).head? = some '0') :
    digitsOf n = ['0'] := by
  induction n using Nat.strongRecOn with
  | ind n ih =>
      by_cases hn : n < 10
      · have hdigits : digitsOf n = [n.digitChar] := Nat.toDigits_of_lt_base hn
        rw [hdigits, List.head?_cons, Option.some.injEq] at h
        rw [hdigits, h]
      · have hdigits : digitsOf n = digitsOf (n / 10) ++ [(n % 10).digitChar] :=
          Nat.toDigits_of_base_le (by decide) (by omega)
        have hhead : (digitsOf (n / 10)).head? = some '0' := by
          rcases hcons : digitsOf (n / 10) with _ | ⟨c, rest⟩
          · exact absurd hcons (digitsOf_ne_nil _)
          · rw [hdigits, hcons] at h
            exact h
        have hzero := congrArg natOfDigits (ih (n / 10) (by omega) hhead)
        rw [natOfDigits_digitsOf] at hzero
        have hsmall : n / 10 = 0 := hzero
        omega

theorem digitsOf_head?_ne {n : Nat} (h : 0 < n) : (digitsOf n).head? ≠ some '0' := by
  intro hhead
  have hvalue := congrArg natOfDigits (digitsOf_eq_of_head? hhead)
  rw [natOfDigits_digitsOf] at hvalue
  exact h.ne' hvalue

theorem natOfDigits_concat (s : List Char) (c : Char) :
    natOfDigits (s ++ [c]) = 10 * natOfDigits s + (c.toNat - '0'.toNat) := by
  rw [natOfDigits, List.foldl_append]
  rfl

theorem natOfDigits_append (s t : List Char) :
    natOfDigits (s ++ t) = natOfDigits s * 10 ^ t.length + natOfDigits t := by
  induction t using List.reverseRecOn with
  | nil => simp [natOfDigits]
  | append_singleton t c ih =>
      rw [← List.append_assoc, natOfDigits_concat, natOfDigits_concat, ih, List.length_append,
        List.length_singleton, Nat.mul_add, Nat.add_assoc, Nat.mul_left_comm, Nat.mul_comm 10,
        ← Nat.pow_succ]

theorem natOfDigits_zeros (k : Nat) : natOfDigits (zeros k) = 0 := by
  induction k with
  | zero => rfl
  | succ k ih => exact ih

theorem digit_lt {c : Char} (hc : c.isDigit = true) : c.toNat - '0'.toNat < 10 := by
  have hnine : c.toNat ≤ '0'.toNat + 9 := (Char.isDigit_iff_toNat.mp hc).2
  omega

/-- A digit is the one that is written for its value. -/
theorem digitsOf_digit {c : Char} (hc : c.isDigit = true) :
    digitsOf (c.toNat - '0'.toNat) = [c] := by
  have hchars : ∀ n < 10, n.digitChar = Char.ofNat ('0'.toNat + n) := by decide
  have hzero : '0'.toNat ≤ c.toNat := (Char.isDigit_iff_toNat.mp hc).1
  have hdigit : digitsOf (c.toNat - '0'.toNat) = [(c.toNat - '0'.toNat).digitChar] :=
    Nat.toDigits_of_lt_base (digit_lt hc)
  rw [hdigit, hchars _ (digit_lt hc), Nat.add_sub_cancel' hzero, Char.ofNat_toNat]

/-- Digits without a zero too many in front are those of the number they denote. -/
theorem digitsOf_natOfDigits {s : List Char} (hne : s ≠ []) (hdigits : ∀ c ∈ s, c.isDigit = true)
    (hlead : s.head? = some '0' → s = ['0']) : digitsOf (natOfDigits s) = s := by
  induction s using List.reverseRecOn with
  | nil => exact absurd rfl hne
  | append_singleton front c ih =>
      have hc : digitsOf (c.toNat - '0'.toNat) = [c] := digitsOf_digit (hdigits c (by simp))
      rw [natOfDigits_concat]
      by_cases hfront : front = []
      · rw [hfront]
        simpa [natOfDigits] using hc
      · have hhead : front.head? ≠ some '0' := by
          intro hzero
          have hall := hlead (by rw [List.head?_append, hzero, Option.some_or])
          have hlength := congrArg List.length hall
          rw [List.length_append, List.length_singleton, List.length_singleton] at hlength
          exact hfront (List.length_eq_zero_iff.mp (by omega))
        have hsame : digitsOf (natOfDigits front) = front :=
          ih hfront (fun d hd => hdigits d (by simp [hd])) fun hzero => absurd hzero hhead
        have hpos : 0 < natOfDigits front := by
          refine Nat.pos_of_ne_zero fun hzero => hhead ?_
          rw [← hsame, hzero]
          rfl
        calc digitsOf (10 * natOfDigits front + (c.toNat - '0'.toNat))
            = digitsOf (natOfDigits front) ++ digitsOf (c.toNat - '0'.toNat) :=
              (Nat.toDigits_append_toDigits (by decide) hpos (digit_lt (hdigits c (by simp)))).symm
          _ = front ++ [c] := by rw [hsame, hc]

theorem isDigits_iff {s : List Char} :
    isDigits s = true ↔ s ≠ [] ∧ ∀ c ∈ s, c.isDigit = true := by
  rw [isDigits, Bool.and_eq_true, List.all_eq_true, Bool.not_eq_true', List.isEmpty_eq_false_iff]

theorem isDigits_digitsOf (n : Nat) : isDigits (digitsOf n) = true :=
  isDigits_iff.mpr ⟨digitsOf_ne_nil n, fun _ hc => isDigit_of_mem_digitsOf hc⟩

theorem natOfDigits_lt {s : List Char} (h : ∀ c ∈ s, c.isDigit = true) :
    natOfDigits s < 10 ^ s.length := by
  induction s using List.reverseRecOn with
  | nil => exact Nat.one_pos
  | append_singleton front c ih =>
      have hfront := ih fun d hd => h d (by simp [hd])
      have hc := digit_lt (h c (by simp))
      rw [natOfDigits_concat, List.length_append, List.length_singleton, Nat.pow_succ]
      omega

/-- No digits for a number are fewer than those it is written with. -/
theorem length_digitsOf_natOfDigits {s : List Char} (h : isDigits s = true) :
    (digitsOf (natOfDigits s)).length ≤ s.length := by
  obtain ⟨hne, hdigits⟩ := isDigits_iff.mp h
  exact Nat.toDigits_length 10 _ _ (List.length_pos_iff.mpr hne) (natOfDigits_lt hdigits)

end Relational.Decimal
