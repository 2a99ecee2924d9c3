import Mathlib.Algebra.Order.Field.Power
import Mathlib.Data.Rat.Cast.Order
import Mathlib.Tactic.Linarith
import Mathlib.Tactic.NormNum
import Mathlib.Tactic.Positivity
import Mathlib.Tactic.Ring
import Relational.Decimal.Binary64
/-
Where rounding a quotient overflows.

A quotient is scaled by a power of two, rounded to a whole number and packed.  The power is chosen
so that the whole number has at most fifty-three bits, and packing takes whatever does not fit for
infinite.  So only the topmost range is looked at closely: there a quotient overflows from half-way
between the largest number and the power of two behind it on, because a tie goes to the even one.
-/
namespace Relational.Binary64

variable {num den : Nat}

/-! ### Rounding to a whole number -/

/-- The whole number below, or the one above if the rest is at least half; a tie goes up from an odd
number. -/
theorem roundHalfEven_cases (num den : Nat) :
    (roundHalfEven num den = num / den ∧ 2 * (num % den) ≤ den ∧
      (2 * (num % den) = den → num / den % 2 = 0)) ∨
    (roundHalfEven num den = num / den + 1 ∧ den ≤ 2 * (num % den)) := by
  unfold roundHalfEven
  dsimp only
  split
  · exact .inl ⟨rfl, by omega, by omega⟩
  · split
    · exact .inr ⟨rfl, by omega⟩
    · rcases Nat.mod_two_eq_zero_or_one (num / den) with heven | hodd
      · exact .inl ⟨by omega, by omega, fun _ => heven⟩
      · exact .inr ⟨by omega, by omega⟩

/-- Nothing is rounded up past a whole number. -/
theorem roundHalfEven_le {a : Nat} (hden : 0 < den) (h : num ≤ a * den) :
    roundHalfEven num den ≤ a := by
  have hdiv := Nat.div_add_mod' num den
  have hle : num / den ≤ a := Nat.div_le_of_le_mul (by rwa [Nat.mul_comm])
  rcases roundHalfEven_cases num den with ⟨heq, -, -⟩ | ⟨heq, hrest⟩
  · omega
  · have hne : num / den ≠ a := by
      intro hsame
      rw [hsame] at hdiv
      omega
    omega

/-- An even number is reached by what is at most half below it. -/
theorem le_roundHalfEven_iff {a : Nat} (hden : 0 < den) (heven : a % 2 = 0) :
    a ≤ roundHalfEven num den ↔ 2 * (a * den) ≤ 2 * num + den := by
  have hdiv := Nat.div_add_mod' num den
  have hmod := Nat.mod_lt num hden
  have hcases := roundHalfEven_cases num den
  rcases Nat.lt_trichotomy (num / den + 1) a with hbelow | hnext | habove
  · have hmul := Nat.mul_le_mul_right den hbelow
    rw [Nat.succ_mul, Nat.succ_mul] at hmul
    omega
  · have hmul : a * den = num / den * den + den := by rw [← hnext, Nat.succ_mul]
    omega
  · have hmul := Nat.mul_le_mul_right den (Nat.lt_succ_iff.mp habove)
    omega

/-! ### Scaling -/

theorem scaleDown_pos (hden : 0 < den) (q : Int) : 0 < (scaleDown num den q).2 :=
  Nat.mul_pos hden (Nat.two_pow_pos _)

theorem scaleDown_div (num den : Nat) (q : Int) :
    ((scaleDown num den q).1 : ℚ) / (scaleDown num den q).2 = num / den / 2 ^ q := by
  unfold scaleDown
  obtain ⟨n, rfl | rfl⟩ := q.eq_nat_or_neg
  · simp [div_div]
  · simp [zpow_neg, mul_div_right_comm]

theorem scaleDown_lt_iff (hden : 0 < den) (q : Int) :
    (scaleDown num den q).1 < (scaleDown num den q).2 ↔ (num : ℚ) / den < 2 ^ q := by
  have hpos : (0 : ℚ) < (scaleDown num den q).2 := by exact_mod_cast scaleDown_pos hden q
  have hpower : (0 : ℚ) < 2 ^ q := by positivity
  rw [← div_lt_one hpower, ← scaleDown_div, div_lt_one hpos, Nat.cast_lt]

/-- A quotient lies between two powers of two next to each other. -/
theorem floorLog2_bounds (hnum : 0 < num) (hden : 0 < den) :
    (2 : ℚ) ^ floorLog2 num den ≤ num / den ∧ (num : ℚ) / den < 2 ^ (floorLog2 num den + 1) := by
  have hden' : (0 : ℚ) < den := by exact_mod_cast hden
  have hpower (n : Nat) : (2 : ℚ) ^ (n : Int) = ((2 ^ n : Nat) : ℚ) := by simp
  have hlow : (2 : ℚ) ^ ((num.log2 : Int) - den.log2 - 1) < num / den := by
    rw [lt_div_iff₀ hden', sub_sub, zpow_sub₀ two_ne_zero, div_mul_eq_mul_div,
      div_lt_iff₀ (by positivity), ← Nat.cast_succ, hpower, hpower]
    exact_mod_cast Nat.mul_lt_mul_of_le_of_lt (Nat.log2_self_le hnum.ne') Nat.lt_log2_self hnum
  have hhigh : (num : ℚ) / den < 2 ^ ((num.log2 : Int) - den.log2 + 1) := by
    rw [div_lt_iff₀ hden', sub_add_eq_add_sub, zpow_sub₀ two_ne_zero, div_mul_eq_mul_div,
      lt_div_iff₀ (by positivity), ← Nat.cast_succ, hpower, hpower]
    exact_mod_cast Nat.mul_lt_mul_of_lt_of_le Nat.lt_log2_self (Nat.log2_self_le hden.ne') hden
  unfold floorLog2
  dsimp only
  split
  · rename_i hlt
    refine ⟨hlow.le, ?_⟩
    rw [sub_add_cancel]
    exact (scaleDown_lt_iff hden _).mp hlt
  · rename_i hle
    exact ⟨not_lt.mp fun hlt => hle ((scaleDown_lt_iff hden _).mpr hlt), hhigh⟩

/-- Below a power of two a significand is not above it. -/
theorem significand_le (hden : 0 < den) {q : Int} {e : Nat} (h : (num : ℚ) / den ≤ 2 ^ (q + e)) :
    roundHalfEven (scaleDown num den q).1 (scaleDown num den q).2 ≤ 2 ^ e := by
  refine roundHalfEven_le (scaleDown_pos hden q) ?_
  have hpos : (0 : ℚ) < (scaleDown num den q).2 := by exact_mod_cast scaleDown_pos hden q
  have hquotient : ((scaleDown num den q).1 : ℚ) / (scaleDown num den q).2 ≤ 2 ^ e := by
    rw [scaleDown_div, div_le_iff₀ (by positivity), ← zpow_natCast, ← zpow_add₀ two_ne_zero]
    rwa [add_comm]
  rw [div_le_iff₀ hpos] at hquotient
  exact_mod_cast hquotient

/-- From a power of two on a significand is not below it. -/
theorem le_significand (hden : 0 < den) {q : Int} {e : Nat} (he : 0 < e)
    (h : (2 : ℚ) ^ (q + e) ≤ num / den) :
    2 ^ e ≤ roundHalfEven (scaleDown num den q).1 (scaleDown num den q).2 := by
  have hpos : (0 : ℚ) < (scaleDown num den q).2 := by exact_mod_cast scaleDown_pos hden q
  have hquotient : (2 : ℚ) ^ e ≤ (scaleDown num den q).1 / (scaleDown num den q).2 := by
    rw [scaleDown_div, le_div_iff₀ (by positivity), ← zpow_natCast, ← zpow_add₀ two_ne_zero]
    rwa [add_comm]
  rw [le_div_iff₀ hpos] at hquotient
  have hle : 2 ^ e * (scaleDown num den q).2 ≤ (scaleDown num den q).1 := by exact_mod_cast hquotient
  have heven : 2 ^ e % 2 = 0 := Nat.two_pow_mod_two_eq_zero.mpr he
  exact (le_roundHalfEven_iff (scaleDown_pos hden q) heven).mpr (by omega)

/-! ### Overflow -/

/-- The fields behind the sign are what is packed, as long as it is not too large. -/
theorem isFinite_pack_iff (negative : Bool) (m : Nat) (q : Int) :
    (pack negative m q).isFinite = true ↔ (q + 1074).toNat * 2 ^ 52 + m < 2047 * 2 ^ 52 := by
  have hfield : ∀ sign n : Nat, sign = 0 ∨ sign = 2 ^ 63 → n ≤ 2047 * 2 ^ 52 →
      (UInt64.ofNat (sign + n)).toNat / 2 ^ 52 % 2 ^ 11 = n / 2 ^ 52 := by
    intro sign n hsign hn
    rw [UInt64.toNat_ofNat']
    omega
  have hsign : (if negative then Nat.pow 2 63 else 0) = 0 ∨
      (if negative then Nat.pow 2 63 else 0) = 2 ^ 63 := by
    cases negative with
    | true => exact .inr rfl
    | false => exact .inl rfl
  have hexponent := hfield _ (min ((q + 1074).toNat * 2 ^ 52 + m) (2047 * 2 ^ 52)) hsign
    (Nat.min_le_right _ _)
  show decide (_ / 2 ^ 52 % 2 ^ 11 < 2047) = true ↔ _
  rw [decide_eq_true_eq]
  unfold pack
  simp only [Nat.pow_eq] at hexponent ⊢
  rw [hexponent]
  omega

/-- The smallest magnitude that is rounded to infinity: half-way between the largest number and the
power of two behind it. -/
def overflow : Nat :=
  2 ^ 1024 - 2 ^ 970

theorem overflow_eq : (overflow : ℚ) = (2 ^ 54 - 1) * 2 ^ 970 := by
  have hfactor : overflow = (2 ^ 54 - 1) * 2 ^ 970 := by
    rw [overflow, Nat.sub_mul, ← Nat.pow_add, Nat.one_mul]
  rw [hfactor, Nat.cast_mul, Nat.cast_pow, Nat.cast_ofNat]
  norm_num only

theorem quotient_lt_overflow_iff (hden : 0 < den) :
    (num : ℚ) / den < overflow ↔ num < overflow * den := by
  rw [div_lt_iff₀ (by exact_mod_cast hden)]
  exact_mod_cast Iff.rfl

/-- In the topmost range a significand is rounded up to the power of two behind it from half-way
on. -/
theorem significand_lt_iff (hden : 0 < den) :
    roundHalfEven (scaleDown num den 971).1 (scaleDown num den 971).2 < 2 ^ 53 ↔
      (num : ℚ) / den < (2 ^ 54 - 1) * 2 ^ 970 := by
  have hpos : (0 : ℚ) < (scaleDown num den 971).2 := by exact_mod_cast scaleDown_pos hden 971
  have hscaled := scaleDown_div num den 971
  rw [← not_le, le_roundHalfEven_iff (scaleDown_pos hden 971) (by decide), not_le]
  have hquotient : 2 * (scaleDown num den 971).1 + (scaleDown num den 971).2 <
      2 * (2 ^ 53 * (scaleDown num den 971).2) ↔
      ((scaleDown num den 971).1 : ℚ) / (scaleDown num den 971).2 < (2 ^ 54 - 1) / 2 := by
    rw [div_lt_iff₀ hpos, ← Nat.cast_lt (α := ℚ)]
    push_cast
    constructor
    · intro h
      linarith
    · intro h
      linarith
  rw [hquotient, hscaled, div_lt_iff₀ (by positivity), ← zpow_natCast 2 970]
  have hpower : (2 : ℚ) ^ (971 : Int) = 2 * 2 ^ ((970 : Nat) : Int) := by
    rw [show (971 : Int) = (970 : Nat) + 1 from rfl, zpow_add_one₀ two_ne_zero, mul_comm]
  rw [hpower, ← mul_assoc, div_mul_cancel₀ _ two_ne_zero]

/-- A quotient overflows exactly if it is not below that magnitude. -/
theorem isFinite_ofQuotient_iff (negative : Bool) (hden : 0 < den) :
    (ofQuotient negative num den).isFinite = true ↔ num < overflow * den := by
  rcases Nat.eq_zero_or_pos num with rfl | hnum
  · rw [ofQuotient, if_pos rfl, isFinite_pack_iff]
    exact iff_of_true (by decide) (Nat.mul_pos (by decide +kernel) hden)
  · obtain ⟨hlow, hhigh⟩ := floorLog2_bounds hnum hden
    rw [ofQuotient, if_neg hnum.ne', ← quotient_lt_overflow_iff hden, overflow_eq]
    dsimp only [roundTo]
    rw [isFinite_pack_iff]
    generalize floorLog2 num den = k at hlow hhigh ⊢
    have hcast : k - ((53 - 1 : Nat) : Int) = k - 52 := rfl
    rw [hcast]
    have hbelow : (2 : ℚ) ^ (1023 : Int) ≤ (2 ^ 54 - 1) * 2 ^ 970 := by
      rw [show (1023 : Int) = (53 : Nat) + (970 : Nat) from rfl, zpow_add₀ two_ne_zero,
        zpow_natCast, zpow_natCast]
      exact mul_le_mul_of_nonneg_right (by norm_num) (by positivity)
    have habove : (2 ^ 54 - 1) * 2 ^ 970 ≤ (2 : ℚ) ^ (1024 : Int) := by
      rw [show (1024 : Int) = (54 : Nat) + (970 : Nat) from rfl, zpow_add₀ two_ne_zero,
        zpow_natCast, zpow_natCast]
      exact mul_le_mul_of_nonneg_right (by norm_num) (by positivity)
    rcases lt_trichotomy k 1023 with hsmall | rfl | hlarge
    · have hm := significand_le (q := max (k - 52) (-1074)) (e := 53) hden
        (hhigh.le.trans (zpow_le_zpow_right₀ one_le_two (by omega)))
      have hpower : (2 : ℚ) ^ (k + 1) ≤ 2 ^ (1023 : Int) :=
        zpow_le_zpow_right₀ one_le_two (by omega)
      exact iff_of_true (by omega) (hhigh.trans_le (hpower.trans hbelow))
    · have hq : max ((1023 : Int) - 52) (-1074) = 971 := rfl
      rw [hq, ← significand_lt_iff hden]
      omega
    · rw [max_eq_left (by omega)]
      have hexponent : k - 52 + (52 : Nat) = k := by omega
      have hm := le_significand (q := k - 52) (e := 52) hden (by decide) (hexponent.symm ▸ hlow)
      have hpower : (2 : ℚ) ^ (1024 : Int) ≤ 2 ^ k := zpow_le_zpow_right₀ one_le_two (by omega)
      exact iff_of_false (by omega) (not_lt.mpr (habove.trans (hpower.trans hlow)))

end Relational.Binary64
