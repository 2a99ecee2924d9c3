import Mathlib.Tactic.FieldSimp
import Mathlib.Tactic.LinearCombination
import Relational.Decimal.Shortest
import Relational.Proofs.Decimal.Places
/-
The shortest decimal is rounded to its number.

A decimal is taken from a grid only if it lies in the interval of what is rounded to the number.
And one is found: on the grid of seventeen digits the two neighbours of the number are nearer to
each other than the ends of the interval, so one of them lies in it.
-/
namespace Relational.Decimal

open Binary64

/-- The value of a decimal. -/
def Scientific.value (d : Scientific) : ℚ :=
  d.digits * 10 ^ d.power

/-! ### The power of ten below a quotient -/

theorem lt_pow_digitCount (n : ℕ) : n < 10 ^ digitCount n :=
  (Nat.length_toDigits_le_iff (by decide) Nat.length_toDigits_pos).mp le_rfl

theorem pow_digitCount_le {n : ℕ} (h : 0 < n) : 10 ^ (digitCount n - 1) ≤ n := by
  rcases Nat.eq_zero_or_pos (digitCount n - 1) with hone | hmore
  · rw [hone]
    exact h
  · by_contra hlt
    have hfewer : digitCount n ≤ digitCount n - 1 :=
      (Nat.length_toDigits_le_iff (by decide) hmore).mpr (Nat.lt_of_not_le hlt)
    omega

theorem floorLog10_bounds {num den : ℕ} (hnum : 0 < num) (hden : 0 < den) :
    (10 : ℚ) ^ floorLog10 num den ≤ num / den ∧
      (num / den : ℚ) < 10 ^ (floorLog10 num den + 1) := by
  have hnum' : (0 : ℚ) < num := by exact_mod_cast hnum
  have hden' : (0 : ℚ) < den := by exact_mod_cast hden
  unfold floorLog10
  split
  · rename_i hle
    have hlow := pow_digitCount_le (Nat.div_pos hle hden)
    have hhigh := lt_pow_digitCount (num / den)
    have hpos : 0 < digitCount (num / den) := Nat.length_toDigits_pos
    generalize digitCount (num / den) = c at *
    have hpred : (c : ℤ) - 1 = ((c - 1 : ℕ) : ℤ) := by omega
    constructor
    · rw [hpred, zpow_natCast, le_div_iff₀ hden']
      exact_mod_cast (Nat.le_div_iff_mul_le hden).mp hlow
    · rw [sub_add_cancel, zpow_natCast, div_lt_iff₀ hden']
      exact_mod_cast (Nat.div_lt_iff_lt_mul hden).mp hhigh
  · rename_i hlt
    have hlow := pow_digitCount_le (Nat.div_pos (show num ≤ den - 1 by omega) hnum)
    have hhigh := lt_pow_digitCount ((den - 1) / num)
    have hpos : 0 < digitCount ((den - 1) / num) := Nat.length_toDigits_pos
    generalize digitCount ((den - 1) / num) = c at *
    have hpred : -(c : ℤ) + 1 = -((c - 1 : ℕ) : ℤ) := by omega
    constructor
    · have hle : den ≤ 10 ^ c * num := by
        have hmul := (Nat.div_lt_iff_lt_mul hnum).mp hhigh
        omega
      rw [zpow_neg, zpow_natCast, le_div_iff₀ hden', inv_mul_le_iff₀ (by positivity)]
      exact_mod_cast hle
    · have hgt : 10 ^ (c - 1) * num < den := by
        have hmul := (Nat.le_div_iff_mul_le hnum).mp hlow
        omega
      rw [hpred, zpow_neg, zpow_natCast, div_lt_iff₀ hden', lt_inv_mul_iff₀ (by positivity)]
      exact_mod_cast hgt

/-! ### The interval of a number -/

variable {x : Binary64} {v : ℚ} {tie : Tie} {p : ℤ}

/-- The value lies in the interval. -/
def Within (x : Binary64) (v : ℚ) : Prop :=
  let area := neighbourhood x
  let unit : ℚ := 2 ^ (x.exponent - 2)
  if area.closed then area.low * unit ≤ v ∧ v ≤ area.high * unit
  else area.low * unit < v ∧ v < area.high * unit

theorem unit_pos (x : Binary64) : (0 : ℚ) < 2 ^ (x.exponent - 2) := by
  positivity

theorem value_eq_four_mul (x : Binary64) :
    x.value = (4 * x.significand : ℕ) * 2 ^ (x.exponent - 2) := by
  rw [value_eq_significand, zpow_sub₀ two_ne_zero]
  push_cast
  ring

/-- What lies in the interval lies between its ends, and is not one of them unless the significand
is even. -/
theorem Within.bounds (h : Within x v) :
    ((neighbourhood x).low * 2 ^ (x.exponent - 2) ≤ v ∧
      v ≤ (neighbourhood x).high * 2 ^ (x.exponent - 2)) ∧
      (v = (neighbourhood x).low * 2 ^ (x.exponent - 2) ∨
        v = (neighbourhood x).high * 2 ^ (x.exponent - 2) → x.significand % 2 = 0) := by
  unfold Within at h
  dsimp only at h
  split at h
  · rename_i hclosed
    exact ⟨h, fun _ => by simpa [neighbourhood] using hclosed⟩
  · exact ⟨⟨h.1.le, h.2.le⟩, fun hend => (hend.elim h.1.ne' h.2.ne).elim⟩

theorem four_mul_inUnits (a : ℚ) {e : ℕ} (hexponent : x.exponent = e - 1074) :
    4 * inUnits (a * 2 ^ (x.exponent - 2)) = a * 2 ^ e := by
  have hquarter : (e : ℤ) - 1074 - 2 + 1074 = e - 2 := by ring
  rw [inUnits, units_eq, mul_assoc a, ← zpow_add₀ two_ne_zero, hexponent, hquarter,
    zpow_sub₀ two_ne_zero, zpow_natCast]
  ring

/-- The upper end is half-way to the next magnitude. -/
theorem inUnits_high (x : Binary64) :
    2 * inUnits ((neighbourhood x).high * 2 ^ (x.exponent - 2)) =
      2 * atPlace x.place + step x.place := by
  obtain ⟨e, hplace, hexponent, hm, hnormal⟩ := x.place_eq
  have hscaled := four_mul_inUnits ((neighbourhood x).high : ℚ) hexponent
  have hhigh : ((neighbourhood x).high : ℚ) = 4 * x.significand + 2 := by
    exact_mod_cast (rfl : (neighbourhood x).high = 4 * x.significand + 2)
  have hmagnitude : (atPlace x.place : ℚ) = x.significand * 2 ^ e := by
    rw [hplace]
    exact_mod_cast atPlace_pack hm.le hnormal
  have hstep : (step x.place : ℚ) = 2 ^ e := by
    rw [hplace]
    exact_mod_cast step_pack hm hnormal
  rw [hmagnitude, hstep]
  linear_combination (hscaled + hhigh * 2 ^ e) / 2

/-- How far the lower end is away, in quarters of a step: above a power of two one, as the step is
half as wide there, and elsewhere two. -/
theorem exists_low_add (hpos : 0 < x.significand) :
    ∃ gap : ℕ, (neighbourhood x).low + gap = 4 * x.significand ∧
      (gap = 2 ∧ (x.exponent = -1074 ∨ x.significand ≠ 2 ^ 52) ∨
        gap = 1 ∧ x.significand = 2 ^ 52 ∧ -1074 < x.exponent) := by
  unfold neighbourhood
  dsimp only
  simp only [Nat.pow_eq]
  obtain ⟨e, -, hexponent, -⟩ := x.place_eq
  split
  · rename_i hpower
    exact ⟨1, by omega, .inr ⟨rfl, hpower⟩⟩
  · rename_i hpower
    exact ⟨2, by omega, .inl ⟨rfl, by omega⟩⟩

/-- The lower end is half-way from the magnitude before. -/
theorem inUnits_low {j : ℕ} (hpos : 0 < x.significand) (hj : x.place = j + 1) :
    2 * inUnits ((neighbourhood x).low * 2 ^ (x.exponent - 2)) = 2 * atPlace j + step j := by
  obtain ⟨e, hplace, hexponent, hm, hnormal⟩ := x.place_eq
  obtain ⟨gap, hgap, hcases⟩ := exists_low_add hpos
  have hscaled := four_mul_inUnits ((neighbourhood x).low : ℚ) hexponent
  have hlow : ((neighbourhood x).low + gap : ℚ) = 4 * x.significand := by exact_mod_cast hgap
  have hmagnitude : (atPlace j + step j : ℚ) = x.significand * 2 ^ e := by
    have hmagnitude := atPlace_pack hm.le hnormal
    rw [← hplace, hj, atPlace_succ] at hmagnitude
    exact_mod_cast hmagnitude
  have hstep : (2 * step j : ℚ) = gap * 2 ^ e := by
    rcases hcases with ⟨rfl, hinner⟩ | ⟨rfl, hpower, hnormal⟩
    · have hbefore : j = e * 2 ^ 52 + (x.significand - 1) := by omega
      rw [hbefore]
      exact_mod_cast congrArg (2 * ·) (step_pack (e := e) (by omega) (by omega))
    · obtain ⟨k, rfl⟩ : ∃ k, e = k + 1 := ⟨e - 1, by omega⟩
      have hbefore : j = k * 2 ^ 52 + (2 ^ 53 - 1) := by omega
      have hhalf : 2 * step j = 1 * 2 ^ (k + 1) := by
        rw [hbefore, step_pack (by decide) (.inr (by decide)), Nat.pow_succ]
        omega
      exact_mod_cast hhalf
  linear_combination hscaled / 2 + hlow * 2 ^ e / 2 - 2 * hmagnitude + hstep / 2

theorem inUnits_injective {u w : ℚ} (h : inUnits u = inUnits w) : u = w :=
  mul_right_cancel₀ units_pos.ne' h

/-- What is in the interval is rounded to the number. -/
theorem roundsTo_of_within (hpos : 0 < x.significand) (h : Within x v) : RoundsTo v x.place := by
  obtain ⟨⟨hlow, hhigh⟩, hends⟩ := h.bounds
  have hlow := inUnits_le hlow
  have hhigh := inUnits_le hhigh
  have hhighEnd := inUnits_high x
  have heven (hv : v = (neighbourhood x).low * 2 ^ (x.exponent - 2) ∨
      v = (neighbourhood x).high * 2 ^ (x.exponent - 2)) : x.place % 2 = 0 := by
    obtain ⟨e, hplace, -⟩ := x.place_eq
    have hsignificand := hends hv
    omega
  refine ⟨by linarith, fun heq => ?_, fun j hj => ?_, fun j hj heq => ?_⟩
  · exact heven (.inr (inUnits_injective (by linarith)))
  · have hlowEnd := inUnits_low hpos hj
    linarith
  · have hlowEnd := inUnits_low hpos hj
    exact heven (.inl (inUnits_injective (by linarith)))

/-! ### The grid -/

theorem onGrid_pos (n : ℕ) (q p : ℤ) : 0 < (onGrid n q p).2 :=
  Nat.mul_pos (Nat.two_pow_pos _) (Nat.pow_pos (by decide))

theorem onGrid_eq (n : ℕ) (q p : ℤ) :
    ((onGrid n q p).1 : ℚ) * 10 ^ p = n * 2 ^ q * (onGrid n q p).2 := by
  have htwo := pow_toNat_div 2 q
  have hten := pow_toNat_div 10 p
  have hbelow : (2 : ℚ) ^ (-q).toNat ≠ 0 := by positivity
  have hbelow' : (10 : ℚ) ^ (-p).toNat ≠ 0 := by positivity
  unfold onGrid
  simp only [Nat.pow_eq, Nat.cast_mul, Nat.cast_pow, Nat.cast_ofNat]
  rw [← htwo, ← hten]
  field_simp

theorem onGrid_le_iff (n d : ℕ) (q p : ℤ) :
    (onGrid n q p).1 ≤ d * (onGrid n q p).2 ↔ (n * 2 ^ q : ℚ) ≤ d * 10 ^ p := by
  have hden : (0 : ℚ) < (onGrid n q p).2 := by exact_mod_cast onGrid_pos n q p
  have hten : (0 : ℚ) < 10 ^ p := by positivity
  rw [← mul_le_mul_iff_left₀ hden, ← onGrid_eq, mul_right_comm, mul_le_mul_iff_left₀ hten]
  norm_cast

theorem le_onGrid_iff (n d : ℕ) (q p : ℤ) :
    d * (onGrid n q p).2 ≤ (onGrid n q p).1 ↔ (d * 10 ^ p : ℚ) ≤ n * 2 ^ q := by
  have hden : (0 : ℚ) < (onGrid n q p).2 := by exact_mod_cast onGrid_pos n q p
  have hten : (0 : ℚ) < 10 ^ p := by positivity
  rw [← mul_le_mul_iff_left₀ hden, ← onGrid_eq, mul_right_comm, mul_le_mul_iff_left₀ hten]
  norm_cast

/-- What is compared on the grid is whether the decimal lies in the interval. -/
theorem inside_iff (x : Binary64) (p : ℤ) (d : ℕ) :
    (if (neighbourhood x).closed then
        decide ((onGrid (neighbourhood x).low (x.exponent - 2) p).1 ≤
          d * (onGrid (neighbourhood x).value (x.exponent - 2) p).2) &&
        decide (d * (onGrid (neighbourhood x).value (x.exponent - 2) p).2 ≤
          (onGrid (neighbourhood x).high (x.exponent - 2) p).1)
      else
        decide ((onGrid (neighbourhood x).low (x.exponent - 2) p).1 <
          d * (onGrid (neighbourhood x).value (x.exponent - 2) p).2) &&
        decide (d * (onGrid (neighbourhood x).value (x.exponent - 2) p).2 <
          (onGrid (neighbourhood x).high (x.exponent - 2) p).1)) = true ↔
      Within x (d * 10 ^ p) := by
  have hlow := onGrid_le_iff (neighbourhood x).low d (x.exponent - 2) p
  have hlow' := le_onGrid_iff (neighbourhood x).low d (x.exponent - 2) p
  have hhigh := le_onGrid_iff (neighbourhood x).high d (x.exponent - 2) p
  have hhigh' := onGrid_le_iff (neighbourhood x).high d (x.exponent - 2) p
  unfold Within
  dsimp only
  split
  · rw [Bool.and_eq_true, decide_eq_true_eq, decide_eq_true_eq]
    exact and_congr hlow hhigh
  · rw [Bool.and_eq_true, decide_eq_true_eq, decide_eq_true_eq]
    exact and_congr (not_le.symm.trans ((not_congr hlow').trans not_le))
      (not_le.symm.trans ((not_congr hhigh').trans not_le))

/-- One of the two neighbours is taken, and none only if neither lies in the interval. -/
theorem onGrid?_cases (tie : Tie) (x : Binary64) (p : ℤ) :
    ∃ below : ℕ, below * 10 ^ p ≤ x.value ∧ x.value < (below + 1 : ℕ) * 10 ^ p ∧
      match onGrid? tie x p with
      | some d => 0 < d ∧ d ≤ below + 1 ∧ Within x (d * 10 ^ p)
      | none =>
        (below = 0 ∨ ¬Within x (below * 10 ^ p)) ∧ ¬Within x ((below + 1 : ℕ) * 10 ^ p) := by
  have hden := onGrid_pos (neighbourhood x).value (x.exponent - 2) p
  have hvalue : x.value = (neighbourhood x).value * 2 ^ (x.exponent - 2) := value_eq_four_mul x
  refine ⟨(onGrid (neighbourhood x).value (x.exponent - 2) p).1 /
    (onGrid (neighbourhood x).value (x.exponent - 2) p).2, ?_, ?_, ?_⟩
  · rw [hvalue, ← le_onGrid_iff]
    exact Nat.div_mul_le_self _ _
  · rw [hvalue, ← not_le, ← le_onGrid_iff, not_le]
    exact (Nat.div_lt_iff_lt_mul hden).mp (Nat.lt_succ_self _)
  · unfold onGrid?
    dsimp only
    generalize hbelow : (onGrid (neighbourhood x).value (x.exponent - 2) p).1 /
      (onGrid (neighbourhood x).value (x.exponent - 2) p).2 = below
    have hfirst := inside_iff x p below
    have hsecond := inside_iff x p (below + 1)
    split
    · rename_i d hsome
      have htaken : 0 < below ∧ d = below ∧ Within x (below * 10 ^ p) ∨
          d = below + 1 ∧ Within x ((below + 1 : ℕ) * 10 ^ p) := by
        split at hsome
        · cases hsome
        · rename_i hlower hupper
          rw [Bool.and_eq_true, hfirst, bne_iff_ne] at hlower
          exact .inl ⟨by omega, (Option.some.inj hsome).symm, hlower.1⟩
        · rename_i hlower hupper
          exact .inr ⟨(Option.some.inj hsome).symm, hsecond.mp hupper⟩
        · rename_i hlower hupper
          rw [Bool.and_eq_true, hfirst, bne_iff_ne] at hlower
          have heither : d = below ∨ d = below + 1 := by
            grind
          exact heither.imp (fun hd => ⟨by omega, hd, hlower.1⟩) fun hd => ⟨hd, hsecond.mp hupper⟩
      rcases htaken with ⟨hpos, rfl, hwithin⟩ | ⟨rfl, hwithin⟩
      · exact ⟨hpos, Nat.le_succ _, hwithin⟩
      · exact ⟨Nat.succ_pos _, le_rfl, hwithin⟩
    · rename_i hnone
      split at hnone
      · rename_i hlower hupper
        rw [Bool.and_eq_false_iff, bne_eq_false_iff_eq] at hlower
        refine ⟨hlower.symm.imp_right fun hout hin => ?_, fun hin => ?_⟩
        · exact Bool.false_ne_true (hout.symm.trans (hfirst.mpr hin))
        · exact Bool.false_ne_true (hupper.symm.trans (hsecond.mpr hin))
      · cases hnone
      · cases hnone
      · grind

/-! ### Seventeen digits -/

theorem within_of_lt (hlow : (neighbourhood x).low * 2 ^ (x.exponent - 2) < v)
    (hhigh : v < (neighbourhood x).high * 2 ^ (x.exponent - 2)) : Within x v := by
  unfold Within
  dsimp only
  split
  · exact ⟨hlow.le, hhigh.le⟩
  · exact ⟨hlow, hhigh⟩

theorem low_le_value (x : Binary64) :
    (neighbourhood x).low * 2 ^ (x.exponent - 2) ≤ x.value := by
  rw [value_eq_four_mul, mul_le_mul_iff_left₀ (unit_pos x), Nat.cast_le]
  exact Nat.sub_le _ _

theorem value_lt_high (x : Binary64) :
    x.value < (neighbourhood x).high * 2 ^ (x.exponent - 2) := by
  rw [value_eq_four_mul, mul_lt_mul_iff_left₀ (unit_pos x), Nat.cast_lt]
  exact Nat.lt_add_of_pos_right (by decide)

/-- On a grid that is as fine as seventeen digits, one of the two neighbours lies in the
interval. -/
theorem onGrid?_ne_none (hpos : 0 < x.significand) (hfine : 10 ^ 16 * 10 ^ p ≤ x.value) :
    onGrid? tie x p ≠ none := by
  intro hnone
  obtain ⟨below, hbelow, habove, hneither⟩ := onGrid?_cases tie x p
  rw [hnone] at hneither
  obtain ⟨hlower, hupper⟩ := hneither
  obtain ⟨gap, hgap, hcases⟩ := exists_low_add hpos
  have hunit := unit_pos x
  have hlower : (below * 10 ^ p : ℚ) ≤ (neighbourhood x).low * 2 ^ (x.exponent - 2) := by
    by_contra! hlt
    refine hlower.elim ?_ fun hout => hout (within_of_lt hlt (hbelow.trans_lt (value_lt_high x)))
    rintro rfl
    have hten : (0 : ℚ) < 10 ^ p := by positivity
    rw [Nat.zero_add, Nat.cast_one, one_mul] at habove
    linarith
  have hupper : ((neighbourhood x).high * 2 ^ (x.exponent - 2) : ℚ) ≤
      (below + 1 : ℕ) * 10 ^ p := by
    by_contra! hlt
    exact hupper (within_of_lt ((low_le_value x).trans_lt habove) hlt)
  -- So the neighbours are further from each other than the ends.
  have hwidth : ((2 + gap : ℕ) : ℚ) * 2 ^ (x.exponent - 2) ≤ 10 ^ p := by
    have hlowEnd : ((neighbourhood x).low + gap : ℚ) = 4 * x.significand := by exact_mod_cast hgap
    have hhighEnd : ((neighbourhood x).high : ℚ) = 4 * x.significand + 2 := by
      exact_mod_cast (rfl : (neighbourhood x).high = 4 * x.significand + 2)
    have hends : ((neighbourhood x).high * 2 ^ (x.exponent - 2) : ℚ) =
        (neighbourhood x).low * 2 ^ (x.exponent - 2) + (2 + gap) * 2 ^ (x.exponent - 2) := by
      rw [hhighEnd]
      linear_combination -(2 ^ (x.exponent - 2)) * hlowEnd
    push_cast at hupper ⊢
    linarith
  have hmany : ((10 ^ 16 * (2 + gap) : ℕ) : ℚ) * 2 ^ (x.exponent - 2) ≤
      (4 * x.significand : ℕ) * 2 ^ (x.exponent - 2) := by
    calc ((10 ^ 16 * (2 + gap) : ℕ) : ℚ) * 2 ^ (x.exponent - 2)
        = 10 ^ 16 * ((2 + gap : ℕ) * 2 ^ (x.exponent - 2)) := by push_cast; ring
      _ ≤ 10 ^ 16 * 10 ^ p := mul_le_mul_of_nonneg_left hwidth (by positivity)
      _ ≤ x.value := hfine
      _ = (4 * x.significand : ℕ) * 2 ^ (x.exponent - 2) := value_eq_four_mul x
  rw [mul_le_mul_iff_left₀ hunit, Nat.cast_le] at hmany
  obtain ⟨e, -, -, hm, -⟩ := x.place_eq
  rcases hcases with ⟨rfl, -⟩ | ⟨rfl, hpower, -⟩
  · omega
  · omega

/-! ### The search -/

/-- The decimal is rounded to the number and is written with few digits. -/
structure Denotes (x : Binary64) (d : Scientific) : Prop where
  pos : 0 < d.digits
  le : d.digits ≤ 10 ^ 17
  roundsTo : RoundsTo d.value x.place

theorem value_div_ten {d : Scientific} (h : d.digits % 10 = 0) :
    (⟨d.digits / 10, d.power + 1⟩ : Scientific).value = d.value := by
  have hdigits : (d.digits : ℚ) = (d.digits / 10 : ℕ) * 10 := by
    exact_mod_cast (by omega : d.digits = d.digits / 10 * 10)
  unfold Scientific.value
  rw [hdigits, zpow_add_one₀ (by norm_num)]
  ring

theorem Denotes.dropZeros {d : Scientific} (fuel : ℕ) (h : Denotes x d) :
    Denotes x (dropZeros fuel d) := by
  induction fuel generalizing d with
  | zero => exact h
  | succ fuel ih =>
      rw [Decimal.dropZeros]
      split
      · rename_i hzero
        have hpos := h.pos
        refine ih ⟨?_, (Nat.div_le_self _ _).trans h.le, ?_⟩
        · show 0 < d.digits / 10
          omega
        · rw [value_div_ten hzero.2]
          exact h.roundsTo
      · exact h

/-- What a grid of seventeen digits at most gives denotes the number. -/
theorem denotes_of_onGrid? {count d : ℕ} (hpos : 0 < x.significand)
    (h : onGrid? tie x p = some d) (hcount : count ≤ 17) (hlt : x.value < 10 ^ count * 10 ^ p) :
    Denotes x ⟨d, p⟩ := by
  obtain ⟨below, hbelow, -, hcases⟩ := onGrid?_cases tie x p
  rw [h] at hcases
  obtain ⟨hd, hle, hwithin⟩ := hcases
  have hdigits : (below : ℚ) < (10 ^ count : ℕ) := by
    have hten : (0 : ℚ) < 10 ^ p := by positivity
    rw [← mul_lt_mul_iff_left₀ hten]
    push_cast
    exact hbelow.trans_lt hlt
  have hbound : d ≤ 10 ^ count := hle.trans (Nat.cast_lt.mp hdigits)
  exact ⟨hd, hbound.trans (Nat.pow_le_pow_right (by decide) hcount),
    roundsTo_of_within hpos hwithin⟩

/-- So does what a search finds that goes on to seventeen digits. -/
theorem denotes_shortestFrom (tie : Tie) (hpos : 0 < x.significand) {top : ℤ} {fuel count : ℕ}
    (hlow : 10 ^ top ≤ x.value) (hhigh : x.value < 10 ^ (top + 1)) (hfuel : fuel + count = 17) :
    Denotes x (shortestFrom tie x top (fuel + 1) count) := by
  have hsplit (count : ℕ) : (10 : ℚ) ^ (top + 1) = 10 ^ count * 10 ^ (top + 1 - count) := by
    rw [← zpow_natCast, ← zpow_add₀ (by norm_num), add_sub_cancel]
  induction fuel generalizing count with
  | zero =>
      obtain rfl : count = 17 := by omega
      rw [shortestFrom]
      split
      · rename_i d hd
        exact (denotes_of_onGrid? hpos hd le_rfl (hsplit 17 ▸ hhigh)).dropZeros _
      · rename_i hnone
        refine absurd hnone (onGrid?_ne_none hpos ?_)
        calc (10 ^ 16 * 10 ^ (top + 1 - (17 : ℕ)) : ℚ) = 10 ^ top := by
              rw [← zpow_natCast, ← zpow_add₀ (by norm_num)]
              congr 1
              push_cast
              ring
          _ ≤ x.value := hlow
  | succ fuel ih =>
      rw [shortestFrom]
      split
      · rename_i d hd
        exact (denotes_of_onGrid? hpos hd (by omega) (hsplit count ▸ hhigh)).dropZeros _
      · exact ih (by omega)

/-- **The shortest decimal is rounded to its number**, and seventeen digits are enough for it. -/
theorem denotes_shortest (tie : Tie) (hpos : 0 < x.significand) : Denotes x (shortest tie x) := by
  have hnum : 0 < x.magnitude.1 := Nat.mul_pos hpos (Nat.two_pow_pos _)
  obtain ⟨hlow, hhigh⟩ := floorLog10_bounds hnum x.magnitude_pos
  exact denotes_shortestFrom tie hpos hlow hhigh rfl

end Relational.Decimal
