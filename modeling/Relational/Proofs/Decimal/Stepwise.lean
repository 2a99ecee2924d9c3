import Relational.Proofs.Decimal.Digits
import Relational.Proofs.Decimal.Shortest
/-
How far the stepwise reading is from the nearest number.

The digits become a number, the power of ten becomes a number, and these two are multiplied or
divided.  Each of the first two is rounded unless it is a number already, and each rounding moves
the value by a factor that moves the place of the result by one at most.  So the reading is as many
places beside the nearest number as there were roundings before the last one.
-/
namespace Relational

namespace Binary64

variable {v : ℚ} {i n : ℕ}

/-! ### Whole numbers -/

/-- A whole number of fifty-three bits is a number. -/
theorem exists_magnitudeAt_eq {a : ℕ} (hpos : 0 < a) (ha : a < 2 ^ 53) :
    ∃ i < 2047 * 2 ^ 52, magnitudeAt i = a := by
  have hlog : a.log2 < 53 := (Nat.log2_lt hpos.ne').mpr ha
  have hlow := Nat.log2_self_le hpos.ne'
  have hhigh : a < 2 ^ (a.log2 + 1) := Nat.lt_log2_self
  generalize a.log2 = t at *
  have hm : a * 2 ^ (52 - t) < 2 ^ 53 := by
    calc a * 2 ^ (52 - t) < 2 ^ (t + 1) * 2 ^ (52 - t) :=
          Nat.mul_lt_mul_of_pos_right hhigh (Nat.two_pow_pos _)
      _ = 2 ^ 53 := by rw [← Nat.pow_add, show t + 1 + (52 - t) = 53 by omega]
  have hnormal : 2 ^ 52 ≤ a * 2 ^ (52 - t) := by
    calc 2 ^ 52 = 2 ^ t * 2 ^ (52 - t) := by rw [← Nat.pow_add, show t + (52 - t) = 52 by omega]
      _ ≤ a * 2 ^ (52 - t) := Nat.mul_le_mul_right _ hlow
  refine ⟨(1022 + t) * 2 ^ 52 + a * 2 ^ (52 - t), by omega, ?_⟩
  rw [magnitudeAt, atPlace_pack hm.le (.inr hnormal), mul_assoc, two_pow_mul_two_pow (by omega),
    Nat.cast_mul]
  exact mul_div_cancel_right₀ _ units_pos.ne'

theorem ofNat_value_eq {a : ℕ} (hpos : 0 < a) (ha : a < 2 ^ 53) : (ofNat a).value = a := by
  obtain ⟨i, hi, hvalue⟩ := exists_magnitudeAt_eq hpos ha
  have hround := roundsTo_magnitudeAt i
  rw [hvalue] at hround
  have hplace : placeOf a 1 = i := (roundsTo_placeOf Nat.one_pos).unique (by simpa using hround)
  rw [value_eq, ofNat, (place_ofQuotient false a 1).1, hplace, Nat.min_eq_left hi.le, hvalue]

/-- Any other one is rounded once. -/
theorem drift_ofNat {a : ℕ} (hpos : 0 < a) (ha : a < overflow) : Drift 1 a (ofNat a).value := by
  have hfinite : (ofNat a).isFinite = true :=
    (isFinite_ofQuotient_iff false Nat.one_pos).mpr (by rwa [Nat.mul_one])
  have hdrift := drift_ofQuotient Nat.one_pos hfinite
  rw [Nat.cast_one, div_one] at hdrift
  refine hdrift ?_
  rw [inUnits, ← Nat.cast_mul]
  have hunits : 2 ^ 52 ≤ units := two_pow_le_units (by decide)
  exact_mod_cast hunits.trans (Nat.le_mul_of_pos_left _ hpos)

/-! ### One multiplication or division -/

variable (x y : Binary64)

theorem value_pos_iff : 0 < x.value ↔ 0 < x.magnitude.1 := by
  have hden : (0 : ℚ) < x.magnitude.2 := by exact_mod_cast x.magnitude_pos
  rw [value, div_pos_iff_of_pos_right hden, Nat.cast_pos]

variable {x y}

theorem near_mul {v : ℚ} {i n : ℕ} (hv : 0 ≤ v) (hi : RoundsTo v i)
    (hdrift : Drift n v (x.value * y.value)) (hfinite : i + n < 2047 * 2 ^ 52) :
    Near n i (x.mul y) := by
  refine near_ofQuotient (Nat.mul_pos x.magnitude_pos y.magnitude_pos) hv hi ?_ hfinite
  rwa [Nat.cast_mul, Nat.cast_mul, ← div_mul_div_comm]

theorem quotient_eq : ((x.magnitude.1 * y.magnitude.2 : ℕ) : ℚ) /
    ((x.magnitude.2 * y.magnitude.1 : ℕ) : ℚ) = x.value / y.value := by
  rw [Nat.cast_mul, Nat.cast_mul, value, value, div_div_div_eq]

theorem near_div {v : ℚ} {i n : ℕ} (hy : 0 < y.value) (hv : 0 ≤ v) (hi : RoundsTo v i)
    (hdrift : Drift n v (x.value / y.value)) (hfinite : i + n < 2047 * 2 ^ 52) :
    Near n i (x.div y) := by
  have hden := Nat.mul_pos x.magnitude_pos (y.value_pos_iff.mp hy)
  refine near_ofQuotient hden hv hi ?_ hfinite
  rwa [quotient_eq]

end Binary64

namespace Decimal

open Binary64

/-! ### Powers of ten -/

/-- Where the powers of ten at the ends of the range stand among the powers of two. -/
theorem ten_pow_bounds :
    2 ^ 65 < overflow ∧ 10 ^ largestStep < overflow ∧
      5 * 2 ^ 52 * 10 ^ largestStep ≤ 12 * units ∧
      atPlace (2047 * 2 ^ 52) < 10 ^ (largestStep + 1) * units ∧
      4 * units < 10 ^ (largestStep + 18) ∧
      2 * UInt64.size * units < 10 ^ (largestStep + 37) := by
  decide +kernel

/-- Up to here a power of ten is a number. -/
theorem powerOfTen_value_eq {k : ℕ} (hk : k ≤ 22) : (powerOfTen k).value = 10 ^ k := by
  have hexact : ∀ k ≤ 22,
      (powerOfTen k).magnitude.1 = 10 ^ k * (powerOfTen k).magnitude.2 := by
    decide +kernel
  have hden : ((powerOfTen k).magnitude.2 : ℚ) ≠ 0 :=
    Nat.cast_ne_zero.mpr (powerOfTen k).magnitude_pos.ne'
  rw [value, div_eq_iff hden, hexact k hk, Nat.cast_mul, Nat.cast_pow, Nat.cast_ofNat]

/-- How often a power of ten is rounded. -/
def powerRoundings (k : ℕ) : ℕ :=
  if k ≤ 22 then 0 else 1

theorem drift_powerOfTen {k : ℕ} (hk : k ≤ largestStep) :
    Drift (powerRoundings k) (10 ^ k) (powerOfTen k).value := by
  unfold powerRoundings
  split
  · rename_i hexact
    rw [powerOfTen_value_eq hexact]
    exact .refl _
  · have hsmall : 10 ^ k < overflow :=
      (Nat.pow_le_pow_right (by decide) hk).trans_lt ten_pow_bounds.2.1
    have hdrift := drift_ofNat (a := 10 ^ k) (Nat.pow_pos (by decide)) hsmall
    rwa [Nat.cast_pow, Nat.cast_ofNat] at hdrift

/-! ### The digits that are gathered -/

theorem le_foldl_digits (n : ℕ) (s : List Char) :
    n ≤ s.foldl (fun n c => 10 * n + (c.toNat - '0'.toNat)) n := by
  induction s generalizing n with
  | nil => exact le_rfl
  | cons c s ih =>
      have hnext := ih (10 * n + (c.toNat - '0'.toNat))
      rw [List.foldl_cons]
      omega

/-- Digits of a number below 2 ^ 64 are all gathered. -/
theorem gather_eq {n : ℕ} {s : List Char}
    (h : s.foldl (fun n c => 10 * n + (c.toNat - '0'.toNat)) n < UInt64.size) :
    gather n s = (s.foldl (fun n c => 10 * n + (c.toNat - '0'.toNat)) n, []) := by
  induction s generalizing n with
  | nil => rfl
  | cons c s ih =>
      have hnext := le_foldl_digits (10 * n + (c.toNat - '0'.toNat)) s
      rw [gather, if_pos (hnext.trans_lt h)]
      exact ih h

theorem gathered_eq {whole fraction : List Char}
    (h : natOfDigits (whole ++ fraction) < UInt64.size) :
    gathered whole fraction = ⟨natOfDigits (whole ++ fraction), -fraction.length⟩ := by
  rw [natOfDigits, List.foldl_append] at h
  have hwhole := gather_eq ((le_foldl_digits _ fraction).trans_lt h)
  rw [gathered, hwhole]
  dsimp only
  rw [gather_eq h, natOfDigits, List.foldl_append]
  simp

/-! ### Scaling -/

/-- How often a reading of the decimal is rounded before the last time: once for digits that are no
number, and once for a power of ten that is none; below 10 ^ -308 there are two powers, and the
first quotient is rounded as well. -/
def roundings (d : Scientific) : ℕ :=
  (if d.digits < 2 ^ 53 then 0 else 1) +
    if d.power.natAbs ≤ largestStep then powerRoundings d.power.natAbs
    else 2 + powerRoundings (d.power.natAbs - largestStep)

theorem roundings_le (d : Scientific) : roundings d ≤ 4 := by
  unfold roundings powerRoundings
  split <;> split <;> split <;> decide

/-- What is read has at most twenty digits and is not beyond the numbers. -/
structure Readable (d : Scientific) (i : ℕ) : Prop where
  pos : 0 < d.digits
  lt : d.digits < UInt64.size
  roundsTo : RoundsTo d.value i
  place_pos : 0 < i
  finite : i + 4 < 2047 * 2 ^ 52

variable {d : Scientific} {i : ℕ}

theorem Readable.lt_overflow (h : Readable d i) : d.digits < overflow :=
  (h.lt.trans (by decide)).trans ten_pow_bounds.1

theorem drift_digits (h : Readable d i) :
    Drift (if d.digits < 2 ^ 53 then 0 else 1) d.digits (ofNat d.digits).value := by
  split
  · rename_i hexact
    rw [ofNat_value_eq h.pos hexact]
    exact .refl _
  · exact drift_ofNat h.pos h.lt_overflow

theorem Scientific.value_nonneg (d : Scientific) : 0 ≤ d.value := by
  unfold Scientific.value
  positivity

theorem ten_pow_pos (k : ℕ) : (0 : ℚ) < 10 ^ k := by
  positivity

theorem value_of_nonneg {k : ℕ} (hk : d.power = k) : d.value = d.digits * 10 ^ k := by
  rw [Scientific.value, hk, zpow_natCast]

theorem value_of_neg {k : ℕ} (hk : d.power = -k) : d.value = d.digits / 10 ^ k := by
  rw [Scientific.value, hk, zpow_neg, zpow_natCast, div_eq_mul_inv]

theorem lt_of_ten_pow_lt {a b : ℕ} (h : 10 ^ a < 10 ^ b) : a < b :=
  (Nat.pow_lt_pow_iff_right (by decide)).mp h

/-- No power of ten leads beyond the numbers. -/
theorem power_le (h : Readable d i) {k : ℕ} (hk : d.power = k) : k ≤ largestStep := by
  have hle := h.roundsTo.le
  rw [inUnits, value_of_nonneg hk] at hle
  have hvalue : 2 * (d.digits * 10 ^ k * units) ≤ 2 * atPlace i + step i := by exact_mod_cast hle
  have hbound : d.digits * 10 ^ k * units ≤ atPlace i + step i := by omega
  have hlast : atPlace i + step i ≤ atPlace (2047 * 2 ^ 52) := by
    rw [← atPlace_succ]
    exact atPlace_strictMono.monotone (by have := h.finite; omega)
  have hone := Nat.mul_le_mul_right units (Nat.le_mul_of_pos_left (10 ^ k) h.pos)
  have hbeyond : atPlace (2047 * 2 ^ 52) < 10 ^ (largestStep + 1) * units :=
    ten_pow_bounds.2.2.2.1
  have hpower : 10 ^ k < 10 ^ (largestStep + 1) :=
    Nat.lt_of_mul_lt_mul_right (((hone.trans hbound).trans hlast).trans_lt hbeyond)
  have hlt : k < largestStep + 1 := lt_of_ten_pow_lt hpower
  exact Nat.lt_succ_iff.mp hlt

/-- What is divided by a power of ten is not below half of the smallest number. -/
theorem pow_le (h : Readable d i) {k : ℕ} (hk : d.power = -k) : 10 ^ k ≤ 2 * d.digits * units := by
  have hge := h.roundsTo.ge (i - 1) (by have := h.place_pos; omega)
  have hstep : (1 : ℚ) ≤ step (i - 1) := by exact_mod_cast step_pos (i - 1)
  have hplace : (0 : ℚ) ≤ atPlace (i - 1) := by positivity
  have hvalue : 1 ≤ 2 * inUnits d.value := by linarith
  rw [inUnits, value_of_neg hk, div_mul_eq_mul_div, ← mul_div_assoc, le_div_iff₀ (by positivity),
    one_mul, ← mul_assoc] at hvalue
  exact_mod_cast hvalue

theorem powerOfTen_value_pos {k : ℕ} (hk : k ≤ largestStep) : 0 < (powerOfTen k).value := by
  have hdrift := (drift_powerOfTen hk).le
  have hten : (0 : ℚ) < 10 ^ k := by positivity
  exact pos_of_mul_pos_left (hten.trans_le hdrift) (pow_nonneg ratio_pos.le _)

theorem digits_value_pos (h : Readable d i) : 0 < (ofNat d.digits).value := by
  have hdigits : (0 : ℚ) < d.digits := by exact_mod_cast h.pos
  exact pos_of_mul_pos_left (hdigits.trans_le (drift_digits h).le) (pow_nonneg ratio_pos.le _)

theorem isZero_eq_false {x : Binary64} (h : 0 < x.value) : x.isZero = false := by
  by_contra hzero
  rw [Bool.not_eq_false, isZero, Bool.and_eq_true, beq_iff_eq, beq_iff_eq] at hzero
  have hsignificand : x.significand = 0 := by
    rw [significand, if_pos hzero.1, hzero.2]
  rw [value_eq_significand, hsignificand, Nat.cast_zero, zero_mul] at h
  exact lt_irrefl _ h

/-- With one power of ten there are two roundings at most before the last one. -/
theorem near_mul_powerOfTen (h : Readable d i) {k : ℕ} (hk : d.power = k) :
    Near (roundings d) i ((ofNat d.digits).mul (powerOfTen k)) := by
  have hstep := power_le h hk
  have hroundings : roundings d = (if d.digits < 2 ^ 53 then 0 else 1) + powerRoundings k := by
    rw [roundings, hk, Int.natAbs_natCast, if_pos hstep]
  have hdrift := (drift_digits h).mul (Nat.cast_nonneg _) (value_nonneg _) (ten_pow_pos k).le
    (value_nonneg _) (drift_powerOfTen hstep)
  rw [← value_of_nonneg hk, ← hroundings] at hdrift
  have hfinite := h.finite
  have hle := roundings_le d
  exact near_mul d.value_nonneg h.roundsTo hdrift (by omega)

theorem near_div_powerOfTen (h : Readable d i) {k : ℕ} (hk : d.power = -k)
    (hstep : k ≤ largestStep) :
    Near (roundings d) i ((ofNat d.digits).div (powerOfTen k)) := by
  have hroundings : roundings d = (if d.digits < 2 ^ 53 then 0 else 1) + powerRoundings k := by
    rw [roundings, hk, Int.natAbs_neg, Int.natAbs_natCast, if_pos hstep]
  have hdrift := (drift_digits h).div (Nat.cast_nonneg _) (value_nonneg _) (ten_pow_pos k)
    (powerOfTen_value_pos hstep) (drift_powerOfTen hstep)
  rw [← value_of_neg hk, ← hroundings] at hdrift
  have hfinite := h.finite
  have hle := roundings_le d
  exact near_div (powerOfTen_value_pos hstep) d.value_nonneg h.roundsTo hdrift (by omega)

/-- Divided by the largest power of ten, one and two become subnormal, and stay exact enough. -/
theorem div_div_eq {a j : ℕ} (hpos : 0 < a) (ha : a < 3) (hj : j < 18) :
    ((ofNat a).div (powerOfTen largestStep)).div (powerOfTen j) =
      ofQuotient false a (10 ^ (largestStep + j)) := by
  have hall : ∀ a < 3, 0 < a → ∀ j < 18,
      ((ofNat a).div (powerOfTen largestStep)).div (powerOfTen j) =
        ofQuotient false a (10 ^ (largestStep + j)) := by
    decide +kernel
  exact hall a ha hpos j hj

/-- After one rounding, three or more is not below five halves, and what is not below ten is not
below one. -/
theorem bounds_of_drift {a b n t : ℚ} (hn : 3 ≤ n) (hlt : n ≤ 2 ^ 64) (ht : 10 ≤ t)
    (ha : Drift 1 n a) (hb : Drift 1 t b) :
    5 / 2 ≤ a ∧ a ≤ 2 ^ 65 ∧ 1 ≤ b ∧ b ≤ 25 / 24 * t := by
  have hratio : ratio ≤ 25 / 24 := by norm_num [ratio]
  have hpos := ratio_pos
  obtain ⟨hna, han⟩ := ha
  obtain ⟨htb, hbt⟩ := hb
  rw [pow_one] at hna han htb hbt
  have han' := han.trans (mul_le_mul_of_nonneg_left hratio (by linarith))
  have hbt' := hbt.trans (mul_le_mul_of_nonneg_left hratio (by linarith))
  refine ⟨?_, by linarith, ?_, by linarith⟩
  · by_contra! hlow
    have hmul := (mul_le_mul_of_nonneg_right hlow.le hpos.le).trans
      (mul_le_mul_of_nonneg_left hratio (by norm_num))
    linarith
  · by_contra! hlow
    have hmul := (mul_le_mul_of_nonneg_right hlow.le hpos.le).trans
      (mul_le_mul_of_nonneg_left hratio zero_le_one)
    linarith

/-- Any other digits divided by the largest power of ten are a normal number after one rounding. -/
theorem drift_div_largest (h : Readable d i) (hdigits : 3 ≤ d.digits) :
    Drift 1 ((ofNat d.digits).value / (powerOfTen largestStep).value)
      ((ofNat d.digits).div (powerOfTen largestStep)).value := by
  have hpos := powerOfTen_value_pos (le_refl largestStep)
  have hden := Nat.mul_pos (ofNat d.digits).magnitude_pos
    ((powerOfTen largestStep).value_pos_iff.mp hpos)
  obtain ⟨hlow, hhigh, hone, hten⟩ := bounds_of_drift (by exact_mod_cast hdigits)
    (by exact_mod_cast h.lt.le) (le_self_pow₀ (by norm_num) (by decide))
    (drift_ofNat h.pos h.lt_overflow) (drift_powerOfTen (le_refl largestStep))
  have hunits : (5 * 2 ^ 52 * 10 ^ largestStep : ℚ) ≤ 12 * units := by
    have hunits : 5 * 2 ^ 52 * 10 ^ largestStep ≤ 12 * units := ten_pow_bounds.2.2.1
    exact_mod_cast hunits
  have hoverflow : (2 ^ 65 : ℚ) < overflow := by
    have hoverflow : 2 ^ 65 < overflow := ten_pow_bounds.1
    exact_mod_cast hoverflow
  have hquotient := @quotient_eq (ofNat d.digits) (powerOfTen largestStep)
  unfold Binary64.div
  rw [← hquotient]
  refine drift_ofQuotient hden ((isFinite_ofQuotient_iff false hden).mpr ?_) ?_
  · rw [← quotient_lt_overflow_iff hden, hquotient]
    exact ((div_le_self (value_nonneg _) hone).trans hhigh).trans_lt hoverflow
  · rw [hquotient, inUnits, div_mul_eq_mul_div, le_div_iff₀ hpos]
    calc 2 ^ 52 * (powerOfTen largestStep).value
        ≤ 2 ^ 52 * (25 / 24 * 10 ^ largestStep) := mul_le_mul_of_nonneg_left hten (by norm_num)
      _ = 5 / 24 * (5 * 2 ^ 52 * 10 ^ largestStep) := by ring
      _ ≤ 5 / 24 * (12 * units) := mul_le_mul_of_nonneg_left hunits (by norm_num)
      _ = 5 / 2 * units := by ring
      _ ≤ (ofNat d.digits).value * units := mul_le_mul_of_nonneg_right hlow units_pos.le

/-- No power of ten leads far below the numbers. -/
theorem neg_power_lt (h : Readable d i) {k : ℕ} (hk : d.power = -k) : k < largestStep + 37 := by
  have hsize : 2 * d.digits * units ≤ 2 * UInt64.size * units :=
    Nat.mul_le_mul_right _ (Nat.mul_le_mul_left _ h.lt.le)
  have hbeyond : 2 * UInt64.size * units < 10 ^ (largestStep + 37) := ten_pow_bounds.2.2.2.2.2
  have hpower : 10 ^ k < 10 ^ (largestStep + 37) := ((pow_le h hk).trans hsize).trans_lt hbeyond
  exact lt_of_ten_pow_lt hpower

theorem near_div_div (h : Readable d i) {k : ℕ} (hk : d.power = -k) (hstep : largestStep < k) :
    Near (roundings d) i
      (((ofNat d.digits).div (powerOfTen largestStep)).div (powerOfTen (k - largestStep))) := by
  have hpow := pow_le h hk
  have hfinite := h.finite
  have hle := roundings_le d
  obtain ⟨j, rfl⟩ : ∃ j, k = largestStep + j := ⟨k - largestStep, by omega⟩
  rw [Nat.add_sub_cancel_left]
  rcases Nat.lt_or_ge d.digits 3 with hsmall | hlarge
  · have hfour : 2 * d.digits * units ≤ 4 * units := Nat.mul_le_mul_right _ (by omega)
    have hbeyond : 4 * units < 10 ^ (largestStep + 18) := ten_pow_bounds.2.2.2.2.1
    have hpower : 10 ^ (largestStep + j) < 10 ^ (largestStep + 18) :=
      (hpow.trans hfour).trans_lt hbeyond
    have hj : j < 18 := Nat.lt_of_add_lt_add_left (lt_of_ten_pow_lt hpower)
    rw [div_div_eq h.pos hsmall hj]
    refine (near_ofQuotient (n := 0) (Nat.pow_pos (by decide)) d.value_nonneg h.roundsTo ?_
      (by omega)).mono
      (Nat.zero_le _)
    rw [value_of_neg hk, Nat.cast_pow, Nat.cast_ofNat]
    exact .refl _
  · have hj : j < 37 := Nat.lt_of_add_lt_add_left (neg_power_lt h hk)
    have hj : j ≤ largestStep := hj.le.trans (by decide)
    have hroundings : roundings d =
        (if d.digits < 2 ^ 53 then 0 else 1) + powerRoundings largestStep + 1 +
          powerRoundings j := by
      have hbelow : ¬largestStep + j ≤ largestStep := by omega
      rw [roundings, hk, Int.natAbs_neg, Int.natAbs_natCast, if_neg hbelow,
        Nat.add_sub_cancel_left, show powerRoundings largestStep = 1 from rfl, Nat.add_assoc,
        Nat.add_assoc, ← Nat.add_assoc 1 1]
    have hfirst := (drift_digits h).div (Nat.cast_nonneg _) (value_nonneg _)
      (ten_pow_pos largestStep) (powerOfTen_value_pos (le_refl largestStep))
      (drift_powerOfTen (le_refl largestStep))
    have hquotient : 0 ≤ (d.digits / 10 ^ largestStep : ℚ) :=
      div_nonneg (Nat.cast_nonneg _) (ten_pow_pos largestStep).le
    have hdrift := (hfirst.trans (drift_div_largest h hlarge)).div hquotient (value_nonneg _)
      (ten_pow_pos j) (powerOfTen_value_pos hj) (drift_powerOfTen hj)
    rw [← hroundings, div_div, ← pow_add, ← value_of_neg hk] at hdrift
    exact near_div (powerOfTen_value_pos hj) d.value_nonneg h.roundsTo hdrift (by omega)

/-- The reading of a decimal ends near the number that is nearest to it. -/
theorem near_scaled? (h : Readable d i) {fuel : ℕ} (hfuel : 2 ≤ fuel) :
    ∃ y, scaled? fuel (ofNat d.digits) d.power = some y ∧ Near (roundings d) i y := by
  obtain ⟨fuel, rfl⟩ : ∃ n, fuel = n + 2 := ⟨fuel - 2, by omega⟩
  rcases lt_or_ge d.power 0 with hneg | hnonneg
  · obtain ⟨k, hk⟩ : ∃ k : ℕ, d.power = -k := ⟨d.power.natAbs, by omega⟩
    have habs : d.power.natAbs = k := by omega
    rcases Nat.lt_or_ge largestStep k with hfar | hstep
    · -- Two divisions, the first one by the largest power.
      refine ⟨_, ?_, near_div_div h hk hfar⟩
      have hrest : (d.power + largestStep).natAbs = k - largestStep := by omega
      have hlast : (d.power + largestStep).natAbs ≤ largestStep := by
        have hlt : k < largestStep + 37 := neg_power_lt h hk
        have hlargest : 37 ≤ largestStep := by decide
        omega
      rw [scaled?, if_neg (by omega), isZero_eq_false (digits_value_pos h),
        if_neg Bool.false_ne_true, if_neg (by omega), scaled?, if_pos hlast, if_neg (by omega),
        hrest]
    · refine ⟨_, ?_, near_div_powerOfTen h hk hstep⟩
      rw [scaled?, if_pos (by omega), if_neg (by omega), habs]
  · obtain ⟨k, hk⟩ : ∃ k : ℕ, d.power = k := ⟨d.power.natAbs, by omega⟩
    have hnear := near_mul_powerOfTen h hk
    refine ⟨_, ?_, hnear⟩
    have hstep : (k : ℤ).natAbs ≤ largestStep := power_le h hk
    rw [scaled?, hk, if_pos hstep, if_pos (Int.natCast_nonneg k)]
    exact if_pos hnear.finite

end Decimal

end Relational
