import Relational.Proofs.Decimal.Stepwise
import Relational.Proofs.Json.Numbers
/-
How near a floating-point number comes back that is written as JSON and read again.

What is written is the shortest decimal, and that is rounded to the number.  It has at most
eighteen digits, so all of them are read, and no power of ten is out of reach.  What remains are the
roundings of the stepwise reading.
-/
namespace Relational

open Decimal Binary64

namespace JsonNumber

/-! ### The decimal that is read -/

/-- The power of ten that goes with all the digits. -/
def power (n : JsonNumber) : ℤ :=
  (match n.exponent with
    | none => 0
    | some (negative, digits) =>
      if negative then -(natOfDigits digits : ℤ) else natOfDigits digits) - n.fraction.length

/-- The decimal without its sign. -/
def decimal (n : JsonNumber) : Scientific :=
  ⟨natOfDigits (n.whole ++ n.fraction), n.power⟩

theorem binary64?_eq {n : JsonNumber} (hdigits : n.decimal.digits < UInt64.size)
    (hexponent : ∀ negative digits, n.exponent = some (negative, digits) →
      natOfDigits digits ≤ exponentLimit) :
    n.binary64? = (scaled? (n.decimal.power.natAbs / largestStep + 2) (ofNat n.decimal.digits)
      n.decimal.power).map fun x => if n.negative then x.neg else x := by
  unfold binary64? stepwise?
  rw [gathered_eq hdigits]
  unfold decimal power
  rcases hparts : n.exponent with _ | ⟨negative, digits⟩
  · simp
  · dsimp only
    rw [if_neg (Nat.not_lt.mpr (hexponent negative digits hparts)), neg_add_eq_sub]

/-- A decimal within reach is read as a number near the one it is rounded to. -/
theorem exists_binary64? {n : JsonNumber} {i : ℕ} (h : Readable n.decimal i)
    (hexponent : ∀ negative digits, n.exponent = some (negative, digits) →
      natOfDigits digits ≤ exponentLimit) :
    ∃ y, n.binary64? = some y ∧ y.isFinite = true ∧ y.isNegative = n.negative ∧
      i ≤ y.place + roundings n.decimal ∧ y.place ≤ i + roundings n.decimal := by
  obtain ⟨y, hscaled, hnear⟩ := near_scaled? h (Nat.le_add_left 2 _)
  rw [binary64?_eq h.lt hexponent, hscaled, Option.map_some]
  cases n.negative with
  | false => exact ⟨y, rfl, hnear.finite, hnear.positive, hnear.ge, hnear.le⟩
  | true =>
      refine ⟨y.neg, rfl, ?_, ?_, ?_, ?_⟩
      · rw [isFinite_neg, hnear.finite]
      · rw [isNegative_neg, hnear.positive, Bool.not_false]
      · rw [place_neg]
        exact hnear.ge
      · rw [place_neg]
        exact hnear.le

end JsonNumber

namespace Json

/-! ### The decimal that is written -/

variable {x : Binary64} {d : Scientific}

/-- Laid out with a point or an exponent a decimal stays what it is; a whole number gets zeros up
to behind the point. -/
theorem decimal_laidOut (negative : Bool) (d : Scientific) :
    (laidOut negative d).decimal = d ∨
      ∃ k : ℕ, d.power = k ∧ (digitsOf d.digits).length + k ≤ 16 ∧
        (laidOut negative d).decimal = ⟨d.digits * 10 ^ (k + 1), -1⟩ := by
  have hlength := List.length_pos_iff.mpr (digitsOf_ne_nil d.digits)
  have hsame {power : ℤ} (hpower : power = d.power) : (⟨d.digits, power⟩ : Scientific) = d := by
    rw [hpower]
  unfold laidOut JsonNumber.decimal JsonNumber.power
  dsimp only
  split
  · rename_i hwhole
    obtain ⟨k, hk⟩ : ∃ k : ℕ, d.power = k := ⟨d.power.toNat, by omega⟩
    refine .inr ⟨k, hk, by omega, ?_⟩
    dsimp only
    rw [hk, Int.toNat_natCast, natOfDigits_append, natOfDigits_append, natOfDigits_zeros,
      natOfDigits_digitsOf, zeros, List.length_replicate, Nat.add_zero, Nat.mul_assoc,
      List.length_singleton, ← Nat.pow_add]
    rfl
  · split
    · split
      · dsimp only
        rw [List.take_append_drop, natOfDigits_digitsOf, List.length_drop]
        exact .inl (hsame (by omega))
      · dsimp only
        rw [natOfDigits_append, natOfDigits_append, natOfDigits_zeros, natOfDigits_digitsOf,
          List.length_append, zeros, List.length_replicate, Nat.zero_mul, Nat.zero_add,
          show natOfDigits ['0'] = 0 from rfl, Nat.zero_mul, Nat.zero_add]
        exact .inl (hsame (by push_cast; omega))
    · dsimp only
      rw [List.take_append_drop, natOfDigits_digitsOf, natOfDigits_digitsOf, List.length_drop]
      refine .inl (hsame ?_)
      by_cases hexponent : (digitsOf d.digits).length + d.power - 1 < 0
      · rw [decide_eq_true hexponent, if_pos rfl]
        omega
      · rw [decide_eq_false hexponent, if_neg Bool.false_ne_true]
        omega

theorem natOfDigits_exponent_laidOut {negative sign : Bool} {digits : List Char}
    (h : (laidOut negative d).exponent = some (sign, digits)) :
    natOfDigits digits = ((digitsOf d.digits).length + d.power - 1).natAbs := by
  unfold laidOut at h
  dsimp only at h
  split at h
  · cases h
  · split at h
    · split at h
      · cases h
      · cases h
    · cases h
      exact natOfDigits_digitsOf _

theorem value_laidOut (negative : Bool) (d : Scientific) :
    (laidOut negative d).decimal.value = d.value := by
  rcases decimal_laidOut negative d with hsame | ⟨k, hk, -, hzeros⟩
  · rw [hsame]
  · rw [hzeros, Scientific.value, value_of_nonneg hk]
    push_cast
    rw [zpow_neg_one, pow_succ]
    field_simp

/-- The decimal of a number that is not among the last few is within reach. -/
theorem readable_shortest (hzero : x.isZero = false) (hfinite : x.place + 4 < 2047 * 2 ^ 52) :
    Readable (shortest .toEven x) x.place := by
  have h : Denotes x (shortest .toEven x) := denotes_shortest .toEven (significand_pos hzero)
  have hplace : x.place ≠ 0 := by
    rw [Ne, place_eq_zero_iff, hzero]
    exact Bool.false_ne_true
  exact ⟨h.pos, h.le.trans_lt (by decide), h.roundsTo, Nat.pos_of_ne_zero hplace, hfinite⟩

/-- It stays so with the zeros it gets. -/
theorem readable_laidOut (negative : Bool) (hzero : x.isZero = false)
    (hfinite : x.place + 4 < 2047 * 2 ^ 52) :
    Readable (laidOut negative (shortest .toEven x)).decimal x.place := by
  have h := readable_shortest hzero hfinite
  rcases decimal_laidOut negative (shortest .toEven x) with hsame | ⟨k, -, hlength, hzeros⟩
  · rwa [hsame]
  · have hround := h.roundsTo
    rw [← value_laidOut negative] at hround
    refine ⟨?_, ?_, hround, h.place_pos, hfinite⟩
    · rw [hzeros]
      exact Nat.mul_pos h.pos (Nat.pow_pos (by decide))
    · rw [hzeros]
      have hdigits : (shortest .toEven x).digits <
          10 ^ (digitsOf (shortest .toEven x).digits).length := lt_pow_digitCount _
      generalize (digitsOf (shortest .toEven x).digits).length = c at *
      calc (shortest .toEven x).digits * 10 ^ (k + 1) < 10 ^ c * 10 ^ (k + 1) :=
            Nat.mul_lt_mul_of_pos_right hdigits (Nat.pow_pos (by decide))
        _ = 10 ^ (c + (k + 1)) := (Nat.pow_add _ _ _).symm
        _ ≤ 10 ^ 17 := Nat.pow_le_pow_right (by decide) (by omega)
        _ < UInt64.size := by decide

/-- Its exponent is small. -/
theorem exponent_laidOut_le {negative sign : Bool} {digits : List Char} (hzero : x.isZero = false)
    (hfinite : x.place + 4 < 2047 * 2 ^ 52)
    (h : (laidOut negative (shortest .toEven x)).exponent = some (sign, digits)) :
    natOfDigits digits ≤ exponentLimit := by
  have hreadable := readable_shortest hzero hfinite
  have hlength : (digitsOf (shortest .toEven x).digits).length ≤ 20 :=
    (Nat.length_toDigits_le_iff (by decide) (by decide)).mpr
      (hreadable.lt.trans (by decide))
  have hpower : (shortest .toEven x).power.natAbs ≤ 400 := by
    rcases (shortest .toEven x).power.eq_nat_or_neg with ⟨k, hk | hk⟩
    · rw [hk, Int.natAbs_natCast]
      exact (power_le hreadable hk).trans (by decide)
    · rw [hk, Int.natAbs_neg, Int.natAbs_natCast]
      exact (neg_power_lt hreadable hk).le.trans (by decide)
  have hlimit : 420 ≤ exponentLimit := by decide
  rw [natOfDigits_exponent_laidOut h]
  omega

/-- No zero too many stands in front. -/
theorem padded_laidOut (negative : Bool) (hpos : 0 < d.digits) :
    (laidOut negative d).padded = false := by
  have hhead := digitsOf_head?_ne hpos
  obtain ⟨c, digits, hcons⟩ := List.exists_cons_of_ne_nil (digitsOf_ne_nil d.digits)
  rw [hcons, List.head?_cons] at hhead
  have hlead : (some c == some '0') = false := beq_eq_false_iff_ne.mpr hhead
  unfold laidOut JsonNumber.padded
  rw [hcons]
  dsimp only
  split
  · rw [List.cons_append, List.head?_cons, hlead, Bool.false_and]
  · split
    · split
      · rename_i hpoint
        obtain ⟨k, hk⟩ : ∃ k : ℕ, ((c :: digits).length + d.power).toNat = k + 1 :=
          ⟨((c :: digits).length + d.power).toNat - 1, by omega⟩
        rw [hk, List.take_succ_cons, List.head?_cons, hlead, Bool.false_and]
      · rfl
    · rw [List.take_succ_cons, List.head?_cons, hlead, Bool.false_and]

theorem padded_floatNumber (x : Binary64) : (floatNumber x).padded = false := by
  unfold floatNumber
  split
  · rfl
  · rename_i hzero
    rw [Bool.not_eq_true] at hzero
    exact padded_laidOut _ (denotes_shortest .toEven (significand_pos hzero)).pos

/-- The first place and the last four. -/
theorem beside_ofPlace (negative : Bool) {i : ℕ} (hi : i = 0 ∨ i < 2047 * 2 ^ 52 ∧
    2047 * 2 ^ 52 ≤ i + 4) : ∃ y, (floatNumber (ofPlace negative i)).binary64? = some y ∧
      Beside (roundings (floatNumber (ofPlace negative i)).decimal) (ofPlace negative i) y := by
  have hall : ∀ negative, ∀ i ∈ [0, 2047 * 2 ^ 52 - 4, 2047 * 2 ^ 52 - 3, 2047 * 2 ^ 52 - 2,
      2047 * 2 ^ 52 - 1], ((floatNumber (ofPlace negative i)).binary64?.any fun y =>
        decide (Beside (roundings (floatNumber (ofPlace negative i)).decimal)
          (ofPlace negative i) y)) = true := by
    decide +kernel
  have hmem : i ∈ [0, 2047 * 2 ^ 52 - 4, 2047 * 2 ^ 52 - 3, 2047 * 2 ^ 52 - 2,
      2047 * 2 ^ 52 - 1] := by
    simp only [List.mem_cons, List.not_mem_nil, or_false]
    omega
  obtain ⟨y, hread, hbeside⟩ := (Option.any_eq_true _ _).mp (hall negative i hmem)
  exact ⟨y, hread, of_decide_eq_true hbeside⟩

/-- **A finite number is read as a finite number of the same sign near it**, as many places away at
most as the reading of its decimal is rounded before the last time. -/
theorem binary64?_floatNumber (hfinite : x.isFinite = true) :
    ∃ y, (floatNumber x).binary64? = some y ∧
      Beside (roundings (floatNumber x).decimal) x y := by
  by_cases hzero : x.isZero = true
  · rw [eq_ofPlace x]
    exact beside_ofPlace _ (.inl ((place_eq_zero_iff x).mpr hzero))
  · rcases Nat.lt_or_ge (x.place + 4) (2047 * 2 ^ 52) with hbelow | htop
    · rw [Bool.not_eq_true] at hzero
      have hnumber : floatNumber x = laidOut x.isNegative (shortest .toEven x) := by
        rw [floatNumber, hzero, if_neg Bool.false_ne_true]
      rw [hnumber]
      obtain ⟨y, hread, hy, hsign, hle, hge⟩ := JsonNumber.exists_binary64?
        (readable_laidOut x.isNegative hzero hbelow)
        fun _ _ h => exponent_laidOut_le hzero hbelow h
      rw [negative_laidOut] at hsign
      exact ⟨y, hread, hy, hsign, hle, hge⟩
    · rw [eq_ofPlace x]
      exact beside_ofPlace _ (.inr ⟨(isFinite_iff_place x).mp hfinite, htop⟩)

end Json

end Relational
