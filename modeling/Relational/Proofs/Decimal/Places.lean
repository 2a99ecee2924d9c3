import Relational.Proofs.Decimal.Rounding
/-
The numbers in their order, and how far rounding moves within it.

Without the sign, the bits of a finite number are its place in the order of all magnitudes.  From
one place to the next the magnitude grows by a power of two that never gets smaller again, and no
magnitude is more than 2 ^ 53 such steps.  Two things follow.  A quotient is rounded to the one
place that is no more than half a step away.  And a factor of 1 + 2 ^ -53, which is what one
rounding can change, moves the place a value is rounded to by one at most.
-/
namespace Relational.Binary64

/-! ### Magnitudes by their places -/

/-- How far the magnitude behind a place is, in units of the smallest positive one. -/
def step (i : ℕ) : ℕ :=
  2 ^ (i / 2 ^ 52 - 1)

/-- The magnitude at a place, in units of the smallest positive one. -/
def atPlace (i : ℕ) : ℕ :=
  (i - (i / 2 ^ 52 - 1) * 2 ^ 52) * step i

theorem step_pos (i : ℕ) : 0 < step i :=
  Nat.two_pow_pos _

theorem step_pack {e m : ℕ} (hm : m < 2 ^ 53) (hnormal : e = 0 ∨ 2 ^ 52 ≤ m) :
    step (e * 2 ^ 52 + m) = 2 ^ e := by
  have hexponent : (e * 2 ^ 52 + m) / 2 ^ 52 - 1 = e := by omega
  rw [step, hexponent]

theorem atPlace_pack {e m : ℕ} (hm : m ≤ 2 ^ 53) (hnormal : e = 0 ∨ 2 ^ 52 ≤ m) :
    atPlace (e * 2 ^ 52 + m) = m * 2 ^ e := by
  rcases Nat.lt_or_eq_of_le hm with hlt | rfl
  · have hexponent : (e * 2 ^ 52 + m) / 2 ^ 52 - 1 = e := by omega
    rw [atPlace, step_pack hlt hnormal, hexponent, Nat.add_sub_cancel_left]
  · have hcarry : e * 2 ^ 52 + 2 ^ 53 = (e + 1) * 2 ^ 52 + 2 ^ 52 := by omega
    have hexponent : ((e + 1) * 2 ^ 52 + 2 ^ 52) / 2 ^ 52 - 1 = e + 1 := by omega
    rw [hcarry, atPlace, step_pack (by decide) (.inr le_rfl), hexponent, Nat.add_sub_cancel_left,
      Nat.pow_succ]
    omega

/-- Every place is that of a significand and an exponent. -/
theorem exists_pack (i : ℕ) : ∃ e m, i = e * 2 ^ 52 + m ∧ m < 2 ^ 53 ∧ (e = 0 ∨ 2 ^ 52 ≤ m) :=
  ⟨i / 2 ^ 52 - 1, i - (i / 2 ^ 52 - 1) * 2 ^ 52, by omega, by omega, by omega⟩

theorem atPlace_succ (i : ℕ) : atPlace (i + 1) = atPlace i + step i := by
  obtain ⟨e, m, rfl, hm, hnormal⟩ := exists_pack i
  rw [Nat.add_assoc, atPlace_pack hm (by omega), atPlace_pack hm.le hnormal, step_pack hm hnormal,
    Nat.succ_mul]

theorem step_mono {i j : ℕ} (h : i ≤ j) : step i ≤ step j :=
  Nat.pow_le_pow_right (by decide) (by omega)

/-- No magnitude is more than 2 ^ 53 of the steps before it. -/
theorem atPlace_succ_le (i : ℕ) : atPlace (i + 1) ≤ 2 ^ 53 * step i := by
  obtain ⟨e, m, rfl, hm, hnormal⟩ := exists_pack i
  rw [Nat.add_assoc, atPlace_pack hm (by omega), step_pack hm hnormal]
  exact Nat.mul_le_mul_right _ hm

/-- From the smallest normal number on, no magnitude is less than 2 ^ 52 steps. -/
theorem le_atPlace {i : ℕ} (h : 2 ^ 52 ≤ i) : 2 ^ 52 * step i ≤ atPlace i := by
  obtain ⟨e, m, rfl, hm, hnormal⟩ := exists_pack i
  rw [atPlace_pack hm.le hnormal, step_pack hm hnormal]
  exact Nat.mul_le_mul_right _ (by omega)

theorem atPlace_strictMono : StrictMono atPlace := by
  refine strictMono_nat_of_lt_succ fun i => ?_
  rw [atPlace_succ]
  exact Nat.lt_add_of_pos_right (step_pos i)

/-! ### The place that a value is rounded to -/

/-- The number of units in one. -/
def units : ℕ :=
  2 ^ 1074

theorem two_pow_mul_two_pow {a b : ℕ} (h : a + b = 1074) : 2 ^ a * 2 ^ b = units :=
  (Nat.pow_add 2 a b).symm.trans (congrArg (2 ^ ·) h)

theorem two_pow_le_units {k : ℕ} (h : k ≤ 1074) : 2 ^ k ≤ units := by
  obtain ⟨j, hj⟩ := Nat.exists_eq_add_of_le h
  rw [← two_pow_mul_two_pow hj.symm]
  exact Nat.le_mul_of_pos_right _ (Nat.two_pow_pos j)

theorem cast_two_pow (k : ℕ) : ((2 ^ k : ℕ) : ℚ) = 2 ^ (k : ℤ) := by
  rw [Nat.cast_pow, Nat.cast_ofNat, zpow_natCast]

theorem units_eq : (units : ℚ) = 2 ^ (1074 : ℤ) :=
  cast_two_pow 1074

theorem units_pos : (0 : ℚ) < units := by
  rw [units_eq]
  positivity

/-- A value in units of the smallest positive number. -/
def inUnits (v : ℚ) : ℚ :=
  v * units

/-- The magnitude at a place. -/
def magnitudeAt (i : ℕ) : ℚ :=
  atPlace i / units

variable {v w : ℚ} {i j : ℕ}

theorem inUnits_magnitudeAt (i : ℕ) : inUnits (magnitudeAt i) = atPlace i :=
  div_mul_cancel₀ _ units_pos.ne'

theorem inUnits_le (h : v ≤ w) : inUnits v ≤ inUnits w :=
  mul_le_mul_of_nonneg_right h units_pos.le

/-- The value is no more than half a step from the magnitude at the place, and half a step only if
the place is even. -/
structure RoundsTo (v : ℚ) (i : ℕ) : Prop where
  le : 2 * inUnits v ≤ 2 * atPlace i + step i
  even_of_eq : 2 * inUnits v = 2 * atPlace i + step i → i % 2 = 0
  ge : ∀ j, i = j + 1 → 2 * atPlace j + step j ≤ 2 * inUnits v
  even_of_eq' : ∀ j, i = j + 1 → 2 * atPlace j + step j = 2 * inUnits v → i % 2 = 0

/-- Rounding keeps the order. -/
theorem RoundsTo.mono (hv : RoundsTo v i) (hw : RoundsTo w j) (h : v ≤ w) : i ≤ j := by
  by_contra hlt
  obtain ⟨k, rfl⟩ : ∃ k, i = k + 1 := ⟨i - 1, by omega⟩
  have hle := hw.le
  have hge := hv.ge k rfl
  have hunits := inUnits_le h
  have hstep : step j ≤ step k := step_mono (by omega)
  have hplace : atPlace j ≤ atPlace k := atPlace_strictMono.monotone (by omega)
  -- The only value that could go to both is half-way between them.
  have hhalf : 2 * atPlace k + step k ≤ 2 * atPlace j + step j := by
    have hhalf : (2 * atPlace k + step k : ℚ) ≤ 2 * atPlace j + step j := by linarith
    exact_mod_cast hhalf
  obtain rfl : j = k := atPlace_strictMono.injective (by omega)
  have heven := hv.even_of_eq' j rfl (by linarith)
  have heven' := hw.even_of_eq (by linarith)
  omega

theorem RoundsTo.unique (hv : RoundsTo v i) (hw : RoundsTo v j) : i = j :=
  Nat.le_antisymm (hv.mono hw le_rfl) (hw.mono hv le_rfl)

/-- A magnitude is rounded to its own place. -/
theorem roundsTo_magnitudeAt (i : ℕ) : RoundsTo (magnitudeAt i) i := by
  have hstep : (0 : ℚ) < step i := by exact_mod_cast step_pos i
  have hbefore : ∀ k, i = k + 1 → (2 * atPlace k + step k : ℚ) < 2 * inUnits (magnitudeAt i) := by
    rintro k rfl
    have hk : (0 : ℚ) < step k := by exact_mod_cast step_pos k
    rw [inUnits_magnitudeAt, atPlace_succ]
    push_cast
    linarith
  refine ⟨?_, fun h => ?_, fun k hk => (hbefore k hk).le, fun k hk h => ?_⟩
  · rw [inUnits_magnitudeAt]
    linarith
  · rw [inUnits_magnitudeAt] at h
    linarith
  · exact absurd h (hbefore k hk).ne

/-! ### Rounding a quotient -/

/-- The whole number is no more than a half away, and a half only if it is even. -/
theorem roundHalfEven_near (num : ℕ) {den : ℕ} (hden : 0 < den) :
    2 * num ≤ 2 * (roundHalfEven num den * den) + den ∧
      (2 * num = 2 * (roundHalfEven num den * den) + den → roundHalfEven num den % 2 = 0) ∧
      2 * (roundHalfEven num den * den) ≤ 2 * num + den ∧
      (2 * (roundHalfEven num den * den) = 2 * num + den → roundHalfEven num den % 2 = 0) := by
  have hdiv := Nat.div_add_mod' num den
  have hmod := Nat.mod_lt num hden
  have hnext := Nat.succ_mul (num / den) den
  unfold roundHalfEven
  dsimp only
  split
  · omega
  · split
    · rw [hnext]
      omega
    · rcases Nat.mod_two_eq_zero_or_one (num / den) with heven | hodd
      · rw [heven, Nat.add_zero]
        omega
      · rw [hodd, hnext]
        omega

/-- The same of a value in units, where the quotient has a power of two behind it. -/
theorem inUnits_near {e n d : ℕ} (hd : 0 < d) (hv : inUnits v = n / d * 2 ^ e) :
    2 * inUnits v ≤ 2 * (roundHalfEven n d * 2 ^ e) + 2 ^ e ∧
      (2 * inUnits v = 2 * (roundHalfEven n d * 2 ^ e) + 2 ^ e → roundHalfEven n d % 2 = 0) ∧
      2 * (roundHalfEven n d * 2 ^ e) ≤ 2 * inUnits v + 2 ^ e ∧
      (2 * (roundHalfEven n d * 2 ^ e) = 2 * inUnits v + 2 ^ e → roundHalfEven n d % 2 = 0) := by
  obtain ⟨hup, hupTie, hdown, hdownTie⟩ := roundHalfEven_near n hd
  generalize roundHalfEven n d = m at *
  have hd' : (0 : ℚ) < d := by exact_mod_cast hd
  obtain ⟨r, hr, hunit⟩ : ∃ r : ℚ, 0 < r ∧ (2 : ℚ) ^ e = d * r :=
    ⟨2 ^ e / d, by positivity, (mul_div_cancel₀ _ hd'.ne').symm⟩
  have hvalue : 2 * inUnits v = (2 * n : ℕ) * r := by
    rw [hv, hunit, ← mul_assoc (n / d : ℚ), div_mul_cancel₀ _ hd'.ne', Nat.cast_mul,
      Nat.cast_ofNat, mul_assoc]
  have hwhole : 2 * (m * 2 ^ e) = (2 * (m * d) : ℕ) * r := by
    rw [hunit]
    push_cast
    ring
  rw [hvalue, hwhole, hunit, ← add_mul, ← add_mul, ← Nat.cast_add, ← Nat.cast_add,
    mul_le_mul_iff_left₀ hr, mul_le_mul_iff_left₀ hr, mul_left_inj' hr.ne', mul_left_inj' hr.ne']
  norm_cast

/-- A quotient of at most 2 ^ 53, and of at least 2 ^ 52 unless its unit is the smallest one, is
rounded to the place of the whole number next to it. -/
theorem roundsTo_roundHalfEven {e n d : ℕ} (hd : 0 < d) (hv : inUnits v = n / d * 2 ^ e)
    (hhigh : n ≤ 2 ^ 53 * d) (hlow : e = 0 ∨ 2 ^ 52 * d ≤ n) :
    RoundsTo v (e * 2 ^ 52 + roundHalfEven n d) := by
  have hm : roundHalfEven n d ≤ 2 ^ 53 := roundHalfEven_le hd hhigh
  have hnormal : e = 0 ∨ 2 ^ 52 ≤ roundHalfEven n d :=
    hlow.imp_right fun h => (le_roundHalfEven_iff hd (by decide)).mpr (by omega)
  obtain ⟨hup, hupTie, hdown, hdownTie⟩ := inUnits_near hd hv
  generalize roundHalfEven n d = m at *
  have hplace : (atPlace (e * 2 ^ 52 + m) : ℚ) = m * 2 ^ e := by
    exact_mod_cast atPlace_pack hm hnormal
  -- Behind the place the step is the power of two, or the next one.
  have hbehind : m < 2 ^ 53 ∧ (step (e * 2 ^ 52 + m) : ℚ) = 2 ^ e ∨
      m = 2 ^ 53 ∧ (2 ^ e : ℚ) < step (e * 2 ^ 52 + m) := by
    rcases Nat.lt_or_eq_of_le hm with hlt | rfl
    · exact .inl ⟨hlt, by exact_mod_cast step_pack hlt hnormal⟩
    · have hexponent : (e * 2 ^ 52 + 2 ^ 53) / 2 ^ 52 - 1 = e + 1 := by omega
      refine .inr ⟨rfl, ?_⟩
      rw [step, hexponent]
      exact_mod_cast Nat.pow_lt_pow_succ (by decide)
  -- In front of it the step is the same, unless the value is not below the place.
  have hfront : ∀ j, e * 2 ^ 52 + m = j + 1 →
      (atPlace j + step j : ℚ) = m * 2 ^ e ∧
        ((step j : ℚ) = 2 ^ e ∨ m * 2 ^ e ≤ inUnits v) := by
    intro j hj
    refine ⟨by rw [← hplace, hj, atPlace_succ, Nat.cast_add], ?_⟩
    by_cases hfirst : e = 0 ∨ 2 ^ 52 < m
    · have hj' : j = e * 2 ^ 52 + (m - 1) := by omega
      rw [hj']
      exact .inl (by exact_mod_cast step_pack (by omega) (by omega))
    · have hm' : m = 2 ^ 52 := by omega
      refine .inr ?_
      have hd' : (0 : ℚ) < d := by exact_mod_cast hd
      have hn : (2 ^ 52 * d : ℚ) ≤ n := by exact_mod_cast hlow.resolve_left (by omega)
      rw [hv, mul_le_mul_iff_left₀ (by positivity), hm', le_div_iff₀ hd']
      exact_mod_cast hn
  have hpos (k : ℕ) : (0 : ℚ) < step k := by exact_mod_cast step_pos k
  refine ⟨?_, fun h => ?_, fun j hj => ?_, fun j hj h => ?_⟩
  · rw [hplace]
    rcases hbehind with ⟨-, hstep⟩ | ⟨-, hstep⟩
    · rwa [hstep]
    · linarith
  · rw [hplace] at h
    rcases hbehind with ⟨-, hstep⟩ | ⟨rfl, -⟩
    · have := hupTie (by rwa [hstep] at h)
      omega
    · omega
  · obtain ⟨hsucc, hstep | hstep⟩ := hfront j hj
    · linarith
    · linarith [hpos j]
  · obtain ⟨hsucc, hstep | hstep⟩ := hfront j hj
    · have := hdownTie (by linarith)
      omega
    · linarith [hpos j]

/-- Where a quotient is rounded to, without a bound. -/
def placeOf (num den : ℕ) : ℕ :=
  if num = 0 then 0
  else
    let (m, q) := roundTo 53 (-1074) num den
    (q + 1074).toNat * 2 ^ 52 + m

/-- A quotient is rounded to its place. -/
theorem roundsTo_placeOf {num den : ℕ} (hden : 0 < den) :
    RoundsTo (num / den) (placeOf num den) := by
  rcases Nat.eq_zero_or_pos num with rfl | hnum
  · have hzero : RoundsTo (magnitudeAt 0) 0 := roundsTo_magnitudeAt 0
    rw [magnitudeAt, show atPlace 0 = 0 from rfl, Nat.cast_zero, zero_div] at hzero
    rwa [Nat.cast_zero, zero_div]
  · obtain ⟨hlow, hhigh⟩ := floorLog2_bounds hnum hden
    rw [placeOf, if_neg hnum.ne']
    dsimp only [roundTo]
    generalize floorLog2 num den = k at hlow hhigh ⊢
    have hd : 0 < (scaleDown num den (max (k - ((53 - 1 : ℕ) : ℤ)) (-1074))).2 :=
      scaleDown_pos hden _
    have hq := scaleDown_div num den (max (k - ((53 - 1 : ℕ) : ℤ)) (-1074))
    have hcast : k - ((53 - 1 : ℕ) : ℤ) = k - 52 := rfl
    rw [hcast] at hd hq ⊢
    generalize hmax : max (k - 52) (-1074) = q at hd hq ⊢
    obtain ⟨e, he⟩ : ∃ e : ℕ, q = e - 1074 := ⟨(q + 1074).toNat, by omega⟩
    generalize (scaleDown num den q).1 = n, (scaleDown num den q).2 = d at hd hq ⊢
    have hd' : (0 : ℚ) < d := by exact_mod_cast hd
    have hvalue : (num / den : ℚ) = n / d * 2 ^ q := by
      rw [hq, div_mul_cancel₀ _ (zpow_ne_zero _ two_ne_zero)]
    have hexponent : (q + 1074).toNat = e := by omega
    rw [hexponent]
    refine roundsTo_roundHalfEven hd ?_ ?_ ?_
    · rw [inUnits, units_eq, hvalue, mul_assoc, ← zpow_add₀ two_ne_zero, he, sub_add_cancel,
        zpow_natCast]
    · have hbound : (num / den : ℚ) ≤ 2 ^ (q + 53) :=
        hhigh.le.trans (zpow_le_zpow_right₀ one_le_two (by omega))
      rw [hvalue, add_comm q, zpow_add₀ two_ne_zero, mul_le_mul_iff_left₀ (by positivity),
        div_le_iff₀ hd'] at hbound
      exact_mod_cast hbound
    · rcases Nat.eq_zero_or_pos e with rfl | hpos
      · exact .inl rfl
      · have hbound : (2 : ℚ) ^ (q + 52) ≤ num / den :=
          (zpow_le_zpow_right₀ one_le_two (by omega)).trans hlow
        rw [hvalue, add_comm q, zpow_add₀ two_ne_zero, mul_le_mul_iff_left₀ (by positivity),
          le_div_iff₀ hd'] at hbound
        exact .inr (by exact_mod_cast hbound)

theorem exists_roundsTo (h : 0 ≤ v) : ∃ i, RoundsTo v i := by
  refine ⟨placeOf v.num.toNat v.den, ?_⟩
  have hquotient : RoundsTo (v.num.toNat / v.den) (placeOf v.num.toNat v.den) :=
    roundsTo_placeOf v.den_pos
  have hnum : ((v.num.toNat : ℕ) : ℚ) = v.num := by
    exact_mod_cast Int.toNat_of_nonneg (Rat.num_nonneg.mpr h)
  rwa [hnum, Rat.num_div_den] at hquotient

/-! ### What roundings can change -/

/-- The factor that one rounding changes a value by at most. -/
def ratio : ℚ :=
  (2 ^ 53 + 1) / 2 ^ 53

theorem ratio_pos : 0 < ratio := by
  unfold ratio
  positivity

/-- That factor moves a value by a place at most. -/
theorem RoundsTo.le_succ_of_ratio (hv : RoundsTo v i) (hw : RoundsTo (v * ratio) j) : j ≤ i + 1 := by
  by_contra hlt
  obtain ⟨k, rfl⟩ : ∃ k, j = k + 1 := ⟨j - 1, by omega⟩
  have hle := hv.le
  have hge := hw.ge k rfl
  have hscaled : 2 ^ 53 * inUnits (v * ratio) = (2 ^ 53 + 1) * inUnits v := by
    unfold inUnits ratio
    ring
  -- Beyond the next place there are one and a half more steps to go.
  have hfar : 2 * atPlace i + 3 * step i ≤ 2 * atPlace k + step k := by
    have hplace : atPlace (i + 1) ≤ atPlace k := atPlace_strictMono.monotone (by omega)
    have hstep : step i ≤ step k := step_mono (by omega)
    rw [atPlace_succ] at hplace
    omega
  have hfar' : (2 * atPlace i + 3 * step i : ℚ) ≤ 2 * atPlace k + step k := by exact_mod_cast hfar
  have hnear : (atPlace i + step i : ℚ) ≤ 2 ^ 53 * step i := by
    have hnear := atPlace_succ_le i
    rw [atPlace_succ] at hnear
    exact_mod_cast hnear
  have hpos : (0 : ℚ) < step i := by exact_mod_cast step_pos i
  linarith

theorem RoundsTo.le_add_of_ratio (n : ℕ) (hnonneg : 0 ≤ v) (hv : RoundsTo v i)
    (hw : RoundsTo (v * ratio ^ n) j) : j ≤ i + n := by
  induction n generalizing j with
  | zero =>
      rw [pow_zero, mul_one] at hw
      exact (hw.unique hv).le
  | succ n ih =>
      obtain ⟨k, hk⟩ := exists_roundsTo (mul_nonneg hnonneg (pow_nonneg ratio_pos.le n))
      rw [pow_succ, ← mul_assoc] at hw
      have hnext := hk.le_succ_of_ratio hw
      have hbefore := ih hk
      omega

/-- The two values are as near as they are after so many roundings. -/
structure Drift (n : ℕ) (v w : ℚ) : Prop where
  le : v ≤ w * ratio ^ n
  ge : w ≤ v * ratio ^ n

namespace Drift

variable {m n : ℕ} {u z : ℚ}

theorem refl (v : ℚ) : Drift 0 v v :=
  ⟨by simp, by simp⟩

theorem symm (h : Drift n v w) : Drift n w v :=
  ⟨h.ge, h.le⟩

theorem trans (huv : Drift m u v) (hvw : Drift n v w) : Drift (m + n) u w := by
  have hm : 0 ≤ ratio ^ m := pow_nonneg ratio_pos.le m
  have hn : 0 ≤ ratio ^ n := pow_nonneg ratio_pos.le n
  constructor
  · calc u ≤ v * ratio ^ m := huv.le
      _ ≤ w * ratio ^ n * ratio ^ m := mul_le_mul_of_nonneg_right hvw.le hm
      _ = w * ratio ^ (m + n) := by ring
  · calc w ≤ v * ratio ^ n := hvw.ge
      _ ≤ u * ratio ^ m * ratio ^ n := mul_le_mul_of_nonneg_right huv.ge hn
      _ = u * ratio ^ (m + n) := by ring

theorem mul (hu : 0 ≤ u) (hv : 0 ≤ v) (hw : 0 ≤ w) (hz : 0 ≤ z) (huv : Drift m u v)
    (hwz : Drift n w z) : Drift (m + n) (u * w) (v * z) := by
  constructor
  · calc u * w ≤ v * ratio ^ m * (z * ratio ^ n) :=
          mul_le_mul huv.le hwz.le hw (mul_nonneg hv (pow_nonneg ratio_pos.le m))
      _ = v * z * ratio ^ (m + n) := by ring
  · calc v * z ≤ u * ratio ^ m * (w * ratio ^ n) :=
          mul_le_mul huv.ge hwz.ge hz (mul_nonneg hu (pow_nonneg ratio_pos.le m))
      _ = u * w * ratio ^ (m + n) := by ring

theorem inv (hv : 0 < v) (hw : 0 < w) (h : Drift n v w) : Drift n v⁻¹ w⁻¹ := by
  constructor
  · rw [inv_eq_one_div, div_le_iff₀ hv, mul_assoc, mul_comm _ v, ← div_eq_inv_mul, le_div_iff₀ hw,
      one_mul]
    exact h.ge
  · rw [inv_eq_one_div, div_le_iff₀ hw, mul_assoc, mul_comm _ w, ← div_eq_inv_mul, le_div_iff₀ hv,
      one_mul]
    exact h.le

theorem div (hu : 0 ≤ u) (hv : 0 ≤ v) (hw : 0 < w) (hz : 0 < z) (huv : Drift m u v)
    (hwz : Drift n w z) : Drift (m + n) (u / w) (v / z) := by
  rw [div_eq_mul_inv, div_eq_mul_inv]
  exact mul hu hv (inv_nonneg.mpr hw.le) (inv_nonneg.mpr hz.le) huv (hwz.inv hw hz)

/-- Values that near are rounded to places that many apart at most. -/
theorem roundsTo (h : Drift n v w) (hv : 0 ≤ v) (hi : RoundsTo v i) (hj : RoundsTo w j) :
    j ≤ i + n := by
  obtain ⟨k, hk⟩ := exists_roundsTo (mul_nonneg hv (pow_nonneg ratio_pos.le n))
  exact (hj.mono hk h.ge).trans (hi.le_add_of_ratio n hv hk)

end Drift

/-- A value that is not below the normal numbers is near the magnitude it is rounded to. -/
theorem RoundsTo.drift (h : RoundsTo v i) (hnormal : 2 ^ 52 ≤ inUnits v) :
    Drift 1 v (magnitudeAt i) := by
  have hscaled (u : ℚ) : 2 ^ 53 * inUnits (u * ratio ^ 1) = (2 ^ 53 + 1) * inUnits u := by
    unfold inUnits ratio
    ring
  have hunits {u z : ℚ} (hle : inUnits u ≤ inUnits z) : u ≤ z :=
    le_of_mul_le_mul_right hle units_pos
  have hpos (k : ℕ) : (0 : ℚ) < step k := by exact_mod_cast step_pos k
  -- Below the normal numbers the step is one unit.
  have hsteps (k : ℕ) : (step k : ℚ) = 1 ∨ (2 ^ 52 * step k : ℚ) ≤ atPlace k := by
    rcases Nat.lt_or_ge k (2 ^ 52) with hlow | hhigh
    · have hexponent : k / 2 ^ 52 - 1 = 0 := by omega
      rw [step, hexponent]
      exact .inl (by norm_num)
    · exact .inr (by exact_mod_cast le_atPlace hhigh)
  have hle := h.le
  constructor
  · refine hunits ?_
    have hmagnitude := hscaled (magnitudeAt i)
    rw [inUnits_magnitudeAt] at hmagnitude
    rcases hsteps i with hone | hmany
    · have hplace : 2 * 2 ^ 52 ≤ 2 * atPlace i + 1 := by
        rw [hone] at hle
        have hplace : (2 * 2 ^ 52 : ℚ) ≤ 2 * atPlace i + 1 := by linarith
        exact_mod_cast hplace
      have hplace' : (2 ^ 52 : ℚ) ≤ atPlace i := by
        exact_mod_cast (show 2 ^ 52 ≤ atPlace i by omega)
      linarith
    · linarith
  · refine hunits ?_
    rw [inUnits_magnitudeAt]
    have hvalue := hscaled v
    rcases Nat.eq_zero_or_pos i with rfl | hi
    · have hzero : (atPlace 0 : ℚ) = 0 := rfl
      linarith
    · obtain ⟨j, rfl⟩ : ∃ j, i = j + 1 := ⟨i - 1, by omega⟩
      have hge := h.ge j rfl
      have hsucc : (atPlace (j + 1) : ℚ) = atPlace j + step j := by exact_mod_cast atPlace_succ j
      rcases hsteps j with hone | hmany
      · linarith
      · linarith [hpos j]

/-! ### Numbers and their places -/

/-- The place of a number among the magnitudes: its bits without the sign. -/
def place (x : Binary64) : ℕ :=
  x.bits.toNat % 2 ^ 63

/-- The magnitude of a finite number. -/
def value (x : Binary64) : ℚ :=
  x.magnitude.1 / x.magnitude.2

theorem magnitude_pos (x : Binary64) : 0 < x.magnitude.2 :=
  Nat.two_pow_pos _

theorem isFinite_iff_place (x : Binary64) : x.isFinite = true ↔ x.place < 2047 * 2 ^ 52 := by
  unfold isFinite exponentField place
  simp only [Nat.pow_eq, decide_eq_true_eq]
  omega

theorem pow_toNat_div (b : ℚ) (q : ℤ) : b ^ q.toNat / b ^ (-q).toNat = b ^ q := by
  obtain ⟨n, rfl | rfl⟩ := q.eq_nat_or_neg
  · simp
  · simp [zpow_neg]

theorem value_eq_significand (x : Binary64) : x.value = x.significand * 2 ^ x.exponent := by
  unfold value magnitude
  simp only [Nat.pow_eq, Nat.cast_mul, Nat.cast_pow, Nat.cast_ofNat]
  rw [mul_div_assoc, pow_toNat_div]

/-- Significand and exponent are those of the place. -/
theorem place_eq (x : Binary64) : ∃ e : ℕ, x.place = e * 2 ^ 52 + x.significand ∧
    x.exponent = e - 1074 ∧ x.significand < 2 ^ 53 ∧ (e = 0 ∨ 2 ^ 52 ≤ x.significand) := by
  refine ⟨x.exponentField - 1, ?_⟩
  unfold significand exponent
  have hplace : x.place = x.exponentField * 2 ^ 52 + x.fractionField := by
    unfold place exponentField fractionField
    simp only [Nat.pow_eq]
    omega
  have hfraction : x.fractionField < 2 ^ 52 := Nat.mod_lt _ (by decide)
  simp only [Nat.pow_eq]
  split
  · rename_i hzero
    rw [hplace, hzero]
    exact ⟨by omega, by omega, by omega, .inl rfl⟩
  · rename_i hpos
    rw [hplace]
    refine ⟨by omega, by omega, by omega, .inr (Nat.le_add_right _ _)⟩

/-- The magnitude of a number is the one at its place. -/
theorem value_eq (x : Binary64) : x.value = magnitudeAt x.place := by
  obtain ⟨e, hplace, hexponent, hm, hnormal⟩ := x.place_eq
  rw [value_eq_significand, magnitudeAt, units_eq, hplace, atPlace_pack hm.le hnormal, hexponent,
    zpow_sub₀ two_ne_zero, zpow_natCast, Nat.cast_mul, Nat.cast_pow, Nat.cast_ofNat, mul_div_assoc]

theorem value_nonneg (x : Binary64) : 0 ≤ x.value := by
  unfold value
  positivity

theorem place_neg (x : Binary64) : x.neg.place = x.place := by
  unfold place neg
  rw [UInt64.toNat_xor, Nat.xor_mod_two_pow]
  exact Nat.xor_zero _

theorem isNegative_neg (x : Binary64) : x.neg.isNegative = !x.isNegative := by
  unfold isNegative neg
  rw [UInt64.toNat_xor, Nat.pow_eq, Nat.xor_div_two_pow]
  have hbits := x.bits.toNat_lt
  have hsign : UInt64.toNat 0x8000000000000000 / 2 ^ 63 = 1 := rfl
  rw [hsign]
  rcases (by omega : x.bits.toNat / 2 ^ 63 = 0 ∨ x.bits.toNat / 2 ^ 63 = 1) with h | h
  · rw [h]
    rfl
  · rw [h]
    rfl

theorem isFinite_neg (x : Binary64) : x.neg.isFinite = x.isFinite := by
  rw [Bool.eq_iff_iff, isFinite_iff_place, isFinite_iff_place, place_neg]

/-- The number of a sign at a place. -/
def ofPlace (negative : Bool) (i : ℕ) : Binary64 :=
  ⟨UInt64.ofNat ((if negative then 2 ^ 63 else 0) + i)⟩

theorem eq_ofPlace (x : Binary64) : x = ofPlace x.isNegative x.place := by
  have hx := x.bits.toNat_lt
  have hbits : x.bits.toNat = (if x.isNegative then 2 ^ 63 else 0) + x.place := by
    unfold isNegative place
    simp only [Nat.pow_eq, beq_iff_eq]
    split
    · omega
    · omega
  rw [ofPlace, ← hbits, UInt64.ofNat_toNat]

theorem place_eq_zero_iff (x : Binary64) : x.place = 0 ↔ x.isZero = true := by
  unfold isZero exponentField fractionField place
  simp only [Nat.pow_eq, Bool.and_eq_true, beq_iff_eq]
  omega

theorem significand_pos {x : Binary64} (h : x.isZero = false) : 0 < x.significand := by
  unfold significand
  split
  · rename_i hexponent
    rw [isZero, Bool.and_eq_false_iff, beq_eq_false_iff_ne, beq_eq_false_iff_ne] at h
    exact Nat.pos_of_ne_zero (h.resolve_left (· hexponent))
  · exact Nat.add_pos_left (Nat.two_pow_pos _) _

theorem place_pack (negative : Bool) (m : ℕ) (q : ℤ) :
    (pack negative m q).place = min ((q + 1074).toNat * 2 ^ 52 + m) (2047 * 2 ^ 52) ∧
      (pack negative m q).isNegative = negative := by
  have hfields : ∀ sign n : ℕ, sign = 0 ∨ sign = 2 ^ 63 → n ≤ 2047 * 2 ^ 52 →
      (UInt64.ofNat (sign + n)).toNat = sign + n := by
    intro sign n hsign hn
    rw [UInt64.toNat_ofNat']
    omega
  have hle := Nat.min_le_right ((q + 1074).toNat * 2 ^ 52 + m) (2047 * 2 ^ 52)
  unfold place isNegative pack
  simp only [Nat.pow_eq]
  generalize min ((q + 1074).toNat * 2 ^ 52 + m) (2047 * 2 ^ 52) = n at hle ⊢
  cases negative with
  | true =>
      rw [if_pos rfl, hfields _ n (.inr rfl) hle, beq_iff_eq]
      omega
  | false =>
      rw [if_neg Bool.false_ne_true, hfields _ n (.inl rfl) hle, beq_eq_false_iff_ne]
      omega

/-- A quotient becomes the number at its place, unless that is too far. -/
theorem place_ofQuotient (negative : Bool) (num den : ℕ) :
    (ofQuotient negative num den).place = min (placeOf num den) (2047 * 2 ^ 52) ∧
      (ofQuotient negative num den).isNegative = negative := by
  unfold ofQuotient placeOf
  split
  · exact place_pack negative 0 (-1074)
  · exact place_pack negative _ _

/-! ### Numbers near each other -/

/-- The number is finite, has the same sign and is so many places away at most. -/
structure Beside (n : ℕ) (x y : Binary64) : Prop where
  finite : y.isFinite = true
  sign : y.isNegative = x.isNegative
  le : x.place ≤ y.place + n
  ge : y.place ≤ x.place + n

instance (n : ℕ) (x y : Binary64) : Decidable (Beside n x y) :=
  decidable_of_iff (y.isFinite = true ∧ y.isNegative = x.isNegative ∧ x.place ≤ y.place + n ∧
    y.place ≤ x.place + n) ⟨fun h => ⟨h.1, h.2.1, h.2.2.1, h.2.2.2⟩,
      fun h => ⟨h.finite, h.sign, h.le, h.ge⟩⟩

theorem Beside.eq {x y : Binary64} (h : Beside 0 x y) : y = x := by
  have hplace : y.place = x.place := Nat.le_antisymm h.ge h.le
  rw [eq_ofPlace x, eq_ofPlace y, h.sign, hplace]

/-- The number is finite, without a sign and so many places from one at most. -/
structure Near (n i : ℕ) (x : Binary64) : Prop where
  finite : x.isFinite = true
  positive : x.isNegative = false
  le : x.place ≤ i + n
  ge : i ≤ x.place + n

theorem Near.mono {n m : ℕ} {x : Binary64} (h : Near n i x) (hnm : n ≤ m) : Near m i x := by
  have hle := h.le
  have hge := h.ge
  exact ⟨h.finite, h.positive, by omega, by omega⟩

/-- A quotient near a value becomes a number near the place of the value. -/
theorem near_ofQuotient {num den n : ℕ} (hden : 0 < den) (hv : 0 ≤ v) (hi : RoundsTo v i)
    (hdrift : Drift n v (num / den)) (hfinite : i + n < 2047 * 2 ^ 52) :
    Near n i (ofQuotient false num den) := by
  obtain ⟨hplace, hnegative⟩ := place_ofQuotient false num den
  have hround : RoundsTo (num / den) (placeOf num den) := roundsTo_placeOf hden
  have hle := hdrift.roundsTo hv hi hround
  have hge := hdrift.symm.roundsTo (by positivity) hround hi
  rw [Nat.min_eq_left (by omega)] at hplace
  exact ⟨(isFinite_iff_place _).mpr (by omega), hnegative, by omega, by omega⟩

/-- Such a quotient, and the magnitude of what it becomes, are one rounding apart. -/
theorem drift_ofQuotient {num den : ℕ} (hden : 0 < den)
    (hfinite : (ofQuotient false num den).isFinite = true)
    (hnormal : 2 ^ 52 ≤ inUnits (num / den)) :
    Drift 1 (num / den) (ofQuotient false num den).value := by
  have hplace := (isFinite_iff_place _).mp hfinite
  rw [(place_ofQuotient false num den).1] at hplace
  rw [value_eq, (place_ofQuotient false num den).1, Nat.min_eq_left (by omega)]
  exact (roundsTo_placeOf hden).drift hnormal

end Relational.Binary64
