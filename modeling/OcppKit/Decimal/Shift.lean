import OcppKit.Decimal

/-!
# Moving the point

`OcppKit.Decimal.checkedPow10` multiplies by a power of ten and never rounds: down, it adds
scale and then strips zeros off the mantissa; up, it spends the scale and then multiplies.
It should find the product whenever some decimal is the product, and it does
(`OcppKit.Decimal.checkedPow10_iff`), but for zero: where the scale would have to grow past
the greatest by more than 18 it gives up before it looks at the mantissa, while past 40
places, and everywhere else, it remembers that zero is zero.
-/

namespace OcppKit

/-- A signed 64-bit number. -/
abbrev I64 := {n : ℤ // -2 ^ 63 ≤ n ∧ n < 2 ^ 63}

/-- The product, if it is one. -/
def I64.checkedMul (n : I64) (k : ℤ) : Option I64 :=
  if h : -2 ^ 63 ≤ n.1 * k ∧ n.1 * k < 2 ^ 63 then some ⟨n.1 * k, h⟩ else none

namespace Decimal

/-! ### The function -/

/-- Zero, at scale 0. -/
def zero : Decimal := fromI64 0

/-- Spends scale on the places that are left. -/
def spendScale : ℕ → ℕ → ℕ × ℕ
  | left + 1, scale + 1 => spendScale left scale
  | left, scale => (left, scale)

/-- Multiplies by the powers of ten that are left, at most 18 at a time. -/
def growMantissa (left : ℕ) (mantissa : I64) : Option I64 :=
  if left = 0 then some mantissa
  else (mantissa.checkedMul (10 ^ min left 18)).bind (growMantissa (left - min left 18))

theorem spendScale_eq (left scale : ℕ) :
    spendScale left scale = (left - scale, scale - left) := by
  induction left generalizing scale with
  | zero => simp [spendScale]
  | succ left ih =>
      cases scale with
      | zero => simp [spendScale]
      | succ scale => rw [spendScale, ih, Nat.add_sub_add_right, Nat.add_sub_add_right]

theorem spendScale_le (d : Decimal) (left : ℕ) : (spendScale left d.scale).2 ≤ 18 := by
  rw [spendScale_eq]
  exact (Nat.sub_le _ _).trans d.scale_le

/-- Zeros that are stripped leave a smaller number. -/
theorem tdiv_fits (d : Decimal) (k : ℕ) :
    -2 ^ 63 ≤ d.mantissa.tdiv (10 ^ k) ∧ d.mantissa.tdiv (10 ^ k) < 2 ^ 63 := by
  have hle : (d.mantissa.tdiv (10 ^ k)).natAbs ≤ d.mantissa.natAbs := Int.natAbs_tdiv_le_natAbs _ _
  have hfits := d.mantissa_fits
  rcases le_or_gt 0 d.mantissa with hpos | hneg
  · have := Int.tdiv_nonneg hpos (by positivity : (0 : ℤ) ≤ 10 ^ k)
    omega
  · have := Int.tdiv_nonneg (neg_nonneg.mpr hneg.le) (by positivity : (0 : ℤ) ≤ 10 ^ k)
    rw [Int.neg_tdiv] at this
    omega

/-- The value multiplied by `10 ^ exp`, exactly, or `none` when it does not fit. -/
def checkedPow10 (d : Decimal) (exp : ℤ) : Option Decimal :=
  if exp = 0 then some d
  else if 40 < exp ∨ exp < -40 then if d.mantissa = 0 then some zero else none
  else if exp < 0 then
    -- adding scale is exact until the cap is reached
    let want : ℤ := d.scale - exp
    if h : want ≤ 18 then some ⟨d.mantissa, want.toNat, d.mantissa_fits, by omega⟩
    else
      -- past the cap the mantissa has to shrink, which needs trailing zeros
      let surplus := (want - 18).toNat
      if 18 < surplus then none
      else if d.mantissa.tmod (10 ^ surplus) ≠ 0 then none
      else some ⟨d.mantissa.tdiv (10 ^ surplus), 18, d.tdiv_fits surplus, scale_max_le⟩
  else
    let spent := spendScale exp.toNat d.scale
    (growMantissa spent.1 ⟨d.mantissa, d.mantissa_fits⟩).map fun mantissa =>
      ⟨mantissa.1, spent.2, mantissa.2, d.spendScale_le exp.toNat⟩

/-! ### Up -/

/-- A product with a power of ten that fits is made of products that fit. -/
theorem fits_of_mul_pow {n : ℤ} {j k : ℕ} (hjk : j ≤ k)
    (h : -2 ^ 63 ≤ n * 10 ^ k ∧ n * 10 ^ k < 2 ^ 63) :
    -2 ^ 63 ≤ n * 10 ^ j ∧ n * 10 ^ j < 2 ^ 63 := by
  have hpow : (10 : ℤ) ^ j ≤ 10 ^ k := pow_le_pow_right₀ (by norm_num) hjk
  have hj : (0 : ℤ) < 10 ^ j := by positivity
  rcases le_or_gt 0 n with hn | hn
  · have := mul_le_mul_of_nonneg_left hpow hn
    have := mul_nonneg hn hj.le
    omega
  · have := mul_le_mul_of_nonpos_left hpow hn.le
    have := mul_nonpos_of_nonpos_of_nonneg hn.le hj.le
    omega

/-- **Growing step by step finds the product exactly when it fits.** -/
theorem growMantissa_eq (left : ℕ) (mantissa : I64) : growMantissa left mantissa =
    if h : -2 ^ 63 ≤ mantissa.1 * 10 ^ left ∧ mantissa.1 * 10 ^ left < 2 ^ 63 then
      some ⟨mantissa.1 * 10 ^ left, h⟩ else none := by
  induction left using Nat.strong_induction_on generalizing mantissa with
  | _ left ih =>
  rw [growMantissa]
  split
  next hzero =>
    subst hzero
    have hfits : -2 ^ 63 ≤ mantissa.1 * 10 ^ 0 ∧ mantissa.1 * 10 ^ 0 < 2 ^ 63 := by
      rw [pow_zero, mul_one]
      exact mantissa.2
    rw [dif_pos hfits]
    exact congrArg some (Subtype.ext (by simp))
  next hzero =>
    have hsplit : mantissa.1 * 10 ^ min left 18 * 10 ^ (left - min left 18) =
        mantissa.1 * 10 ^ left := by
      rw [mul_assoc, ← pow_add]
      congr 2
      omega
    rw [I64.checkedMul]
    split
    next hstep =>
      rw [Option.bind_some, ih _ (by omega)]
      simp only [hsplit]
    next hstep =>
      rw [Option.bind_none,
        dif_neg fun hfits => hstep (fits_of_mul_pow (min_le_left left 18) hfits)]

/-! ### What it should find -/

/-- **What a shift should be**: the product, exactly, if some decimal is it. -/
def Shifted (d : Decimal) (exp : ℤ) : Prop :=
  (∀ r, d.checkedPow10 exp = some r → r.toRat = d.toRat * 10 ^ exp) ∧
    (d.checkedPow10 exp = none → ∀ r : Decimal, r.toRat ≠ d.toRat * 10 ^ exp)

/-- A decimal is a shifted one when the mantissas agree, with zeros for the places between. -/
theorem toRat_eq_shift_iff {d r : Decimal} {exp : ℤ} {j k : ℕ}
    (h : (k : ℤ) + d.scale = j + r.scale + exp) :
    r.toRat = d.toRat * 10 ^ exp ↔ r.mantissa * 10 ^ j = d.mantissa * 10 ^ k := by
  have hpow : (10 : ℚ) ^ k * 10 ^ d.scale = 10 ^ j * 10 ^ r.scale * 10 ^ exp := by
    rw [← zpow_natCast, ← zpow_natCast, ← zpow_natCast, ← zpow_natCast, ← zpow_add₀ (by norm_num),
      ← zpow_add₀ (by norm_num), ← zpow_add₀ (by norm_num), h]
  have hj : (10 : ℚ) ^ j ≠ 0 := by positivity
  have hd : (10 : ℚ) ^ d.scale ≠ 0 := by positivity
  rw [toRat, toRat, div_mul_eq_mul_div, div_eq_div_iff (by positivity) hd,
    ← Int.cast_inj (α := ℚ)]
  push_cast
  constructor
  · intro heq
    refine mul_right_cancel₀ hd ?_
    linear_combination (10 : ℚ) ^ j * heq - (d.mantissa : ℚ) * hpow
  · intro heq
    refine mul_right_cancel₀ hj ?_
    linear_combination (10 : ℚ) ^ d.scale * heq + (d.mantissa : ℚ) * hpow

/-- A number of 64 bits other than zero has at most 18 zeros. -/
theorem zeros_le {a b : ℤ} {j : ℕ} (h : a * 10 ^ j = b) (hb : b ≠ 0)
    (hfits : -2 ^ 63 ≤ b ∧ b < 2 ^ 63) : j ≤ 18 := by
  by_contra hj
  have hfits' := fits_of_mul_pow (show 19 ≤ j by omega) (h ▸ hfits)
  have ha : a = 0 := by
    norm_num at hfits'
    omega
  exact hb (by rw [← h, ha, zero_mul])

theorem toRat_eq_zero_iff {d : Decimal} : d.toRat = 0 ↔ d.mantissa = 0 := by
  rw [toRat, div_eq_zero_iff, Int.cast_eq_zero, or_iff_left (by positivity)]

/-- Zero moved is zero. -/
theorem toRat_shift_zero {d : Decimal} (h : d.mantissa = 0) (exp : ℤ) : d.toRat * 10 ^ exp = 0 := by
  rw [toRat_eq_zero_iff.mpr h, zero_mul]

/-- **Down.** -/
theorem shifted_down {d : Decimal} {exp : ℤ} (hneg : exp < 0) (hlow : -40 ≤ exp) :
    Shifted d exp ↔ ¬(d.mantissa = 0 ∧ exp < d.scale - 36) := by
  have hscale := d.scale_le
  rw [Shifted]
  generalize hpow10 : d.checkedPow10 exp = result
  rw [checkedPow10, if_neg (by omega), if_neg (by omega), if_pos hneg] at hpow10
  dsimp only at hpow10
  split at hpow10
  next hwant =>
    subst hpow10
    refine iff_of_true ⟨fun r hr => ?_, fun hnone => ?_⟩ (by omega)
    · obtain rfl := Option.some.inj hr
      exact (toRat_eq_shift_iff (j := 0) (k := 0) (by dsimp only; omega)).mpr rfl
    · exact absurd hnone (by simp)
  next hwant =>
  -- where there is a decimal, the mantissa has that many zeros
  have hzeros : ∀ r : Decimal, r.toRat = d.toRat * 10 ^ exp →
      r.mantissa * 10 ^ ((d.scale : ℤ) - exp - r.scale).toNat = d.mantissa := by
    intro r hr
    have hr' := r.scale_le
    have := (toRat_eq_shift_iff (j := ((d.scale : ℤ) - exp - r.scale).toNat) (k := 0)
      (by omega)).mp hr
    simpa using this
  split at hpow10
  next hsurplus =>
    subst hpow10
    rw [show exp < d.scale - 36 ↔ True by simp; omega, and_true]
    constructor
    · rintro ⟨-, hnone⟩ hzero
      exact hnone rfl zero ((toRat_eq_zero_iff.mpr rfl).trans (toRat_shift_zero hzero exp).symm)
    · intro hzero
      refine ⟨fun r hr => absurd hr (by simp), fun _ r hr => ?_⟩
      have := zeros_le (hzeros r hr) hzero d.mantissa_fits
      have := r.scale_le
      omega
  next hsurplus =>
  refine iff_of_true ?_ (by omega)
  split at hpow10
  next hmod =>
    subst hpow10
    refine ⟨fun r hr => absurd hr (by simp), fun _ r hr => hmod ?_⟩
    have hr' := r.scale_le
    refine Int.tmod_eq_zero_of_dvd ((pow_dvd_pow 10 ?_).trans (Dvd.intro_left _ (hzeros r hr)))
    omega
  next hmod =>
    subst hpow10
    refine ⟨fun r hr => ?_, fun hnone => absurd hnone (by simp)⟩
    obtain rfl := Option.some.inj hr
    refine (toRat_eq_shift_iff (j := ((d.scale : ℤ) - exp - 18).toNat) (k := 0)
      (by dsimp only; omega)).mpr ?_
    rw [pow_zero, mul_one]
    exact Int.tdiv_mul_cancel (Int.dvd_of_tmod_eq_zero (not_not.mp hmod))

/-- **Up.** -/
theorem shifted_up {d : Decimal} {exp : ℤ} (hpos : 0 < exp) (hhigh : exp ≤ 40) : Shifted d exp := by
  rw [Shifted]
  generalize hpow10 : d.checkedPow10 exp = result
  rw [checkedPow10, if_neg (by omega), if_neg (by omega), if_neg (by omega)] at hpow10
  simp only [growMantissa_eq, spendScale_eq] at hpow10
  split at hpow10
  next hfits =>
    subst hpow10
    refine ⟨fun r hr => ?_, fun hnone => absurd hnone (by simp)⟩
    obtain rfl := Option.some.inj hr
    refine (toRat_eq_shift_iff (j := 0) (k := exp.toNat - d.scale) (by dsimp only; omega)).mpr ?_
    rw [pow_zero, mul_one]
  next hfits =>
    subst hpow10
    refine ⟨fun r hr => absurd hr (by simp), fun _ r hr => hfits ?_⟩
    rcases le_or_gt exp.toNat d.scale with hle | hgt
    · rw [Nat.sub_eq_zero_of_le hle, pow_zero, mul_one]
      exact d.mantissa_fits
    · have heq := (toRat_eq_shift_iff (j := 0) (k := exp.toNat - d.scale + r.scale)
        (by omega)).mp hr
      rw [pow_zero, mul_one] at heq
      exact fits_of_mul_pow (Nat.le_add_right _ r.scale) (heq ▸ r.mantissa_fits)

/-- **A shift finds the product whenever some decimal is it, but for zero moved down too
far**: by at most 40 places, and past the greatest scale by more than 18. -/
theorem checkedPow10_iff (d : Decimal) (exp : ℤ) : Shifted d exp ↔
    ¬(d.mantissa = 0 ∧ -40 ≤ exp ∧ exp < d.scale - 36) := by
  have hscale := d.scale_le
  rcases eq_or_ne exp 0 with rfl | hexp
  · refine iff_of_true ⟨fun r hr => ?_, fun hnone => ?_⟩ (by omega)
    · rw [checkedPow10, if_pos rfl] at hr
      obtain rfl := Option.some.inj hr
      rw [zpow_zero, mul_one]
    · rw [checkedPow10, if_pos rfl] at hnone
      exact absurd hnone (by simp)
  rcases em (40 < exp ∨ exp < -40) with hfar | hnear
  · refine iff_of_true ?_ (by omega)
    rw [Shifted]
    generalize hpow10 : d.checkedPow10 exp = result
    rw [checkedPow10, if_neg hexp, if_pos hfar] at hpow10
    split at hpow10
    next hzero =>
      subst hpow10
      refine ⟨fun r hr => ?_, fun hnone => absurd hnone (by simp)⟩
      obtain rfl := Option.some.inj hr
      rw [toRat_shift_zero hzero]
      exact toRat_eq_zero_iff.mpr rfl
    next hzero =>
      subst hpow10
      refine ⟨fun r hr => absurd hr (by simp), fun _ r hr => ?_⟩
      have hr' := r.scale_le
      rcases hfar with hfar | hfar
      · have heq := (toRat_eq_shift_iff (j := 0) (k := (exp + r.scale - d.scale).toNat)
          (by omega)).mp hr
        rw [pow_zero, mul_one] at heq
        have hne : r.mantissa ≠ 0 := by
          rw [heq]
          exact mul_ne_zero hzero (by positivity)
        have := zeros_le heq.symm hne r.mantissa_fits
        omega
      · have heq := (toRat_eq_shift_iff (j := (d.scale - exp - r.scale).toNat) (k := 0)
          (by omega)).mp hr
        rw [pow_zero, mul_one] at heq
        have := zeros_le heq hzero d.mantissa_fits
        omega
  · rcases lt_or_gt_of_ne hexp with hneg | hpos
    · rw [shifted_down hneg (by omega)]
      simp only [show -40 ≤ exp by omega, true_and]
    · exact iff_of_true (shifted_up hpos (by omega)) (by omega)

/-! ### Where it is found -/

/-- Some decimal is the number. -/
def Representable (q : ℚ) : Prop := ∃ d : Decimal, d.toRat = q

/-- A zero that a shift refuses: it goes down by at most 40 places, and past the greatest scale
by more than 18. -/
def LostZero (d : Decimal) (exp : ℤ) : Prop := d.mantissa = 0 ∧ -40 ≤ exp ∧ exp < d.scale - 36

theorem checkedPow10_of_lostZero {d : Decimal} {exp : ℤ} (h : d.LostZero exp) :
    d.checkedPow10 exp = none := by
  obtain ⟨hzero, hlow, hfar⟩ := h
  have hscale := d.scale_le
  rw [checkedPow10, if_neg (by omega), if_neg (by omega), if_pos (by omega)]
  dsimp only
  rw [dif_neg (by omega), if_pos (by omega)]

/-- **What a shift finds is exact.** -/
theorem toRat_of_checkedPow10 {d r : Decimal} {exp : ℤ} (h : d.checkedPow10 exp = some r) :
    r.toRat = d.toRat * 10 ^ exp := by
  by_cases hlost : d.LostZero exp
  · rw [checkedPow10_of_lostZero hlost] at h
    exact absurd h (by simp)
  · exact ((checkedPow10_iff d exp).mpr hlost).1 r h

/-- **A shift finds something exactly when there is something to find**, lost zeros apart. -/
theorem checkedPow10_isSome_iff (d : Decimal) (exp : ℤ) :
    (d.checkedPow10 exp).isSome ↔ Representable (d.toRat * 10 ^ exp) ∧ ¬d.LostZero exp := by
  constructor
  · intro h
    obtain ⟨r, hr⟩ := Option.isSome_iff_exists.mp h
    refine ⟨⟨r, toRat_of_checkedPow10 hr⟩, fun hlost => ?_⟩
    rw [checkedPow10_of_lostZero hlost] at hr
    exact absurd hr (by simp)
  · rintro ⟨⟨r, hr⟩, hlost⟩
    by_contra hnone
    rw [Option.not_isSome_iff_eq_none] at hnone
    exact ((checkedPow10_iff d exp).mpr hlost).2 hnone r hr

end Decimal

end OcppKit

namespace OcppKit.Reference

/-! ### Zero -/

/-- **Zero is not found 37 places down**, where it is one place up and 41 places down. -/
theorem zero_refused : ¬∀ (d : Decimal) (exp : ℤ), Decimal.Shifted d exp := by
  intro h
  refine (h Decimal.zero (-37)).2 (by decide +kernel) Decimal.zero ?_
  rw [Decimal.toRat_shift_zero rfl, Decimal.toRat_eq_zero_iff.mpr rfl]

end OcppKit.Reference
