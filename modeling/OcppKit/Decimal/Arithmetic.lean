import OcppKit.Decimal
import OcppKit.Library.HalfEven

/-!
# What the arithmetic of decimals computes

A sum, a difference, a product and a quotient are computed on mantissas, in 128 bits, and
narrowed to 64. What each should be is one thing, `OcppKit.Decimal.nearest`: the decimal of
a given scale that is nearest to the exact result, half to even, if its mantissa fits. For
a result that has no more digits than the scale, nearest is exact
(`OcppKit.Decimal.toRat_nearest`).

Sums and differences are that. Products and quotients are that but for two slips. Where a
result is rounded, it is rounded as a magnitude and the sign is put back, and a magnitude
of 2⁶³ is refused although -2⁶³ is a mantissa (`OcppKit.Decimal.ofMagnitude_eq_iff`). And
a quotient whose numerator, with all its zeros and one for the rounding, needs more than
128 bits is refused although it may fit in 64. `OcppKit.Decimal.arithmetic_iff` and
`OcppKit.Decimal.checkedDiv_iff` say that nothing else goes wrong.
-/

namespace OcppKit

namespace Decimal

/-! ### The nearest decimal of a scale -/

/-- **The decimal of this scale that is nearest to a number**, half to even, if its mantissa
fits. -/
def nearest (v : ℚ) (scale : ℕ) (hscale : scale ≤ 18) : Option Decimal :=
  narrow (halfEven (v * 10 ^ scale)) scale hscale

/-- The number is a whole number of units of the scale. -/
def Whole (v : ℚ) (scale : ℕ) : Prop := ∃ n : ℤ, v * 10 ^ scale = n

theorem nearest_of_whole {v : ℚ} {scale : ℕ} {hscale : scale ≤ 18} {n : ℤ}
    (h : v * 10 ^ scale = n) : nearest v scale hscale = narrow n scale hscale := by
  rw [nearest, h, halfEven_intCast]

/-- **A whole number of units is kept as it is.** -/
theorem toRat_nearest {v : ℚ} {scale : ℕ} {hscale : scale ≤ 18} (h : Whole v scale)
    {r : Decimal} (hr : nearest v scale hscale = some r) : r.toRat = v := by
  obtain ⟨n, hn⟩ := h
  rw [nearest_of_whole hn, narrow] at hr
  split at hr
  · obtain rfl := Option.some.inj hr
    rw [toRat, ← hn]
    field_simp
  · exact absurd hr (by simp)

theorem of_narrow {n : ℤ} {scale : ℕ} {hscale : scale ≤ 18} {d : Decimal}
    (h : narrow n scale hscale = some d) : d.scale = scale ∧ d.mantissa = n := by
  rw [narrow] at h
  split at h
  · obtain rfl := Option.some.inj h
    exact ⟨rfl, rfl⟩
  · exact absurd h (by simp)

theorem narrow_eq_none_iff {n : ℤ} {scale : ℕ} {hscale : scale ≤ 18} :
    narrow n scale hscale = none ↔ n < -2 ^ 63 ∨ 2 ^ 63 ≤ n := by
  rw [narrow]
  split
  next h => simp only [reduceCtorEq, false_iff]; omega
  next h => simp only [true_iff]; omega

/-- There is no nearest decimal of the scale when the number is half a unit from the last one
or more; beyond -2⁶³, more. -/
theorem nearest_eq_none_iff {v : ℚ} {scale : ℕ} {hscale : scale ≤ 18} :
    nearest v scale hscale = none ↔
      v * 10 ^ scale < -2 ^ 63 - 1 / 2 ∨ 2 ^ 63 - 1 / 2 ≤ v * 10 ^ scale := by
  rw [nearest, narrow_eq_none_iff, ← not_le, le_halfEven_iff_of_even (by decide),
    le_halfEven_iff_of_even (by decide), not_le]
  norm_num

/-! ### Digits dropped -/

/-- **Digits are dropped by rounding half to even**, also when something was dropped below
them before: `v` is the number whose whole part is left, and `sticky` says whether it has
another part. -/
theorem roundOff_eq {m digits : ℕ} {sticky : Bool} {v : ℚ} (hlow : (m : ℚ) ≤ v)
    (hhigh : v < m + 1) (hsticky : sticky = true ↔ v ≠ m) (hnone : digits = 0 → v = m)
    (hmany : 38 < digits → 2 * (m + 1) ≤ 10 ^ digits) :
    (roundOff m digits sticky : ℤ) = halfEven (v / 10 ^ digits) := by
  rw [roundOff]
  split
  next hzero =>
    rw [hnone hzero, hzero, pow_zero, div_one]
    exact (halfEven_intCast (m : ℤ)).symm
  next hzero =>
  split
  next hdigits =>
    have hcast : (2 : ℚ) * (m + 1) ≤ 10 ^ digits := by exact_mod_cast hmany hdigits
    have hpow : (0 : ℚ) < 10 ^ digits := by positivity
    symm
    refine halfEven_eq_iff.mpr ⟨Or.inl ?_, Or.inl ?_⟩
    · have hm : (0 : ℚ) ≤ m := Nat.cast_nonneg m
      have hquot : 0 ≤ v / 10 ^ digits := div_nonneg (hm.trans hlow) hpow.le
      push_cast
      linarith
    · rw [div_lt_iff₀ hpow]
      push_cast
      linarith
  next hdigits =>
    obtain ⟨k, rfl⟩ := Nat.exists_eq_succ_of_ne_zero hzero
    have hten : 10 ^ k.succ = 2 * (5 * 10 ^ k) := by rw [pow_succ]; ring
    have hhalf : 2 * (5 * 10 ^ k) / 2 = 5 * 10 ^ k := Nat.mul_div_cancel_left _ (by decide)
    have hmod : m % (2 * (5 * 10 ^ k)) < 2 * (5 * 10 ^ k) := Nat.mod_lt _ (by positivity)
    have hm : m / (2 * (5 * 10 ^ k)) * (2 * (5 * 10 ^ k)) + m % (2 * (5 * 10 ^ k)) = m :=
      Nat.div_add_mod' m _
    have hround := halfEven_add_div (q := m / (2 * (5 * 10 ^ k))) hmod (f := v - m)
      (by linarith) (by linarith)
    rw [hm, add_sub_cancel] at hround
    rw [show (10 : ℚ) ^ k.succ = ((2 * (5 * 10 ^ k) : ℕ) : ℚ) by exact_mod_cast hten, hround]
    simp only [hten, hhalf, Bool.or_eq_true, Bool.and_eq_true, decide_eq_true_eq, hsticky,
      sub_ne_zero]
    push_cast
    split <;> rfl

/-- In particular where nothing was dropped before. -/
theorem roundOff_false {m digits : ℕ} (hmany : 38 < digits → 2 * (m + 1) ≤ 10 ^ digits) :
    (roundOff m digits false : ℤ) = halfEven ((m : ℚ) / 10 ^ digits) :=
  roundOff_eq le_rfl (lt_add_one _) (by simp) (fun _ => rfl) hmany

/-! ### The sign put back -/

/-- **A magnitude with its sign put back is what it should be, but for -2⁶³**: the nearest
mantissa is that when the number is within half a unit of it. -/
theorem ofMagnitude_eq_iff {negative : Bool} {magnitude scale : ℕ} {hscale : scale ≤ 18} {x : ℚ}
    (hmagnitude : (magnitude : ℤ) = halfEven |x|) (hneg : negative = true → x ≤ 0)
    (hpos : negative = false → 0 ≤ x) :
    ofMagnitude negative magnitude scale hscale = narrow (halfEven x) scale hscale ↔
      ¬(-2 ^ 63 - 1 / 2 ≤ x ∧ x ≤ -2 ^ 63 + 1 / 2) := by
  have hmin : halfEven x = -2 ^ 63 ↔ -2 ^ 63 - 1 / 2 ≤ x ∧ x ≤ -2 ^ 63 + 1 / 2 := by
    rw [show halfEven x = -2 ^ 63 ↔ -2 ^ 63 ≤ halfEven x ∧ halfEven x ≤ -2 ^ 63 by omega,
      le_halfEven_iff_of_even (by decide), halfEven_le_iff_of_even (by decide)]
    norm_num
  rw [← hmin]
  cases negative with
  | true =>
      have hround : halfEven x = -(magnitude : ℤ) := by
        rw [hmagnitude, abs_of_nonpos (hneg rfl), halfEven_neg, neg_neg]
      simp only [ofMagnitude, narrow, hround, if_true]
      rcases lt_trichotomy magnitude (2 ^ 63) with hlt | heq | hgt
      · rw [dif_pos hlt, dif_pos (by omega)]
        exact iff_of_true rfl (by omega)
      · rw [dif_neg (by omega), dif_pos (by omega)]
        exact iff_of_false (by simp) (by omega)
      · rw [dif_neg (by omega), dif_neg (by omega)]
        exact iff_of_true rfl (by omega)
  | false =>
      have hround : halfEven x = magnitude := by
        rw [hmagnitude, abs_of_nonneg (hpos rfl)]
      simp only [ofMagnitude, narrow, hround, Bool.false_eq_true, if_false]
      refine iff_of_true ?_ (by omega)
      rcases lt_or_ge magnitude (2 ^ 63) with hlt | hge
      · rw [dif_pos hlt, dif_pos (by omega)]
      · rw [dif_neg (by omega), dif_neg (by omega)]

/-! ### Sums, differences, products -/

/-- **What a sum, a difference and a product of two decimals should be**: the nearest decimals
of their scales, exact where no digit is rounded away, with every step in 128 bits. -/
structure ExactOrRefused (d d' : Decimal) : Prop where
  /-- The sum, at the larger scale. -/
  add : d.checkedAdd d' =
    nearest (d.toRat + d'.toRat) (max d.scale d'.scale) (max_le d.scale_le d'.scale_le)
  /-- The difference, at the larger scale. -/
  sub : d.checkedSub d' =
    nearest (d.toRat - d'.toRat) (max d.scale d'.scale) (max_le d.scale_le d'.scale_le)
  /-- The product, at the sum of the scales or at the greatest scale. -/
  mul : d.checkedMul d' =
    nearest (d.toRat * d'.toRat) (min (d.scale + d'.scale) 18) (min_le_right _ _)
  /-- A sum is exact. -/
  exactSum : ∀ r, d.checkedAdd d' = some r → r.toRat = d.toRat + d'.toRat
  /-- A difference is exact. -/
  exactDifference : ∀ r, d.checkedSub d' = some r → r.toRat = d.toRat - d'.toRat
  /-- A product is exact while its scale is one. -/
  exactProduct : d.scale + d'.scale ≤ 18 → ∀ r, d.checkedMul d' = some r →
    r.toRat = d.toRat * d'.toRat
  /-- The mantissas that are added are computed in 128 bits. -/
  aligned : ∃ a b, d.toI128At (max d.scale d'.scale) = some a ∧
    d'.toI128At (max d.scale d'.scale) = some b ∧ FitsI128 a ∧ FitsI128 b ∧
    FitsI128 (a + b) ∧ FitsI128 (a - b)
  /-- So is the product of the mantissas. -/
  multiplied : FitsI128 (d.mantissa * d'.mantissa)

/-- The mantissa a decimal has at a scale of at least its own. -/
theorem toRat_mul_pow {d : Decimal} {scale : ℕ} (h : d.scale ≤ scale) :
    d.toRat * 10 ^ scale = (d.mantissa * 10 ^ (scale - d.scale) : ℤ) := by
  rw [toRat_eq_div h]
  field_simp

theorem checkedAdd_eq (d d' : Decimal) : d.checkedAdd d' =
    nearest (d.toRat + d'.toRat) (max d.scale d'.scale) (max_le d.scale_le d'.scale_le) := by
  have hsum : (d.toRat + d'.toRat) * 10 ^ max d.scale d'.scale =
      (d.mantissa * 10 ^ (max d.scale d'.scale - d.scale) +
        d'.mantissa * 10 ^ (max d.scale d'.scale - d'.scale) : ℤ) := by
    rw [add_mul, toRat_mul_pow (le_max_left _ _), toRat_mul_pow (le_max_right _ _)]
    push_cast
    rfl
  rw [nearest_of_whole hsum, checkedAdd, toI128At_of_le (le_max_left _ _),
    toI128At_of_le (le_max_right _ _)]
  rfl

theorem checkedSub_eq (d d' : Decimal) : d.checkedSub d' =
    nearest (d.toRat - d'.toRat) (max d.scale d'.scale) (max_le d.scale_le d'.scale_le) := by
  have hdifference : (d.toRat - d'.toRat) * 10 ^ max d.scale d'.scale =
      (d.mantissa * 10 ^ (max d.scale d'.scale - d.scale) -
        d'.mantissa * 10 ^ (max d.scale d'.scale - d'.scale) : ℤ) := by
    rw [sub_mul, toRat_mul_pow (le_max_left _ _), toRat_mul_pow (le_max_right _ _)]
    push_cast
    rfl
  rw [nearest_of_whole hdifference, checkedSub, toI128At_of_le (le_max_left _ _),
    toI128At_of_le (le_max_right _ _)]
  rfl

/-- The product of two mantissas, in units of the sum of the scales. -/
theorem toRat_mul_toRat (d d' : Decimal) :
    d.toRat * d'.toRat * 10 ^ (d.scale + d'.scale) = (d.mantissa * d'.mantissa : ℤ) := by
  rw [toRat, toRat, pow_add]
  push_cast
  field_simp

theorem checkedMul_eq_of_le {d d' : Decimal} (h : d.scale + d'.scale ≤ 18) : d.checkedMul d' =
    nearest (d.toRat * d'.toRat) (min (d.scale + d'.scale) 18) (min_le_right _ _) := by
  have hscale : min (d.scale + d'.scale) 18 = d.scale + d'.scale := min_eq_left h
  have hproduct : d.toRat * d'.toRat * 10 ^ min (d.scale + d'.scale) 18 =
      (d.mantissa * d'.mantissa : ℤ) := by rw [hscale, toRat_mul_toRat]
  rw [nearest_of_whole hproduct, checkedMul, dif_pos h]
  simp only [hscale]

/-- A mantissa times a power of ten that is moved by at most 18 places fits with room to
spare. -/
theorem abs_mantissa_mul_pow_le (d : Decimal) {k : ℕ} (h : k ≤ 18) :
    |d.mantissa * 10 ^ k| ≤ 2 ^ 63 * 10 ^ 18 := by
  have hmantissa : |d.mantissa| ≤ 2 ^ 63 := by
    have := d.mantissa_fits
    rw [abs_le]
    omega
  rw [abs_mul, abs_of_pos (by positivity : (0 : ℤ) < 10 ^ k)]
  exact mul_le_mul hmantissa (pow_le_pow_right₀ (by norm_num) h) (by positivity) (by positivity)

/-- **Sums and differences are exact or refused, and so are products, but for one that rounds
to -2⁶³**: where the scales add to more than 18 it is refused. -/
theorem arithmetic_iff (d d' : Decimal) : ExactOrRefused d d' ↔
    ¬(18 < d.scale + d'.scale ∧ -2 ^ 63 - 1 / 2 ≤ d.toRat * d'.toRat * 10 ^ 18 ∧
      d.toRat * d'.toRat * 10 ^ 18 ≤ -2 ^ 63 + 1 / 2) := by
  have hadded : ∃ a b, d.toI128At (max d.scale d'.scale) = some a ∧
      d'.toI128At (max d.scale d'.scale) = some b ∧ FitsI128 a ∧ FitsI128 b ∧
      FitsI128 (a + b) ∧ FitsI128 (a - b) := by
    refine ⟨_, _, toI128At_of_le (le_max_left _ _), toI128At_of_le (le_max_right _ _), ?_⟩
    have hscale := d.scale_le
    have hscale' := d'.scale_le
    have ha := abs_le.mp (d.abs_mantissa_mul_pow_le
      (show max d.scale d'.scale - d.scale ≤ 18 by omega))
    have hb := abs_le.mp (d'.abs_mantissa_mul_pow_le
      (show max d.scale d'.scale - d'.scale ≤ 18 by omega))
    simp only [FitsI128]
    omega
  have hmultiplied : FitsI128 (d.mantissa * d'.mantissa) := by
    have hproduct : |d.mantissa * d'.mantissa| ≤ 2 ^ 63 * 2 ^ 63 := by
      rw [abs_mul]
      have h := d.mantissa_fits
      have h' := d'.mantissa_fits
      exact mul_le_mul (by rw [abs_le]; omega) (by rw [abs_le]; omega) (abs_nonneg _) (by norm_num)
    have := abs_le.mp hproduct
    rw [FitsI128]
    omega
  have hmul : ExactOrRefused d d' ↔ d.checkedMul d' =
      nearest (d.toRat * d'.toRat) (min (d.scale + d'.scale) 18) (min_le_right _ _) := by
    refine ⟨ExactOrRefused.mul, fun hmul => ⟨checkedAdd_eq d d', checkedSub_eq d d', hmul,
      fun _ => toRat_checkedAdd, fun _ => toRat_checkedSub, fun hle r hr => ?_, hadded,
      hmultiplied⟩⟩
    refine toRat_nearest ⟨d.mantissa * d'.mantissa, ?_⟩ (hmul.symm.trans hr)
    rw [min_eq_left hle, toRat_mul_toRat]
  rw [hmul]
  rcases le_or_gt (d.scale + d'.scale) 18 with hle | hgt
  · exact iff_of_true (checkedMul_eq_of_le hle) (by omega)
  · have hscale : min (d.scale + d'.scale) 18 = 18 := min_eq_right hgt.le
    have hlt := d.scale_le
    have hlt' := d'.scale_le
    -- the product in units of the greatest scale, before it is rounded
    have hproduct : d.toRat * d'.toRat * 10 ^ 18 =
        ((d.mantissa * d'.mantissa : ℤ) : ℚ) / 10 ^ (d.scale + d'.scale - 18) := by
      rw [← toRat_mul_toRat, eq_div_iff (by positivity), mul_assoc _ ((10 : ℚ) ^ 18), ← pow_add,
        Nat.add_sub_cancel' hgt.le]
    have hsign : (decide (d.mantissa * d'.mantissa < 0) = true →
        d.toRat * d'.toRat * 10 ^ 18 ≤ 0) ∧ (decide (d.mantissa * d'.mantissa < 0) = false →
          0 ≤ d.toRat * d'.toRat * 10 ^ 18) := by
      rw [hproduct]
      constructor
      · intro hneg
        exact div_nonpos_of_nonpos_of_nonneg
          (by exact_mod_cast (of_decide_eq_true hneg).le) (by positivity)
      · intro hpos
        exact div_nonneg (by exact_mod_cast not_lt.mp (of_decide_eq_false hpos)) (by positivity)
    have hround : ((roundOff (d.mantissa * d'.mantissa).natAbs (d.scale + d'.scale - 18) false : ℕ)
        : ℤ) = halfEven |d.toRat * d'.toRat * 10 ^ 18| := by
      rw [roundOff_false (by omega), hproduct, abs_div, abs_of_pos (by positivity : (0 : ℚ) <
        10 ^ (d.scale + d'.scale - 18)), Nat.cast_natAbs, Int.cast_abs]
    simp only [hscale, nearest, checkedMul, dif_neg (not_le.mpr hgt)]
    rw [ofMagnitude_eq_iff hround hsign.1 hsign.2]
    simp only [hgt, true_and]

/-! ### Quotients -/

/-- The quotient before it is rounded, in units of the scale: a tenth of what is computed. -/
theorem toRat_div_toRat (d d' : Decimal) (scale : ℕ) :
    d.toRat / d'.toRat * 10 ^ scale =
      (d.mantissa : ℚ) / d'.mantissa * 10 ^ ((scale : ℤ) + d'.scale - d.scale) := by
  rw [toRat, toRat, zpow_sub₀ (by norm_num), zpow_add₀ (by norm_num), zpow_natCast, zpow_natCast,
    zpow_natCast]
  field_simp

/-- The whole part of a quotient, with the remainder as a sticky bit, rounds as the quotient
does. -/
theorem roundOff_div {n m : ℕ} (hm : 0 < m) :
    (roundOff (n / m) 1 (n % m ≠ 0) : ℤ) = halfEven ((n : ℚ) / m / 10) := by
  have hm' : (0 : ℚ) < m := by exact_mod_cast hm
  have hdiv : (n : ℚ) = m * (n / m : ℕ) + (n % m : ℕ) := by
    exact_mod_cast (Nat.div_add_mod n m).symm
  have hquot : (n : ℚ) / m = (n / m : ℕ) + (n % m : ℕ) / (m : ℚ) := by
    rw [div_eq_iff hm'.ne', add_mul, div_mul_cancel₀ _ hm'.ne', mul_comm _ (m : ℚ)]
    exact hdiv
  have hlt : ((n % m : ℕ) : ℚ) < m := by exact_mod_cast Nat.mod_lt n hm
  rw [← pow_one (10 : ℚ), hquot]
  refine roundOff_eq ?_ ?_ ?_ (by simp) (by norm_num)
  · exact le_add_of_nonneg_right (by positivity)
  · exact add_lt_add_right ((div_lt_one hm').mpr hlt) _
  · simp [hm'.ne']

/-- The sign of a quotient, in any unit. -/
theorem quotient_sign {a b : ℤ} {x c : ℚ} (hc : 0 ≤ c) (hx : x = (a : ℚ) / b * c) :
    ((decide (a < 0) != decide (b < 0)) = true → x ≤ 0) ∧
      ((decide (a < 0) != decide (b < 0)) = false → 0 ≤ x) := by
  subst hx
  rcases lt_or_ge a 0 with ha | ha <;> rcases lt_or_ge b 0 with hb | hb
  · have ha' : (a : ℚ) ≤ 0 := by exact_mod_cast ha.le
    have hb' : (b : ℚ) ≤ 0 := by exact_mod_cast hb.le
    exact ⟨by simp [ha, hb], fun _ => mul_nonneg (div_nonneg_of_nonpos ha' hb') hc⟩
  · have ha' : (a : ℚ) ≤ 0 := by exact_mod_cast ha.le
    have hb' : (0 : ℚ) ≤ b := by exact_mod_cast hb
    exact ⟨fun _ => mul_nonpos_of_nonpos_of_nonneg (div_nonpos_of_nonpos_of_nonneg ha' hb') hc,
      by simp [ha, hb]⟩
  · have ha' : (0 : ℚ) ≤ a := by exact_mod_cast ha
    have hb' : (b : ℚ) ≤ 0 := by exact_mod_cast hb.le
    exact ⟨fun _ => mul_nonpos_of_nonpos_of_nonneg (div_nonpos_of_nonneg_of_nonpos ha' hb') hc,
      by simp [ha, hb]⟩
  · have ha' : (0 : ℚ) ≤ a := by exact_mod_cast ha
    have hb' : (0 : ℚ) ≤ b := by exact_mod_cast hb
    exact ⟨by simp [not_lt.mpr ha, not_lt.mpr hb], fun _ => mul_nonneg (div_nonneg ha' hb') hc⟩

/-- **What a quotient should be**: nothing over zero, and else the nearest decimal of the scale. -/
def CorrectlyDivided (d d' : Decimal) (scale : ℕ) (hscale : scale ≤ 18) : Prop :=
  d.checkedDiv d' scale =
    if d'.mantissa = 0 then none else nearest (d.toRat / d'.toRat) scale hscale

/-- **A quotient is the nearest decimal**, unless it rounds to -2⁶³, or its numerator needs
more than 128 bits although it fits. -/
theorem checkedDiv_iff (d d' : Decimal) {scale : ℕ} (hscale : scale ≤ 18) :
    CorrectlyDivided d d' scale hscale ↔ d'.mantissa = 0 ∨
      d.toRat / d'.toRat * 10 ^ scale < -2 ^ 63 - 1 / 2 ∨
      2 ^ 63 - 1 / 2 ≤ d.toRat / d'.toRat * 10 ^ scale ∨
      (-2 ^ 63 + 1 / 2 < d.toRat / d'.toRat * 10 ^ scale ∧
        d.mantissa.natAbs * 10 ^ (scale + d'.scale + 1 - d.scale) < 2 ^ 128) := by
  rw [CorrectlyDivided]
  rcases eq_or_ne d'.mantissa 0 with hzero | hzero
  · simp [checkedDiv, hzero]
  have hlt := d.scale_le
  have hlt' := d'.scale_le
  have hb : 0 < d'.mantissa.natAbs := Int.natAbs_pos.mpr hzero
  have hx' := toRat_div_toRat d d' scale
  generalize hx : d.toRat / d'.toRat * 10 ^ scale = x at hx' ⊢
  have hsign := quotient_sign (by positivity) hx'
  have hsmall : d'.mantissa.natAbs * 10 ^ (-((scale : ℤ) + d'.scale - d.scale + 1)).toNat <
      2 ^ 128 := by
    have hfits := d'.mantissa_fits
    refine lt_of_le_of_lt (Nat.mul_le_mul (show d'.mantissa.natAbs ≤ 2 ^ 63 by omega)
      (Nat.pow_le_pow_right (by norm_num) (show _ ≤ 18 by omega))) (by norm_num)
  have hshift : ((scale : ℤ) + d'.scale - d.scale + 1).toNat = scale + d'.scale + 1 - d.scale := by
    omega
  simp only [checkedDiv, hzero, not_lt.mpr hscale, or_self, dite_false, if_false, false_or, hshift,
    Bool.or_eq_true, decide_eq_true_eq, not_le.mpr hsmall, or_false,
    not_lt.mpr (show ((scale : ℤ) + d'.scale - d.scale + 1).natAbs ≤ 38 by omega)]
  split
  next hbig =>
    rw [eq_comm, nearest_eq_none_iff, hx]
    simp only [not_lt.mpr hbig, and_false, or_false]
  next hbig =>
    have hround : ((roundOff (d.mantissa.natAbs * 10 ^ (scale + d'.scale + 1 - d.scale) /
        (d'.mantissa.natAbs * 10 ^ (-((scale : ℤ) + d'.scale - d.scale + 1)).toNat)) 1
        (d.mantissa.natAbs * 10 ^ (scale + d'.scale + 1 - d.scale) %
          (d'.mantissa.natAbs * 10 ^ (-((scale : ℤ) + d'.scale - d.scale + 1)).toNat) ≠ 0) : ℕ) : ℤ)
        = halfEven |x| := by
      have hpow : (10 : ℚ) ^ (scale + d'.scale + 1 - d.scale) /
          10 ^ (-((scale : ℤ) + d'.scale - d.scale + 1)).toNat / 10 =
            10 ^ ((scale : ℤ) + d'.scale - d.scale) := by
        rw [← zpow_natCast, ← zpow_natCast, ← zpow_sub₀ (by norm_num), div_eq_mul_inv _ (10 : ℚ),
          ← zpow_sub_one₀ (by norm_num)]
        congr 1
        omega
      rw [roundOff_div (by positivity), hx', abs_mul, abs_div,
        abs_of_pos (by positivity : (0 : ℚ) < 10 ^ ((scale : ℤ) + d'.scale - d.scale)), ← hpow]
      push_cast [Nat.cast_natAbs]
      rw [mul_div_mul_comm, mul_div_assoc]
    rw [nearest, hx, ofMagnitude_eq_iff hround hsign.1 hsign.2]
    rw [not_le] at hbig
    simp only [hbig, and_true]
    constructor
    · intro hmin
      rcases lt_or_ge x (-2 ^ 63 - 1 / 2) with hlow | hlow
      · exact Or.inl hlow
      · exact Or.inr (Or.inr (not_le.mp fun hhigh => hmin ⟨hlow, hhigh⟩))
    · rintro (hlow | hhigh | hhigh) ⟨hge, hle⟩ <;> linarith

end Decimal

end OcppKit

namespace OcppKit.Reference

/-! ### The least mantissa -/

/-- -9.223372036854775808, whose mantissa is -2⁶³. -/
def leastMantissa : Decimal := ⟨-2 ^ 63, 18, by decide, Decimal.scale_max_le⟩

/-- 1.0. -/
def onePointZero : Decimal := ⟨10, 1, by decide, by decide⟩

/-- **It times 1.0 is refused.** -/
theorem product_refused : ¬∀ d d' : Decimal, Decimal.ExactOrRefused d d' := by
  intro h
  have hproduct : leastMantissa.toRat * onePointZero.toRat *
      10 ^ min (leastMantissa.scale + onePointZero.scale) 18 = (-2 ^ 63 : ℤ) := by
    norm_num [Decimal.toRat, leastMantissa, onePointZero]
  have hmul := (h leastMantissa onePointZero).mul
  rw [show leastMantissa.checkedMul onePointZero = none by decide,
    Decimal.nearest_of_whole hproduct] at hmul
  exact absurd hmul (by decide)

/-! ### Quotients -/

/-- A third, to two digits. -/
theorem checkedDiv_iff_third :
    Decimal.CorrectlyDivided (.fromI64 1) (.fromI64 3) 2 (by decide) := by
  refine (Decimal.checkedDiv_iff (.fromI64 1) (.fromI64 3) (by decide)).mpr (Or.inr ?_)
  refine Or.inr (Or.inr ⟨?_, by decide⟩)
  norm_num [Decimal.toRat, Decimal.fromI64]

/-- 9.200000000000000000, to all its digits. -/
def wideDivisor : Decimal := ⟨9200000000000000000, 18, by decide, Decimal.scale_max_le⟩

/-- **35 by that is refused**: 35 and 37 zeros are too many digits. -/
theorem quotient_refused : ¬∀ (d d' : Decimal) (scale : ℕ) (hscale : scale ≤ 18),
    Decimal.CorrectlyDivided d d' scale hscale := by
  intro h
  have hdiv := h (.fromI64 35) wideDivisor 18 le_rfl
  rw [Decimal.CorrectlyDivided, if_neg (by decide),
    show (Decimal.fromI64 35).checkedDiv wideDivisor 18 = none by decide +kernel, eq_comm,
    Decimal.nearest_eq_none_iff] at hdiv
  norm_num [Decimal.toRat, Decimal.fromI64, wideDivisor] at hdiv

end OcppKit.Reference
