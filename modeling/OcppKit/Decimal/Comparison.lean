import OcppKit.Decimal

/-!
# One order, one equality, one hash

Two decimals are compared at the larger of their scales; they are hashed after the zeros at the
end have been stripped off. The first is the order of the numbers they stand for
(`OcppKit.Decimal.compare_eq_compare_toRat`), and the second tells numbers apart: a normalized
decimal is the only one of its number (`OcppKit.Decimal.Normal.eq_of_toRat`). So decimals that
compare equal are hashed alike, and no others are (`OcppKit.Decimal.compare_total`).

Nothing overflows on the way: 19 digits with 18 zeros behind them fit 128 bits.
-/

namespace OcppKit

namespace Decimal

/-! ### Stripping zeros -/

/-- Strips zeros off the end of a mantissa, as far as there is scale for them. -/
def stripZeros : (scale : ℕ) → ℤ → ℤ × ℕ
  | 0, mantissa => (mantissa, 0)
  | scale + 1, mantissa =>
      if mantissa.tmod 10 = 0 then stripZeros scale (mantissa.tdiv 10) else (mantissa, scale + 1)

/-- What is stripped is the same number, and has no more zeros to strip. -/
theorem stripZeros_spec (scale : ℕ) (mantissa : ℤ) :
    ∃ k, (stripZeros scale mantissa).2 + k = scale ∧
      (stripZeros scale mantissa).1 * 10 ^ k = mantissa ∧
      ((stripZeros scale mantissa).2 = 0 ∨ ¬(10 : ℤ) ∣ (stripZeros scale mantissa).1) := by
  induction scale generalizing mantissa with
  | zero => exact ⟨0, rfl, by rw [stripZeros, pow_zero, mul_one], Or.inl rfl⟩
  | succ scale ih =>
      rw [stripZeros]
      split
      next hzero =>
        obtain ⟨k, hscale, hmantissa, hnormal⟩ := ih (mantissa.tdiv 10)
        refine ⟨k + 1, by omega, ?_, hnormal⟩
        rw [pow_succ, ← mul_assoc, hmantissa]
        exact Int.tdiv_mul_cancel (Int.dvd_of_tmod_eq_zero hzero)
      next hne =>
        refine ⟨0, rfl, by rw [pow_zero, mul_one], Or.inr fun hdvd => hne ?_⟩
        exact Int.tmod_eq_zero_of_dvd hdvd

/-- A number with zeros behind it that fits, fits without them. -/
theorem fits_of_mul_pow_ten {n m : ℤ} {k : ℕ} (h : n * 10 ^ k = m)
    (hm : -2 ^ 63 ≤ m ∧ m < 2 ^ 63) : -2 ^ 63 ≤ n ∧ n < 2 ^ 63 := by
  have hpow : (1 : ℤ) ≤ 10 ^ k := one_le_pow₀ (by norm_num)
  have habs : |n| ≤ |m| := by
    rw [← h, abs_mul, abs_of_pos (by positivity : (0 : ℤ) < 10 ^ k)]
    exact le_mul_of_one_le_right (abs_nonneg n) hpow
  rcases le_or_gt 0 n with hn | hn
  · have hpos : 0 ≤ m := h ▸ mul_nonneg hn (by positivity)
    rw [abs_of_nonneg hn, abs_of_nonneg hpos] at habs
    omega
  · have hneg : m ≤ 0 := h ▸ mul_nonpos_of_nonpos_of_nonneg hn.le (by positivity)
    rw [abs_of_neg hn, abs_of_nonpos hneg] at habs
    omega

theorem stripZeros_fits (d : Decimal) : -2 ^ 63 ≤ (stripZeros d.scale d.mantissa).1 ∧
    (stripZeros d.scale d.mantissa).1 < 2 ^ 63 := by
  obtain ⟨k, -, hmantissa, -⟩ := stripZeros_spec d.scale d.mantissa
  exact fits_of_mul_pow_ten hmantissa d.mantissa_fits

theorem stripZeros_scale_le (d : Decimal) : (stripZeros d.scale d.mantissa).2 ≤ 18 := by
  obtain ⟨k, hscale, -, -⟩ := stripZeros_spec d.scale d.mantissa
  have := d.scale_le
  omega

/-- **The same number with every zero at the end removed.** -/
def normalized (d : Decimal) : Decimal where
  mantissa := (stripZeros d.scale d.mantissa).1
  scale :=
    if (stripZeros d.scale d.mantissa).1 = 0 then 0 else (stripZeros d.scale d.mantissa).2
  mantissa_fits := d.stripZeros_fits
  scale_le := by
    split
    · exact Nat.zero_le _
    · exact d.stripZeros_scale_le

theorem toRat_normalized (d : Decimal) : d.normalized.toRat = d.toRat := by
  obtain ⟨k, hscale, hmantissa, -⟩ := stripZeros_spec d.scale d.mantissa
  have hvalue : ((stripZeros d.scale d.mantissa).1 : ℚ) / 10 ^ (stripZeros d.scale d.mantissa).2 =
      d.toRat := by
    generalize stripZeros d.scale d.mantissa = stripped at hscale hmantissa ⊢
    rw [toRat, ← hscale, ← hmantissa, pow_add]
    push_cast
    field_simp
  rw [← hvalue, toRat, normalized]
  dsimp only
  split
  next hzero => rw [hzero, Int.cast_zero, zero_div, zero_div]
  next hne => rfl

/-! ### Normal decimals -/

/-- **A normal decimal**: it is a whole number, or ends in a digit other than zero. -/
def Normal (d : Decimal) : Prop := d.scale = 0 ∨ ¬(10 : ℤ) ∣ d.mantissa

theorem normal_normalized (d : Decimal) : d.normalized.Normal := by
  obtain ⟨k, -, -, hnormal⟩ := stripZeros_spec d.scale d.mantissa
  rw [Normal, normalized]
  dsimp only
  split
  · exact Or.inl rfl
  · exact hnormal

/-- A normal decimal has no larger a scale than any decimal of its number. -/
theorem Normal.scale_le {d d' : Decimal} (h : d.Normal) (heq : d.toRat = d'.toRat) :
    d.scale ≤ d'.scale := by
  by_contra hlt
  rw [not_le] at hlt
  rcases h with hzero | hnormal
  · omega
  refine hnormal ?_
  -- at the larger scale, the other mantissa has zeros at its end
  have hmantissa : d.mantissa = d'.mantissa * 10 ^ (d.scale - d'.scale) := by
    rw [toRat_eq_div (le_refl d.scale), toRat_eq_div hlt.le,
      div_left_inj' (by positivity : (10 : ℚ) ^ d.scale ≠ 0), Int.cast_inj] at heq
    rwa [Nat.sub_self, pow_zero, mul_one] at heq
  rw [hmantissa]
  exact Dvd.dvd.mul_left (dvd_pow_self 10 (by omega)) _

theorem ext_of_eq {d d' : Decimal} (hmantissa : d.mantissa = d'.mantissa)
    (hscale : d.scale = d'.scale) : d = d' := by
  cases d
  cases d'
  subst hmantissa
  subst hscale
  rfl

/-- **No two normal decimals stand for one number.** -/
theorem Normal.eq_of_toRat {d d' : Decimal} (h : d.Normal) (h' : d'.Normal)
    (heq : d.toRat = d'.toRat) : d = d' := by
  have hscale : d.scale = d'.scale := le_antisymm (h.scale_le heq) (h'.scale_le heq.symm)
  refine ext_of_eq ?_ hscale
  rw [toRat, toRat, hscale, div_left_inj' (by positivity : (10 : ℚ) ^ d'.scale ≠ 0),
    Int.cast_inj] at heq
  exact heq

/-- Two decimals are one when normalized exactly when they are one number. -/
theorem normalized_eq_iff {d d' : Decimal} : d.normalized = d'.normalized ↔ d.toRat = d'.toRat := by
  constructor
  · intro h
    rw [← toRat_normalized d, ← toRat_normalized d', h]
  · intro h
    refine (normal_normalized d).eq_of_toRat (normal_normalized d') ?_
    rw [toRat_normalized, toRat_normalized, h]

/-! ### Hashing -/

/-- What is written to a hasher. -/
inductive HashInput where
  /-- A signed 64-bit number. -/
  | i64 (n : ℤ)
  /-- A byte. -/
  | u8 (n : ℕ)
deriving DecidableEq

/-- **What a decimal writes to a hasher**: the normalized mantissa, and the scale. -/
def hash (d : Decimal) : List HashInput := [.i64 d.normalized.mantissa, .u8 d.normalized.scale]

theorem hash_eq_iff {d d' : Decimal} : d.hash = d'.hash ↔ d.normalized = d'.normalized := by
  constructor
  · intro h
    rw [hash, hash] at h
    injection h with hmantissa h
    injection h with hscale
    injection hmantissa with hmantissa
    injection hscale with hscale
    exact ext_of_eq hmantissa hscale
  · intro h
    rw [hash, hash, h]

/-! ### In 128 bits -/

/-- **At any scale a mantissa is moved to, it fits**, and so does every power of ten on the
way. -/
theorem toI128At_fits (d : Decimal) {scale : ℕ} (hscale : scale ≤ 18) :
    (∀ k ≤ scale - d.scale, FitsI128 (10 ^ k)) ∧
      ∀ n, d.toI128At scale = some n → FitsI128 n := by
  have hpow : ∀ k ≤ 18, (0 : ℤ) < 10 ^ k ∧ (10 : ℤ) ^ k ≤ 10 ^ 18 := fun k hk =>
    ⟨by positivity, pow_le_pow_right₀ (by norm_num) hk⟩
  constructor
  · intro k hk
    obtain ⟨hpos, hle⟩ := hpow k (by omega)
    constructor <;> omega
  · intro n hn
    rw [toI128At] at hn
    split at hn
    · cases hn
    · obtain rfl := Option.some.inj hn
      obtain ⟨hpos, hle⟩ := hpow (scale - d.scale) (by omega)
      generalize (10 : ℤ) ^ (scale - d.scale) = p at hpos hle
      have hfits := d.mantissa_fits
      constructor
      · nlinarith
      · nlinarith

/-! ### The order -/

/-- **Comparison is the order of the numbers**: total, and equal exactly where the normalized
decimals are identical, which is where the hashes get the same input. The two mantissas that
are compared always exist and fit 128 bits, so nothing falls back on the signs. -/
theorem compare_total (d d' : Decimal) :
    d.compare d' = Ord.compare d.toRat d'.toRat ∧
      (d.compare d' = .eq ↔ d.normalized.mantissa = d'.normalized.mantissa ∧
        d.normalized.scale = d'.normalized.scale) ∧
      (d.compare d' = .eq ↔ d.hash = d'.hash) ∧ (d.same d' = true ↔ d.compare d' = .eq) ∧
      d'.compare d = (d.compare d').swap ∧
      (∀ e : Decimal, d.compare d' ≠ .gt → d'.compare e ≠ .gt → d.compare e ≠ .gt) ∧
      ∃ a b, d.toI128At (max d.scale d'.scale) = some a ∧ FitsI128 a ∧
        d'.toI128At (max d.scale d'.scale) = some b ∧ FitsI128 b ∧
        (∀ k ≤ max d.scale d'.scale, FitsI128 (10 ^ k)) ∧ d.compare d' = Ord.compare a b := by
  have heq : d.compare d' = .eq ↔ d.normalized = d'.normalized := by
    rw [compare_eq_compare_toRat, compare_eq_iff_eq, normalized_eq_iff]
  have hscale : max d.scale d'.scale ≤ 18 := max_le d.scale_le d'.scale_le
  have ha := toI128At_of_le (d := d) (le_max_left d.scale d'.scale)
  have hb := toI128At_of_le (d := d') (le_max_right d.scale d'.scale)
  refine ⟨compare_eq_compare_toRat d d', ?_, heq.trans hash_eq_iff.symm, decide_eq_true_iff, ?_,
    ?_, ?_⟩
  · rw [heq]
    exact ⟨fun h => ⟨congrArg mantissa h, congrArg scale h⟩, fun h => ext_of_eq h.1 h.2⟩
  · rw [compare_eq_compare_toRat, compare_eq_compare_toRat]
    exact Std.OrientedCmp.eq_swap
  · intro e h h'
    rw [compare_eq_compare_toRat, ne_eq, compare_gt_iff_gt, not_lt] at h h' ⊢
    exact h.trans h'
  · refine ⟨_, _, ha, (d.toI128At_fits hscale).2 _ ha, hb, (d'.toI128At_fits hscale).2 _ hb, ?_, ?_⟩
    · intro k hk
      exact ((fromI64 0).toI128At_fits hscale).1 k hk
    · rw [compare, ha, hb]

end Decimal

end OcppKit
