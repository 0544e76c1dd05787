import Mathlib

/-!
# Exact decimals

Every quantity of the protocol is an `OcppKit.Decimal`: a 64-bit mantissa and a scale, at
most 18, which says how many of its digits follow the point. The scale is a claim of
resolution and is part of the value: Lean's equality is the source's `eq_exact`, and
`2.50` is not `2.5`. The source's `==` is `OcppKit.Decimal.same`, which compares numbers.

What a decimal stands for is the rational number `OcppKit.Decimal.toRat`. The source
compares and subtracts in 128 bits, which 19 digits moved by 18 places never leave, so
both are exact: `OcppKit.Decimal.same_iff`, `OcppKit.Decimal.toRat_checkedSub`.
-/

namespace OcppKit

/-- An exact base-10 number: `mantissa × 10⁻ˢᶜᵃˡᵉ`. -/
structure Decimal where
  /-- The value with the decimal point removed. -/
  mantissa : ℤ
  /-- How many digits follow the decimal point. -/
  scale : ℕ
  /-- The mantissa is a signed 64-bit number. -/
  mantissa_fits : -2 ^ 63 ≤ mantissa ∧ mantissa < 2 ^ 63
  /-- At most 18 digits follow the point. -/
  scale_le : scale ≤ 18
deriving DecidableEq

namespace Decimal

theorem fits_zero : -2 ^ 63 ≤ (0 : ℤ) ∧ (0 : ℤ) < 2 ^ 63 := by decide

theorem scale_zero_le : 0 ≤ 18 := Nat.zero_le _

theorem scale_max_le : 18 ≤ 18 := le_rfl

/-- A whole number. -/
def fromI64 (value : ℤ) (h : -2 ^ 63 ≤ value ∧ value < 2 ^ 63 := by decide) : Decimal :=
  ⟨value, 0, h, Nat.zero_le _⟩

/-- The mantissa this value would have at `scale`. -/
def toI128At (d : Decimal) (scale : ℕ) : Option ℤ :=
  if scale < d.scale then none else some (d.mantissa * 10 ^ (scale - d.scale))

/-- What 128 bits hold, with a sign. -/
def FitsI128 (n : ℤ) : Prop := -2 ^ 127 ≤ n ∧ n < 2 ^ 127

/-- Narrows a mantissa back to a decimal, if it fits. -/
def narrow (mantissa : ℤ) (scale : ℕ) (hscale : scale ≤ 18) : Option Decimal :=
  if h : -2 ^ 63 ≤ mantissa ∧ mantissa < 2 ^ 63 then some ⟨mantissa, scale, h, hscale⟩ else none

/-- The difference, at the larger of the two scales, or `none` on overflow. -/
def checkedSub (d d' : Decimal) : Option Decimal := do
  let scale := max d.scale d'.scale
  let a ← d.toI128At scale
  let b ← d'.toI128At scale
  narrow (a - b) scale (max_le d.scale_le d'.scale_le)

/-- The sum, at the larger of the two scales, or `none` on overflow. -/
def checkedAdd (d d' : Decimal) : Option Decimal := do
  let scale := max d.scale d'.scale
  let a ← d.toI128At scale
  let b ← d'.toI128At scale
  narrow (a + b) scale (max_le d.scale_le d'.scale_le)

/-- Drops decimal digits from a magnitude, rounding half to even; `sticky` says whether
anything was already dropped below them. -/
def roundOff (magnitude digits : ℕ) (sticky : Bool) : ℕ :=
  if digits = 0 then magnitude
  else if 38 < digits then 0
  else
    let divisor := 10 ^ digits
    let quotient := magnitude / divisor
    let remainder := magnitude % divisor
    let half := divisor / 2
    if half < remainder || (remainder = half && (sticky || quotient % 2 = 1)) then quotient + 1
    else quotient

/-- A magnitude and a sign as a decimal, if the magnitude fits. -/
def ofMagnitude (negative : Bool) (magnitude scale : ℕ) (hscale : scale ≤ 18) : Option Decimal :=
  if h : magnitude < 2 ^ 63 then
    some ⟨if negative then -(magnitude : ℤ) else magnitude, scale,
      by split <;> omega, hscale⟩
  else none

/-- The product, at the sum of the two scales, or `none` when that does not fit. Digits past
the greatest scale are rounded away. -/
def checkedMul (d d' : Decimal) : Option Decimal :=
  let product := d.mantissa * d'.mantissa
  if h : d.scale + d'.scale ≤ 18 then narrow product (d.scale + d'.scale) h
  else
    ofMagnitude (product < 0) (roundOff product.natAbs (d.scale + d'.scale - 18) false) 18 le_rfl

/-- The quotient at `scale`, rounded half to even, or `none` when the divisor is zero or the
result does not fit. The source multiplies the one or the other in 128 bits, for one digit
more than it keeps. -/
def checkedDiv (d d' : Decimal) (scale : ℕ) : Option Decimal :=
  if h : d'.mantissa = 0 ∨ 18 < scale then none
  else
    let shift : ℤ := scale + d'.scale - d.scale + 1
    let numerator := d.mantissa.natAbs * 10 ^ shift.toNat
    let denominator := d'.mantissa.natAbs * 10 ^ (-shift).toNat
    if 38 < shift.natAbs || 2 ^ 128 ≤ numerator || 2 ^ 128 ≤ denominator then none
    else
      ofMagnitude ((d.mantissa < 0) != (d'.mantissa < 0))
        (roundOff (numerator / denominator) 1 (numerator % denominator ≠ 0)) scale (by omega)

/-- Numeric comparison. -/
def compare (d d' : Decimal) : Ordering :=
  let scale := max d.scale d'.scale
  match d.toI128At scale, d'.toI128At scale with
  | some a, some b => Ord.compare a b
  | _, _ => Ord.compare d.mantissa d'.mantissa

/-- Whether the first is at most the second. -/
def le (d d' : Decimal) : Bool := d.compare d' ≠ .gt

/-- Whether the two are the same number, whatever their scales. -/
def same (d d' : Decimal) : Bool := d.compare d' = .eq

/-! ### The number it stands for -/

/-- **The number a decimal stands for.** -/
def toRat (d : Decimal) : ℚ := d.mantissa / 10 ^ d.scale

theorem toI128At_of_le {d : Decimal} {scale : ℕ} (h : d.scale ≤ scale) :
    d.toI128At scale = some (d.mantissa * 10 ^ (scale - d.scale)) := by
  rw [toI128At, if_neg (by omega)]

/-- Moved to a scale, it stands for the same number. -/
theorem toRat_eq_div {d : Decimal} {scale : ℕ} (h : d.scale ≤ scale) :
    d.toRat = ((d.mantissa * 10 ^ (scale - d.scale) : ℤ) : ℚ) / 10 ^ scale := by
  have hpow : (10 : ℚ) ^ scale = 10 ^ d.scale * 10 ^ (scale - d.scale) := by
    rw [← pow_add]
    congr 1
    omega
  rw [toRat, hpow]
  push_cast
  field_simp

/-- **Two decimals compare as the numbers they stand for.** -/
theorem compare_eq_compare_toRat (d d' : Decimal) :
    d.compare d' = Ord.compare d.toRat d'.toRat := by
  rw [compare, toI128At_of_le (le_max_left _ _), toI128At_of_le (le_max_right _ _),
    toRat_eq_div (le_max_left d.scale d'.scale), toRat_eq_div (le_max_right d.scale d'.scale)]
  have hpos : (0 : ℚ) < 10 ^ max d.scale d'.scale := by positivity
  generalize d.mantissa * 10 ^ _ = a
  generalize d'.mantissa * 10 ^ _ = b
  have hmono : StrictMono fun n : ℤ => (n : ℚ) / 10 ^ max d.scale d'.scale :=
    fun m n hmn => div_lt_div_of_pos_right (Int.cast_lt.mpr hmn) hpos
  change Ord.compare a b = Ord.compare ((a : ℚ) / 10 ^ _) ((b : ℚ) / 10 ^ _)
  rw [← cmp_eq_compare, ← cmp_eq_compare]
  exact (hmono.cmp_map_eq a b).symm

/-- Two decimals are the same when they stand for the same number. -/
theorem same_iff {d d' : Decimal} : d.same d' = true ↔ d.toRat = d'.toRat := by
  rw [same, decide_eq_true_iff, compare_eq_compare_toRat, compare_eq_iff_eq]

/-- The first is at most the second when it stands for no greater a number. -/
theorem le_iff {d d' : Decimal} : d.le d' = true ↔ d.toRat ≤ d'.toRat := by
  rw [le, decide_eq_true_iff, compare_eq_compare_toRat, ne_eq, compare_gt_iff_gt, not_lt]

/-- **A sum that fits is exact.** -/
theorem toRat_checkedAdd {d d' r : Decimal} (h : d.checkedAdd d' = some r) :
    r.toRat = d.toRat + d'.toRat := by
  rw [checkedAdd, toI128At_of_le (le_max_left _ _), toI128At_of_le (le_max_right _ _)] at h
  simp only [Option.bind_eq_bind, Option.bind_some, narrow] at h
  split at h
  · obtain rfl := Option.some.inj h
    rw [toRat_eq_div (le_max_left d.scale d'.scale), toRat_eq_div (le_max_right d.scale d'.scale),
      ← add_div, toRat]
    push_cast
    rfl
  · exact absurd h (by simp)

/-- **A difference that fits is exact.** -/
theorem toRat_checkedSub {d d' r : Decimal} (h : d.checkedSub d' = some r) :
    r.toRat = d.toRat - d'.toRat := by
  rw [checkedSub, toI128At_of_le (le_max_left _ _), toI128At_of_le (le_max_right _ _)] at h
  simp only [Option.bind_eq_bind, Option.bind_some, narrow] at h
  split at h
  · obtain rfl := Option.some.inj h
    rw [toRat_eq_div (le_max_left d.scale d'.scale), toRat_eq_div (le_max_right d.scale d'.scale),
      ← sub_div, toRat]
    push_cast
    rfl
  · exact absurd h (by simp)

/-! ### Signs -/

theorem toRat_nonneg_iff {d : Decimal} : 0 ≤ d.toRat ↔ 0 ≤ d.mantissa := by
  have hpos : (0 : ℚ) < 10 ^ d.scale := by positivity
  rw [toRat, le_div_iff₀ hpos, zero_mul, Int.cast_nonneg_iff]

theorem mantissa_of_narrow {mantissa : ℤ} {scale : ℕ} {hscale : scale ≤ 18} {d : Decimal}
    (h : narrow mantissa scale hscale = some d) : d.mantissa = mantissa := by
  rw [narrow] at h
  split at h
  · obtain rfl := Option.some.inj h
    rfl
  · exact absurd h (by simp)

theorem ofMagnitude_nonneg {magnitude scale : ℕ} {hscale : scale ≤ 18} {d : Decimal}
    (h : ofMagnitude false magnitude scale hscale = some d) : 0 ≤ d.mantissa := by
  rw [ofMagnitude] at h
  split at h
  · obtain rfl := Option.some.inj h
    exact Int.natCast_nonneg magnitude
  · exact absurd h (by simp)

/-- What is not negative has no negative product. -/
theorem checkedMul_nonneg {d d' r : Decimal} (hd : 0 ≤ d.mantissa) (hd' : 0 ≤ d'.mantissa)
    (h : d.checkedMul d' = some r) : 0 ≤ r.mantissa := by
  have hproduct : 0 ≤ d.mantissa * d'.mantissa := mul_nonneg hd hd'
  rw [checkedMul] at h
  split at h
  · rw [mantissa_of_narrow h]
    exact hproduct
  · rw [decide_eq_false (not_lt.mpr hproduct)] at h
    exact ofMagnitude_nonneg h

/-- And no negative quotient. -/
theorem checkedDiv_nonneg {d d' r : Decimal} {scale : ℕ} (hd : 0 ≤ d.mantissa)
    (hd' : 0 ≤ d'.mantissa) (h : d.checkedDiv d' scale = some r) : 0 ≤ r.mantissa := by
  rw [checkedDiv] at h
  split at h
  · exact absurd h (by simp)
  · dsimp only at h
    split at h
    · exact absurd h (by simp)
    · rw [decide_eq_false (not_lt.mpr hd), decide_eq_false (not_lt.mpr hd')] at h
      exact ofMagnitude_nonneg h

end Decimal

end OcppKit
