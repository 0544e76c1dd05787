import OcppKit.Decimal.Reading
import OcppKit.Library.Staged

/-!
# Rounding what does not fit

A numeral may have more digits than a decimal holds. What it should be read as is the
decimal nearest to it, half to even, at the largest scale that is at most the one it is
written with, and 18, and at which the mantissa fits: `OcppKit.Decimal.best`.

The parser gets there in stages. It rounds once for the digits that found no room, once for
those past the greatest scale, and then one digit at a time until the mantissa fits. At
every scale the mantissa is the numeral with its digits rounded away in these stages
(`OcppKit.Literal.stages`), and `OcppKit.Staged.threshold` says where that goes wrong: when
what is dropped lies between a half and the threshold of the stages – with digits that go
one by one, down to 5/11 where the last digit that is kept is odd and up to 6/11 where it is
even. Where it ought to go up because it is a half or more, and no mantissa is left, the
stages go up too, so the parser never stops at a scale that is too large. With three more
slips, -2⁶³, a zero with more digits than a scale has and an exponent whose digits are not all
counted in, that is all (`OcppKit.Literal.correctlyRounded_of_roundedWell`).
-/

namespace OcppKit

namespace Decimal

/-! ### What a numeral should be read as -/

/-- **The decimal nearest to a number**, half to even, at the largest scale up to a cap at which
its mantissa fits. -/
def best (v : ℚ) : (cap : ℕ) → cap ≤ 18 → Except ParseDecimalError Decimal
  | 0, hcap =>
      match nearest v 0 hcap with
      | some d => .ok d
      | none => .error .overflow
  | cap + 1, hcap =>
      match nearest v (cap + 1) hcap with
      | some d => .ok d
      | none => best v cap (Nat.le_of_succ_le hcap)

section

-- what is nearest is not looked into
attribute [local irreducible] nearest

theorem best_zero (v : ℚ) (hcap : 0 ≤ 18) : best v 0 hcap =
    match nearest v 0 hcap with
    | some d => .ok d
    | none => .error .overflow := rfl

theorem best_succ (v : ℚ) {cap : ℕ} (hcap : cap + 1 ≤ 18) : best v (cap + 1) hcap =
    match nearest v (cap + 1) hcap with
    | some d => .ok d
    | none => best v cap (Nat.le_of_succ_le hcap) := rfl

end

/-- **It is the largest scale, or there is none.** -/
theorem best_spec (v : ℚ) {cap : ℕ} (hcap : cap ≤ 18) :
    (∀ d, best v cap hcap = .ok d → ∃ h : d.scale ≤ cap,
      nearest v d.scale (h.trans hcap) = some d ∧
        ∀ scale, d.scale < scale → ∀ h' : scale ≤ cap, nearest v scale (h'.trans hcap) = none) ∧
    ∀ e, best v cap hcap = .error e →
      e = .overflow ∧ ∀ scale, ∀ h' : scale ≤ cap, nearest v scale (h'.trans hcap) = none := by
  have hscale : ∀ {scale : ℕ} {h : scale ≤ 18} {d : Decimal}, nearest v scale h = some d →
      d.scale = scale := fun hd => (of_narrow hd).1
  induction cap with
  | zero =>
      rw [best_zero]
      split
      next d hd =>
        refine ⟨fun d' hd' => ?_, fun e he => absurd he (by simp)⟩
        obtain rfl := Except.ok.inj hd'
        have hzero := hscale hd
        refine ⟨hzero.le, ?_, fun scale hlt h' => absurd hlt (by omega)⟩
        simp only [hzero]
        exact hd
      next hnone =>
        refine ⟨fun d hd => absurd hd (by simp), fun e he => ⟨(Except.error.inj he).symm, ?_⟩⟩
        intro scale h'
        obtain rfl : scale = 0 := by omega
        exact hnone
  | succ cap ih =>
      rw [best_succ]
      split
      next d hd =>
        refine ⟨fun d' hd' => ?_, fun e he => absurd he (by simp)⟩
        obtain rfl := Except.ok.inj hd'
        have hcap' := hscale hd
        refine ⟨hcap'.le, ?_, fun scale hlt h' => absurd hlt (by omega)⟩
        simp only [hcap']
        exact hd
      next hnone =>
        obtain ⟨hok, herror⟩ := ih (Nat.le_of_succ_le hcap)
        refine ⟨fun d hd => ?_, fun e he => ?_⟩
        · obtain ⟨hle, hnearest, hlarger⟩ := hok d hd
          refine ⟨hle.trans (Nat.le_succ cap), hnearest, fun scale hlt h' => ?_⟩
          rcases h'.lt_or_eq with hlt' | rfl
          · exact hlarger scale hlt (Nat.lt_succ_iff.mp hlt')
          · exact hnone
        · obtain ⟨rfl, hlarger⟩ := herror e he
          refine ⟨rfl, fun scale h' => ?_⟩
          rcases h'.lt_or_eq with hlt' | rfl
          · exact hlarger scale (Nat.lt_succ_iff.mp hlt')
          · exact hnone

/-! ### Shrinking -/

/-- The nearest decimal of a scale, sign and magnitude apart. -/
theorem nearest_signed {x : ℚ} (hx : 0 ≤ x) (negative : Bool) {scale : ℕ} (hscale : scale ≤ 18) :
    (nearest (if negative then -x else x) scale hscale = none →
      2 ^ 63 ≤ halfEven (x * 10 ^ scale)) ∧
      ∀ d, nearest (if negative then -x else x) scale hscale = some d → d.scale = scale ∧
        d.mantissa =
          (if negative then -halfEven (x * 10 ^ scale) else halfEven (x * 10 ^ scale)) := by
  have hround : halfEven ((if negative then -x else x) * 10 ^ scale) =
      if negative then -halfEven (x * 10 ^ scale) else halfEven (x * 10 ^ scale) := by
    cases negative with
    | true => simp only [if_true, neg_mul, halfEven_neg]
    | false => simp only [Bool.false_eq_true, if_false]
  have hpos : 0 ≤ halfEven (x * 10 ^ scale) := halfEven_nonneg (by positivity)
  rw [nearest, hround]
  refine ⟨fun hnone => ?_, fun d hd => ?_⟩
  · rw [narrow_eq_none_iff] at hnone
    cases negative <;> simp only [Bool.false_eq_true, if_false, if_true] at hnone <;> omega
  · exact of_narrow hd

/-- A magnitude at the scale of the best decimal is kept as it exactly when it is its own, and not
the least mantissa's. -/
theorem shrink_eq_ok_iff {negative : Bool} {magnitude scale : ℕ} {hscale : scale ≤ 18} {d : Decimal}
    {R : ℤ} (hR : 0 ≤ R) (hd : d.scale = scale)
    (hmantissa : d.mantissa = if negative then -R else R) :
    shrink negative magnitude scale hscale = .ok d ↔
      d.mantissa ≠ -2 ^ 63 ∧ (magnitude : ℤ) = R := by
  have hfits := d.mantissa_fits
  rcases lt_or_ge magnitude (2 ^ 63) with hlt | hge
  · obtain ⟨d', hd', hmantissa', hscale'⟩ := @shrink_of_lt negative magnitude scale hscale hlt
    rw [hd', Except.ok.injEq]
    constructor
    · rintro rfl
      rw [hmantissa'] at hmantissa ⊢
      cases negative <;> simp only [Bool.false_eq_true, if_false, if_true] at hmantissa ⊢ <;> omega
    · rintro ⟨-, rfl⟩
      obtain ⟨m, s, hm, hs⟩ := d
      obtain ⟨m', s', hm', hs'⟩ := d'
      obtain rfl : m' = m := hmantissa'.trans hmantissa.symm
      obtain rfl : s' = s := hscale'.trans hd.symm
      rfl
  · refine iff_of_false (fun hok => ?_) ?_
    · cases scale with
      | zero =>
          rw [shrink_zero_of_ge hge] at hok
          exact absurd hok (by simp)
      | succ scale =>
          rw [shrink_succ_of_ge hge] at hok
          have := scale_le_of_shrink hok
          omega
    · rintro ⟨hne, hmagnitude⟩
      rw [hmantissa] at hfits hne
      cases negative <;> simp only [Bool.false_eq_true, if_false, if_true] at hfits hne <;> omega

theorem shrink_eq_found_iff {x : ℚ} (hx : 0 ≤ x) {negative : Bool} {M : ℕ → ℕ} {scale : ℕ}
    {hscale : scale ≤ 18} {d : Decimal}
    (hd : nearest (if negative then -x else x) scale hscale = some d) :
    shrink negative (M scale) scale hscale = .ok d ↔
      ∀ d', (Except.ok d : Except ParseDecimalError Decimal) = .ok d' →
        d'.mantissa ≠ -2 ^ 63 ∧ (M d'.scale : ℤ) = halfEven (x * 10 ^ d'.scale) := by
  obtain ⟨hds, hdm⟩ := (nearest_signed hx negative hscale).2 d hd
  rw [shrink_eq_ok_iff (halfEven_nonneg (by positivity)) hds hdm]
  constructor
  · rintro h d' hd'
    obtain rfl := Except.ok.inj hd'
    rw [hds]
    exact h
  · intro h
    have := h d rfl
    rwa [hds] at this

/-- **Shrinking finds the best decimal exactly when the mantissa it stops at is the nearest and
not the least**: `M` is the magnitude at every scale, and it is at least 2⁶³ where it should
be. -/
theorem shrink_eq_best_iff {x : ℚ} (hx : 0 ≤ x) (negative : Bool) {M : ℕ → ℕ} {scale : ℕ}
    (hscale : scale ≤ 18) (hstep : ∀ s < scale, M s = roundOff (M (s + 1)) 1 false)
    (hreach : ∀ s ≤ scale, 2 ^ 63 ≤ halfEven (x * 10 ^ s) → 2 ^ 63 ≤ M s) :
    shrink negative (M scale) scale hscale = best (if negative then -x else x) scale hscale ↔
      ∀ d, best (if negative then -x else x) scale hscale = .ok d →
        d.mantissa ≠ -2 ^ 63 ∧ (M d.scale : ℤ) = halfEven (x * 10 ^ d.scale) := by
  induction scale with
  | zero =>
      rw [best_zero]
      split
      next d hd => exact shrink_eq_found_iff hx hd
      next hd =>
        have hnone := (nearest_signed hx negative hscale).1 hd
        rw [shrink_zero_of_ge (hreach 0 le_rfl hnone)]
        exact iff_of_true rfl fun d hd' => absurd hd' (by simp)
  | succ scale ih =>
      rw [best_succ]
      split
      next d hd => exact shrink_eq_found_iff hx hd
      next hd =>
        have hnone := (nearest_signed hx negative hscale).1 hd
        rw [shrink_succ_of_ge (hreach (scale + 1) le_rfl hnone),
          ← hstep scale (Nat.lt_succ_self scale)]
        exact ih (Nat.le_of_succ_le hscale)
          (fun s hs => hstep s (hs.trans (Nat.lt_succ_self scale)))
          (fun s hs => hreach s (hs.trans (Nat.le_succ scale)))

/-- A magnitude of 2⁶⁴ units or more is too large for a scale. -/
theorem nearest_eq_none_of_le {x : ℚ} {scale : ℕ} {hscale : scale ≤ 18} {negative : Bool}
    (hx : 2 ^ 64 ≤ x * 10 ^ scale) : nearest (if negative then -x else x) scale hscale = none := by
  rw [nearest_eq_none_iff]
  cases negative with
  | true =>
      refine Or.inl ?_
      simp only [if_true, neg_mul]
      linarith
  | false =>
      refine Or.inr ?_
      simp only [Bool.false_eq_true, if_false]
      linarith

/-- A magnitude of 2⁶⁴ or more is too large at every scale. -/
theorem best_eq_overflow {x : ℚ} (hx : 2 ^ 64 ≤ x) (negative : Bool) {cap : ℕ} (hcap : cap ≤ 18) :
    best (if negative then -x else x) cap hcap = .error .overflow := by
  have hnone : ∀ {scale : ℕ} (hscale : scale ≤ 18),
      nearest (if negative then -x else x) scale hscale = none := fun {scale} hscale =>
    nearest_eq_none_of_le
      (hx.trans (le_mul_of_one_le_right (by linarith) (one_le_pow₀ (by norm_num))))
  induction cap with
  | zero => rw [best_zero, hnone]
  | succ cap ih => rw [best_succ, hnone, ih]

theorem best_of_nearest {v : ℚ} {cap : ℕ} {hcap : cap ≤ 18} {d : Decimal}
    (h : nearest v cap hcap = some d) : best v cap hcap = .ok d := by
  cases cap with
  | zero => rw [best_zero, h]
  | succ cap => rw [best_succ, h]

/-- A cap at which nothing fits can be lowered. -/
theorem best_lower {v : ℚ} {cap cap' : ℕ} (hcap : cap ≤ 18) (hle : cap' ≤ cap)
    (hnone : ∀ scale, cap' < scale → ∀ h : scale ≤ cap, nearest v scale (h.trans hcap) = none) :
    best v cap hcap = best v cap' (hle.trans hcap) := by
  induction cap with
  | zero =>
      obtain rfl : cap' = 0 := by omega
      rfl
  | succ cap ih =>
      rcases hle.lt_or_eq with hlt | rfl
      · rw [best_succ, hnone (cap + 1) hlt le_rfl]
        exact ih (Nat.le_of_succ_le hcap) (Nat.lt_succ_iff.mp hlt) fun scale hscale h =>
          hnone scale hscale (h.trans (Nat.le_succ cap))
      · rfl

end Decimal

/-! ### The numeral -/

namespace Literal

/-- What its digits stand for. -/
def number (l : Literal) : ℕ := Digits.value l.digits

/-- The number it stands for, with this exponent and without the sign. -/
def magnitudeAt (l : Literal) (exponent : ℤ) : ℚ := l.number * 10 ^ (exponent - l.fractionLength)

/-- **The number it stands for**, with this exponent. -/
def valueAt (l : Literal) (exponent : ℤ) : ℚ :=
  if l.negative then -l.magnitudeAt exponent else l.magnitudeAt exponent

/-- **The largest scale it needs**: the digits that follow the point once the exponent has moved
it, 18 at most. -/
def capAt (l : Literal) (exponent : ℤ) : ℕ := min (l.fractionLength - exponent).toNat 18

theorem capAt_le (l : Literal) (exponent : ℤ) : l.capAt exponent ≤ 18 := min_le_right _ _

/-- **The decimal it should be read as**, with this exponent. -/
def bestAt (l : Literal) (exponent : ℤ) : Except ParseDecimalError Decimal :=
  Decimal.best (l.valueAt exponent) (l.capAt exponent) (l.capAt_le exponent)

/-- The digits that follow the point where it is placed, of those that found room. -/
def placesRead (l : Literal) : ℤ :=
  l.fractionLength - Decimal.overlong l.digits - l.exponentRead

/-- **The stages in which digits are rounded away**, down to a scale: those that found no room,
those past the greatest scale, and then one at a time. -/
def stages (l : Literal) (scale : ℕ) : List ℕ :=
  Decimal.overlong l.digits :: (l.placesRead - 18).toNat ::
    List.replicate ((min l.placesRead 18).toNat - scale) 1

/-- **The stages do what one would**: what is dropped does not lie between a half and the
threshold of the stages. -/
def RoundsOnce (l : Literal) (scale : ℕ) : Prop :=
  let dropped := 10 ^ (l.stages scale).sum
  l.number % dropped < Staged.threshold (l.number / dropped % 2 = 0) (l.stages scale) ↔
    l.number % dropped <
      Staged.threshold (l.number / dropped % 2 = 0) [(l.stages scale).sum]

/-- **A zero keeps its digits**: those that follow the point are no more than a scale has. -/
def ZeroFits (l : Literal) : Prop := l.number = 0 → l.fractionLength - l.exponentRead ≤ 18

theorem magnitudeAt_nonneg (l : Literal) (exponent : ℤ) : 0 ≤ l.magnitudeAt exponent := by
  rw [magnitudeAt]
  positivity

/-- A digit that finds no room follows many that did. -/
theorem le_number {l : Literal} (h : 0 < Decimal.overlong l.digits) :
    Decimal.accumulateLimit * 10 ^ Decimal.overlong l.digits ≤ l.number := by
  obtain ⟨kept, dropped, hkept⟩ := Decimal.exists_kept l
  rw [number, hkept.digits, Digits.value_append, ← hkept.digits, ← hkept.length]
  rcases hkept.rest with ⟨rfl, -⟩ | ⟨hfull, -⟩
  · rw [← hkept.length] at h
    exact absurd h (by simp)
  · have := Nat.mul_le_mul_right (10 ^ dropped.length) hfull
    omega

/-- But not too many. -/
theorem number_lt (l : Literal) :
    l.number < 10 * Decimal.accumulateLimit * 10 ^ Decimal.overlong l.digits := by
  obtain ⟨kept, dropped, hkept⟩ := Decimal.exists_kept l
  rw [number, hkept.digits, Digits.value_append, ← hkept.digits, ← hkept.length]
  have hroom : Digits.value kept + 1 ≤ 10 * Decimal.accumulateLimit := hkept.room
  have := Nat.mul_le_mul_right (10 ^ dropped.length) hroom
  have := Digits.value_lt dropped
  rw [add_mul] at *
  omega

/-- **The parser places the point after the first stage.** -/
theorem fromAscii_eq_place (l : Literal) : Decimal.fromAscii l.text =
    Decimal.place l.negative (Staged.round l.number (Decimal.overlong l.digits)) l.placesRead := by
  obtain ⟨kept, dropped, hkept⟩ := Decimal.exists_kept l
  have hrounded : l.reading.rounded = Staged.round l.number (Decimal.overlong l.digits) := by
    have h := hkept.rounded_eq
    rw [hkept.length, ← number, ← Staged.coe_round] at h
    exact_mod_cast h
  rw [Decimal.fromAscii_text, hrounded, hkept.places, hkept.length, placesRead]

/-- What is left after the first stage has at least as many digits as there is room for. -/
theorem le_round {l : Literal} (h : 0 < Decimal.overlong l.digits) :
    Decimal.accumulateLimit ≤ Staged.round l.number (Decimal.overlong l.digits) := by
  have hle : ((Decimal.accumulateLimit : ℤ) : ℚ) ≤
      (l.number : ℚ) / 10 ^ Decimal.overlong l.digits := by
    rw [le_div_iff₀ (by positivity)]
    exact_mod_cast le_number h
  have := halfEven_mono hle
  rw [halfEven_intCast, ← Staged.coe_round] at this
  exact_mod_cast this

theorem round_le (l : Literal) :
    Staged.round l.number (Decimal.overlong l.digits) ≤ 10 * Decimal.accumulateLimit := by
  have hle : (l.number : ℚ) / 10 ^ Decimal.overlong l.digits ≤
      ((10 * Decimal.accumulateLimit : ℕ) : ℤ) := by
    rw [div_le_iff₀ (by positivity)]
    exact_mod_cast (number_lt l).le
  have := halfEven_mono hle
  rw [halfEven_intCast, ← Staged.coe_round] at this
  exact_mod_cast this

/-- The greatest scale at which the point is placed. -/
def topScale (l : Literal) : ℕ := (min l.placesRead 18).toNat

/-- All stages together drop the digits that are past the scale. -/
theorem sum_stages {l : Literal} (hplaces : 0 ≤ l.placesRead) {scale : ℕ}
    (hscale : scale ≤ l.topScale) :
    ((l.stages scale).sum : ℤ) = l.fractionLength - l.exponentRead - scale := by
  have hread : l.placesRead = l.fractionLength - Decimal.overlong l.digits - l.exponentRead := rfl
  rw [topScale] at hscale
  rw [stages, List.sum_cons, List.sum_cons, List.sum_replicate, smul_eq_mul, mul_one]
  omega

theorem magnitudeAt_mul_pow {l : Literal} (hplaces : 0 ≤ l.placesRead) {scale : ℕ}
    (hscale : scale ≤ l.topScale) :
    l.magnitudeAt l.exponentRead * 10 ^ scale = (l.number : ℚ) / 10 ^ (l.stages scale).sum := by
  rw [magnitudeAt, mul_assoc, div_eq_mul_inv, ← zpow_natCast, ← zpow_natCast, ← zpow_neg,
    ← zpow_add₀ (by norm_num), sum_stages hplaces hscale]
  congr 2
  ring

/-- The next scale down is one stage more. -/
theorem stages_succ {l : Literal} {scale : ℕ} (hscale : scale < l.topScale) :
    l.stages scale = l.stages (scale + 1) ++ [1] := by
  rw [topScale] at hscale
  rw [stages, stages, List.cons_append, List.cons_append, ← List.replicate_succ',
    show (min l.placesRead 18).toNat - scale = (min l.placesRead 18).toNat - (scale + 1) + 1
      by omega]

/-- **What should be at least 2⁶³ is**: 2⁶³ - 1 is odd. -/
theorem le_rounds_of_le {ds : List ℕ} {m : ℕ} (h : 2 ^ 63 ≤ halfEven ((m : ℚ) / 10 ^ ds.sum)) :
    2 ^ 63 ≤ Staged.rounds ds m := by
  rw [le_halfEven_iff_of_even (by decide), le_div_iff₀ (by positivity)] at h
  rw [show 2 ^ 63 ≤ Staged.rounds ds m ↔ 2 ^ 63 - 1 < Staged.rounds ds m by omega,
    Staged.lt_rounds_iff, show decide ((2 ^ 63 - 1) % 2 = 0) = false by decide]
  rcases Nat.eq_zero_or_pos ds.sum with hzero | hpos
  · have := Staged.threshold_mem false ds
    rw [hzero, pow_zero] at this
    rw [hzero, pow_zero, mul_one] at h ⊢
    have hm : (2 : ℚ) ^ 63 < m + 1 := by
      push_cast at h
      linarith
    have : 2 ^ 63 < m + 1 := by exact_mod_cast hm
    omega
  · have hhalf := Staged.threshold_odd_le hpos
    have hm : 2 * (2 ^ 63 * 10 ^ ds.sum) ≤ 2 * m + 10 ^ ds.sum := by
      have : (2 : ℚ) * (2 ^ 63 * 10 ^ ds.sum) ≤ 2 * m + 10 ^ ds.sum := by
        push_cast at h
        linarith
      exact_mod_cast this
    rw [Nat.sub_mul]
    omega

/-- Digits past the greatest scale are rounded away. -/
theorem roundOff_eq_round {m d : ℕ} (h : m ≤ 10 * Decimal.accumulateLimit) :
    (if 39 < d then 0 else Decimal.roundOff m d false) = Staged.round m d := by
  have hlimit : 2 * (10 * Decimal.accumulateLimit + 1) ≤ 10 ^ 39 := by decide +kernel
  have hround : Decimal.roundOff m d false = Staged.round m d := by
    have hoff := @Decimal.roundOff_false m d fun hd =>
      (show 2 * (m + 1) ≤ 10 ^ 39 by omega).trans (Nat.pow_le_pow_right (by norm_num) hd)
    rw [← Staged.coe_round] at hoff
    exact_mod_cast hoff
  split
  next hmany =>
    rw [← hround, Decimal.roundOff, if_neg (by omega), if_pos (by omega)]
  next hmany => exact hround

/-- **Where the point is placed among the digits that were kept.** -/
theorem place_eq_shrink {l : Literal} (hplaces : 0 ≤ l.placesRead)
    (hnumber : Staged.round l.number (Decimal.overlong l.digits) ≠ 0) :
    Decimal.fromAscii l.text =
      Decimal.shrink l.negative (Staged.rounds (l.stages l.topScale) l.number) l.topScale
        (by rw [topScale]; omega) := by
  have hrounds : Staged.rounds (l.stages l.topScale) l.number =
      Staged.round (Staged.round l.number (Decimal.overlong l.digits))
        (l.placesRead - 18).toNat := by
    rw [stages, topScale, Nat.sub_self]
    rfl
  rw [fromAscii_eq_place, hrounds, Decimal.place, if_neg hnumber, if_neg (not_lt.mpr hplaces)]
  split
  next hbig =>
    have htop : l.topScale = 18 := by
      rw [topScale]
      omega
    simp only [htop, roundOff_eq_round l.round_le]
  next hbig =>
    have htop : l.topScale = l.placesRead.toNat := by
      rw [topScale]
      omega
    simp only [htop, show (l.placesRead - 18).toNat = 0 by omega, Staged.round_zero]

theorem round_ne_zero {l : Literal} (h : l.number ≠ 0) :
    Staged.round l.number (Decimal.overlong l.digits) ≠ 0 := by
  rcases Nat.eq_zero_or_pos (Decimal.overlong l.digits) with hzero | hpos
  · rwa [hzero, Staged.round_zero]
  · have hlimit : 0 < Decimal.accumulateLimit := by decide
    have := le_round hpos
    omega

theorem topScale_le (l : Literal) : l.topScale ≤ 18 := by
  rw [topScale]
  omega

/-- Above the scale at which the point is placed, nothing fits. -/
theorem bestAt_eq {l : Literal} (hplaces : 0 ≤ l.placesRead) :
    l.bestAt l.exponentRead =
      Decimal.best (l.valueAt l.exponentRead) l.topScale l.topScale_le := by
  have hcap : l.capAt l.exponentRead = min (l.fractionLength - l.exponentRead).toNat 18 := rfl
  have htop : l.topScale = (min l.placesRead 18).toNat := rfl
  have hread : l.placesRead = l.fractionLength - Decimal.overlong l.digits - l.exponentRead := rfl
  refine Decimal.best_lower _ (by rw [hcap]; omega) fun scale hlt hle => ?_
  rw [hcap] at hle
  have hlimit : (2 : ℚ) ^ 64 ≤ Decimal.accumulateLimit := by
    exact_mod_cast (by decide : 2 ^ 64 ≤ Decimal.accumulateLimit)
  refine Decimal.nearest_eq_none_of_le (hlimit.trans ?_)
  -- what is left after the first stage is already too large
  have hsum : (l.stages l.topScale).sum = Decimal.overlong l.digits := by
    have := sum_stages hplaces (le_refl l.topScale)
    omega
  have hfirst := magnitudeAt_mul_pow hplaces (le_refl l.topScale)
  rw [hsum] at hfirst
  have hnum : (Decimal.accumulateLimit : ℚ) ≤ (l.number : ℚ) / 10 ^ Decimal.overlong l.digits := by
    rw [le_div_iff₀ (by positivity)]
    exact_mod_cast le_number (l := l) (by omega)
  refine (hnum.trans_eq hfirst.symm).trans ?_
  exact mul_le_mul_of_nonneg_left (pow_le_pow_right₀ (by norm_num) hlt.le) (l.magnitudeAt_nonneg _)

/-- **The point is placed within the digits.** -/
theorem fromAscii_eq_bestAt_iff_of_nonneg {l : Literal} (hplaces : 0 ≤ l.placesRead)
    (hnumber : l.number ≠ 0) : Decimal.fromAscii l.text = l.bestAt l.exponentRead ↔
      ∀ d, l.bestAt l.exponentRead = .ok d → d.mantissa ≠ -2 ^ 63 ∧ l.RoundsOnce d.scale := by
  have hshrink := Decimal.shrink_eq_best_iff (l.magnitudeAt_nonneg l.exponentRead) l.negative
    (M := fun scale => Staged.rounds (l.stages scale) l.number) l.topScale_le
    (fun scale hscale => ?_) fun scale hscale hle => ?_
  · rw [place_eq_shrink hplaces (round_ne_zero hnumber), bestAt_eq hplaces, valueAt,
      hshrink]
    refine forall_congr' fun d => imp_congr_right fun hd => and_congr_right fun _ => ?_
    obtain ⟨hle, -⟩ := (Decimal.best_spec _ l.topScale_le).1 d hd
    rw [magnitudeAt_mul_pow hplaces hle, Staged.rounds_eq_halfEven_iff]
    rfl
  · have hoff := @Decimal.roundOff_false (Staged.rounds (l.stages (scale + 1)) l.number) 1
      (by norm_num)
    rw [← Staged.coe_round] at hoff
    rw [stages_succ hscale, Staged.rounds_append]
    exact_mod_cast hoff.symm
  · rw [magnitudeAt_mul_pow hplaces hscale] at hle
    exact le_rounds_of_le hle

/-- A point that is placed so far after the digits that they are too many. -/
theorem place_eq_overflow {negative : Bool} {magnitude : ℕ} {scale : ℤ} (hne : magnitude ≠ 0)
    (hscale : scale < 0) (hlarge : 2 ^ 63 ≤ magnitude * 10 ^ (-scale).toNat) :
    Decimal.place negative magnitude scale = .error .overflow := by
  rw [Decimal.place, if_neg hne, if_pos hscale]
  dsimp only
  split
  · rfl
  split
  · rfl
  · exact Decimal.shrink_zero_of_ge hlarge

/-- **The point is placed after the digits**: nothing is rounded away, or the number is too
large. -/
theorem fromAscii_eq_bestAt_iff_of_neg {l : Literal} (hplaces : l.placesRead < 0)
    (hnumber : l.number ≠ 0) : Decimal.fromAscii l.text = l.bestAt l.exponentRead ↔
      ∀ d, l.bestAt l.exponentRead = .ok d → d.mantissa ≠ -2 ^ 63 ∧ l.RoundsOnce d.scale := by
  have hread : l.placesRead = l.fractionLength - Decimal.overlong l.digits - l.exponentRead := rfl
  have hmagnitude : l.magnitudeAt l.exponentRead =
      (l.number : ℚ) / 10 ^ Decimal.overlong l.digits * 10 ^ (-l.placesRead).toNat := by
    rw [magnitudeAt, div_mul_eq_mul_div, mul_div_assoc, ← zpow_natCast, ← zpow_natCast,
      ← zpow_sub₀ (by norm_num)]
    congr 2
    omega
  have hpow : 1 ≤ 10 ^ (-l.placesRead).toNat := Nat.one_le_pow _ _ (by norm_num)
  -- where the number is too large for every scale, it is found to be
  have hoverflow : 2 ^ 64 ≤ l.magnitudeAt l.exponentRead →
      2 ^ 63 ≤ Staged.round l.number (Decimal.overlong l.digits) * 10 ^ (-l.placesRead).toNat →
      (Decimal.fromAscii l.text = l.bestAt l.exponentRead ↔
        ∀ d, l.bestAt l.exponentRead = .ok d → d.mantissa ≠ -2 ^ 63 ∧ l.RoundsOnce d.scale) := by
    intro hlarge hlarge'
    have hbest : l.bestAt l.exponentRead = .error .overflow :=
      Decimal.best_eq_overflow hlarge l.negative (l.capAt_le _)
    rw [fromAscii_eq_place, place_eq_overflow (round_ne_zero hnumber) hplaces hlarge', hbest]
    exact iff_of_true rfl fun d hd => absurd hd (by simp)
  rcases Nat.eq_zero_or_pos (Decimal.overlong l.digits) with hzero | hpos
  · have hplace := fromAscii_eq_place l
    rw [hzero, Staged.round_zero] at hplace
    have hwhole : l.magnitudeAt l.exponentRead =
        ((l.number * 10 ^ (-l.placesRead).toNat : ℕ) : ℤ) := by
      rw [hmagnitude, hzero, pow_zero, div_one]
      push_cast
      rfl
    rcases lt_or_ge (l.number * 10 ^ (-l.placesRead).toNat) (2 ^ 64) with hlt | hge
    · have hshift : (-l.placesRead).toNat ≤ 38 := by
        by_contra hmany
        have := Nat.pow_le_pow_right (show 0 < 10 by norm_num)
          (show 20 ≤ (-l.placesRead).toNat by omega)
        have := Nat.le_mul_of_pos_left (10 ^ (-l.placesRead).toNat) (Nat.pos_of_ne_zero hnumber)
        omega
      have hcap : l.capAt l.exponentRead = 0 := by
        rw [capAt]
        omega
      have hsum : (l.stages 0).sum = 0 := by
        rw [stages, hzero, List.sum_cons, List.sum_cons, List.sum_replicate, smul_eq_mul]
        omega
      have hexact : ∀ scale ≤ 0, halfEven (l.magnitudeAt l.exponentRead * 10 ^ scale) =
          ((l.number * 10 ^ (-l.placesRead).toNat : ℕ) : ℤ) := by
        intro scale hscale
        rw [Nat.le_zero.mp hscale, pow_zero, mul_one, hwhole, halfEven_intCast]
      have hshrink := Decimal.shrink_eq_best_iff (l.magnitudeAt_nonneg l.exponentRead) l.negative
        (M := fun _ => l.number * 10 ^ (-l.placesRead).toNat) (Nat.zero_le 18) (by simp)
        fun scale hscale hle => by
          rw [hexact scale hscale] at hle
          exact_mod_cast hle
      rw [hplace, Decimal.place, if_neg hnumber, if_pos hplaces]
      dsimp only
      rw [if_neg (by omega), if_neg (by omega)]
      simp only [bestAt, hcap, valueAt, hshrink]
      refine forall_congr' fun d => imp_congr_right fun hd => and_congr_right fun _ => ?_
      obtain ⟨hle, -⟩ := (Decimal.best_spec _ (Nat.zero_le 18)).1 d hd
      refine iff_of_true (hexact d.scale hle).symm ?_
      rw [Nat.le_zero.mp hle, RoundsOnce, hsum, pow_zero, Nat.mod_one]
      exact iff_of_true (Staged.threshold_mem _ _).1 (Staged.threshold_mem _ _).1
    · refine hoverflow ?_ ?_
      · rw [hwhole]
        exact_mod_cast hge
      · rw [hzero, Staged.round_zero]
        omega
  · have hlimit : 2 ^ 64 ≤ Decimal.accumulateLimit := by decide
    refine hoverflow ?_ ?_
    · have hnum : (Decimal.accumulateLimit : ℚ) ≤
          (l.number : ℚ) / 10 ^ Decimal.overlong l.digits := by
        rw [le_div_iff₀ (by positivity)]
        exact_mod_cast le_number hpos
      have hlimit' : (2 : ℚ) ^ 64 ≤ Decimal.accumulateLimit := by exact_mod_cast hlimit
      rw [hmagnitude]
      exact (hlimit'.trans hnum).trans
        (le_mul_of_one_le_right (by positivity) (one_le_pow₀ (by norm_num)))
    · have := le_round hpos
      have := Nat.le_mul_of_pos_right (Staged.round l.number (Decimal.overlong l.digits)) hpow
      omega

/-- **A zero is read as it should be if its digits are no more than a scale has**: else it is read
without any. -/
theorem fromAscii_eq_bestAt_iff_of_zero {l : Literal} (hnumber : l.number = 0) :
    (Decimal.fromAscii l.text = l.bestAt l.exponentRead ↔
      l.fractionLength - l.exponentRead ≤ 18) ∧
      ∃ d, l.bestAt l.exponentRead = .ok d ∧ d.mantissa = 0 := by
  have hlong : Decimal.overlong l.digits = 0 := by
    by_contra hlong
    have := le_number (Nat.pos_of_ne_zero hlong)
    have hlimit : 0 < Decimal.accumulateLimit := by decide
    have : 0 < Decimal.accumulateLimit * 10 ^ Decimal.overlong l.digits := by positivity
    omega
  have hplaces : l.placesRead = l.fractionLength - l.exponentRead := by
    rw [placesRead, hlong, Nat.cast_zero, sub_zero]
  have hvalue : l.valueAt l.exponentRead = 0 := by
    rw [valueAt, magnitudeAt, hnumber, Nat.cast_zero, zero_mul, neg_zero, ite_self]
  have hread : Decimal.fromAscii l.text = .ok ⟨0, Decimal.zeroWidth l.placesRead,
      Decimal.fits_zero, Decimal.zeroWidth_le _⟩ := by
    rw [fromAscii_eq_place, hlong, Staged.round_zero, hnumber, Decimal.place, if_pos rfl]
  have hbest : l.bestAt l.exponentRead =
      .ok ⟨0, l.capAt l.exponentRead, Decimal.fits_zero, l.capAt_le _⟩ := by
    refine Decimal.best_of_nearest ?_
    rw [hvalue, Decimal.nearest_of_whole (n := 0) (by simp)]
    rfl
  refine ⟨?_, _, hbest, rfl⟩
  rw [hread, hbest, Except.ok.injEq, Decimal.mk.injEq, hplaces, Decimal.zeroWidth, capAt]
  split <;> omega

/-- **What a numeral should be read as**: the decimal nearest to it. -/
def CorrectlyRounded (l : Literal) : Prop := Decimal.fromAscii l.text = l.bestAt l.exponentValue

/-- **Where it is**: it is the same with the digits of its exponent that are counted in, the
mantissa is not the least, the stages do what one would, and a zero keeps its digits. -/
def RoundedWell (l : Literal) : Prop :=
  l.bestAt l.exponentValue = l.bestAt l.exponentRead ∧ l.ZeroFits ∧
    ∀ d, l.bestAt l.exponentValue = .ok d → d.mantissa ≠ -2 ^ 63 ∧ l.RoundsOnce d.scale

/-- With the exponent that is read, nothing else goes wrong. -/
theorem fromAscii_eq_bestAt_iff (l : Literal) : Decimal.fromAscii l.text = l.bestAt l.exponentRead ↔
    l.ZeroFits ∧
      ∀ d, l.bestAt l.exponentRead = .ok d → d.mantissa ≠ -2 ^ 63 ∧ l.RoundsOnce d.scale := by
  rcases eq_or_ne l.number 0 with hzero | hnumber
  · obtain ⟨hread, d, hbest, hmantissa⟩ := fromAscii_eq_bestAt_iff_of_zero hzero
    rw [hread]
    refine ⟨fun hfits => ⟨fun _ => hfits, fun d' hd' => ?_⟩, fun h => h.1 hzero⟩
    obtain rfl := Except.ok.inj (hbest.symm.trans hd')
    refine ⟨by rw [hmantissa]; decide, ?_⟩
    rw [RoundsOnce, hzero, Nat.zero_mod]
    exact iff_of_true (Staged.threshold_mem _ _).1 (Staged.threshold_mem _ _).1
  · have hfits : l.ZeroFits := fun hzero => absurd hzero hnumber
    rw [and_iff_right hfits]
    rcases lt_or_ge l.placesRead 0 with hneg | hpos
    · exact fromAscii_eq_bestAt_iff_of_neg hneg hnumber
    · exact fromAscii_eq_bestAt_iff_of_nonneg hpos hnumber

/-- **A numeral is rounded once, half to even, where the stages do what one would** and a zero has
room for its digits. And only there, if the digits of its exponent are all counted in. Nothing but
numerals is accepted. -/
theorem correctlyRounded_of_roundedWell (l : Literal) :
    (l.RoundedWell → l.CorrectlyRounded) ∧
      (l.exponentRead = l.exponentValue → l.CorrectlyRounded → l.RoundedWell) ∧
      ∀ bytes, Decimal.fromAscii bytes ≠ .error .invalid → ∃ l' : Literal, l'.text = bytes := by
  refine ⟨?_, ?_, fun bytes => Decimal.exists_literal⟩
  · rintro ⟨hexponent, hwell⟩
    rw [CorrectlyRounded, hexponent, fromAscii_eq_bestAt_iff]
    rwa [hexponent] at hwell
  · intro hexponent hrounded
    rw [CorrectlyRounded, ← hexponent, fromAscii_eq_bestAt_iff] at hrounded
    rw [RoundedWell, ← hexponent]
    exact ⟨rfl, hrounded⟩

end Literal

end OcppKit

namespace OcppKit.Reference

/-! ### Two digits, one by one -/

/-- 1234567890.12345678746. -/
def twoDigitsTooMany : Literal :=
  ⟨[], none, Digits.ofNat 1234567890, some (Digits.ofNat 12345678746), none, [],
    Decimal.all_isSpace_nil, Decimal.all_isSpace_nil, by decide⟩

theorem twoDigitsTooMany_value : twoDigitsTooMany.valueAt 0 = 123456789012345678746 / 10 ^ 11 := by
  rw [Literal.valueAt, Literal.magnitudeAt,
    show twoDigitsTooMany.negative = false by decide +kernel,
    show twoDigitsTooMany.number = 123456789012345678746 by decide +kernel,
    show twoDigitsTooMany.fractionLength = 11 by decide +kernel]
  norm_num

/-- It should be read as 1234567890.123456787. -/
theorem twoDigitsTooMany_best : twoDigitsTooMany.bestAt 0 =
    .ok ⟨1234567890123456787, 9, by decide, by decide⟩ := by
  have hcap : twoDigitsTooMany.capAt 0 = 11 := by decide +kernel
  have hround : halfEven (twoDigitsTooMany.valueAt 0 * 10 ^ 9) = 1234567890123456787 := by
    rw [twoDigitsTooMany_value, halfEven_eq_iff]
    norm_num
  rw [Literal.bestAt, Decimal.best_lower _ (show 9 ≤ _ by rw [hcap]; decide)]
  · refine Decimal.best_of_nearest ?_
    rw [Decimal.nearest, hround]
    rfl
  · intro scale hlt hle
    rw [Decimal.nearest_eq_none_iff, twoDigitsTooMany_value]
    rw [hcap] at hle
    obtain rfl | rfl : scale = 10 ∨ scale = 11 := by omega
    · norm_num
    · norm_num

/-- **46 goes up**: 6 takes 4 to 5, which is a tie then, and the last digit that is left is odd.
Rounded once it goes down. -/
theorem tie_made : ¬∀ l : Literal, l.CorrectlyRounded := by
  intro h
  have hread : Decimal.fromAscii twoDigitsTooMany.text =
      .ok ⟨1234567890123456788, 9, by decide, by decide⟩ := by decide +kernel
  have hsame := hread.symm.trans ((h twoDigitsTooMany).trans twoDigitsTooMany_best)
  exact absurd (congrArg Decimal.mantissa (Except.ok.inj hsame)) (by decide)

end OcppKit.Reference
