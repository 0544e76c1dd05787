import OcppKit.Decimal.Reading

/-!
# Decimals there and back

A numeral that is written plainly – a minus or no sign, no superfluous zero, digits after a
point if there is one – is read as the digits it has, with a scale that says how many follow
the point, and that is written as the numeral. The printer writes plain numerals only, so a
decimal that is written is read as itself. The one decimal that is not is the least: the
parser has no magnitude of 2⁶³.
-/

namespace OcppKit

/-- **A numeral as it is plainly written**: positional, with at most a minus for a sign, without
superfluous zeros and not a negative zero, of digits that 64 bits hold, 18 of them at most after
the point. -/
structure Literal.Plain (l : Literal) : Prop where
  /-- No spaces before. -/
  before : l.before = []
  /-- No spaces after. -/
  after : l.after = []
  /-- No plus. -/
  sign : l.sign ≠ some false
  /-- No exponent. -/
  exponent : l.exponent = none
  /-- Digits before the point, without a superfluous zero. -/
  whole : Digits.Canonical l.whole
  /-- Digits after the point, if there is one. -/
  fraction : l.fraction ≠ some []
  /-- They are a scale. -/
  scale : l.fractionLength ≤ 18
  /-- All the digits fit. -/
  fits : Digits.value l.digits < 2 ^ 63
  /-- A minus is before a number other than zero. -/
  sign_zero : l.negative = true → Digits.value l.digits ≠ 0

namespace Decimal

/-! ### Reading -/

/-- **A positional numeral is read as its digits**, with the scale that says where the point
is. -/
theorem fromAscii_positional {l : Literal} (hpart : l.exponent = none)
    (hscale : l.fractionLength ≤ 18) (hfits : Digits.value l.digits < 2 ^ 63) :
    ∃ d, fromAscii l.text = .ok d ∧
      d.mantissa = (if l.negative then -(Digits.value l.digits : ℤ) else Digits.value l.digits) ∧
      d.scale = l.fractionLength := by
  obtain ⟨kept, dropped, hkept⟩ := exists_kept l
  have hlimit : (2 : ℕ) ^ 63 ≤ accumulateLimit := by decide
  obtain ⟨hrounded, hpoint⟩ := hkept.eq_of_lt (hfits.trans_le hlimit)
  have hexponent : l.exponentRead = 0 := by rw [Literal.exponentRead, hpart]; rfl
  rw [fromAscii_text, hrounded, hpoint, hexponent, sub_zero, place]
  split
  next hzero =>
    refine ⟨_, rfl, ?_, ?_⟩
    · rw [hzero]
      split <;> rfl
    · change zeroWidth (l.fractionLength : ℤ) = l.fractionLength
      rw [zeroWidth, if_neg (by omega)]
      exact Int.toNat_natCast _
  next hzero =>
    rw [if_neg (by omega), dif_neg (by omega)]
    simp only [Int.toNat_natCast]
    exact shrink_of_lt hfits

/-- **A plain numeral is read as its digits**, with the scale that says where the point is. -/
theorem fromAscii_plain {l : Literal} (h : l.Plain) : ∃ d, fromAscii l.text = .ok d ∧
    d.mantissa = (if l.negative then -(Digits.value l.digits : ℤ) else Digits.value l.digits) ∧
      d.scale = l.fractionLength :=
  fromAscii_positional h.exponent h.scale h.fits

/-! ### Writing -/

/-- **A decimal is written as the numeral that has its digits.** -/
theorem toText_eq {l : Literal} (h : l.Plain) {d : Decimal}
    (hmantissa : d.mantissa =
      (if l.negative then -(Digits.value l.digits : ℤ) else Digits.value l.digits))
    (hscale : d.scale = l.fractionLength) : d.toText = l.text := by
  have hmagnitude : d.mantissa.natAbs = Digits.value l.digits := by
    rw [hmantissa]
    split <;> simp
  have hsign : (if d.mantissa < 0 then [ascii '-'] else []) = signText l.sign := by
    have hzero := h.sign_zero
    have hplus := h.sign
    rw [hmantissa]
    simp only [Literal.negative, decide_eq_true_eq] at hzero ⊢
    rcases hcase : l.sign with _ | _ | _
    · have hpos : ¬(Digits.value l.digits : ℤ) < 0 := by omega
      simp [hpos, signText]
    · exact absurd hcase hplus
    · rw [if_pos rfl, if_pos (by have := hzero hcase; omega)]
      rfl
  rw [toText, Literal.text, h.before, h.after, h.exponent, hsign, hmagnitude, hscale]
  rcases hfraction : l.fraction with _ | ds
  · have hdigits : l.digits = l.whole := by
      rw [Literal.digits, hfraction, Option.getD_none, List.append_nil]
    rw [if_pos (by rw [Literal.fractionLength, hfraction]; rfl), hdigits,
      Digits.ofNat_value h.whole]
    simp [Literal.fractionText, Literal.exponentText]
  · have hne : ds ≠ [] := fun hds => h.fraction (hfraction.trans (congrArg some hds))
    have hlength : l.fractionLength = ds.length := by
      rw [Literal.fractionLength, hfraction, Option.getD_some]
    have hdigits : l.digits = l.whole ++ ds := by
      rw [Literal.digits, hfraction, Option.getD_some]
    rw [if_neg (by rw [hlength]; simpa using hne), hlength, hdigits, Digits.value_append_div,
      Digits.value_append_mod, Digits.ofNat_value h.whole, Digits.pad_value hne]
    simp [Literal.fractionText, Literal.exponentText]

/-- The numeral a decimal is written as. -/
def literal (d : Decimal) : Literal where
  before := []
  sign := if d.mantissa < 0 then some true else none
  whole := Digits.ofNat (d.mantissa.natAbs / 10 ^ d.scale)
  fraction :=
    if d.scale = 0 then none
    else some (Digits.pad d.scale (d.mantissa.natAbs % 10 ^ d.scale))
  exponent := none
  after := []
  before_isSpace := all_isSpace_nil
  after_isSpace := all_isSpace_nil
  digits_ne := List.append_ne_nil_of_left_ne_nil (Digits.ofNat_ne_nil _) _

theorem literal_fractionLength (d : Decimal) : d.literal.fractionLength = d.scale := by
  rw [Literal.fractionLength, literal]
  dsimp only
  split
  next hzero => exact hzero.symm
  next hzero =>
    rw [Option.getD_some,
      Digits.length_pad (Nat.pos_of_ne_zero hzero) (Nat.mod_lt _ (by positivity))]

theorem value_literal (d : Decimal) : Digits.value d.literal.digits = d.mantissa.natAbs := by
  rw [Literal.digits, literal]
  dsimp only
  split
  next hzero =>
    rw [Option.getD_none, List.append_nil, Digits.value_ofNat, hzero, pow_zero, Nat.div_one]
  next hzero =>
    rw [Option.getD_some, Digits.value_append, Digits.value_ofNat, Digits.value_pad,
      Digits.length_pad (Nat.pos_of_ne_zero hzero) (Nat.mod_lt _ (by positivity))]
    exact Nat.div_add_mod' _ _

theorem literal_negative (d : Decimal) : d.literal.negative = decide (d.mantissa < 0) := by
  rw [Literal.negative, literal]
  dsimp only
  by_cases h : d.mantissa < 0 <;> simp [h]

/-- It is plain, unless the mantissa is the least. -/
theorem literal_plain {d : Decimal} (h : d.mantissa ≠ -2 ^ 63) : d.literal.Plain where
  before := rfl
  after := rfl
  sign := by
    rw [literal]
    dsimp only
    split <;> simp
  exponent := rfl
  whole := Digits.canonical_ofNat _
  fraction := by
    rw [literal]
    dsimp only
    split
    · simp
    next hzero =>
      intro hnil
      have hlength := congrArg List.length (Option.some.inj hnil)
      rw [Digits.length_pad (Nat.pos_of_ne_zero hzero) (Nat.mod_lt _ (by positivity))] at hlength
      exact hzero hlength
  scale := by
    rw [literal_fractionLength]
    exact d.scale_le
  fits := by
    rw [value_literal]
    have := d.mantissa_fits
    omega
  sign_zero := by
    rw [literal_negative, value_literal, decide_eq_true_eq]
    omega

/-- **Text and decimals there and back.** -/
theorem text_roundTrips :
    (∀ l : Literal, l.Plain → ∃ d, fromAscii l.text = .ok d ∧ d.toText = l.text) ∧
    ∀ d : Decimal, d.mantissa ≠ -2 ^ 63 → fromAscii d.toText = .ok d := by
  refine ⟨fun l h => ?_, fun d hd => ?_⟩
  · obtain ⟨d, hd, hmantissa, hscale⟩ := fromAscii_plain h
    exact ⟨d, hd, toText_eq h hmantissa hscale⟩
  · have hplain := literal_plain hd
    have hmantissa : d.mantissa = (if d.literal.negative then -(Digits.value d.literal.digits : ℤ)
        else Digits.value d.literal.digits) := by
      rw [literal_negative, value_literal]
      simp only [decide_eq_true_eq]
      split <;> omega
    have hscale := (literal_fractionLength d).symm
    rw [toText_eq hplain hmantissa hscale]
    obtain ⟨d', hd', hmantissa', hscale'⟩ := fromAscii_plain hplain
    rw [hd']
    obtain ⟨m, s, hm, hs⟩ := d
    obtain ⟨m', s', hm', hs'⟩ := d'
    obtain rfl : m' = m := hmantissa'.trans hmantissa.symm
    obtain rfl : s' = s := hscale'.trans hscale.symm
    rfl

-- A register in kWh, with the zeros it was sent with.
example : ∃ d : Decimal, fromAscii ("2935.600".toList.map ascii) = .ok d ∧ d.scale = 3 ∧
    d.toText = "2935.600".toList.map ascii := by
  refine ⟨⟨2935600, 3, by decide, by decide⟩, ?_, rfl, ?_⟩ <;> decide +kernel

end Decimal

end OcppKit
