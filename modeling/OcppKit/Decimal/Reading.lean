import OcppKit.Decimal.Arithmetic
import OcppKit.Decimal.Text

/-!
# What is kept of the digits

The digits of a number are collected until there is no room; the first that is dropped, and
whether anything but zeros follows it, decide the rounding. `OcppKit.Decimal.Kept` says what
the reader has then: the digits in two parts, the number the first part stands for, and the
place of the point. So the reader rounds once, and half to even
(`OcppKit.Decimal.Kept.rounded_eq`).
-/

namespace OcppKit

namespace Decimal

/-- How many digits find no room: those before which there is a number that leaves none. -/
def overlong (ds : List (Fin 10)) : ℕ :=
  (List.range ds.length).countP fun i => accumulateLimit ≤ Digits.value (ds.take i)

theorem overlong_concat (ds : List (Fin 10)) (d : Fin 10) :
    overlong (ds ++ [d]) = overlong ds + if accumulateLimit ≤ Digits.value ds then 1 else 0 := by
  have hearlier : (List.range ds.length).countP
      (fun i => accumulateLimit ≤ Digits.value ((ds ++ [d]).take i)) = overlong ds := by
    refine List.countP_congr fun i hi => ?_
    rw [List.take_append_of_le_length (List.mem_range.mp hi).le]
  rw [overlong, List.length_append, List.length_singleton, List.range_succ, List.countP_append,
    hearlier, List.countP_singleton, List.take_left]
  simp only [decide_eq_true_eq]

/-- **What is kept of the digits**, of which `point` follow the point. -/
structure Kept (r : Reading) (ds : List (Fin 10)) (point : ℕ) (kept dropped : List (Fin 10)) :
    Prop where
  /-- Some were kept, and those that follow were dropped. -/
  digits : ds = kept ++ dropped
  /-- The number is the one that was kept. -/
  magnitude : r.magnitude = Digits.value kept
  /-- The point is where it was, seen from the last that was kept. -/
  places : (r.fractionDigits : ℤ) - r.skippedIntegerDigits = point - dropped.length
  /-- What was dropped had found no room. -/
  length : dropped.length = overlong ds
  /-- There was room. -/
  room : Digits.value kept < 10 * accumulateLimit
  /-- Nothing was dropped, or there was no more room; what was dropped is known by its first
  digit and by whether more than zeros follow it. -/
  rest : (dropped = [] ∧ r.droppedAny = false ∧ r.sticky = false) ∨
    (accumulateLimit ≤ Digits.value kept ∧ r.droppedAny = true ∧ ∃ d ds', dropped = d :: ds' ∧
      r.roundDigit = d ∧ (r.sticky = true ↔ Digits.value ds' ≠ 0))

theorem kept_start : Kept Reading.start [] 0 [] [] :=
  ⟨rfl, rfl, rfl, rfl, by decide, Or.inl ⟨rfl, rfl, rfl⟩⟩

/-- The point does not change what is kept. -/
theorem Kept.seePoint {r : Reading} {ds kept dropped : List (Fin 10)} {point : ℕ}
    (h : Kept r ds point kept dropped) : Kept { r with seenPoint := true } ds point kept dropped :=
  ⟨h.digits, h.magnitude, h.places, h.length, h.room, h.rest⟩

/-- **One more digit.** -/
theorem Kept.push {r : Reading} {ds kept dropped : List (Fin 10)} {point : ℕ}
    (h : Kept r ds point kept dropped) (d : Fin 10) : ∃ kept' dropped',
      Kept (r.push d) (ds ++ [d]) (if r.seenPoint then point + 1 else point) kept' dropped' := by
  have hd := d.isLt
  have hmagnitude := h.magnitude
  have hplaces := h.places
  rw [Reading.push]
  split
  next hroom =>
    rcases h.rest with ⟨rfl, hany, hsticky⟩ | ⟨hfull, -⟩
    · have hdigits : ds = kept := by rw [h.digits, List.append_nil]
      refine ⟨kept ++ [d], [], ?_, ?_, ?_, ?_, ?_, Or.inl ⟨rfl, hany, hsticky⟩⟩
      · rw [hdigits, List.append_nil]
      · simp only [Digits.value_concat, hmagnitude]
      · rw [List.length_nil] at hplaces ⊢
        split <;> push_cast <;> omega
      · rw [overlong_concat, ← h.length, if_neg (by rw [hdigits]; omega), Nat.add_zero]
      · rw [Digits.value_concat]
        omega
    · omega
  next hroom =>
    have hfull : accumulateLimit ≤ Digits.value ds := by
      rw [h.digits, Digits.value_append]
      have := Nat.le_mul_of_pos_right (Digits.value kept)
        (show 0 < 10 ^ dropped.length by positivity)
      omega
    refine ⟨kept, dropped ++ [d], ?_, h.magnitude, ?_, ?_, h.room, Or.inr ⟨by omega, rfl, ?_⟩⟩
    · rw [h.digits, List.append_assoc]
    · rw [List.length_append, List.length_singleton]
      dsimp only
      split <;> push_cast <;> omega
    · rw [overlong_concat, List.length_append, List.length_singleton, h.length, if_pos hfull]
    · rcases h.rest with ⟨rfl, hany, hsticky⟩ | ⟨-, hany, d', ds', rfl, hround, hsticky⟩
      · exact ⟨d, [], rfl, by simp [hany], by simp [hany, hsticky]⟩
      · refine ⟨d', ds' ++ [d], rfl, by simp [hany, hround], ?_⟩
        simp only [hany, if_true, Bool.or_eq_true, hsticky, decide_eq_true_eq, Digits.value_concat]
        omega

/-- Digits, one after the other. -/
theorem Kept.pushes {r : Reading} {ds kept dropped : List (Fin 10)} {point : ℕ}
    (h : Kept r ds point kept dropped) (es : List (Fin 10)) : ∃ kept' dropped',
      Kept (r.pushes es) (ds ++ es) (if r.seenPoint then point + es.length else point)
        kept' dropped' := by
  induction es generalizing r ds kept dropped point with
  | nil => exact ⟨kept, dropped, by simpa using h⟩
  | cons e es ih =>
      obtain ⟨kept₁, dropped₁, h₁⟩ := h.push e
      obtain ⟨kept', dropped', h'⟩ := ih h₁
      refine ⟨kept', dropped', ?_⟩
      have hpoint : (if r.seenPoint = true then
          (if r.seenPoint = true then point + 1 else point) + es.length
          else if r.seenPoint = true then point + 1 else point) =
            if r.seenPoint = true then point + (e :: es).length else point := by
        rw [List.length_cons]
        split <;> omega
      rw [List.append_assoc, Reading.push_seenPoint, hpoint] at h'
      exact h'

/-- **What is kept of a number.** -/
theorem exists_kept (l : Literal) :
    ∃ kept dropped, Kept l.reading l.digits l.fractionLength kept dropped := by
  obtain ⟨kept₁, dropped₁, h₁⟩ := kept_start.pushes l.whole
  rw [if_neg (by simp [Reading.start]), List.nil_append] at h₁
  rw [Literal.reading, Literal.digits, Literal.fractionLength]
  cases l.fraction with
  | none => exact ⟨kept₁, dropped₁, by simpa [Reading.both] using h₁⟩
  | some ds =>
      obtain ⟨kept, dropped, h⟩ := h₁.seePoint.pushes ds
      rw [if_pos rfl, Nat.zero_add] at h
      exact ⟨kept, dropped, h⟩

/-- A number that fits is kept whole. -/
theorem Kept.eq_of_lt {r : Reading} {ds kept dropped : List (Fin 10)} {point : ℕ}
    (h : Kept r ds point kept dropped) (hlt : Digits.value ds < accumulateLimit) :
    r.rounded = Digits.value ds ∧ (r.fractionDigits : ℤ) - r.skippedIntegerDigits = point := by
  have hdigits := h.digits
  have hplaces := h.places
  rcases h.rest with ⟨rfl, hany, -⟩ | ⟨hfull, -⟩
  · rw [List.append_nil] at hdigits
    rw [List.length_nil] at hplaces
    refine ⟨?_, by omega⟩
    rw [Reading.rounded, hany, if_neg (by simp), h.magnitude, hdigits]
  · rw [hdigits, Digits.value_append] at hlt
    have := Nat.le_mul_of_pos_right (Digits.value kept) (show 0 < 10 ^ dropped.length by positivity)
    omega

/-- **The digits that were dropped round the number half to even.** -/
theorem Kept.rounded_eq {r : Reading} {ds kept dropped : List (Fin 10)} {point : ℕ}
    (h : Kept r ds point kept dropped) :
    (r.rounded : ℤ) = halfEven ((Digits.value ds : ℚ) / 10 ^ dropped.length) := by
  have hmagnitude := h.magnitude
  rw [h.digits]
  rcases h.rest with ⟨rfl, hany, -⟩ | ⟨-, hany, d, ds', rfl, hround, hsticky⟩
  · rw [Reading.rounded, hany, if_neg (by simp), hmagnitude, List.length_nil, pow_zero, div_one,
      List.append_nil]
    exact (halfEven_intCast _).symm
  · -- the first digit that was dropped is rounded off, and the others stick to it
    have hd := d.isLt
    have hpow : (0 : ℚ) < 10 ^ ds'.length := by positivity
    have hvalue : (Digits.value (kept ++ d :: ds') : ℚ) / 10 ^ ds'.length =
        (Digits.value (kept ++ [d]) : ℚ) + Digits.value ds' / 10 ^ ds'.length := by
      rw [show kept ++ d :: ds' = kept ++ [d] ++ ds' by simp, Digits.value_append (kept ++ [d]) ds']
      push_cast
      field_simp
    have hlt : (Digits.value ds' : ℚ) < 10 ^ ds'.length := by exact_mod_cast Digits.value_lt ds'
    have hrounded : r.rounded = roundOff (Digits.value (kept ++ [d])) 1 r.sticky := by
      rw [Digits.value_concat, Reading.rounded, roundOff, hany, hround, hmagnitude,
        if_neg (one_ne_zero : (1 : ℕ) ≠ 0), if_neg (by norm_num : ¬38 < 1)]
      simp only [pow_one, Bool.true_and, show (Digits.value kept * 10 + d) / 10 = Digits.value kept
        by omega, show (Digits.value kept * 10 + d) % 10 = d by omega,
        show (10 : ℕ) / 2 = 5 from rfl]
    rw [hrounded, List.length_cons, pow_succ, ← div_div, hvalue, ← pow_one (10 : ℚ)]
    refine roundOff_eq ?_ ?_ ?_ (by norm_num) (by norm_num)
    · rw [pow_one]
      exact le_add_of_nonneg_right (by positivity)
    · rw [pow_one]
      exact add_lt_add_right ((div_lt_one hpow).mpr hlt) _
    · rw [hsticky, pow_one]
      simp [hpow.ne']

/-! ### Shrinking -/

/-- A magnitude that fits is kept. -/
theorem shrink_of_lt {negative : Bool} {magnitude scale : ℕ} {hscale : scale ≤ 18}
    (h : magnitude < 2 ^ 63) : ∃ d, shrink negative magnitude scale hscale = .ok d ∧
      d.mantissa = (if negative then -(magnitude : ℤ) else magnitude) ∧ d.scale = scale := by
  cases scale <;> rw [shrink, ofMagnitude, dif_pos h] <;> exact ⟨_, rfl, rfl, rfl⟩

theorem shrink_zero_of_ge {negative : Bool} {magnitude : ℕ} {hscale : 0 ≤ 18}
    (h : 2 ^ 63 ≤ magnitude) : shrink negative magnitude 0 hscale = .error .overflow := by
  rw [shrink, ofMagnitude, dif_neg (by omega)]

/-- One that does not loses a digit. -/
theorem shrink_succ_of_ge {negative : Bool} {magnitude scale : ℕ} {hscale : scale + 1 ≤ 18}
    (h : 2 ^ 63 ≤ magnitude) : shrink negative magnitude (scale + 1) hscale =
      shrink negative (roundOff magnitude 1 false) scale (Nat.le_of_succ_le hscale) := by
  rw [shrink, ofMagnitude, dif_neg (by omega)]

theorem scale_le_of_shrink {negative : Bool} {magnitude scale : ℕ} {hscale : scale ≤ 18}
    {d : Decimal} (h : shrink negative magnitude scale hscale = .ok d) : d.scale ≤ scale := by
  induction scale generalizing magnitude with
  | zero =>
      rcases lt_or_ge magnitude (2 ^ 63) with hlt | hge
      · obtain ⟨d', hd', -, hscale'⟩ := @shrink_of_lt negative magnitude _ hscale hlt
        obtain rfl := Except.ok.inj (h.symm.trans hd')
        exact hscale'.le
      · rw [shrink_zero_of_ge hge] at h
        exact absurd h (by simp)
  | succ scale ih =>
      rcases lt_or_ge magnitude (2 ^ 63) with hlt | hge
      · obtain ⟨d', hd', -, hscale'⟩ := @shrink_of_lt negative magnitude _ hscale hlt
        obtain rfl := Except.ok.inj (h.symm.trans hd')
        exact hscale'.le
      · rw [shrink_succ_of_ge hge] at h
        exact (ih h).trans (Nat.le_succ scale)

end Decimal

end OcppKit
