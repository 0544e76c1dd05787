import OcppKit.Library.HalfEven

/-!
# Rounding in stages

Digits of a number can be rounded away in several stages, so many at a time, half to even
each time. Rounding is monotone, so what a list of stages does is said by one number for an
even and one for an odd place that is kept: how large what is dropped has to be for the
place to go up (`Staged.threshold`, `Staged.lt_rounds_iff`). A single stage has the
threshold it should have. Several are wrong exactly where what is dropped lies between the
two thresholds: `Staged.rounds_eq_halfEven_iff`.

An odd place never needs more than half: what should go up does
(`Staged.threshold_odd_le`).
-/

namespace Staged

/-- Rounds digits away. -/
def round (m d : ℕ) : ℕ := (halfEven ((m : ℚ) / 10 ^ d)).toNat

theorem coe_round (m d : ℕ) : (round m d : ℤ) = halfEven ((m : ℚ) / 10 ^ d) :=
  Int.toNat_of_nonneg (halfEven_nonneg (by positivity))

@[simp] theorem round_zero (m : ℕ) : round m 0 = m := by
  have h := coe_round m 0
  rw [pow_zero, div_one, show (m : ℚ) = ((m : ℤ) : ℚ) by simp, halfEven_intCast] at h
  exact_mod_cast h

/-- Rounds digits away in stages, the first stage first. -/
def rounds : List ℕ → ℕ → ℕ
  | [], m => m
  | d :: ds, m => rounds ds (round m d)

theorem rounds_append (ds es : List ℕ) (m : ℕ) : rounds (ds ++ es) m = rounds es (rounds ds m) := by
  induction ds generalizing m with
  | nil => rfl
  | cons d ds ih => exact ih (round m d)

/-- **What has to be dropped in stages for the place that is kept to go up.** -/
def threshold (even : Bool) : List ℕ → ℕ
  | [] => 1
  | 0 :: ds => threshold even ds
  | (d + 1) :: ds =>
      threshold even ds * 10 ^ (d + 1) - 5 * 10 ^ d +
        -- whether the least number the later stages round up is odd
        if ds.sum = 0 then if even then 1 else 0 else threshold even ds % 2

/-- The digits of all stages, those of the first last. -/
theorem pow_sum_cons (d : ℕ) (ds : List ℕ) : 10 ^ (d :: ds).sum = 10 ^ ds.sum * 10 ^ d := by
  rw [List.sum_cons, pow_add, mul_comm]

/-- A threshold is a number of digits as long as those that are dropped. -/
theorem threshold_mem (even : Bool) (ds : List ℕ) :
    0 < threshold even ds ∧ threshold even ds ≤ 10 ^ ds.sum := by
  induction ds with
  | nil => exact ⟨Nat.one_pos, le_rfl⟩
  | cons d ds ih =>
  rcases d with _ | d
  · rw [threshold, List.sum_cons, Nat.zero_add]
    exact ih
  · have hpow : 0 < 10 ^ d := by positivity
    have hstep : 10 ^ (d + 1) = 10 * 10 ^ d := by rw [pow_succ, mul_comm]
    have hlow : 1 * 10 ^ (d + 1) ≤ threshold even ds * 10 ^ (d + 1) := Nat.mul_le_mul_right _ ih.1
    have hhigh : threshold even ds * 10 ^ (d + 1) ≤ 10 ^ ds.sum * 10 ^ (d + 1) :=
      Nat.mul_le_mul_right _ ih.2
    rw [threshold, pow_sum_cons]
    generalize hbit : (if ds.sum = 0 then if even = true then 1 else 0
      else threshold even ds % 2) = bit
    have hbit' : bit ≤ 1 := by
      rw [← hbit]
      split
      · split <;> omega
      · omega
    omega

/-- **An odd place needs no more than half.** -/
theorem threshold_odd_le {ds : List ℕ} (h : 0 < ds.sum) :
    2 * threshold false ds ≤ 10 ^ ds.sum := by
  induction ds with
  | nil => exact absurd h (by simp)
  | cons d ds ih =>
  rcases d with _ | d
  · rw [List.sum_cons, Nat.zero_add] at h ⊢
    exact ih h
  · have hpow : 0 < 10 ^ d := by positivity
    have hstep : 10 ^ (d + 1) = 10 * 10 ^ d := by rw [pow_succ, mul_comm]
    rw [threshold, pow_sum_cons]
    rcases Nat.eq_zero_or_pos ds.sum with hzero | hpos
    · have hone : threshold false ds = 1 := by
        have := threshold_mem false ds
        rw [hzero, pow_zero] at this
        omega
      rw [if_pos hzero, hzero, hone]
      simp only [Bool.false_eq_true, if_false]
      omega
    · have hhalf : 2 * threshold false ds * 10 ^ (d + 1) ≤ 10 ^ ds.sum * 10 ^ (d + 1) :=
        Nat.mul_le_mul_right _ (ih hpos)
      have hlow : 1 * 10 ^ (d + 1) ≤ threshold false ds * 10 ^ (d + 1) :=
        Nat.mul_le_mul_right _ (threshold_mem false ds).1
      rw [if_neg hpos.ne']
      rw [mul_assoc] at hhalf
      omega

/-- What a single stage reaches. -/
theorem le_round_iff {m y d : ℕ} :
    y ≤ round m (d + 1) ↔ y * 10 ^ (d + 1) + y % 2 ≤ m + 5 * 10 ^ d := by
  have hpow : (0 : ℚ) < 10 ^ d := by positivity
  rw [show y ≤ round m (d + 1) ↔ (y : ℤ) ≤ round m (d + 1) by omega, coe_round, le_halfEven_iff,
    lt_div_iff₀ (by positivity), div_eq_iff (by positivity), Int.even_coe_nat, pow_succ]
  have hlt : (((y : ℤ) : ℚ) - 1 / 2) * (10 ^ d * 10) < m ↔ y * (10 ^ d * 10) < m + 5 * 10 ^ d := by
    rw [← Nat.cast_lt (α := ℚ)]
    push_cast
    constructor <;> intro h <;> linarith
  have heq : (m : ℚ) = (((y : ℤ) : ℚ) - 1 / 2) * (10 ^ d * 10) ↔
      y * (10 ^ d * 10) = m + 5 * 10 ^ d := by
    rw [← Nat.cast_inj (R := ℚ)]
    push_cast
    constructor <;> intro h <;> linarith
  rw [hlt, heq, Nat.even_iff]
  rw [show 10 ^ (d + 1) = 10 ^ d * 10 from pow_succ 10 d] at *
  omega

/-- **What is reached in stages**: more than a number when what is dropped after it reaches the
threshold. -/
theorem lt_rounds_iff (ds : List ℕ) (q m : ℕ) :
    q < rounds ds m ↔ q * 10 ^ ds.sum + threshold (q % 2 = 0) ds ≤ m := by
  induction ds generalizing m with
  | nil =>
      rw [rounds, List.sum_nil, threshold, pow_zero, mul_one]
      omega
  | cons d ds ih =>
  rcases d with _ | d
  · rw [rounds, round_zero, threshold, List.sum_cons, Nat.zero_add]
    exact ih m
  · rw [rounds, ih, le_round_iff, threshold, pow_sum_cons, add_mul, ← mul_assoc]
    have hpow : 0 < 10 ^ d := by positivity
    have hstep : 10 ^ (d + 1) = 10 * 10 ^ d := by rw [pow_succ, mul_comm]
    have hpos := (threshold_mem (q % 2 = 0) ds).1
    have hlow : 1 * 10 ^ (d + 1) ≤ threshold (q % 2 = 0) ds * 10 ^ (d + 1) :=
      Nat.mul_le_mul_right _ hpos
    have hparity : (q * 10 ^ ds.sum + threshold (q % 2 = 0) ds) % 2 =
        if ds.sum = 0 then if decide (q % 2 = 0) then 1 else 0
        else threshold (q % 2 = 0) ds % 2 := by
      split
      next hzero =>
        have hone : threshold (q % 2 = 0) ds = 1 := by
          have := threshold_mem (q % 2 = 0) ds
          rw [hzero, pow_zero] at this
          omega
        rw [hzero, hone, pow_zero, mul_one]
        simp only [decide_eq_true_eq]
        split <;> omega
      next hne =>
        obtain ⟨k, hk⟩ := Nat.exists_eq_succ_of_ne_zero hne
        rw [hk, pow_succ, ← mul_assoc, Nat.add_mod, Nat.mul_mod _ 10]
        simp
    rw [hparity]
    omega

/-- A single stage rounds as it should. -/
theorem rounds_singleton (d m : ℕ) : (rounds [d] m : ℤ) = halfEven ((m : ℚ) / 10 ^ d) :=
  coe_round m d

/-- **Stages round as one stage exactly where no threshold separates them.** -/
theorem rounds_eq_halfEven_iff (ds : List ℕ) (m : ℕ) :
    (rounds ds m : ℤ) = halfEven ((m : ℚ) / 10 ^ ds.sum) ↔
      (m % 10 ^ ds.sum < threshold (m / 10 ^ ds.sum % 2 = 0) ds ↔
        m % 10 ^ ds.sum < threshold (m / 10 ^ ds.sum % 2 = 0) [ds.sum]) := by
  rw [← rounds_singleton, Nat.cast_inj]
  -- either is the number before the cut or the next
  have hcases : ∀ es : List ℕ, es.sum = ds.sum →
      (m / 10 ^ ds.sum ≤ rounds es m ∧ rounds es m ≤ m / 10 ^ ds.sum + 1) ∧
        (m / 10 ^ ds.sum < rounds es m ↔
          ¬m % 10 ^ ds.sum < threshold (m / 10 ^ ds.sum % 2 = 0) es) := by
    intro es hsum
    have hm := Nat.div_add_mod' m (10 ^ ds.sum)
    have hlt := Nat.mod_lt m (show 0 < 10 ^ ds.sum by positivity)
    generalize hq : m / 10 ^ ds.sum = q at hm ⊢
    generalize hr : m % 10 ^ ds.sum = r at hm hlt ⊢
    refine ⟨⟨?_, ?_⟩, ?_⟩
    · rcases q with _ | q
      · exact Nat.zero_le _
      · have := threshold_mem (q % 2 = 0) es
        rw [Nat.succ_le_iff, lt_rounds_iff, hsum]
        rw [hsum] at this
        rw [add_mul] at hm
        omega
    · rw [← not_lt, lt_rounds_iff, hsum]
      have := threshold_mem ((q + 1) % 2 = 0) es
      rw [add_mul]
      omega
    · rw [lt_rounds_iff, hsum]
      omega
  obtain ⟨hds, hds'⟩ := hcases ds rfl
  obtain ⟨hone, hone'⟩ := hcases [ds.sum] (by simp)
  constructor
  · intro heq
    rw [heq, hone'] at hds'
    exact (not_iff_not.mp hds').symm
  · intro hiff
    rw [hiff, ← hone'] at hds'
    omega

end Staged
