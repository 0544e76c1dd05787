import OcppKit.Basic

/-!
# Reconnect back-off

The wait before an attempt to connect is doubled after each one that failed, up to a number of
times, and a part of a random range is added to it (`OcppKit.Backoff.delay`). The numbers have
the widths they have: the factor is a 64-bit shift that is cast to 32 bits, the part is
computed on 128 bits and cast to 64, and durations saturate.

At none of these anything is lost (`OcppKit.Backoff.delay_eq`). So a wait is what it ought to
be, at every width (`OcppKit.Backoff.delay_spec`): the base, and no more than the range on top
of it, growing with the attempt and with the jitter, until it stays.
-/

namespace OcppKit

/-- The sum of two durations, saturating. -/
def Duration.saturatingAdd (d d' : Duration) : Duration := min (d + d') Duration.max

/-! ### Jitter -/

/-- How much of a range to add, as a fraction of the greatest value of 32 bits. -/
structure Jitter where
  /-- The numerator. -/
  value : ℕ
  /-- It is of 32 bits. -/
  value_le : value ≤ u32Max

namespace Jitter

/-- No jitter. -/
def none : Jitter := ⟨0, Nat.zero_le _⟩

/-- The whole range. -/
def full : Jitter := ⟨u32Max, le_rfl⟩

/-- A fraction of the range, clamped. -/
def fromRatio (numerator denominator : ℕ) (_ : denominator ≠ 0) : Jitter :=
  if denominator ≤ numerator then full
  else
    let scaled := (numerator * u32Max % 2 ^ 64 + denominator / 2) % 2 ^ 64 / denominator
    -- the cast to 32 bits
    ⟨scaled % 2 ^ 32, Nat.le_sub_one_of_lt (Nat.mod_lt _ (by norm_num))⟩

/-- **This fraction of a number of milliseconds**, rounded to the nearest. -/
def ofMillis (jitter : Jitter) (millis : ℕ) : ℕ :=
  let scaled := (millis * jitter.value % 2 ^ 128 + u32Max / 2) % 2 ^ 128 / u32Max
  if u64Max < scaled then u64Max else scaled % 2 ^ 64

end Jitter

/-! ### Waits -/

/-- The variables that drive the timing. -/
structure Backoff where
  /-- The wait before the first retry. -/
  waitMinimum : Duration
  /-- The width of the jitter that is added to every wait. -/
  randomRange : Duration
  /-- How many times the wait is doubled. -/
  repeatTimes : ℕ
  /-- It is a duration. -/
  waitMinimum_le : waitMinimum ≤ Duration.max
  /-- It is a duration. -/
  randomRange_le : randomRange ≤ Duration.max
  /-- It is of 32 bits. -/
  repeatTimes_le : repeatTimes ≤ u32Max

namespace Backoff

/-- How many times the wait is doubled before an attempt. -/
def doublings (backoff : Backoff) (attempt : ℕ) : ℕ :=
  if attempt < backoff.repeatTimes then attempt else backoff.repeatTimes

/-- **The wait before an attempt**, of which the first is 0. -/
def delay (backoff : Backoff) (attempt : ℕ) (jitter : Jitter) : Duration :=
  let doublings := backoff.doublings attempt
  let factor := (1 <<< if doublings < 32 then doublings else 32) % 2 ^ 64
  let base := Duration.saturatingMul backoff.waitMinimum
    (if u32Max < factor then u32Max else factor % 2 ^ 32)
  let spread := jitter.ofMillis (backoff.randomRange / 1000000)
  Duration.saturatingAdd base (spread * 1000000)

/-! ### Nothing is lost -/

theorem doublings_eq (backoff : Backoff) (attempt : ℕ) :
    backoff.doublings attempt = min attempt backoff.repeatTimes := by
  rw [doublings]
  split <;> omega

/-- The factor the wait is multiplied by: a power of two that stops short of 2³². -/
def factor (backoff : Backoff) (attempt : ℕ) : ℕ :=
  min (2 ^ min attempt backoff.repeatTimes) u32Max

/-- The wait without jitter. -/
def base (backoff : Backoff) (attempt : ℕ) : Duration :=
  min (backoff.waitMinimum * backoff.factor attempt) Duration.max

/-- The part of the range that is added, in milliseconds. -/
def spread (backoff : Backoff) (jitter : Jitter) : ℕ :=
  min ((backoff.randomRange / 1000000 * jitter.value + u32Max / 2) / u32Max) u64Max

/-- The shift, and the cast of it. -/
theorem factor_eq (backoff : Backoff) (attempt : ℕ) :
    let doublings := backoff.doublings attempt
    let factor := (1 <<< if doublings < 32 then doublings else 32) % 2 ^ 64
    (if u32Max < factor then u32Max else factor % 2 ^ 32) = backoff.factor attempt := by
  dsimp only
  rw [doublings_eq, Nat.one_shiftLeft, factor]
  generalize min attempt backoff.repeatTimes = doublings
  rcases lt_or_ge doublings 32 with hlt | hge
  · have hpow : 2 ^ doublings < 2 ^ 32 := Nat.pow_lt_pow_right (by norm_num) hlt
    have hle : 2 ^ doublings ≤ u32Max := by
      rw [u32Max]
      omega
    rw [if_pos hlt, Nat.mod_eq_of_lt (hpow.trans (by norm_num)), if_neg (not_lt.mpr hle),
      Nat.mod_eq_of_lt hpow, min_eq_left hle]
  · have hpow : 2 ^ 32 ≤ 2 ^ doublings := Nat.pow_le_pow_right (by norm_num) hge
    have hle : u32Max ≤ 2 ^ doublings := by
      rw [u32Max]
      omega
    have hcut : u32Max < 2 ^ 32 % 2 ^ 64 := by
      rw [u32Max]
      norm_num
    rw [if_neg (not_lt.mpr hge), if_pos hcut, min_eq_right hle]

/-- The product, and the cast of the quotient. -/
theorem ofMillis_eq (jitter : Jitter) {millis : ℕ} (h : millis < 2 ^ 75) :
    jitter.ofMillis millis =
      min ((millis * jitter.value + u32Max / 2) / u32Max) u64Max := by
  have hu32 : u32Max = 2 ^ 32 - 1 := rfl
  have hu64 : u64Max = 2 ^ 64 - 1 := rfl
  have hvalue : jitter.value < 2 ^ 32 := by
    have := jitter.value_le
    omega
  have hproduct : millis * jitter.value < 2 ^ 75 * 2 ^ 32 := Nat.mul_lt_mul'' h hvalue
  rw [Jitter.ofMillis]
  generalize millis * jitter.value = product at *
  rw [Nat.mod_eq_of_lt (by omega : product < 2 ^ 128), Nat.mod_eq_of_lt (by omega)]
  split
  next hgt => exact (min_eq_right hgt.le).symm
  next hle => rw [Nat.mod_eq_of_lt (by omega), min_eq_left (not_lt.mp hle)]

/-- The range has few enough milliseconds. -/
theorem spread_eq (backoff : Backoff) (jitter : Jitter) :
    jitter.ofMillis (backoff.randomRange / 1000000) = backoff.spread jitter := by
  refine ofMillis_eq jitter (lt_of_le_of_lt (Nat.div_le_div_right backoff.randomRange_le) ?_)
  decide

/-- **A wait is the base and the spread, at no width cut short.** -/
theorem delay_eq (backoff : Backoff) (attempt : ℕ) (jitter : Jitter) :
    backoff.delay attempt jitter =
      min (backoff.base attempt + backoff.spread jitter * 1000000) Duration.max := by
  have hfactor := factor_eq backoff attempt
  dsimp only at hfactor
  rw [delay, spread_eq, Duration.saturatingAdd, Duration.saturatingMul, hfactor, base]

/-! ### What a wait is -/

/-- No more than the range is added. -/
theorem spread_le (backoff : Backoff) (jitter : Jitter) :
    backoff.spread jitter * 1000000 ≤ backoff.randomRange := by
  have hspread : backoff.spread jitter ≤ backoff.randomRange / 1000000 := by
    rw [spread]
    refine (min_le_left _ _).trans ?_
    have hmul := Nat.mul_le_mul_left (backoff.randomRange / 1000000) jitter.value_le
    have hhalf : u32Max / 2 < u32Max := by decide
    rw [← Nat.lt_succ_iff, Nat.div_lt_iff_lt_mul (by decide), Nat.succ_mul]
    exact Nat.add_lt_add_of_le_of_lt hmul hhalf
  exact (Nat.mul_le_mul_right 1000000 hspread).trans (Nat.div_mul_le_self _ _)

theorem spread_mono (backoff : Backoff) {jitter jitter' : Jitter}
    (h : jitter.value ≤ jitter'.value) : backoff.spread jitter ≤ backoff.spread jitter' := by
  refine min_le_min_right _ (Nat.div_le_div_right (Nat.add_le_add_right ?_ _))
  exact Nat.mul_le_mul_left _ h

theorem base_mono (backoff : Backoff) {attempt attempt' : ℕ} (h : attempt ≤ attempt') :
    backoff.base attempt ≤ backoff.base attempt' := by
  refine min_le_min_right _ (Nat.mul_le_mul_left _ (min_le_min_right _ ?_))
  exact Nat.pow_le_pow_right (by norm_num) (min_le_min_right _ h)

/-- For fewer than 32 doublings, the base is the minimum doubled so many times. -/
theorem base_eq {backoff : Backoff} {attempt : ℕ} (h : min attempt backoff.repeatTimes < 32) :
    backoff.base attempt =
      min (backoff.waitMinimum * 2 ^ min attempt backoff.repeatTimes) Duration.max := by
  have hpow : 2 ^ min attempt backoff.repeatTimes < 2 ^ 32 := Nat.pow_lt_pow_right (by norm_num) h
  have hle : 2 ^ min attempt backoff.repeatTimes ≤ u32Max := by
    rw [u32Max]
    omega
  rw [base, factor, min_eq_left hle]

/-- **What a wait is**, for every attempt and every jitter: at least the minimum, doubled after
each attempt up to the last that doubles it, and at most the range more; no shorter for a later
attempt or a larger jitter; the same after the last doubling; and no more than the base without
jitter. None of the widths it is computed at cuts it short. -/
theorem delay_spec (backoff : Backoff) (attempt : ℕ) (jitter : Jitter) :
    (min attempt backoff.repeatTimes < 32 →
        min (backoff.waitMinimum * 2 ^ min attempt backoff.repeatTimes) Duration.max ≤
            backoff.delay attempt jitter ∧
          backoff.delay attempt jitter ≤
            min (backoff.waitMinimum * 2 ^ min attempt backoff.repeatTimes) Duration.max +
              backoff.randomRange) ∧
      (∀ attempt', attempt ≤ attempt' →
        backoff.delay attempt jitter ≤ backoff.delay attempt' jitter) ∧
      (∀ jitter' : Jitter, jitter.value ≤ jitter'.value →
        backoff.delay attempt jitter ≤ backoff.delay attempt jitter') ∧
      (backoff.repeatTimes ≤ attempt →
        backoff.delay attempt jitter = backoff.delay backoff.repeatTimes jitter) ∧
      backoff.delay attempt .none = backoff.base attempt ∧
      backoff.delay attempt jitter =
        min (backoff.base attempt + backoff.spread jitter * 1000000) Duration.max := by
  have hbase : backoff.base attempt ≤ Duration.max := min_le_right _ _
  refine ⟨fun hfew => ?_, fun attempt' h => ?_, fun jitter' h => ?_, fun h => ?_, ?_,
    backoff.delay_eq attempt jitter⟩
  · rw [← base_eq hfew, delay_eq]
    refine ⟨le_min (Nat.le_add_right _ _) hbase, (min_le_left _ _).trans ?_⟩
    exact Nat.add_le_add_left (backoff.spread_le jitter) _
  · rw [delay_eq, delay_eq]
    exact min_le_min_right _ (Nat.add_le_add_right (backoff.base_mono h) _)
  · rw [delay_eq, delay_eq]
    refine min_le_min_right _ (Nat.add_le_add_left ?_ _)
    exact Nat.mul_le_mul_right _ (backoff.spread_mono h)
  · rw [delay_eq, delay_eq, base, base, factor, factor, min_eq_right h, min_self]
  · have hnone : backoff.spread .none = 0 := by
      rw [spread, Jitter.none, Nat.mul_zero, Nat.zero_add]
      decide
    rw [delay_eq, hnone, Nat.zero_mul, Nat.add_zero, min_eq_left hbase]

/-- The values that are suggested: ten seconds, ten of jitter, doubled three times. -/
def suggested : Backoff where
  waitMinimum := Duration.fromSecs 10
  randomRange := Duration.fromSecs 10
  repeatTimes := 3
  waitMinimum_le := by decide
  randomRange_le := by decide
  repeatTimes_le := by decide

/-- Half the range on top of the first wait. -/
example : suggested.delay 0 (.fromRatio 1 2 (by decide)) = Duration.fromSecs 15 := by decide

end Backoff

end OcppKit
