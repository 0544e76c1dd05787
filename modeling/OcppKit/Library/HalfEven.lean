import Mathlib

/-!
# Rounding to the nearest integer, half to even

`halfEven` over any ordered field with a floor. What it does is said by one lemma,
`le_halfEven_iff`: an integer is at most the rounded number when the number is more than
half a unit below it, and at exactly half a unit when the integer is even. That it is
monotone, that it is odd and that it leaves integers alone follow from there, and so does
what the usual computation with a quotient, a remainder and a sticky bit gives:
`halfEven_add_div`.
-/

section HalfEven

variable {K : Type*} [Field K] [LinearOrder K] [FloorRing K]

/-- **The nearest integer**, the even one of two. -/
def halfEven (x : K) : ℤ :=
  if x < ⌊x⌋ + 1 / 2 ∨ (x = ⌊x⌋ + 1 / 2 ∧ Even ⌊x⌋) then ⌊x⌋ else ⌊x⌋ + 1

variable [IsStrictOrderedRing K]

/-- **What reaches an integer**: more than half a unit below it, and at half a unit if it is
even. -/
theorem le_halfEven_iff {x : K} {n : ℤ} :
    n ≤ halfEven x ↔ (n : K) - 1 / 2 < x ∨ (x = (n : K) - 1 / 2 ∧ Even n) := by
  have hle := Int.floor_le x
  have hlt := Int.lt_floor_add_one x
  generalize hk : ⌊x⌋ = k at hle hlt
  have hround : halfEven x = if x < (k : K) + 1 / 2 ∨ (x = (k : K) + 1 / 2 ∧ Even k) then k
      else k + 1 := by rw [halfEven, hk]
  rw [hround]
  rcases lt_trichotomy n (k + 1) with hn | rfl | hn
  · have hcast : (n : K) ≤ k := by exact_mod_cast (by omega : n ≤ k)
    refine iff_of_true ?_ (Or.inl (by linarith))
    split <;> omega
  · have hparity : Even (k + 1) ↔ ¬Even k := Int.even_add_one
    push_cast
    split
    next hdown =>
      refine iff_of_false (by omega) ?_
      rintro (hup | ⟨htie, heven⟩)
      · rcases hdown with hdown | ⟨hdown, -⟩ <;> linarith
      · rcases hdown with hdown | ⟨-, hodd⟩
        · linarith
        · exact hparity.mp heven hodd
    next hup =>
      refine iff_of_true le_rfl ?_
      simp only [not_or, not_lt, not_and] at hup
      rcases hup.1.lt_or_eq with hgt | htie
      · exact Or.inl (by linarith)
      · exact Or.inr ⟨by linarith, hparity.mpr (hup.2 htie.symm)⟩
  · have hcast : (k : K) + 2 ≤ n := by exact_mod_cast (by omega : k + 2 ≤ n)
    refine iff_of_false ?_ ?_
    · split <;> omega
    · rintro (hup | ⟨htie, -⟩) <;> linarith

theorem halfEven_lt_iff {x : K} {n : ℤ} :
    halfEven x < n ↔ x < (n : K) - 1 / 2 ∨ (x = (n : K) - 1 / 2 ∧ ¬Even n) := by
  rw [← not_le, le_halfEven_iff, not_or, not_lt, not_and]
  constructor
  · rintro ⟨hle, hodd⟩
    rcases hle.lt_or_eq with hlt | heq
    · exact Or.inl hlt
    · exact Or.inr ⟨heq, hodd heq⟩
  · rintro (hlt | ⟨heq, hodd⟩)
    · exact ⟨hlt.le, fun heq => absurd heq hlt.ne⟩
    · exact ⟨heq.le, fun _ => hodd⟩

/-- An even integer is reached at half a unit below it. -/
theorem le_halfEven_iff_of_even {x : K} {n : ℤ} (h : Even n) :
    n ≤ halfEven x ↔ (n : K) - 1 / 2 ≤ x := by
  rw [le_halfEven_iff, le_iff_lt_or_eq]
  simp only [h, and_true, eq_comm]

/-- And left at half a unit above it. -/
theorem halfEven_le_iff_of_even {x : K} {n : ℤ} (h : Even n) :
    halfEven x ≤ n ↔ x ≤ (n : K) + 1 / 2 := by
  have hodd : ¬Even (n + 1) := fun hodd => Int.even_add_one.mp hodd h
  rw [← Int.lt_add_one_iff, halfEven_lt_iff, le_iff_lt_or_eq]
  push_cast
  rw [show (n : K) + 1 - 1 / 2 = n + 1 / 2 by ring]
  simp only [hodd, not_false_eq_true, and_true]

/-- **What rounds to an integer.** -/
theorem halfEven_eq_iff {x : K} {n : ℤ} : halfEven x = n ↔
    ((n : K) - 1 / 2 < x ∨ (x = (n : K) - 1 / 2 ∧ Even n)) ∧
      (x < (n : K) + 1 / 2 ∨ (x = (n : K) + 1 / 2 ∧ Even n)) := by
  rw [← le_halfEven_iff, show halfEven x = n ↔ n ≤ halfEven x ∧ halfEven x < n + 1 by omega,
    halfEven_lt_iff, Int.even_add_one, not_not]
  push_cast
  rw [show (n : K) + 1 - 1 / 2 = n + 1 / 2 by ring]

theorem halfEven_mono {x y : K} (h : x ≤ y) : halfEven x ≤ halfEven y := by
  rw [le_halfEven_iff]
  rcases le_halfEven_iff.mp (le_refl (halfEven x)) with hlt | ⟨heq, heven⟩
  · exact Or.inl (hlt.trans_le h)
  · rcases h.lt_or_eq with hlt | rfl
    · exact Or.inl (heq ▸ hlt)
    · exact Or.inr ⟨heq, heven⟩

@[simp] theorem halfEven_intCast (n : ℤ) : halfEven (n : K) = n :=
  halfEven_eq_iff.mpr ⟨Or.inl (by linarith), Or.inl (by linarith)⟩

@[simp] theorem halfEven_neg (x : K) : halfEven (-x) = -halfEven x := by
  obtain ⟨hlow, hhigh⟩ := halfEven_eq_iff.mp (rfl : halfEven x = halfEven x)
  refine halfEven_eq_iff.mpr ⟨?_, ?_⟩
  · rcases hhigh with hlt | ⟨heq, heven⟩
    · exact Or.inl (by push_cast; linarith)
    · exact Or.inr ⟨by push_cast; linarith, heven.neg⟩
  · rcases hlow with hlt | ⟨heq, heven⟩
    · exact Or.inl (by push_cast; linarith)
    · exact Or.inr ⟨by push_cast; linarith, heven.neg⟩

theorem halfEven_nonneg {x : K} (h : 0 ≤ x) : 0 ≤ halfEven x := by
  have hmono := halfEven_mono h
  rwa [show halfEven (0 : K) = 0 by exact_mod_cast halfEven_intCast (K := K) 0] at hmono

/-- **A quotient, a remainder and a sticky bit** decide the rounding: `f` is what was dropped
below the remainder. -/
theorem halfEven_add_div {h q r : ℕ} (hr : r < 2 * h) {f : K} (hf : 0 ≤ f) (hf' : f < 1) :
    halfEven (((q * (2 * h) + r : ℕ) + f) / ((2 * h : ℕ) : K)) =
      if h < r ∨ (r = h ∧ (f ≠ 0 ∨ q % 2 = 1)) then (q : ℤ) + 1 else q := by
  have hpos : (0 : K) < h := by exact_mod_cast (by omega : 0 < h)
  have hr' : (r : K) + 1 ≤ 2 * h := by exact_mod_cast hr
  have hr₀ : (0 : K) ≤ r := Nat.cast_nonneg r
  -- everything is measured in units of the remainder
  have hscale : ∀ c : K, c < ((q * (2 * h) + r : ℕ) + f) / ((2 * h : ℕ) : K) ↔
      (c - q) * (2 * h) < r + f := by
    intro c
    rw [lt_div_iff₀ (by push_cast; linarith)]
    push_cast
    constructor <;> intro hc <;> linarith
  have hscale' : ∀ c : K, ((q * (2 * h) + r : ℕ) + f) / ((2 * h : ℕ) : K) < c ↔
      r + f < (c - q) * (2 * h) := by
    intro c
    rw [div_lt_iff₀ (by push_cast; linarith)]
    push_cast
    constructor <;> intro hc <;> linarith
  have hscale'' : ∀ c : K, ((q * (2 * h) + r : ℕ) + f) / ((2 * h : ℕ) : K) = c ↔
      r + f = (c - q) * (2 * h) := by
    intro c
    rw [div_eq_iff (by push_cast; linarith)]
    push_cast
    constructor <;> intro hc <;> linarith
  rw [halfEven_eq_iff, hscale, hscale', hscale'', hscale'']
  split
  next hup =>
    push_cast
    constructor
    · rcases hup with hup | ⟨rfl, hf₀ | hodd⟩
      · have hup' : (h : K) + 1 ≤ r := by exact_mod_cast hup
        exact Or.inl (by linarith)
      · have hf₁ : 0 < f := lt_of_le_of_ne hf hf₀.symm
        exact Or.inl (by linarith)
      · rcases hf.lt_or_eq with hf₁ | rfl
        · exact Or.inl (by linarith)
        · refine Or.inr ⟨by linarith, ?_⟩
          rw [Int.even_add_one, Int.even_coe_nat, Nat.not_even_iff]
          exact hodd
    · exact Or.inl (by linarith)
  next hdown =>
    push_cast
    simp only [not_or, not_lt, not_and, not_not] at hdown
    constructor
    · exact Or.inl (by linarith)
    · rcases hdown.1.lt_or_eq with hlt | rfl
      · have hlt' : (r : K) + 1 ≤ h := by exact_mod_cast hlt
        exact Or.inl (by linarith)
      · obtain ⟨rfl, heven⟩ := hdown.2 rfl
        refine Or.inr ⟨by linarith, ?_⟩
        rw [Int.even_coe_nat, Nat.even_iff]
        omega

end HalfEven
