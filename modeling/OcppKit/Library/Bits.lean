import Mathlib

/-!
# Bits, most significant first

`Bits.ofNat` is what a number is written as in a given number of bits, and `Bits.groups` what a
list of numbers is, one after the other. The same bits can be grouped in other ways: a number of
`m + r` bits is a number of `m` bits and one of `r` (`Bits.ofNat_add`), and a number that is
shifted to make room for another is the two of them (`Bits.ofNat_mul_add`). A grouping is
determined by its bits (`Bits.groups_injOn`).
-/

namespace Bits

/-- **The low bits of a number**, the most significant first. -/
def ofNat : ℕ → ℕ → List Bool
  | 0, _ => []
  | w + 1, n => ofNat w (n / 2) ++ [decide (n % 2 = 1)]

@[simp] theorem ofNat_zero (n : ℕ) : ofNat 0 n = [] := rfl

theorem ofNat_succ (w n : ℕ) : ofNat (w + 1) n = ofNat w (n / 2) ++ [decide (n % 2 = 1)] := rfl

@[simp] theorem length_ofNat (w n : ℕ) : (ofNat w n).length = w := by
  induction w generalizing n with
  | zero => rfl
  | succ w ih => rw [ofNat_succ, List.length_append, ih, List.length_singleton]

/-- **The high bits come first.** -/
theorem ofNat_add (m r n : ℕ) : ofNat (m + r) n = ofNat m (n / 2 ^ r) ++ ofNat r n := by
  induction r generalizing n with
  | zero => simp
  | succ r ih =>
      have hdiv : n / 2 / 2 ^ r = n / 2 ^ (r + 1) := by
        rw [Nat.div_div_eq_div_mul, pow_succ, mul_comm]
      rw [← Nat.add_assoc, ofNat_succ, ih, hdiv, ofNat_succ, List.append_assoc]

/-- Bits that are above the ones that count make no difference. -/
theorem ofNat_mod {w m : ℕ} (h : w ≤ m) (n : ℕ) : ofNat w (n % 2 ^ m) = ofNat w n := by
  induction w generalizing m n with
  | zero => rfl
  | succ w ih =>
      obtain ⟨k, rfl⟩ : ∃ k, m = k + 1 := ⟨m - 1, by omega⟩
      have hlow : n % 2 ^ (k + 1) % 2 = n % 2 :=
        Nat.mod_mod_of_dvd n (dvd_pow_self 2 (Nat.succ_ne_zero k))
      have hhigh : n % 2 ^ (k + 1) / 2 = n / 2 % 2 ^ k := by
        rw [pow_succ, mul_comm, Nat.mod_mul_right_div_self]
      rw [ofNat_succ, ofNat_succ, hlow, hhigh, ih (by omega)]

/-- **A number that makes room for another.** -/
theorem ofNat_mul_add (m : ℕ) {r b : ℕ} (hb : b < 2 ^ r) (a : ℕ) :
    ofNat (m + r) (a * 2 ^ r + b) = ofNat m a ++ ofNat r b := by
  have hhigh : (a * 2 ^ r + b) / 2 ^ r = a := by
    rw [mul_comm, Nat.mul_add_div (by positivity), Nat.div_eq_of_lt hb, Nat.add_zero]
  have hlow : ofNat r (a * 2 ^ r + b) = ofNat r b := by
    rw [← ofNat_mod le_rfl, Nat.mul_add_mod_self_right, Nat.mod_eq_of_lt hb]
  rw [ofNat_add, hhigh, hlow]

theorem ofNat_injOn {w n n' : ℕ} (hn : n < 2 ^ w) (hn' : n' < 2 ^ w)
    (h : ofNat w n = ofNat w n') : n = n' := by
  induction w generalizing n n' with
  | zero =>
      rw [pow_zero] at hn hn'
      omega
  | succ w ih =>
      rw [ofNat_succ, ofNat_succ] at h
      obtain ⟨hhigh, hlow⟩ := List.append_inj' h rfl
      rw [pow_succ] at hn hn'
      have hdiv := ih (by omega) (by omega) hhigh
      have hmod : n % 2 = 1 ↔ n' % 2 = 1 := by simpa using hlow
      omega

/-- **Nothing but zeros.** -/
theorem ofNat_eq_replicate_iff {w n : ℕ} : ofNat w n = List.replicate w false ↔
    n % 2 ^ w = 0 := by
  have hzero : ofNat w 0 = List.replicate w false := by
    induction w with
    | zero => rfl
    | succ w ih =>
        rw [ofNat_succ, Nat.zero_div, ih, List.replicate_succ']
        rfl
  rw [← hzero, ← ofNat_mod (le_refl w) n]
  constructor
  · intro h
    exact ofNat_injOn (Nat.mod_lt _ (by positivity)) (by positivity) h
  · intro h
    rw [h]

/-! ### Several numbers -/

/-- **Numbers of the same width, one after the other.** -/
def groups (w : ℕ) (ns : List ℕ) : List Bool := ns.flatMap (ofNat w)

@[simp] theorem groups_nil (w : ℕ) : groups w [] = [] := rfl

@[simp] theorem groups_cons (w n : ℕ) (ns : List ℕ) :
    groups w (n :: ns) = ofNat w n ++ groups w ns := rfl

theorem groups_append (w : ℕ) (ns ns' : List ℕ) :
    groups w (ns ++ ns') = groups w ns ++ groups w ns' := List.flatMap_append

@[simp] theorem groups_singleton (w n : ℕ) : groups w [n] = ofNat w n := List.append_nil _

@[simp] theorem length_groups (w : ℕ) (ns : List ℕ) : (groups w ns).length = w * ns.length := by
  induction ns with
  | nil => rfl
  | cons n ns ih =>
      rw [groups_cons, List.length_append, length_ofNat, ih, List.length_cons]
      ring

/-- **The numbers are determined by their bits.** -/
theorem groups_injOn {w : ℕ} (hw : 0 < w) {ns ns' : List ℕ} (hns : ∀ n ∈ ns, n < 2 ^ w)
    (hns' : ∀ n ∈ ns', n < 2 ^ w) (h : groups w ns = groups w ns') : ns = ns' := by
  have hlength : ns.length = ns'.length := by
    have := congrArg List.length h
    rw [length_groups, length_groups] at this
    exact Nat.eq_of_mul_eq_mul_left hw this
  induction ns generalizing ns' with
  | nil => exact (List.length_eq_zero_iff.mp hlength.symm).symm
  | cons n ns ih =>
      rcases ns' with _ | ⟨n', ns'⟩
      · cases hlength
      · obtain ⟨hhead, htail⟩ := List.append_inj h (by rw [length_ofNat, length_ofNat])
        rw [ofNat_injOn (hns n List.mem_cons_self) (hns' n' List.mem_cons_self) hhead,
          ih (fun m hm => hns m (List.mem_cons_of_mem _ hm))
            (fun m hm => hns' m (List.mem_cons_of_mem _ hm)) htail (Nat.succ.inj hlength)]

end Bits
