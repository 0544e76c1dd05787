import Mathlib

/-!
# Digits, most significant first

`Digits.value` is what a list of digits stands for, and `Digits.ofNat` the list a number is
written as. A list without a superfluous zero in front is the list of its value
(`Digits.ofNat_value`); a list of a given length is its value padded to that length
(`Digits.pad_value`). A list cut in two is a quotient and a remainder
(`Digits.value_append`, `Digits.value_lt`).
-/

namespace Digits

/-- **What a list of digits stands for.** -/
def value (ds : List (Fin 10)) : ℕ := ds.foldl (fun (v : ℕ) (d : Fin 10) => v * 10 + (d : ℕ)) 0

@[simp] theorem value_nil : value [] = 0 := rfl

/-- One more digit. -/
@[simp] theorem value_concat (ds : List (Fin 10)) (d : Fin 10) :
    value (ds ++ [d]) = value ds * 10 + d := by
  rw [value, List.foldl_append]
  rfl

theorem value_singleton (d : Fin 10) : value [d] = d := by
  rw [← List.nil_append [d], value_concat, value_nil, Nat.zero_mul, Nat.zero_add]

/-- **Digits that follow digits.** -/
theorem value_append (ds es : List (Fin 10)) :
    value (ds ++ es) = value ds * 10 ^ es.length + value es := by
  induction es using List.reverseRecOn with
  | nil => simp
  | append_singleton es e ih =>
      rw [← List.append_assoc, value_concat, value_concat, ih, List.length_append,
        List.length_singleton, pow_succ]
      ring

theorem value_lt (ds : List (Fin 10)) : value ds < 10 ^ ds.length := by
  induction ds using List.reverseRecOn with
  | nil => simp
  | append_singleton ds d ih =>
      rw [value_concat, List.length_append, List.length_singleton, pow_succ]
      have := d.isLt
      omega

/-- The digits before a cut are a quotient. -/
theorem value_append_div (ds es : List (Fin 10)) :
    value (ds ++ es) / 10 ^ es.length = value ds := by
  rw [value_append, mul_comm, Nat.mul_add_div (by positivity), Nat.div_eq_of_lt (value_lt es),
    Nat.add_zero]

/-- And those after it the remainder. -/
theorem value_append_mod (ds es : List (Fin 10)) :
    value (ds ++ es) % 10 ^ es.length = value es := by
  rw [value_append, Nat.add_comm, Nat.add_mul_mod_self_right, Nat.mod_eq_of_lt (value_lt es)]

/-- Nothing but zeros stands for zero. -/
theorem value_eq_zero_iff {ds : List (Fin 10)} : value ds = 0 ↔ ∀ d ∈ ds, d = 0 := by
  induction ds using List.reverseRecOn with
  | nil => simp
  | append_singleton ds d ih =>
      have hd : d = 0 ↔ (d : ℕ) = 0 := Fin.ext_iff
      rw [value_concat, List.forall_mem_append, List.forall_mem_singleton, hd, ← ih]
      omega

/-! ### A number written out -/

/-- **The digits of a number**; zero is one digit. -/
def ofNat (n : ℕ) : List (Fin 10) :=
  if n = 0 then [0] else (Nat.digits 10 n).reverse.map (Fin.ofNat 10)

theorem ofNat_of_lt {n : ℕ} (h : n < 10) : ofNat n = [Fin.ofNat 10 n] := by
  rcases Nat.eq_zero_or_pos n with rfl | hpos
  · rfl
  · rw [ofNat, if_neg hpos.ne', Nat.digits_of_lt 10 n hpos.ne' h]
    rfl

theorem ofNat_of_ge {n : ℕ} (h : 10 ≤ n) : ofNat n = ofNat (n / 10) ++ [Fin.ofNat 10 (n % 10)] := by
  rw [ofNat, if_neg (by omega), ofNat, if_neg (by omega), Nat.digits_def' (by norm_num) (by omega),
    List.reverse_cons, List.map_append]
  rfl

theorem ofNat_ne_nil (n : ℕ) : ofNat n ≠ [] := by
  rcases Nat.lt_or_ge n 10 with h | h
  · rw [ofNat_of_lt h]
    exact List.cons_ne_nil _ _
  · rw [ofNat_of_ge h]
    exact List.append_ne_nil_of_right_ne_nil _ (List.cons_ne_nil _ _)

/-- **The digits of a number stand for it.** -/
@[simp] theorem value_ofNat (n : ℕ) : value (ofNat n) = n := by
  induction n using Nat.strong_induction_on with
  | _ n ih =>
  rcases Nat.lt_or_ge n 10 with h | h
  · rw [ofNat_of_lt h, value_singleton]
    exact Nat.mod_eq_of_lt h
  · rw [ofNat_of_ge h, value_concat, ih _ (by omega), Fin.val_ofNat]
    omega

/-- There is no superfluous zero in front. -/
def Canonical (ds : List (Fin 10)) : Prop := ds ≠ [] ∧ (ds.head? = some 0 → ds = [0])

instance (ds : List (Fin 10)) : Decidable (Canonical ds) := by
  unfold Canonical
  infer_instance

/-- A digit before others that are canonical is not zero. -/
theorem value_pos_of_canonical {ds : List (Fin 10)} {d : Fin 10} (h : Canonical (ds ++ [d]))
    (hne : ds ≠ []) : Canonical ds ∧ 0 < value ds := by
  obtain ⟨e, es, rfl⟩ := List.exists_cons_of_ne_nil hne
  have he : e ≠ 0 := by
    rintro rfl
    have := congrArg List.length (h.2 rfl)
    simp at this
  refine ⟨⟨hne, fun hhead => absurd (Option.some.inj hhead) he⟩, ?_⟩
  rw [Nat.pos_iff_ne_zero]
  intro hzero
  exact he (value_eq_zero_iff.mp hzero e List.mem_cons_self)

/-- **A list without a superfluous zero is the list of its value.** -/
theorem ofNat_value {ds : List (Fin 10)} (h : Canonical ds) : ofNat (value ds) = ds := by
  induction ds using List.reverseRecOn with
  | nil => exact absurd rfl h.1
  | append_singleton ds d ih =>
  rcases eq_or_ne ds [] with rfl | hne
  · rw [List.nil_append, value_singleton, ofNat_of_lt d.isLt, Fin.ofNat_val_eq_self]
  · obtain ⟨hcanonical, hpos⟩ := value_pos_of_canonical h hne
    have hd := d.isLt
    rw [value_concat, ofNat_of_ge (by omega), show (value ds * 10 + d) / 10 = value ds by omega,
      show (value ds * 10 + d) % 10 = d by omega, ih hcanonical, Fin.ofNat_val_eq_self]

/-- The digits of a number have no superfluous zero. -/
theorem canonical_ofNat (n : ℕ) : Canonical (ofNat n) := by
  refine ⟨ofNat_ne_nil n, ?_⟩
  induction n using Nat.strong_induction_on with
  | _ n ih =>
  rcases Nat.lt_or_ge n 10 with h | h
  · rw [ofNat_of_lt h]
    intro hhead
    exact congrArg (· :: []) (Option.some.inj hhead)
  · rw [ofNat_of_ge h, List.head?_append_of_ne_nil _ (ofNat_ne_nil _)]
    intro hhead
    have hzero : value (ofNat (n / 10)) = value [0] := by rw [ih _ (by omega) hhead]
    rw [value_ofNat, value_singleton, Fin.val_zero] at hzero
    omega

/-! ### Padding -/

/-- The digits of a number, with zeros in front up to a width. -/
def pad (width n : ℕ) : List (Fin 10) := List.replicate (width - (ofNat n).length) 0 ++ ofNat n

@[simp] theorem value_pad (width n : ℕ) : value (pad width n) = n := by
  have hzeros : value (List.replicate (width - (ofNat n).length) 0) = 0 :=
    value_eq_zero_iff.mpr fun d hd => List.eq_of_mem_replicate hd
  rw [pad, value_append, hzeros, Nat.zero_mul, Nat.zero_add, value_ofNat]

theorem length_ofNat_le {width n : ℕ} (hwidth : 0 < width) (h : n < 10 ^ width) :
    (ofNat n).length ≤ width := by
  induction width generalizing n with
  | zero => omega
  | succ width ih =>
  rcases Nat.lt_or_ge n 10 with hlt | hge
  · rw [ofNat_of_lt hlt]
    exact hwidth
  · have hdiv : n / 10 < 10 ^ width := Nat.div_lt_of_lt_mul (by rwa [pow_succ, mul_comm] at h)
    rcases Nat.eq_zero_or_pos width with rfl | hpos
    · rw [pow_zero] at hdiv
      omega
    · rw [ofNat_of_ge hge, List.length_append, List.length_singleton]
      exact Nat.add_le_add_right (ih hpos hdiv) 1

theorem length_pad {width n : ℕ} (hwidth : 0 < width) (h : n < 10 ^ width) :
    (pad width n).length = width := by
  rw [pad, List.length_append, List.length_replicate]
  exact Nat.sub_add_cancel (length_ofNat_le hwidth h)

/-- Two lists of one length that stand for one number are one list. -/
theorem eq_of_value_eq {ds es : List (Fin 10)} (hlength : ds.length = es.length)
    (h : value ds = value es) : ds = es := by
  induction ds using List.reverseRecOn generalizing es with
  | nil => exact (List.length_eq_zero_iff.mp hlength.symm).symm
  | append_singleton ds d ih =>
  induction es using List.reverseRecOn with
  | nil => simp at hlength
  | append_singleton es e _ =>
      simp only [List.length_append, List.length_singleton, Nat.add_right_cancel_iff] at hlength
      rw [value_concat, value_concat] at h
      have hd := d.isLt
      have he := e.isLt
      rw [ih hlength (by omega), show d = e from Fin.ext (by omega)]

/-- **A list of a given length is its value padded to it.** -/
theorem pad_value {ds : List (Fin 10)} (h : ds ≠ []) : pad ds.length (value ds) = ds :=
  eq_of_value_eq (length_pad (List.length_pos_iff.mpr h) (value_lt ds)) (value_pad _ _)

end Digits
