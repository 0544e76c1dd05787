import OcppKit.Library.SortedMap
import Mathlib.Data.List.MinMax

/-!
# Recency

A recency list has its entries in the order in which they were last used, the latest first, and
no key twice (`Recency.use`). What is kept of it, where only so many may be, is its beginning; and
that can be maintained without the rest (`Recency.take_use`, `Recency.take_use_of_mem`).

Nor does it take a list. A map whose values are stamped by a clock that ticks at every use has
the same entries, and the order is that of the stamps (`Recency.Stamped`): to use a key is to
stamp it anew (`Recency.Stamped.use`), and the oldest is the one with the least stamp
(`Recency.Stamped.oldest`).
-/

namespace Recency

variable {κ α : Type}

/-! ### The list -/

section List

variable [DecidableEq κ]

/-- **A key is used**, with the value it has from then on. -/
def use (k : κ) (a : α) (l : List (κ × α)) : List (κ × α) :=
  (k, a) :: l.filter fun e => e.1 ≠ k

theorem nodup_use {l : List (κ × α)} (h : (l.map Prod.fst).Nodup) (k : κ) (a : α) :
    ((use k a l).map Prod.fst).Nodup := by
  rw [use, List.map_cons, List.nodup_cons]
  refine ⟨?_, h.sublist (List.filter_sublist.map Prod.fst)⟩
  rw [List.mem_map]
  rintro ⟨e, he, rfl⟩
  simpa using (List.mem_filter.mp he).2

/-- Without a key that stands at most once, a beginning is that of a beginning one longer. -/
theorem take_filter_ne {l : List (κ × α)} (h : (l.map Prod.fst).Nodup) (k : κ) (n : ℕ) :
    ((l.take (n + 1)).filter fun e => e.1 ≠ k).take n =
      (l.filter fun e => e.1 ≠ k).take n := by
  induction l generalizing n with
  | nil => rfl
  | cons e l ih =>
      rw [List.map_cons, List.nodup_cons] at h
      rw [List.take_succ_cons]
      by_cases he : e.1 = k
      · -- the rest has the key no more
        have hrest : ∀ l' : List (κ × α), l'.Sublist l →
            (l'.filter fun e => e.1 ≠ k) = l' := by
          intro l' hl'
          refine List.filter_eq_self.mpr fun e' he' => decide_eq_true ?_
          rintro heq
          exact h.1 (he.trans heq.symm ▸ List.mem_map_of_mem (hl'.subset he'))
        rw [List.filter_cons_of_neg (by simpa using he),
          List.filter_cons_of_neg (by simpa using he), hrest _ (List.take_sublist n l),
          hrest _ (List.Sublist.refl l), List.take_take, min_self]
      · rw [List.filter_cons_of_pos (by simpa using he),
          List.filter_cons_of_pos (by simpa using he)]
        cases n with
        | zero => rfl
        | succ n => rw [List.take_succ_cons, List.take_succ_cons, ih h.2]

/-- **What is kept does not depend on what was not.** -/
theorem take_use {l : List (κ × α)} (h : (l.map Prod.fst).Nodup) (k : κ) (a : α) {n : ℕ}
    (hn : 0 < n) : (use k a (l.take n)).take n = (use k a l).take n := by
  obtain ⟨n, rfl⟩ : ∃ m, n = m + 1 := ⟨n - 1, by omega⟩
  rw [use, use, List.take_succ_cons, List.take_succ_cons, take_filter_ne h]

/-- A key that is kept makes room for itself. -/
theorem length_use_of_mem {l : List (κ × α)} {k : κ} (hk : k ∈ l.map Prod.fst) (a : α) :
    (use k a l).length ≤ l.length := by
  obtain ⟨e, he, rfl⟩ := List.mem_map.mp hk
  rw [use, List.length_cons]
  refine List.length_filter_lt_length_iff_exists.mpr ⟨e, he, ?_⟩
  simp

/-- **Nothing is dropped when a key is used that is kept.** -/
theorem take_use_of_mem {l : List (κ × α)} (h : (l.map Prod.fst).Nodup) {k : κ} {n : ℕ}
    (hk : k ∈ (l.take n).map Prod.fst) (a : α) :
    (use k a l).take n = use k a (l.take n) := by
  have hn : 0 < n := by
    rcases Nat.eq_zero_or_pos n with rfl | hn
    · exact absurd hk List.not_mem_nil
    · exact hn
  rw [← take_use h k a hn]
  refine List.take_of_length_le ((length_use_of_mem hk a).trans ?_)
  exact List.length_take_le n l

end List

/-! ### The stamps -/

variable [LinearOrder κ]

/-- **A stamped map keeps a recency list**: its entries are those of the list, stamped in its
order, and the clock is not behind. -/
def Stamped (m : SortedMap κ (ℕ × α)) (clock : ℕ) (l : List (κ × α)) : Prop :=
  ∃ entries : List (κ × (ℕ × α)), entries.Perm m.entries ∧
    entries.Pairwise (fun e e' => e'.2.1 < e.2.1) ∧ (∀ e ∈ entries, e.2.1 ≤ clock) ∧
    entries.map (fun e => (e.1, e.2.2)) = l

namespace Stamped

variable {m : SortedMap κ (ℕ × α)} {clock : ℕ} {l : List (κ × α)}

theorem empty (clock : ℕ) : Stamped (SortedMap.empty : SortedMap κ (ℕ × α)) clock [] :=
  ⟨[], List.Perm.refl _, List.Pairwise.nil, by simp, rfl⟩

/-- The clock may tick. -/
theorem mono (h : Stamped m clock l) {clock' : ℕ} (hclock : clock ≤ clock') :
    Stamped m clock' l := by
  obtain ⟨entries, hperm, hsorted, hle, hl⟩ := h
  exact ⟨entries, hperm, hsorted, fun e he => (hle e he).trans hclock, hl⟩

theorem size_eq (h : Stamped m clock l) : m.size = l.length := by
  obtain ⟨entries, hperm, -, -, rfl⟩ := h
  rw [List.length_map, hperm.length_eq, SortedMap.size]

/-- An entry of the map is one of the list. -/
theorem mem_iff (h : Stamped m clock l) (k : κ) (a : α) :
    (k, a) ∈ l ↔ ∃ stamp, m.find k = some (stamp, a) := by
  obtain ⟨entries, hperm, -, -, rfl⟩ := h
  simp only [SortedMap.find_eq_some_iff, List.mem_map, ← hperm.mem_iff]
  constructor
  · rintro ⟨⟨k, stamp, a⟩, he, heq⟩
    obtain ⟨rfl, rfl⟩ := Prod.mk.inj heq
    exact ⟨stamp, he⟩
  · rintro ⟨stamp, he⟩
    exact ⟨_, he, rfl⟩

/-- What is found is what the list has. -/
theorem map_find (h : Stamped m clock l) (hl : (l.map Prod.fst).Nodup) (k : κ) :
    (m.find k).map Prod.snd = SortedMap.lookup k l := by
  refine Option.ext fun a => ?_
  rw [SortedMap.lookup_eq_some_iff hl, h.mem_iff, Option.map_eq_some_iff]
  constructor
  · rintro ⟨⟨stamp, a⟩, hfind, rfl⟩
    exact ⟨stamp, hfind⟩
  · rintro ⟨stamp, hfind⟩
    exact ⟨_, hfind, rfl⟩

/-- **To use a key is to stamp it anew.** -/
theorem use (h : Stamped m clock l) (k : κ) (a : α) :
    Stamped (m.insert k (clock + 1, a)) (clock + 1) (Recency.use k a l) := by
  obtain ⟨entries, hperm, hsorted, hle, rfl⟩ := h
  refine ⟨(k, (clock + 1, a)) :: entries.filter fun e => e.1 ≠ k, ?_, ?_, ?_, ?_⟩
  · exact ((hperm.filter _).cons _).trans (m.perm_insert k (clock + 1, a)).symm
  · rw [List.pairwise_cons]
    refine ⟨fun e he => ?_, hsorted.sublist List.filter_sublist⟩
    exact Nat.lt_succ_of_le (hle e (List.mem_of_mem_filter he))
  · rw [List.forall_mem_cons]
    exact ⟨le_rfl, fun e he => (hle e (List.mem_of_mem_filter he)).trans (Nat.le_succ clock)⟩
  · rw [Recency.use, List.map_cons, List.filter_map]
    rfl

/-- **The oldest entry is the last of the list.** -/
theorem oldest {e : κ × α} (h : Stamped m clock (l ++ [e])) :
    (m.entries.argmin fun e => e.2.1).map Prod.fst = some e.1 ∧
      Stamped (m.remove e.1) clock l := by
  obtain ⟨entries, hperm, hsorted, hle, hl⟩ := h
  obtain ⟨front, back, rfl, hfront, hback⟩ := List.map_eq_append_iff.mp hl
  obtain ⟨x, rfl, rfl⟩ : ∃ x, back = [x] ∧ (x.1, x.2.2) = e := by
    rcases back with _ | ⟨x, _ | ⟨y, back⟩⟩
    · exact absurd hback (by simp)
    · exact ⟨x, rfl, by simpa using hback⟩
    · exact absurd hback (by simp)
  rw [List.pairwise_append] at hsorted
  obtain ⟨hsorted, -, hlast⟩ := hsorted
  have hkeys : (x.1 :: front.map Prod.fst).Nodup := by
    have := (hperm.map Prod.fst).nodup_iff.mpr m.nodup_keys
    rwa [List.map_append, List.map_singleton, List.nodup_append_comm] at this
  refine ⟨?_, front, ?_, hsorted, fun e he => hle e (List.mem_append_left _ he), hfront⟩
  · -- any other has a greater stamp
    rcases hmin : m.entries.argmin (fun e => e.2.1) with _ | y
    · rw [List.argmin_eq_none] at hmin
      exact absurd (hperm.mem_iff.mp (List.mem_append_right front List.mem_cons_self)) (by
        rw [hmin]
        exact List.not_mem_nil)
    · have hx : x ∈ m.entries := hperm.mem_iff.mp (List.mem_append_right front List.mem_cons_self)
      have hle' := List.le_of_mem_argmin hx hmin
      rcases List.mem_append.mp (hperm.mem_iff.mpr (List.argmin_mem hmin)) with hy | hy
      · exact absurd (hlast y hy x List.mem_cons_self) (not_lt.mpr hle')
      · rw [hmin, List.mem_singleton.mp hy]
        rfl
  · have hfilter : ((front ++ [x]).filter fun e => e.1 ≠ x.1) = front := by
      rw [List.filter_append, List.filter_cons_of_neg (by simp), List.filter_nil, List.append_nil]
      refine List.filter_eq_self.mpr fun y hy => decide_eq_true ?_
      rintro heq
      exact (List.nodup_cons.mp hkeys).1 (heq ▸ List.mem_map_of_mem hy)
    have := hperm.filter fun e => decide (e.1 ≠ x.1)
    rwa [hfilter] at this

end Stamped

end Recency
