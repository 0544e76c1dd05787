import Mathlib.Algebra.Ring.Periodic
import Mathlib.Data.List.Perm.Basic

/-!
# Taking turns

Several candidates are tried one after the other, each for a share of tries before the next one
has its turn, and after the last the first again: `OcppKit.Turns.turn` is the candidate of a try.

It is fair, wherever one starts to count: over as many tries as there are shares in all, each
candidate is tried for its share, and for no more (`OcppKit.Turns.perm_turns`).
-/

namespace OcppKit.Turns

variable {α : Type*}

/-- **The candidate of a try**, when each has a share of tries before the next. -/
def turn (share : ℕ) (candidates : List α) (k : ℕ) : Option α :=
  candidates[k / share % candidates.length]?

/-- A period has the same values wherever it starts. -/
theorem perm_period {f : ℕ → α} {w : ℕ} (h : Function.Periodic f w) (start : ℕ) :
    ((List.range w).map fun k => f (start + k)).Perm ((List.range w).map f) := by
  induction start with
  | zero =>
      simp only [Nat.zero_add]
      exact List.Perm.refl _
  | succ start ih =>
      refine List.Perm.trans ?_ ih
      -- the value that is left behind is the one that comes in
      have hlonger : f start :: (List.range w).map (fun k => f (start + 1 + k)) =
          (List.range w).map (fun k => f (start + k)) ++ [f start] := by
        have hfirst : (List.range (w + 1)).map (fun k => f (start + k)) =
            f start :: (List.range w).map fun k => f (start + 1 + k) := by
          rw [List.range_succ_eq_map, List.map_cons, List.map_map, Nat.add_zero]
          refine congrArg _ (List.map_congr_left fun k _ => ?_)
          rw [Function.comp_apply, Nat.succ_eq_add_one, Nat.add_assoc, Nat.add_comm 1 k]
        have hlast : (List.range (w + 1)).map (fun k => f (start + k)) =
            (List.range w).map (fun k => f (start + k)) ++ [f start] := by
          rw [List.range_succ, List.map_append, List.map_singleton, h start]
        exact hfirst.symm.trans hlast
      have hperm := List.perm_append_singleton (f start) ((List.range w).map fun k => f (start + k))
      rw [← hlonger] at hperm
      exact hperm.cons_inv

/-- Each value is there for its share. -/
theorem map_div (f : ℕ → α) {share : ℕ} (h : 0 < share) (n : ℕ) :
    (List.range (share * n)).map (fun k => f (k / share)) =
      (List.range n).flatMap fun j => List.replicate share (f j) := by
  induction n with
  | zero => rfl
  | succ n ih =>
      rw [Nat.mul_succ, List.range_add, List.map_append, ih, List.range_succ, List.flatMap_append,
        List.flatMap_singleton, List.map_map]
      congr 1
      rw [List.eq_replicate_iff]
      refine ⟨by rw [List.length_map, List.length_range], fun b hb => ?_⟩
      obtain ⟨k, hk, rfl⟩ := List.mem_map.mp hb
      rw [Function.comp_apply, Nat.mul_add_div h, Nat.div_eq_of_lt (List.mem_range.mp hk),
        Nat.add_zero]

/-- **Whoever takes turns is tried for a share**, wherever one starts to count. -/
theorem perm_turns {share : ℕ} (h : 0 < share) (candidates : List α) (start : ℕ) :
    ((List.range (share * candidates.length)).map fun k =>
        turn share candidates (start + k)).Perm
      ((candidates.flatMap (List.replicate share)).map some) := by
  have hperiodic : Function.Periodic (turn share candidates) (share * candidates.length) := by
    intro k
    rw [turn, turn, Nat.add_mul_div_left _ _ h, Nat.add_mod_right]
  refine (perm_period hperiodic start).trans (List.Perm.of_eq ?_)
  have hdiv := map_div (fun j => candidates[j % candidates.length]?) h candidates.length
  change (List.range _).map (fun k => candidates[k / share % candidates.length]?) = _
  rw [hdiv, List.map_flatMap]
  have hall : (List.range candidates.length).map (fun j => candidates[j % candidates.length]?) =
      candidates.map some := by
    refine List.ext_getElem (by simp) fun j hj _ => ?_
    rw [List.length_map, List.length_range] at hj
    rw [List.getElem_map, List.getElem_map, List.getElem_range, Nat.mod_eq_of_lt hj,
      List.getElem?_eq_getElem hj]
  calc (List.range candidates.length).flatMap
        (fun j => List.replicate share candidates[j % candidates.length]?)
      = ((List.range candidates.length).map
          (fun j => candidates[j % candidates.length]?)).flatMap (List.replicate share) := by
        rw [List.flatMap_map]
    _ = candidates.flatMap fun c => (List.replicate share c).map some := by
        rw [hall, List.flatMap_map]
        refine List.flatMap_congr fun c _ => ?_
        rw [List.map_replicate]

end OcppKit.Turns
