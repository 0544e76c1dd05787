import Mathlib

/-!
# Sampling a function of time

A function of integer time is looked at in some points only, and what is seen there is listed
as steps: a sample is left out if it says the same as the step before, and as long as there
is no step, if it says nothing (`StepFunction.merge`). Read back, the value at a time is that
of the last step up to it (`StepFunction.effectAt`).

At the points themselves the steps say what the function does
(`StepFunction.same_effectAt_of_mem`). In between they stay, so they agree with the function
exactly when it does not change off the points: `StepFunction.agrees_iff`. Steps may be left out
later that say what the step before them says: what is read back stays the same
(`StepFunction.same_effectAt_destutter`). Nothing here is about a particular function.
-/

namespace StepFunction

variable {V : Type}

/-! ### Merging samples -/

/-- The next sample is listed, unless it says nothing new. -/
def push (same : V → V → Bool) (silent : V → Bool) (steps : List (ℤ × V)) (sample : ℤ × V) :
    List (ℤ × V) :=
  match steps.getLast? with
  | some previous => if same previous.2 sample.2 then steps else steps ++ [sample]
  | none => if silent sample.2 then steps else steps ++ [sample]

/-- The samples as steps. -/
def merge (same : V → V → Bool) (silent : V → Bool) (samples : List (ℤ × V)) : List (ℤ × V) :=
  samples.foldl (push same silent) []

/-- The value at a time: that of the last step up to it. -/
def effectAt (nothing : V) (steps : List (ℤ × V)) (t : ℤ) : V :=
  ((steps.filter fun step => step.1 ≤ t).getLast?.map Prod.snd).getD nothing

section Merge

variable {same : V → V → Bool} {silent : V → Bool}

theorem merge_concat (samples : List (ℤ × V)) (sample : ℤ × V) :
    merge same silent (samples ++ [sample]) =
      push same silent (merge same silent samples) sample := by
  rw [merge, List.foldl_append]
  rfl

/-- A sample is listed at the end, or left out. -/
theorem push_cases (same : V → V → Bool) (silent : V → Bool) (steps : List (ℤ × V))
    (sample : ℤ × V) :
    push same silent steps sample = steps ++ [sample] ∨ push same silent steps sample = steps := by
  rw [push]
  split
  · split
    · exact Or.inr rfl
    · exact Or.inl rfl
  · split
    · exact Or.inr rfl
    · exact Or.inl rfl

/-- The steps are some of the samples, in their order. -/
theorem merge_sublist (samples : List (ℤ × V)) :
    (merge same silent samples).Sublist samples := by
  induction samples using List.reverseRecOn with
  | nil => exact List.Sublist.refl _
  | append_singleton samples sample ih =>
      rw [merge_concat]
      rcases push_cases same silent (merge same silent samples) sample with h | h
      · rw [h]
        exact ih.append (List.Sublist.refl _)
      · rw [h]
        exact ih.trans (List.sublist_append_left _ _)

/-- Two steps that follow one another differ. -/
theorem isChain_merge (samples : List (ℤ × V)) :
    (merge same silent samples).IsChain fun a b => same a.2 b.2 = false := by
  induction samples using List.reverseRecOn with
  | nil => exact List.IsChain.nil
  | append_singleton samples sample ih =>
      rw [merge_concat, push]
      split
      · next previous hlast =>
          split
          · exact ih
          · next hdiff =>
              refine ih.append (List.IsChain.singleton _) fun a ha b hb => ?_
              obtain rfl : previous = a := Option.some.inj (hlast.symm.trans ha)
              obtain rfl : sample = b := Option.some.inj hb
              exact Bool.eq_false_of_not_eq_true hdiff
      · next hlast =>
          rw [List.getLast?_eq_none_iff.mp hlast]
          split
          · exact List.IsChain.nil
          · exact List.IsChain.singleton _

/-- The first step says something. -/
theorem silent_of_head_merge {samples : List (ℤ × V)} {step : ℤ × V}
    (h : (merge same silent samples).head? = some step) : silent step.2 = false := by
  induction samples using List.reverseRecOn with
  | nil => cases h
  | append_singleton samples sample ih =>
      rw [merge_concat, push] at h
      split at h
      · next previous hlast =>
          split at h
          · exact ih h
          · rw [List.head?_append_of_ne_nil _ fun hnil => by rw [hnil] at hlast; cases hlast] at h
            exact ih h
      · next hlast =>
          rw [List.getLast?_eq_none_iff.mp hlast] at h
          split at h
          · cases h
          · next hsays =>
              obtain rfl := Option.some.inj h
              exact Bool.eq_false_of_not_eq_true hsays

/-- Samples after a time do not change what is in effect up to it. -/
theorem effectAt_merge_append {nothing : V} {samples later : List (ℤ × V)} {t : ℤ}
    (h : ∀ sample ∈ later, t < sample.1) :
    effectAt nothing (merge same silent (samples ++ later)) t =
      effectAt nothing (merge same silent samples) t := by
  induction later using List.reverseRecOn with
  | nil => rw [List.append_nil]
  | append_singleton later sample ih =>
      rw [← ih fun s hs => h s (List.mem_append_left _ hs), ← List.append_assoc, merge_concat]
      have hsample := h sample List.mem_concat_self
      rcases push_cases same silent (merge same silent (samples ++ later)) sample with hp | hp
      · rw [hp, effectAt, List.filter_append, List.filter_cons_of_neg (by simp [hsample]),
          List.filter_nil, List.append_nil, effectAt]
      · rw [hp]

/-- Right after a sample, its value is in effect. -/
theorem same_effectAt_concat {nothing : V} (hrefl : ∀ v, same v v = true)
    {samples : List (ℤ × V)} {sample : ℤ × V}
    (hsilent : silent sample.2 = true → same nothing sample.2 = true)
    (h : ∀ s ∈ samples, s.1 ≤ sample.1) :
    same (effectAt nothing (merge same silent (samples ++ [sample])) sample.1) sample.2 =
      true := by
  have hall : (merge same silent (samples ++ [sample])).filter (fun s => s.1 ≤ sample.1) =
      merge same silent (samples ++ [sample]) := by
    refine List.filter_eq_self.mpr fun s hs => decide_eq_true ?_
    rcases List.mem_append.mp ((merge_sublist _).mem hs) with hs | hs
    · exact h s hs
    · rw [List.mem_singleton.mp hs]
  rw [effectAt, hall, merge_concat, push]
  split
  · next previous hlast =>
      split
      · next hsame =>
          rw [hlast]
          exact hsame
      · rw [List.getLast?_concat]
        exact hrefl _
  · next hlast =>
      split
      · next hs =>
          rw [hlast]
          exact hsilent hs
      · rw [List.getLast?_concat]
        exact hrefl _

end Merge

/-! ### Sampling a function -/

section Sampling

variable {same : V → V → Bool} {silent : V → Bool} {nothing : V} {f : ℤ → V} {points : List ℤ}

/-- The samples of a function. -/
def samples (f : ℤ → V) (points : List ℤ) : List (ℤ × V) := points.map fun t => (t, f t)

/-- **At the points the steps say what the function does.** -/
theorem same_effectAt_of_mem (hrefl : ∀ v, same v v = true)
    (hsilent : ∀ t, silent (f t) = true → same nothing (f t) = true)
    (hsorted : points.Pairwise (· < ·)) {t : ℤ} (ht : t ∈ points) :
    same (effectAt nothing (merge same silent (samples f points)) t) (f t) = true := by
  obtain ⟨before, after, rfl⟩ := List.append_of_mem ht
  obtain ⟨-, hafter, hbefore⟩ := List.pairwise_append.mp hsorted
  have hlater : ∀ s ∈ samples f after, t < s.1 := by
    intro s hs
    obtain ⟨t', ht', rfl⟩ := List.mem_map.mp hs
    exact (List.pairwise_cons.mp hafter).1 t' ht'
  have hearlier : ∀ s ∈ samples f before, s.1 ≤ t := by
    intro s hs
    obtain ⟨t', ht', rfl⟩ := List.mem_map.mp hs
    exact (hbefore t' ht' t List.mem_cons_self).le
  have hsplit : samples f (before ++ t :: after) =
      (samples f before ++ [(t, f t)]) ++ samples f after := by
    simp only [samples, List.map_append, List.map_cons, List.append_assoc, List.singleton_append]
  rw [hsplit, effectAt_merge_append hlater]
  exact same_effectAt_concat hrefl (hsilent t) hearlier

/-- Off the points the steps stay. -/
theorem effectAt_pred {t : ℤ} (ht : t ∉ points) :
    effectAt nothing (merge same silent (samples f points)) (t - 1) =
      effectAt nothing (merge same silent (samples f points)) t := by
  have hfilter : (merge same silent (samples f points)).filter (fun s => s.1 ≤ t - 1) =
      (merge same silent (samples f points)).filter fun s => s.1 ≤ t := by
    refine List.filter_congr fun s hs => ?_
    obtain ⟨t', ht', rfl⟩ := List.mem_map.mp ((merge_sublist _).mem hs)
    have hne : t' ≠ t := by
      rintro rfl
      exact ht ht'
    rw [decide_eq_decide]
    change t' ≤ t - 1 ↔ t' ≤ t
    omega
  rw [effectAt, hfilter, effectAt]

/-- **The steps agree with the function** throughout a window that starts in a point, exactly
when the function does not change off the points. -/
theorem agrees_iff (hequiv : Equivalence fun v w => same v w = true)
    (hsilent : ∀ t, silent (f t) = true → same nothing (f t) = true)
    (hsorted : points.Pairwise (· < ·)) {start stop : ℤ} (hstart : start ∈ points) :
    (∀ t, start ≤ t → t < stop →
      same (effectAt nothing (merge same silent (samples f points)) t) (f t) = true) ↔
    ∀ t, start < t → t < stop → t ∉ points → same (f (t - 1)) (f t) = true := by
  constructor
  · intro hagree t hlt hstop ht
    have hthen := hagree (t - 1) (by omega) (by omega)
    rw [effectAt_pred ht] at hthen
    exact hequiv.trans (hequiv.symm hthen) (hagree t hlt.le hstop)
  · intro hstay t hle
    induction t, hle using Int.leInduction with
    | base => exact fun _ => same_effectAt_of_mem hequiv.refl hsilent hsorted hstart
    | succ t hle ih =>
        intro hstop
        by_cases ht : t + 1 ∈ points
        · exact same_effectAt_of_mem hequiv.refl hsilent hsorted ht
        · have hstep := hstay (t + 1) (by omega) hstop ht
          have hold : effectAt nothing (merge same silent (samples f points)) (t + 1 - 1) =
              effectAt nothing (merge same silent (samples f points)) (t + 1) := effectAt_pred ht
          rw [Int.add_sub_cancel] at hstep hold
          rw [← hold]
          exact hequiv.trans (ih (by omega)) hstep

end Sampling

/-! ### Leaving steps out -/

section Destutter

variable {same : V → V → Bool} {nothing : V}

/-- The first step is in effect until the second. -/
theorem effectAt_cons (step : ℤ × V) (steps : List (ℤ × V)) (t : ℤ) :
    effectAt nothing (step :: steps) t =
      if step.1 ≤ t then effectAt step.2 steps t else effectAt nothing steps t := by
  rw [effectAt, effectAt, effectAt]
  split
  · next h =>
    rw [List.filter_cons_of_pos (by simpa using h), List.getLast?_cons]
    generalize (steps.filter _).getLast? = last
    rcases last with _ | last
    · rfl
    · rfl
  · next h => rw [List.filter_cons_of_neg (by simpa using h)]

/-- Before the first step, nothing is in effect. -/
theorem effectAt_of_lt {steps : List (ℤ × V)} {t : ℤ} (h : ∀ step ∈ steps, t < step.1) :
    effectAt nothing steps t = nothing := by
  rw [effectAt, List.filter_eq_nil_iff.mpr fun step hstep => by simpa using h step hstep]
  rfl

/-- From a step on, one of the steps is in effect. -/
theorem exists_effectAt_eq {steps : List (ℤ × V)} {t : ℤ} (h : ∃ step ∈ steps, step.1 ≤ t) :
    ∃ step ∈ steps, step.1 ≤ t ∧ ∀ nothing, effectAt nothing steps t = step.2 := by
  obtain ⟨step, hstep, hle⟩ := h
  have hne : (steps.filter fun s => s.1 ≤ t) ≠ [] :=
    List.ne_nil_of_mem (List.mem_filter.mpr ⟨hstep, by simpa using hle⟩)
  obtain ⟨last, hlast⟩ := Option.ne_none_iff_exists'.mp (mt List.getLast?_eq_none_iff.mp hne)
  obtain ⟨hmem, hle'⟩ := List.mem_filter.mp (List.mem_of_getLast? hlast)
  exact ⟨last, hmem, by simpa using hle', fun nothing => by rw [effectAt, hlast]; rfl⟩

/-- What is in effect of other values of the same steps. -/
theorem effectAt_map (g : V → V) (steps : List (ℤ × V)) (t : ℤ) :
    effectAt (g nothing) (steps.map fun step => (step.1, g step.2)) t =
      g (effectAt nothing steps t) := by
  induction steps generalizing nothing with
  | nil => rfl
  | cons step steps ih =>
      rw [List.map_cons, effectAt_cons, effectAt_cons, ih, ih]
      split
      · rfl
      · rfl

/-- A step of a sorted list is in effect from its start. -/
theorem effectAt_self {steps : List (ℤ × V)} (hsorted : steps.Pairwise fun a b => a.1 < b.1)
    {step : ℤ × V} (h : step ∈ steps) : effectAt nothing steps step.1 = step.2 := by
  induction steps generalizing nothing with
  | nil => exact absurd h List.not_mem_nil
  | cons first steps ih =>
      obtain ⟨hfirst, hrest⟩ := List.pairwise_cons.mp hsorted
      rw [effectAt_cons]
      rcases List.mem_cons.mp h with rfl | h
      · rw [if_pos le_rfl, effectAt_of_lt hfirst]
      · rw [if_pos (hfirst step h).le, ih hrest h]

/-- What comes of another beginning is the same if the beginning is. -/
theorem same_effectAt (hrefl : ∀ v, same v v = true) {v w : V} (h : same v w = true)
    (steps : List (ℤ × V)) (t : ℤ) :
    same (effectAt v steps t) (effectAt w steps t) = true := by
  rw [effectAt, effectAt]
  generalize (steps.filter _).getLast? = last
  rcases last with _ | last
  · exact h
  · exact hrefl _

/-- **A step that says what the one before it says can be left out.** -/
theorem same_effectAt_destutter (hequiv : Equivalence fun v w => same v w = true)
    {steps : List (ℤ × V)} (hsorted : steps.Pairwise fun a b => a.1 ≤ b.1) (t : ℤ) :
    same (effectAt nothing (steps.destutter fun a b => same a.2 b.2 = false) t)
      (effectAt nothing steps t) = true := by
  rcases steps with _ | ⟨first, steps⟩
  · exact hequiv.refl _
  rw [List.destutter_cons']
  -- the beginning changes along the list, up to what is the same
  suffices h : ∀ v w, same v w = true → same
      (effectAt v (steps.destutter' (fun a b : ℤ × V => same a.2 b.2 = false) first) t)
      (effectAt w (first :: steps) t) = true from h _ _ (hequiv.refl _)
  induction steps generalizing first with
  | nil => exact fun v w h => same_effectAt hequiv.refl h _ t
  | cons next steps ih =>
      intro v w h
      obtain ⟨hfirst, hrest⟩ := List.pairwise_cons.mp hsorted
      by_cases hsame : same first.2 next.2 = true
      · rw [List.destutter'_cons_neg _ (by simp [hsame])]
        have hshort : (first :: steps).Pairwise fun a b => a.1 ≤ b.1 :=
          hsorted.sublist (List.Sublist.cons_cons _ (List.sublist_cons_self _ _))
        refine hequiv.trans (ih first hshort v w h) ?_
        rw [effectAt_cons, effectAt_cons, effectAt_cons, effectAt_cons]
        have hle := hfirst next List.mem_cons_self
        split_ifs with hbefore hnext
        · exact same_effectAt hequiv.refl hsame _ t
        · exact hequiv.refl _
        · omega
        · exact hequiv.refl _
      · rw [List.destutter'_cons_pos _ (by simpa using hsame), effectAt_cons, effectAt_cons]
        split_ifs
        · exact ih next hrest first.2 first.2 (hequiv.refl _)
        · exact ih next hrest v w h

end Destutter

end StepFunction
