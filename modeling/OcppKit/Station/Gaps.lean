import OcppKit.Station.Composite

/-!
# Stretches that nothing limits

A step of a composite schedule without a limit is a stretch that no profile constrains. The
message it is sent in has no room for that, so the caller gives such stretches a limit of its own,
`OcppKit.CompositeSchedule.fillGaps`, and asks whether there are any,
`OcppKit.CompositeSchedule.hasGaps`.

Both look at the steps, and before the first step there is none: the composite schedule leaves out
a gap it would begin with. That stretch is not filled, and not reported. So both are right exactly
if there is a limit when the schedule starts: `OcppKit.gapsFilled_iff`.
-/

namespace OcppKit

namespace CompositeSchedule

/-! ### Filling, and asking -/

/-- Replaces every step without a limit by one with this limit, and leaves out what then says the
same as the step before. -/
def fillGaps (schedule : CompositeSchedule) (ratedMaximum : Decimal) : CompositeSchedule :=
  { schedule with
    periods :=
      (schedule.periods.map fun period =>
        if period.limit.isNone then { period with limit := some ratedMaximum }
        else period).destutter fun previous next => sameStep previous next = false }

/-- Whether a step is without a limit. -/
def hasGaps (schedule : CompositeSchedule) : Bool :=
  schedule.periods.any fun period => period.limit.isNone

/-- **No gap is left** in a schedule that is filled: every instant is covered by a step with a
limit, where there was a limit it stays, the steps start one after the other, and two that follow
one another differ; and it is known beforehand whether there was a gap. -/
structure GapsFilled (schedule : CompositeSchedule) (ratedMaximum : Decimal) : Prop where
  /-- Every instant is covered. -/
  covered : ∀ t, 0 ≤ t → t < schedule.duration →
    ((schedule.fillGaps ratedMaximum).effectAt t).1.isSome = true
  /-- Where there was a limit it stays. -/
  kept : ∀ t, 0 ≤ t → t < schedule.duration → (schedule.effectAt t).1.isSome = true →
    sameEffect ((schedule.fillGaps ratedMaximum).effectAt t) (schedule.effectAt t) = true
  /-- The steps start one after the other. -/
  increasing : (schedule.fillGaps ratedMaximum).periods.Pairwise fun period period' =>
    period.startPeriod < period'.startPeriod
  /-- Two that follow one another differ. -/
  differ : (schedule.fillGaps ratedMaximum).periods.IsChain fun period period' =>
    sameStep period period' = false
  /-- Whether there was a gap. -/
  hasGaps_iff : schedule.hasGaps = false ↔
    ∀ t, 0 ≤ t → t < schedule.duration → (schedule.effectAt t).1.isSome = true

/-! ### The steps of a filled schedule -/

/-- The steps as pairs. -/
def steps (schedule : CompositeSchedule) : List (ℤ × LimitEffect) :=
  schedule.periods.map fun period => (period.startPeriod, period.limit, period.numberPhases)

/-- An effect with its limit filled in. -/
def fill (ratedMaximum : Decimal) (v : LimitEffect) : LimitEffect :=
  if v.1.isNone then (some ratedMaximum, v.2) else v

theorem isSome_fill (ratedMaximum : Decimal) (v : LimitEffect) :
    (fill ratedMaximum v).1.isSome = true := by
  rw [fill]
  split
  · rfl
  · next h => exact Option.isSome_iff_ne_none.mpr (mt Option.isNone_iff_eq_none.mpr h)

theorem fill_of_isSome {ratedMaximum : Decimal} {v : LimitEffect} (h : v.1.isSome = true) :
    fill ratedMaximum v = v := by
  rw [fill, if_neg]
  rw [Option.isNone_iff_eq_none]
  exact Option.isSome_iff_ne_none.mp h

theorem effectAt_eq (schedule : CompositeSchedule) (t : ℤ) :
    schedule.effectAt t = StepFunction.effectAt (none, none) schedule.steps t := by
  have h : schedule.periods = schedule.steps.map (ProfileStore.toStep 0) := by
    rw [steps, List.map_map]
    refine (List.map_id _).symm.trans (List.map_congr_left fun period _ => ?_)
    rw [Function.comp_apply, ProfileStore.toStep, sub_zero]
    rfl
  rw [ProfileStore.effectAt_map_toStep schedule h, zero_add]

/-- The steps of the filled schedule are those that were there, filled. -/
theorem steps_fillGaps (schedule : CompositeSchedule) (ratedMaximum : Decimal) :
    (schedule.fillGaps ratedMaximum).steps =
      (schedule.steps.map fun step => (step.1, fill ratedMaximum step.2)).destutter
        fun a b => sameEffect a.2 b.2 = false := by
  have hmap : ∀ periods : List CompositePeriod,
      (periods.destutter fun previous next => sameStep previous next = false).map
          (fun period => (period.startPeriod, period.limit, period.numberPhases)) =
        (periods.map fun period =>
          (period.startPeriod, period.limit, period.numberPhases)).destutter
            fun a b => sameEffect a.2 b.2 = false :=
    fun _ => List.map_destutter fun _ _ _ _ => Iff.rfl
  rw [steps, fillGaps, hmap, List.map_map, steps, List.map_map]
  refine congrArg _ (List.map_congr_left fun period _ => ?_)
  rw [Function.comp_apply, Function.comp_apply, fill]
  dsimp only
  split
  · rfl
  · rfl

/-- From the first step on, the filled schedule says what the schedule does, filled. -/
theorem effectAt_fillGaps {schedule : CompositeSchedule} (ratedMaximum : Decimal)
    (hsorted : schedule.periods.Pairwise fun period period' =>
      period.startPeriod < period'.startPeriod) {t : ℤ}
    (h : ∃ period ∈ schedule.periods, period.startPeriod ≤ t) :
    sameEffect ((schedule.fillGaps ratedMaximum).effectAt t)
      (fill ratedMaximum (schedule.effectAt t)) = true := by
  have hsteps : (schedule.steps.map fun step => (step.1, fill ratedMaximum step.2)).Pairwise
      fun a b => a.1 ≤ b.1 := by
    rw [steps, List.map_map, List.pairwise_map]
    exact hsorted.imp fun hlt => hlt.le
  have hstep : ∃ step ∈ schedule.steps.map fun step => (step.1, fill ratedMaximum step.2),
      step.1 ≤ t := by
    obtain ⟨period, hperiod, hle⟩ := h
    exact ⟨_, List.mem_map.mpr ⟨_, List.mem_map.mpr ⟨period, hperiod, rfl⟩, rfl⟩, hle⟩
  obtain ⟨step, -, -, hany⟩ := StepFunction.exists_effectAt_eq hstep
  rw [effectAt_eq, effectAt_eq, steps_fillGaps,
    ← StepFunction.effectAt_map (fill ratedMaximum), hany, ← hany (none, none)]
  exact StepFunction.same_effectAt_destutter sameEffect_equivalence hsteps t

/-- Before the first step, the filled schedule says nothing either. -/
theorem effectAt_fillGaps_of_lt {schedule : CompositeSchedule} (ratedMaximum : Decimal) {t : ℤ}
    (h : ∀ period ∈ schedule.periods, t < period.startPeriod) :
    (schedule.fillGaps ratedMaximum).effectAt t = (none, none) := by
  rw [effectAt_eq, steps_fillGaps]
  refine StepFunction.effectAt_of_lt fun step hstep => ?_
  obtain ⟨_, hmem, rfl⟩ := List.mem_map.mp ((List.destutter_sublist _ _).mem hstep)
  obtain ⟨period, hperiod, rfl⟩ := List.mem_map.mp hmem
  exact h period hperiod

/-! ### Schedules that begin with a limit -/

/-- Without gaps, a limit is in effect from the first step on. -/
theorem isSome_effectAt {schedule : CompositeSchedule} (hgaps : schedule.hasGaps = false) {t : ℤ}
    (h : ∃ period ∈ schedule.periods, period.startPeriod ≤ t) :
    (schedule.effectAt t).1.isSome = true := by
  have hstep : ∃ step ∈ schedule.steps, step.1 ≤ t := by
    obtain ⟨period, hperiod, hle⟩ := h
    exact ⟨_, List.mem_map.mpr ⟨period, hperiod, rfl⟩, hle⟩
  obtain ⟨step, hmem, -, hany⟩ := StepFunction.exists_effectAt_eq hstep
  obtain ⟨period, hperiod, rfl⟩ := List.mem_map.mp hmem
  rw [effectAt_eq, hany]
  have hsome := List.any_eq_false.mp hgaps period hperiod
  exact Option.isSome_iff_ne_none.mpr (mt Option.isNone_iff_eq_none.mpr hsome)

/-- In a schedule in order, it is the first step that decides whether the gaps are filled. -/
theorem gapsFilled_iff_exists {schedule : CompositeSchedule} (ratedMaximum : Decimal)
    (hsorted : schedule.periods.Pairwise fun period period' =>
      period.startPeriod < period'.startPeriod)
    (hinside : 0 < schedule.duration → ∀ period ∈ schedule.periods,
      0 ≤ period.startPeriod ∧ period.startPeriod < schedule.duration)
    (hempty : schedule.duration ≤ 0 → schedule.hasGaps = false) :
    schedule.GapsFilled ratedMaximum ↔
      schedule.duration ≤ 0 ∨ ∃ period ∈ schedule.periods, period.startPeriod ≤ 0 := by
  constructor
  · intro h
    by_contra hneither
    obtain ⟨hpos, hnone⟩ := not_or.mp hneither
    have hcovered := h.covered 0 le_rfl (not_le.mp hpos)
    rw [effectAt_fillGaps_of_lt ratedMaximum fun period hperiod =>
      not_le.mp fun hle => hnone ⟨period, hperiod, hle⟩] at hcovered
    cases hcovered
  intro hfirst
  -- in a window that is not empty, the first step is in effect from the start on
  have hfrom : ∀ t, 0 ≤ t → t < schedule.duration →
      ∃ period ∈ schedule.periods, period.startPeriod ≤ t := by
    intro t hle hlt
    rcases hfirst with hduration | ⟨period, hperiod, hstart⟩
    · omega
    · exact ⟨period, hperiod, hstart.trans hle⟩
  have hsame := fun t hle hlt => effectAt_fillGaps ratedMaximum hsorted (hfrom t hle hlt)
  constructor
  · intro t hle hlt
    have hlimit := (sameEffect_iff.mp (hsame t hle hlt)).1
    obtain ⟨limit, hfill⟩ := Option.isSome_iff_exists.mp
      (isSome_fill ratedMaximum (schedule.effectAt t))
    rw [hfill, Option.map_some, Option.map_eq_some_iff] at hlimit
    obtain ⟨limit', hlimit', -⟩ := hlimit
    rw [hlimit']
    rfl
  · intro t hle hlt hlimit
    have hfill := hsame t hle hlt
    rwa [fill_of_isSome hlimit] at hfill
  · rw [fillGaps]
    refine List.Pairwise.sublist (List.destutter_sublist _ _) ?_
    rw [List.pairwise_map]
    refine hsorted.imp fun {period period'} hlt => ?_
    split_ifs
    · exact hlt
    · exact hlt
    · exact hlt
    · exact hlt
  · exact List.isChain_destutter _ _
  · constructor
    · exact fun hgaps t hle hlt => isSome_effectAt hgaps (hfrom t hle hlt)
    · intro hall
      rcases le_or_gt schedule.duration 0 with hduration | hpos
      · exact hempty hduration
      refine List.any_eq_false.mpr fun period hperiod hnone => ?_
      obtain ⟨hle, hlt⟩ := hinside hpos period hperiod
      have heffect := hall period.startPeriod hle hlt
      have hsteps : schedule.steps.Pairwise fun a b => a.1 < b.1 := by
        rw [steps, List.pairwise_map]
        exact hsorted
      rw [effectAt_eq, StepFunction.effectAt_self hsteps (List.mem_map.mpr ⟨period, hperiod, rfl⟩),
        Option.isNone_iff_eq_none.mp hnone] at heffect
      cases heffect

end CompositeSchedule

/-! ### Composite schedules -/

open ProfileStore

/-- The steps of the composite, for a window of any length. -/
theorem composite_periods (store : ProfileStore) (evseId : ℕ) (source : DateTime) (duration : ℤ)
    (rateUnit : RateUnit) (transaction : Option (String × DateTime)) :
    (store.composite evseId source duration rateUnit transaction).periods =
      (StepFunction.merge sameEffect (fun v => v.1.isNone) (StepFunction.samples
        (store.effectOf (store.applicable evseId transaction) rateUnit
          (transaction.map fun t => epoch t.2))
        (boundaries (store.applicable evseId transaction) (epoch source)
          (epoch source + max duration 0) (transaction.map fun t => epoch t.2)))).map
        (toStep (epoch source)) := by
  rw [← foldl_pushStep, StepFunction.samples, List.map_map]
  rfl

section Samples

variable {f : ℤ → LimitEffect} {points : List ℤ} {start : ℤ}

/-- There is a step at the first point if and only if there is a limit then. -/
theorem exists_step_iff (hsorted : points.Pairwise (· < ·)) (hstart : start ∈ points)
    (hfirst : ∀ t ∈ points, start ≤ t)
    (hnothing : ∀ t, (f t).1.isNone = true → sameEffect (none, none) (f t) = true) :
    (∃ period ∈ (StepFunction.merge sameEffect (fun v => v.1.isNone)
        (StepFunction.samples f points)).map (toStep start), period.startPeriod ≤ 0) ↔
      (f start).1.isSome = true := by
  have hmem : ∀ step ∈ StepFunction.merge sameEffect (fun v => v.1.isNone)
      (StepFunction.samples f points), start ≤ step.1 ∧ step.2 = f step.1 := by
    intro step hstep
    obtain ⟨t, ht, rfl⟩ := List.mem_map.mp ((StepFunction.merge_sublist _).mem hstep)
    exact ⟨hfirst t ht, rfl⟩
  constructor
  · rintro ⟨period, hperiod, hle⟩
    have hpairwise := @pairwise_of_merge start f points hsorted
    obtain ⟨step, hstep, rfl⟩ := List.mem_map.mp hperiod
    change step.1 - start ≤ 0 at hle
    obtain ⟨hge, heffect⟩ := hmem step hstep
    have hat : step.1 = start := by omega
    -- it is the first, and the first says something
    rcases hsteps : StepFunction.merge sameEffect (fun v => v.1.isNone)
      (StepFunction.samples f points) with _ | ⟨first, rest⟩
    · rw [hsteps] at hstep
      exact absurd hstep List.not_mem_nil
    have hsays : first.2.1.isNone = false :=
      StepFunction.silent_of_head_merge (congrArg List.head? hsteps)
    rw [hsteps] at hstep hpairwise
    rcases List.mem_cons.mp hstep with rfl | hlater
    · rw [← hat, ← heffect]
      exact Option.isSome_iff_ne_none.mpr fun hnone => by rw [hnone] at hsays; cases hsays
    · have hlt := (List.pairwise_cons.mp hpairwise).1 _ (List.mem_map.mpr ⟨step, hlater, rfl⟩)
      change first.1 - start < step.1 - start at hlt
      have := (hmem first (hsteps ▸ List.mem_cons_self)).1
      omega
  · intro hlimit
    by_contra hnone
    have hsame : sameEffect (StepFunction.effectAt (none, none) (StepFunction.merge sameEffect
        (fun v => v.1.isNone) (StepFunction.samples f points)) start) (f start) = true :=
      StepFunction.same_effectAt_of_mem sameEffect_equivalence.refl hnothing hsorted hstart
    rw [StepFunction.effectAt_of_lt] at hsame
    · obtain ⟨limit, hsome⟩ := Option.isSome_iff_exists.mp hlimit
      have := (sameEffect_iff.mp hsame).1
      rw [hsome] at this
      cases this
    · intro step hstep
      by_contra hle
      refine hnone ⟨_, List.mem_map.mpr ⟨step, hstep, rfl⟩, ?_⟩
      change step.1 - start ≤ 0
      omega

end Samples

/-- **Gaps are filled, and reported, exactly if there is a limit when the schedule starts**: in
every window that is not empty, a stretch before the first limit is neither. -/
theorem gapsFilled_iff (store : ProfileStore) (evseId : ℕ) (source : DateTime) (duration : ℤ)
    (rateUnit : RateUnit) (transaction : Option (String × DateTime)) (ratedMaximum : Decimal) :
    (store.composite evseId source duration rateUnit transaction).GapsFilled ratedMaximum ↔
      duration ≤ 0 ∨ (store.limitAt (store.applicable evseId transaction) (epoch source) rateUnit
        (transaction.map fun t => epoch t.2)).isSome = true := by
  let schedule := store.composite evseId source duration rateUnit transaction
  let profiles := store.applicable evseId transaction
  let transactionStart := transaction.map fun t => epoch t.2
  let points := boundaries profiles (epoch source) (epoch source + max duration 0) transactionStart
  have hperiods := composite_periods store evseId source duration rateUnit transaction
  have hsorted : points.Pairwise (· < ·) := boundaries_sorted _ _ _ _
  have hstart : epoch source ∈ points := mem_boundaries.mpr (Or.inl rfl)
  have hpoints : ∀ t ∈ points, t = epoch source ∨
      (epoch source ≤ t ∧ t < epoch source + max duration 0) := by
    intro t ht
    rcases mem_boundaries.mp ht with rfl | ⟨hle, hlt, -⟩
    · exact Or.inl rfl
    · exact Or.inr ⟨hle, hlt⟩
  have hincreasing : schedule.periods.Pairwise fun period period' =>
      period.startPeriod < period'.startPeriod := by
    rw [hperiods]
    exact pairwise_of_merge hsorted
  have hfirst : (∃ period ∈ schedule.periods, period.startPeriod ≤ 0) ↔
      (store.effectOf profiles rateUnit transactionStart (epoch source)).1.isSome = true := by
    rw [hperiods]
    refine exists_step_iff hsorted hstart (fun t ht => ?_)
      (store.eq_nothing_of_isNone profiles rateUnit transactionStart)
    rcases hpoints t ht with rfl | ⟨hle, -⟩
    · exact le_rfl
    · exact hle
  have hsampled : ∀ period ∈ schedule.periods, ∃ t ∈ points, period =
      toStep (epoch source) (t, store.effectOf profiles rateUnit transactionStart t) := by
    intro period hperiod
    rw [hperiods] at hperiod
    obtain ⟨step, hstep, rfl⟩ := List.mem_map.mp hperiod
    obtain ⟨t, ht, rfl⟩ := List.mem_map.mp ((StepFunction.merge_sublist _).mem hstep)
    exact ⟨t, ht, rfl⟩
  have hinside : 0 < duration → ∀ period ∈ schedule.periods,
      0 ≤ period.startPeriod ∧ period.startPeriod < duration := by
    intro hpos period hperiod
    obtain ⟨t, ht, rfl⟩ := hsampled period hperiod
    change 0 ≤ t - epoch source ∧ t - epoch source < duration
    rcases hpoints t ht with rfl | ⟨hle, hlt⟩
    · omega
    · omega
  have hempty : duration ≤ 0 → schedule.hasGaps = false := by
    intro hduration
    refine List.any_eq_false.mpr fun period hperiod hnone => ?_
    obtain ⟨t, ht, rfl⟩ := hsampled period hperiod
    -- the only point there is, and a step only if there is a limit then
    obtain rfl : t = epoch source := by
      rcases hpoints t ht with rfl | ⟨hle, hlt⟩
      · rfl
      · omega
    have hsome := hfirst.mp ⟨_, hperiod, (sub_self (epoch source)).le⟩
    exact Option.isSome_iff_ne_none.mp hsome (Option.isNone_iff_eq_none.mp hnone)
  have hlimit : (store.effectOf profiles rateUnit transactionStart (epoch source)).1.isSome =
      (store.limitAt profiles (epoch source) rateUnit transactionStart).isSome := by
    rw [effectOf, effect, Option.isSome_map]
  rw [← hlimit, ← hfirst]
  exact CompositeSchedule.gapsFilled_iff_exists ratedMaximum hincreasing hinside hempty

end OcppKit

namespace OcppKit.Reference

/-- **The hour before one o'clock is neither filled nor reported.** -/
theorem gap_before_first : ¬∀ (store : ProfileStore) (evseId : ℕ) (source : DateTime)
    (duration : ℤ) (rateUnit : RateUnit) (transaction : Option (String × DateTime))
    (ratedMaximum : Decimal), 0 ≤ duration →
    (store.composite evseId source duration rateUnit transaction).GapsFilled ratedMaximum := by
  intro h
  have hcovered := (h fromOneOClock 1 ⟨0⟩ 86400 .a none sixteen (by decide)).covered 0 le_rfl
    (by decide)
  have hperiods : (fromOneOClock.composite 1 ⟨0⟩ 86400 .a none).periods =
      [⟨3600, some sixteen, none⟩] := by decide
  rw [CompositeSchedule.effectAt_fillGaps_of_lt] at hcovered
  · cases hcovered
  · intro period hperiod
    rw [hperiods, List.mem_singleton] at hperiod
    rw [hperiod]
    decide

end OcppKit.Reference
