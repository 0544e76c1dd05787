import OcppKit.Library.StepFunction
import OcppKit.Station.SmartCharging

/-!
# What the composite schedule says

The composite schedule samples the effective limit at its boundaries (`StepFunction.merge`),
so it is right in between if nothing changes there. What a profile says changes where its
validity, its schedule, one of its steps or its duration begins or ends, and these are
boundaries all – except where a recurring schedule starts over before its first step: there
the last step ends, and no boundary marks it (`OcppKit.Profile.WrapsAt`).

So the composite says at every second what the limit is, exactly if at these instants it is
what it was a second before: `OcppKit.composite_agrees_iff`.
-/

namespace OcppKit

/-! ### Comparing limits -/

/-- A limit and a phase count, or neither. -/
abbrev LimitEffect := Option Decimal × Option ℤ

/-- What is in effect, as a step states it. -/
def effect (effective : Option (Decimal × Option ℤ)) : LimitEffect :=
  (effective.map Prod.fst, effective.bind Prod.snd)

/-- Whether two effects are the same: the limits as numbers, the phase counts as they are. -/
def sameEffect (v w : LimitEffect) : Bool := sameLimit v.1 w.1 && v.2 = w.2

theorem sameLimit_iff {limit limit' : Option Decimal} :
    sameLimit limit limit' = true ↔ limit.map Decimal.toRat = limit'.map Decimal.toRat := by
  rcases limit with _ | limit <;> rcases limit' with _ | limit'
  · simp [sameLimit]
  · simp [sameLimit]
  · simp [sameLimit]
  · rw [sameLimit, Decimal.same_iff, Option.map_some, Option.map_some, Option.some_inj]

theorem sameEffect_iff {v w : LimitEffect} : sameEffect v w = true ↔
    v.1.map Decimal.toRat = w.1.map Decimal.toRat ∧ v.2 = w.2 := by
  rw [sameEffect, Bool.and_eq_true, sameLimit_iff, decide_eq_true_iff]

theorem sameEffect_equivalence : Equivalence fun v w : LimitEffect => sameEffect v w = true where
  refl v := sameEffect_iff.mpr ⟨rfl, rfl⟩
  symm h := by
    obtain ⟨hlimit, hphases⟩ := sameEffect_iff.mp h
    exact sameEffect_iff.mpr ⟨hlimit.symm, hphases.symm⟩
  trans h h' := by
    obtain ⟨hlimit, hphases⟩ := sameEffect_iff.mp h
    obtain ⟨hlimit', hphases'⟩ := sameEffect_iff.mp h'
    exact sameEffect_iff.mpr ⟨hlimit.trans hlimit', hphases.trans hphases'⟩

/-! ### The composite as steps -/

/-- The effect at an offset into the schedule: that of the last step up to it. -/
def CompositeSchedule.effectAt (schedule : CompositeSchedule) (offset : ℤ) : LimitEffect :=
  ((schedule.periods.filter fun period => period.startPeriod ≤ offset).getLast?.map
    fun period => (period.limit, period.numberPhases)).getD (none, none)

/-- **The schedule is well formed**: its steps start inside the window, one after the other,
and two that follow one another differ. -/
structure CompositeSchedule.WellFormed (schedule : CompositeSchedule) : Prop where
  /-- The steps start inside the window. -/
  inside : ∀ period ∈ schedule.periods,
    0 ≤ period.startPeriod ∧ period.startPeriod < schedule.duration
  /-- They start one after the other. -/
  increasing : schedule.periods.Pairwise fun period period' =>
    period.startPeriod < period'.startPeriod
  /-- Two that follow one another differ. -/
  differ : schedule.periods.IsChain fun period period' => sameStep period period' = false

namespace ProfileStore

/-- A sample as a step. -/
def toStep (start : ℤ) (sample : ℤ × LimitEffect) : CompositePeriod :=
  ⟨sample.1 - start, sample.2.1, sample.2.2⟩

theorem map_push (start : ℤ) (steps : List (ℤ × LimitEffect)) (sample : ℤ × LimitEffect) :
    (StepFunction.push sameEffect (fun v => v.1.isNone) steps sample).map (toStep start) =
      pushStep (steps.map (toStep start)) (toStep start sample) := by
  rw [StepFunction.push, pushStep, List.getLast?_map]
  rcases steps.getLast? with _ | previous
  · dsimp only [Option.map_none]
    split
    · next h => rw [if_pos (show (toStep start sample).limit.isNone = true from h)]
    · next h =>
        rw [if_neg (show ¬(toStep start sample).limit.isNone = true from h), List.map_append]
        rfl
  · dsimp only [Option.map_some]
    split
    · next h =>
        rw [if_pos (show sameStep (toStep start previous) (toStep start sample) = true from h)]
    · next h =>
        rw [if_neg (show ¬sameStep (toStep start previous) (toStep start sample) = true from h),
          List.map_append]
        rfl

/-- The steps of the composite are the samples of the limit, merged. -/
theorem foldl_pushStep (start : ℤ) (samples : List (ℤ × LimitEffect)) :
    (samples.map (toStep start)).foldl pushStep [] =
      (StepFunction.merge sameEffect (fun v => v.1.isNone) samples).map (toStep start) := by
  induction samples using List.reverseRecOn with
  | nil => rfl
  | append_singleton samples sample ih =>
      rw [List.map_append, List.foldl_append, ih, StepFunction.merge_concat, map_push]
      rfl

/-! ### The boundaries -/

theorem mem_boundaries {profiles : List Profile} {start stop : ℤ} {transactionStart : Option ℤ}
    {t : ℤ} : t ∈ boundaries profiles start stop transactionStart ↔
      t = start ∨ (start ≤ t ∧ t < stop ∧
        ∃ profile ∈ profiles, t ∈ instants profile start stop transactionStart) := by
  rw [boundaries, List.mem_insertionSort, List.mem_dedup, List.mem_cons, List.mem_flatMap]
  simp only [List.mem_filter, Bool.and_eq_true, decide_eq_true_iff]
  refine or_congr_right ⟨?_, ?_⟩
  · rintro ⟨profile, hprofile, hmem, hle, hlt⟩
    exact ⟨hle, hlt, profile, hprofile, hmem⟩
  · rintro ⟨hle, hlt, profile, hprofile, hmem⟩
    exact ⟨profile, hprofile, hmem, hle, hlt⟩

theorem boundaries_sorted (profiles : List Profile) (start stop : ℤ)
    (transactionStart : Option ℤ) :
    (boundaries profiles start stop transactionStart).Pairwise (· < ·) := by
  rw [boundaries]
  generalize start :: _ = points
  have hsorted := List.pairwise_insertionSort (· ≤ ·) points.dedup
  have hnodup := (List.perm_insertionSort (· ≤ ·) points.dedup).nodup_iff.mpr points.nodup_dedup
  exact hsorted.imp₂ (fun _ _ hle hne => lt_of_le_of_ne hle hne) hnodup

end ProfileStore

/-! ### One profile between two seconds -/

/-- No step of the profile starts before its schedule. -/
def Profile.Ordered (profile : Profile) : Prop :=
  ∀ schedule ∈ profile.schedules.head?, ∀ step ∈ schedule.periods, 0 ≤ step.startPeriod

/-- The occurrences of a recurring profile that are looked at reach the end of the window. -/
def Profile.Expands (profile : Profile) (start stop : ℤ) : Prop :=
  profile.kind = .recurring → ∀ schedule ∈ profile.schedules.head?,
    ∀ first ∈ schedule.start.map epoch, ∀ period ∈ profile.recurrency.map Recurrency.seconds,
      stop ≤ first + (start - first).ediv period * period + ProfileStore.expansionCap * period

/-- **The profile starts over at this instant, before its first step**: it is recurring, no
step of it starts with its schedule, and its schedule comes round. -/
def Profile.WrapsAt (profile : Profile) (t : ℤ) : Prop :=
  profile.kind = .recurring ∧ ∃ schedule ∈ profile.schedules.head?,
    (∀ step ∈ schedule.periods, step.startPeriod ≠ 0) ∧
    ∃ first ∈ schedule.start.map epoch, ∃ period ∈ profile.recurrency.map Recurrency.seconds,
      first < t ∧ period ∣ t - first

namespace Schedule

/-- An offset no step and no end stands at is like the one before. -/
theorem periodAt_pred {schedule : Schedule} {offset : ℤ} (hpos : 0 < offset)
    (hstep : ∀ step ∈ schedule.periods, step.startPeriod ≠ offset)
    (hend : ∀ duration ∈ schedule.duration, duration ≠ offset) :
    schedule.periodAt offset = schedule.periodAt (offset - 1) := by
  have hlasts : schedule.duration.any (fun duration => duration ≤ offset) =
      schedule.duration.any fun duration => duration ≤ offset - 1 := by
    rcases hd : schedule.duration with _ | duration
    · rfl
    · have hne := hend duration hd
      rw [Option.any_some, Option.any_some, decide_eq_decide]
      omega
  have hfind : schedule.periods.reverse.find? (fun period => period.startPeriod ≤ offset) =
      schedule.periods.reverse.find? fun period => period.startPeriod ≤ offset - 1 := by
    refine List.find?_congr fun step hmem => ?_
    have hne := hstep step (List.mem_reverse.mp hmem)
    rw [decide_eq_decide]
    omega
  rw [periodAt, periodAt, hlasts, hfind, decide_eq_false (by omega : ¬offset < 0),
    decide_eq_false (by omega : ¬offset - 1 < 0)]

/-- A schedule that has no step at its start says nothing there. -/
theorem periodAt_zero {schedule : Schedule}
    (hordered : ∀ step ∈ schedule.periods, 0 ≤ step.startPeriod)
    (hstep : ∀ step ∈ schedule.periods, step.startPeriod ≠ 0) : schedule.periodAt 0 = none := by
  have hfind : schedule.periods.reverse.find? (fun period => period.startPeriod ≤ 0) = none := by
    refine List.find?_eq_none.mpr fun step hmem => ?_
    have hle := hordered step (List.mem_reverse.mp hmem)
    have hne := hstep step (List.mem_reverse.mp hmem)
    rw [decide_eq_true_iff]
    omega
  rw [periodAt, hfind, ite_self]

/-- A schedule counted from an anchor says the same at two seconds, if the later is neither a
step nor the end of it. -/
theorem periodAt_anchored {schedule : Schedule} {anchor t : ℤ}
    (hordered : ∀ step ∈ schedule.periods, 0 ≤ step.startPeriod)
    (hstep : ∀ step ∈ schedule.periods, anchor + step.startPeriod ≠ t)
    (hend : ∀ duration ∈ schedule.duration, anchor + duration ≠ t) :
    (if anchor ≤ t then some (t - anchor) else none).bind schedule.periodAt =
      (if anchor ≤ t - 1 then some (t - 1 - anchor) else none).bind schedule.periodAt := by
  rcases lt_trichotomy t anchor with hlt | rfl | hlt
  · rw [if_neg (by omega), if_neg (by omega)]
  · rw [if_pos le_rfl, if_neg (by omega), sub_self, Option.bind_some, Option.bind_none]
    exact periodAt_zero hordered fun step hmem hzero => hstep step hmem (by omega)
  · rw [if_pos hlt.le, if_pos (by omega), Option.bind_some, Option.bind_some]
    have hoffset : t - 1 - anchor = t - anchor - 1 := by omega
    rw [hoffset]
    refine periodAt_pred (by omega) (fun step hmem hsame => hstep step hmem (by omega))
      fun duration hmem hsame => hend duration hmem (by omega)

end Schedule

namespace ProfileStore

/-- An occurrence that starts before the end is looked at, if the walk gets that far. -/
theorem mem_occurrences {stop period : ℤ} (hpos : 0 < period) {left : ℕ} {at_ : ℤ} {k : ℕ}
    (hk : k < left) (hstop : at_ + k * period < stop) :
    at_ + k * period ∈ occurrences stop period left at_ := by
  induction k generalizing left at_ with
  | zero =>
      obtain ⟨left, rfl⟩ := Nat.exists_eq_succ_of_ne_zero (by omega : left ≠ 0)
      rw [Nat.cast_zero, zero_mul, add_zero] at hstop ⊢
      rw [occurrences, if_pos hstop]
      exact List.mem_cons_self
  | succ k ih =>
      obtain ⟨left, rfl⟩ := Nat.exists_eq_succ_of_ne_zero (by omega : left ≠ 0)
      have hnext : at_ + ((k + 1 : ℕ) : ℤ) * period = at_ + period + (k : ℤ) * period := by
        push_cast
        ring
      have hat : at_ < stop := by
        have : 0 ≤ ((k + 1 : ℕ) : ℤ) * period := by positivity
        omega
      rw [hnext] at hstop ⊢
      rw [occurrences, if_pos hat]
      exact List.mem_cons_of_mem _ (ih (by omega) hstop)

/-- What is counted from an anchor is looked at. -/
theorem mem_instants {profile : Profile} {schedule : Schedule} {start stop anchor : ℤ}
    {transactionStart : Option ℤ} (hschedule : profile.schedules.head? = some schedule)
    (hanchor : anchor ∈ anchors profile schedule start stop transactionStart) :
    (∀ step ∈ schedule.periods,
      anchor + step.startPeriod ∈ instants profile start stop transactionStart) ∧
    ∀ duration ∈ schedule.duration,
      anchor + duration ∈ instants profile start stop transactionStart := by
  rw [instants, hschedule]
  constructor
  · intro step hstep
    refine List.mem_append_right _ (List.mem_flatMap.mpr ⟨anchor, hanchor, ?_⟩)
    exact List.mem_append_left _ (List.mem_map.mpr ⟨step, hstep, rfl⟩)
  · intro duration hduration
    refine List.mem_append_right _ (List.mem_flatMap.mpr ⟨anchor, hanchor, ?_⟩)
    rw [Option.mem_def.mp hduration]
    exact List.mem_append_right _ List.mem_cons_self

end ProfileStore

namespace Profile

open ProfileStore

theorem limitAt_eq {profile : Profile} {schedule : Schedule}
    (h : profile.schedules.head? = some schedule) (t : ℤ) (transactionStart : Option ℤ) :
    profile.limitAt t transactionStart =
      if !profile.validAt t then none
      else ((profile.offsetAt t transactionStart).bind schedule.periodAt).map fun period =>
        (period.limit, schedule.rateUnit, period.numberPhases) := by
  rw [limitAt, h]
  split
  · rfl
  · rcases hoffset : profile.offsetAt t transactionStart with _ | offset
    · rfl
    · rcases hperiod : schedule.periodAt offset with _ | period <;> simp [hperiod]

/-- The validity window opens and closes at instants that are looked at. -/
theorem validAt_pred {profile : Profile} {start stop t : ℤ} {transactionStart : Option ℤ}
    (hnot : t ∉ instants profile start stop transactionStart) :
    profile.validAt t = profile.validAt (t - 1) := by
  have hfrom : ∀ valid ∈ profile.validFrom, epoch valid ≠ t := by
    rintro valid hvalid rfl
    refine hnot (List.mem_append_left _ (List.mem_append_left _ ?_))
    rw [Option.mem_def.mp hvalid]
    exact List.mem_cons_self
  have hto : ∀ valid ∈ profile.validTo, epoch valid ≠ t := by
    rintro valid hvalid rfl
    refine hnot (List.mem_append_left _ (List.mem_append_right _ ?_))
    rw [Option.mem_def.mp hvalid]
    exact List.mem_cons_self
  rw [validAt, validAt]
  congr 1
  · rcases hvalid : profile.validFrom with _ | valid
    · rfl
    · have hne := hfrom valid hvalid
      rw [Option.all_some, Option.all_some, decide_eq_decide]
      omega
  · rcases hvalid : profile.validTo with _ | valid
    · rfl
    · have hne := hto valid hvalid
      rw [Option.all_some, Option.all_some, decide_eq_decide]
      omega

/-- The occurrence an instant belongs to is looked at. -/
theorem mem_anchors_recurring {profile : Profile} {schedule : Schedule}
    {start stop t first period : ℤ} {transactionStart : Option ℤ}
    (hkind : profile.kind = .recurring) (hfirst : schedule.start.map epoch = some first)
    (hperiod : profile.recurrency.map Recurrency.seconds = some period) (hpos : 0 < period)
    (hexpands : stop ≤ first + (start - first).ediv period * period + expansionCap * period)
    (hstart : start < t) (hstop : t < stop) :
    t - (t - first) % period ∈ anchors profile schedule start stop transactionStart := by
  rw [anchors, hkind, hfirst, hperiod]
  change _ ∈ occurrences stop period expansionCap (first + (start - first) / period * period)
  replace hexpands : stop ≤ first + (start - first) / period * period + expansionCap * period :=
    hexpands
  have hmono : (start - first) / period ≤ (t - first) / period :=
    Int.ediv_le_ediv hpos (by omega)
  have hnonneg : 0 ≤ (t - first) % period := Int.emod_nonneg _ hpos.ne'
  have hsplit : (t - first) / period * period + (t - first) % period = t - first := by
    rw [mul_comm]
    exact Int.mul_ediv_add_emod _ _
  obtain ⟨k, hk⟩ := Int.eq_ofNat_of_zero_le (sub_nonneg.mpr hmono)
  have hanchor : t - (t - first) % period =
      first + (start - first) / period * period + (k : ℤ) * period := by
    rw [← hk, sub_mul]
    omega
  have hcap : (k : ℤ) * period < expansionCap * period := by omega
  rw [hanchor]
  refine mem_occurrences hpos ?_ (by omega)
  exact_mod_cast lt_of_mul_lt_mul_right hcap hpos.le

/-- A recurring schedule is counted from the occurrence an instant belongs to, at that instant
and, unless it starts over there, a second before. -/
theorem offsetAt_recurring {profile : Profile} {schedule : Schedule} {t first period : ℤ}
    (transactionStart : Option ℤ) (hschedule : profile.schedules.head? = some schedule)
    (hkind : profile.kind = .recurring) (hfirst : schedule.start.map epoch = some first)
    (hperiod : profile.recurrency.map Recurrency.seconds = some period) (hpos : 0 < period)
    (hle : first ≤ t) (hstarts : first < t → ¬period ∣ t - first) :
    let anchor := t - (t - first) % period
    profile.offsetAt t transactionStart = (if anchor ≤ t then some (t - anchor) else none) ∧
      profile.offsetAt (t - 1) transactionStart =
        if anchor ≤ t - 1 then some (t - 1 - anchor) else none := by
  have hoffset : ∀ at_, profile.offsetAt at_ transactionStart =
      if at_ < first then none else some ((at_ - first).tmod period) := by
    intro at_
    rw [offsetAt, hschedule]
    simp [hkind, hfirst, hperiod]
  have hnonneg : 0 ≤ (t - first) % period := Int.emod_nonneg _ hpos.ne'
  constructor
  · rw [hoffset, if_neg (by omega), if_pos (by omega),
      Int.tmod_eq_emod_of_nonneg (by omega : 0 ≤ t - first)]
    exact congrArg some (by omega)
  · rcases hle.eq_or_lt with rfl | hlt
    · rw [hoffset, if_pos (by omega), sub_self, Int.zero_emod, sub_zero, if_neg (by omega)]
    · have hoff : (t - first) % period ≠ 0 :=
        fun hzero => hstarts hlt (Int.dvd_of_emod_eq_zero hzero)
      have hsmall := Int.emod_lt_of_pos (t - first) hpos
      -- one second earlier it is the same occurrence, one second less far in
      have hpred : (t - 1 - first) % period = (t - first) % period - 1 := by
        refine ((Int.ediv_emod_unique (q := (t - first) / period) hpos).mpr ⟨?_, ?_, ?_⟩).2
        · have := Int.mul_ediv_add_emod (t - first) period
          omega
        · omega
        · omega
      rw [hoffset, if_neg (by omega), if_pos (by omega),
        Int.tmod_eq_emod_of_nonneg (by omega : 0 ≤ t - 1 - first), hpred]
      exact congrArg some (by omega)

/-- **A second at which the profile is not looked at, and does not start over, is like the one
before.** -/
theorem limitAt_pred {profile : Profile} {start stop t : ℤ} {transactionStart : Option ℤ}
    (hstart : start < t) (hstop : t < stop) (hordered : profile.Ordered)
    (hexpands : profile.Expands start stop)
    (hnot : t ∉ instants profile start stop transactionStart) (hwrap : ¬profile.WrapsAt t) :
    profile.limitAt t transactionStart = profile.limitAt (t - 1) transactionStart := by
  rcases hschedule : profile.schedules.head? with _ | schedule
  · simp [limitAt, hschedule]
  have hordered := hordered schedule hschedule
  -- counted from an anchor, the schedule says the same at both seconds
  have hanchored : ∀ anchor ∈ anchors profile schedule start stop transactionStart,
      (if anchor ≤ t then some (t - anchor) else none).bind schedule.periodAt =
        (if anchor ≤ t - 1 then some (t - 1 - anchor) else none).bind schedule.periodAt := by
    intro anchor hanchor
    obtain ⟨hsteps, hends⟩ := mem_instants hschedule hanchor
    refine Schedule.periodAt_anchored hordered (fun step hmem hsame => hnot ?_)
      fun duration hmem hsame => hnot ?_
    · exact hsame ▸ hsteps step hmem
    · exact hsame ▸ hends duration hmem
  rw [limitAt_eq hschedule, limitAt_eq hschedule, ← validAt_pred hnot]
  suffices hsaid : (profile.offsetAt t transactionStart).bind schedule.periodAt =
      (profile.offsetAt (t - 1) transactionStart).bind schedule.periodAt by rw [hsaid]
  rcases hkind : profile.kind with _ | _ | _
  · rcases hfirst : schedule.start.map epoch with _ | first
    · simp [offsetAt, hschedule, hkind, hfirst]
    · have := hanchored first (by simp [anchors, hkind, hfirst])
      simpa [offsetAt, hschedule, hkind, hfirst] using this
  · rcases hfirst : schedule.start.map epoch with _ | first
    · simp [offsetAt, hschedule, hkind, hfirst]
    rcases hperiod : profile.recurrency.map Recurrency.seconds with _ | period
    · simp [offsetAt, hschedule, hkind, hperiod]
    have hpos : 0 < period := by
      obtain ⟨recurrency, -, rfl⟩ := Option.map_eq_some_iff.mp hperiod
      exact recurrency.seconds_pos
    rcases lt_or_ge t first with hlt | hle
    · simp [offsetAt, hschedule, hkind, hfirst, hperiod, hlt, hlt.le]
    have hanchor : t - (t - first) % period ∈ anchors profile schedule start stop
        transactionStart :=
      mem_anchors_recurring hkind hfirst hperiod hpos
        (hexpands hkind schedule hschedule first hfirst period hperiod) hstart hstop
    -- where the schedule comes round a step starts with it, so the instant is looked at
    have hstarts : first < t → ¬period ∣ t - first := by
      intro hlt hdvd
      rw [Int.emod_eq_zero_of_dvd hdvd, sub_zero] at hanchor
      refine hwrap ⟨hkind, schedule, hschedule, fun step hmem hzero => hnot ?_, first, hfirst,
        period, hperiod, hlt, hdvd⟩
      have hmem := (mem_instants hschedule hanchor).1 step hmem
      rw [hzero, add_zero] at hmem
      exact hmem
    obtain ⟨hat, hbefore⟩ := offsetAt_recurring transactionStart hschedule hkind hfirst
      hperiod hpos hle hstarts
    rw [hat, hbefore]
    exact hanchored _ hanchor
  · rcases hfirst : transactionStart with _ | first
    · simp [offsetAt, hschedule, hkind]
    · have := hanchored first (by simp [anchors, hkind, hfirst])
      simpa [offsetAt, hschedule, hkind, hfirst] using this

end Profile

/-! ### All profiles together -/

namespace ProfileStore

/-- What the profiles say together depends on what each of them says. -/
theorem limitAt_congr (store : ProfileStore) {profiles : List Profile} {t t' : ℤ}
    {transactionStart : Option ℤ} (h : ∀ profile ∈ profiles,
      profile.limitAt t transactionStart = profile.limitAt t' transactionStart)
    (rateUnit : RateUnit) :
    store.limitAt profiles t rateUnit transactionStart =
      store.limitAt profiles t' rateUnit transactionStart := by
  have hleading : ∀ purpose, store.leading profiles t rateUnit transactionStart purpose =
      store.leading profiles t' rateUnit transactionStart purpose := by
    intro purpose
    rw [leading, leading]
    have hcandidates : (profiles.filter fun profile => profile.purpose = purpose).filterMap
        (fun profile => (profile.limitAt t transactionStart).map fun limit =>
          (profile.stackLevel, limit)) =
        (profiles.filter fun profile => profile.purpose = purpose).filterMap fun profile =>
          (profile.limitAt t' transactionStart).map fun limit => (profile.stackLevel, limit) := by
      refine List.filterMap_congr fun profile hmem => ?_
      rw [h profile (List.mem_of_mem_filter hmem)]
    rw [hcandidates]
  simp only [limitAt, hleading]

section Window

variable (store : ProfileStore) (profiles : List Profile) (rateUnit : RateUnit)
  (transactionStart : Option ℤ)

/-- The effect of the profiles at an instant. -/
def effectOf (t : ℤ) : LimitEffect := effect (store.limitAt profiles t rateUnit transactionStart)

/-- Nothing is in effect where no limit is. -/
theorem eq_nothing_of_isNone (t : ℤ)
    (h : (store.effectOf profiles rateUnit transactionStart t).1.isNone = true) :
    sameEffect (none, none) (store.effectOf profiles rateUnit transactionStart t) = true := by
  rw [effectOf, effect] at h ⊢
  generalize store.limitAt profiles t rateUnit transactionStart = effective at h ⊢
  rcases effective with _ | e
  · rfl
  · exact absurd h (by simp)

variable {store profiles rateUnit transactionStart}

/-- Between two seconds at which no profile is looked at, the limit changes only where one
starts over. -/
theorem effectOf_pred {start stop t : ℤ} (hordered : ∀ profile ∈ profiles, profile.Ordered)
    (hexpands : ∀ profile ∈ profiles, profile.Expands start stop) (hstart : start < t)
    (hstop : t < stop) (hnot : t ∉ boundaries profiles start stop transactionStart)
    (hwrap : ∀ profile ∈ profiles, ¬profile.WrapsAt t) :
    store.effectOf profiles rateUnit transactionStart (t - 1) =
      store.effectOf profiles rateUnit transactionStart t := by
  have hsame : ∀ profile ∈ profiles, profile.limitAt (t - 1) transactionStart =
      profile.limitAt t transactionStart := by
    intro profile hmem
    refine (Profile.limitAt_pred hstart hstop (hordered profile hmem) (hexpands profile hmem) ?_
      (hwrap profile hmem)).symm
    intro hinstant
    exact hnot (mem_boundaries.mpr (Or.inr ⟨hstart.le, hstop, profile, hmem, hinstant⟩))
  rw [effectOf, effectOf, store.limitAt_congr hsame]

end Window

section Steps

variable {start : ℤ} {steps : List (ℤ × LimitEffect)}

/-- Read back from its start, the composite says what its samples say. -/
theorem effectAt_map_toStep (schedule : CompositeSchedule)
    (h : schedule.periods = steps.map (toStep start)) (offset : ℤ) :
    schedule.effectAt offset = StepFunction.effectAt (none, none) steps (start + offset) := by
  have hfilter : schedule.periods.filter (fun period => period.startPeriod ≤ offset) =
      (steps.filter fun step => step.1 ≤ start + offset).map (toStep start) := by
    rw [h, List.filter_map]
    refine congrArg _ (List.filter_congr fun step _ => ?_)
    change decide (step.1 - start ≤ offset) = decide (step.1 ≤ start + offset)
    rw [decide_eq_decide]
    omega
  rw [CompositeSchedule.effectAt, hfilter, List.getLast?_map, Option.map_map,
    StepFunction.effectAt]
  rfl

/-- Steps of merged samples start one after the other. -/
theorem pairwise_of_merge {f : ℤ → LimitEffect} {points : List ℤ}
    (hsorted : points.Pairwise (· < ·)) :
    ((StepFunction.merge sameEffect (fun v => v.1.isNone) (StepFunction.samples f points)).map
      (toStep start)).Pairwise fun period period' => period.startPeriod < period'.startPeriod := by
  rw [List.pairwise_map]
  refine List.Pairwise.sublist (StepFunction.merge_sublist _) ?_
  rw [StepFunction.samples, List.pairwise_map]
  refine hsorted.imp fun {t t'} hlt => ?_
  change t - start < t' - start
  omega

/-- Merged samples of a window make a schedule that is well formed. -/
theorem wellFormed_of_merge (schedule : CompositeSchedule) {f : ℤ → LimitEffect} {points : List ℤ}
    (h : schedule.periods = (StepFunction.merge sameEffect (fun v => v.1.isNone)
      (StepFunction.samples f points)).map (toStep start))
    (hinside : ∀ t ∈ points, start ≤ t ∧ t < start + schedule.duration)
    (hsorted : points.Pairwise (· < ·)) : schedule.WellFormed := by
  have hsublist : (StepFunction.merge sameEffect (fun v => v.1.isNone)
      (StepFunction.samples f points)).Sublist (StepFunction.samples f points) :=
    StepFunction.merge_sublist _
  constructor
  · intro period hperiod
    rw [h] at hperiod
    obtain ⟨step, hstep, rfl⟩ := List.mem_map.mp hperiod
    obtain ⟨t, ht, rfl⟩ := List.mem_map.mp (hsublist.mem hstep)
    obtain ⟨hle, hlt⟩ := hinside t ht
    change 0 ≤ t - start ∧ t - start < schedule.duration
    omega
  · rw [h]
    exact pairwise_of_merge hsorted
  · rw [h, List.isChain_map]
    change List.IsChain (fun a b : ℤ × LimitEffect => sameEffect a.2 b.2 = false) _
    exact StepFunction.isChain_merge _

end Steps

end ProfileStore

open ProfileStore

/-- **What the composite schedule says.** For every window of positive duration, it is well
formed, and says at each second what the profiles that count allow then, if and only if
their limit does not change where a recurring profile starts over unseen. -/
theorem composite_agrees_iff (store : ProfileStore) (evseId : ℕ) (source : DateTime)
    {duration : ℤ} (rateUnit : RateUnit) (transaction : Option (String × DateTime))
    (hduration : 0 < duration) (hordered : ∀ profile ∈ store.profiles, profile.Ordered)
    (hexpands : ∀ profile ∈ store.applicable evseId transaction,
      profile.Expands (epoch source) (epoch source + duration)) :
    let schedule := store.composite evseId source duration rateUnit transaction
    let profiles := store.applicable evseId transaction
    let transactionStart := transaction.map fun t => epoch t.2
    let limit := fun t => effect (store.limitAt profiles t rateUnit transactionStart)
    ((∀ t, 0 ≤ t → t < duration →
        sameEffect (schedule.effectAt t) (limit (epoch source + t)) = true) ∧
      schedule.WellFormed) ↔
    ∀ t, epoch source < t → t < epoch source + duration →
      (∃ profile ∈ profiles, profile.WrapsAt t) →
      t ∉ boundaries profiles (epoch source) (epoch source + duration) transactionStart →
        sameEffect (limit (t - 1)) (limit t) = true := by
  intro schedule profiles transactionStart limit
  let points := boundaries profiles (epoch source) (epoch source + duration) transactionStart
  let steps := StepFunction.merge sameEffect (fun v => v.1.isNone)
    (StepFunction.samples limit points)
  have hstop : epoch source + max duration 0 = epoch source + duration := by
    rw [max_eq_left hduration.le]
  have hsteps : schedule.periods = steps.map (toStep (epoch source)) := by
    rw [← foldl_pushStep, StepFunction.samples, List.map_map]
    change List.foldl pushStep [] (List.map _ (boundaries profiles _ (_ + max duration 0) _)) = _
    rw [hstop]
    rfl
  have hsorted : points.Pairwise (· < ·) := boundaries_sorted _ _ _ _
  have hinside : ∀ t ∈ points,
      epoch source ≤ t ∧ t < epoch source + schedule.duration := by
    intro t ht
    change _ ∧ t < epoch source + duration
    rcases mem_boundaries.mp ht with rfl | ⟨hle, hlt, -⟩
    · omega
    · exact ⟨hle, hlt⟩
  rw [and_iff_left (wellFormed_of_merge schedule hsteps hinside hsorted)]
  have hagrees : (∀ t, epoch source ≤ t → t < epoch source + duration →
      sameEffect (StepFunction.effectAt (none, none) steps t) (limit t) = true) ↔
      ∀ t, epoch source < t → t < epoch source + duration → t ∉ points →
        sameEffect (limit (t - 1)) (limit t) = true :=
    StepFunction.agrees_iff sameEffect_equivalence
      (store.eq_nothing_of_isNone profiles rateUnit transactionStart) hsorted
      (mem_boundaries.mpr (Or.inl rfl))
  constructor
  · intro hsays t hlt hlt' _ hnot
    refine hagrees.mp (fun t hle hlt => ?_) t hlt hlt' hnot
    have hat := hsays (t - epoch source) (by omega) (by omega)
    rw [effectAt_map_toStep schedule hsteps, add_sub_cancel] at hat
    exact hat
  · intro hstays t hle hlt
    rw [effectAt_map_toStep schedule hsteps]
    refine hagrees.mpr (fun t hlt hlt' hnot => ?_) _ (by omega) (by omega)
    by_cases hwrap : ∃ profile ∈ profiles, profile.WrapsAt t
    · exact hstays t hlt hlt' hwrap hnot
    · have hsame : limit (t - 1) = limit t :=
        effectOf_pred (fun profile hmem => hordered profile (List.mem_of_mem_filter hmem))
          hexpands hlt hlt' hnot fun profile hmem hw => hwrap ⟨profile, hmem, hw⟩
      rw [hsame]
      exact sameEffect_equivalence.refl _

end OcppKit

namespace OcppKit.Reference

/-! ### A night tariff -/

/-- Every day, from one o'clock on, 16 A. -/
def fromOneOClock : ProfileStore where
  profiles := [{ id := 1
                 stackLevel := 0
                 purpose := .txDefaultProfile
                 kind := .recurring
                 recurrency := some .daily
                 schedules := [{ start := some ⟨0⟩
                                 rateUnit := .a
                                 periods := [⟨3600, sixteen, none⟩] }] }]

/-- The hypotheses on the store, for a window of whole days. -/
theorem fromOneOClock_ordered : ∀ profile ∈ fromOneOClock.profiles, profile.Ordered := by
  intro profile hprofile
  obtain rfl := List.mem_singleton.mp hprofile
  rintro schedule ⟨⟩ step hstep
  obtain rfl := List.mem_singleton.mp hstep
  decide

theorem fromOneOClock_expands {stop : ℤ} (h : stop ≤ 4096 * 86400) :
    ∀ profile ∈ fromOneOClock.applicable 1 none, profile.Expands 0 stop := by
  intro profile hprofile
  obtain rfl := List.mem_singleton.mp (List.mem_of_mem_filter hprofile)
  rintro - schedule ⟨⟩ first ⟨⟩ period ⟨⟩
  change stop ≤ 0 + 0 * 86400 + ((4096 : ℕ) : ℤ) * 86400
  push_cast
  omega

/-- Up to midnight the schedule says what holds. -/
theorem composite_agrees_iff_fromOneOClock :
    (∀ t, 0 ≤ t → t < 86400 →
      sameEffect ((fromOneOClock.composite 1 ⟨0⟩ 86400 .a none).effectAt t)
        (effect (fromOneOClock.limitAt (fromOneOClock.applicable 1 none) (0 + t) .a none)) =
          true) ∧
      (fromOneOClock.composite 1 ⟨0⟩ 86400 .a none).WellFormed := by
  refine (composite_agrees_iff fromOneOClock 1 ⟨0⟩ .a none (by decide) fromOneOClock_ordered
    (fromOneOClock_expands (by decide))).mpr ?_
  rintro t hlt hlt' ⟨profile, hprofile, -, schedule, hschedule, -, first, hfirst, period, hperiod,
    -, hdvd⟩ -
  obtain rfl := List.mem_singleton.mp (List.mem_of_mem_filter hprofile)
  obtain ⟨⟩ := hschedule
  obtain ⟨⟩ := hfirst
  obtain ⟨⟩ := hperiod
  change 0 < t at hlt
  change t < 0 + 86400 at hlt'
  change 86400 ∣ t - 0 at hdvd
  omega

/-- **After midnight it does not**: it says 16 A where nothing limits the EVSE. -/
theorem composite_disagrees : ¬∀ (store : ProfileStore) (duration : ℤ), 0 < duration →
    (∀ profile ∈ store.profiles, profile.Ordered) →
    (∀ profile ∈ store.applicable 1 none, profile.Expands 0 duration) →
    ∀ t, 0 ≤ t → t < duration →
      sameEffect ((store.composite 1 ⟨0⟩ duration .a none).effectAt t)
        (effect (store.limitAt (store.applicable 1 none) (0 + t) .a none)) = true := by
  intro h
  have hagrees := h fromOneOClock 100000 (by decide) fromOneOClock_ordered
    (fromOneOClock_expands (by decide)) 86400 (by decide) (by decide)
  exact absurd hagrees (by decide +kernel)

end OcppKit.Reference
