import OcppKit.Station.SmartCharging

/-!
# The stacking rules

What the charging profiles allow together at one instant, said without a program
(`OcppKit.Combined`). A profile says something about an instant if it is valid then and its
schedule has a step in effect (`OcppKit.Profile.Defines`). Within a purpose the profile with the
highest stack level among those decides (`OcppKit.Leads`); three of the purposes fill one slot,
two more a slot each, and the lowest of the slots that are filled counts. What the site generates
comes on top of that.

`OcppKit.limitAt_combined_iff`: `OcppKit.ProfileStore.limitAt` follows these rules at every
instant at which no generation is active or some slot is filled – and at no other. Where nothing
constrains the EVSE and there is generation, it reports the generation as if it were a limit.
-/

namespace OcppKit

/-! ### What a profile says -/

/-- The profile is this far into its schedule at this instant. -/
inductive Profile.Offset (profile : Profile) (schedule : Schedule) (at_ : ℤ)
    (transactionStart : Option ℤ) : ℤ → Prop
  /-- An absolute schedule counts from its start. -/
  | absolute {start : DateTime} : profile.kind = .absolute → schedule.start = some start →
      epoch start ≤ at_ → Offset profile schedule at_ transactionStart (at_ - epoch start)
  /-- A relative schedule counts from the start of the transaction. -/
  | relative {start : ℤ} : profile.kind = .relative → transactionStart = some start →
      start ≤ at_ → Offset profile schedule at_ transactionStart (at_ - start)
  /-- A recurring schedule counts from the last of its occurrences. -/
  | recurring {start : DateTime} {recurrency : Recurrency} {offset : ℤ} (occurrence : ℕ) :
      profile.kind = .recurring → schedule.start = some start →
      profile.recurrency = some recurrency → 0 ≤ offset → offset < recurrency.seconds →
      at_ = epoch start + occurrence * recurrency.seconds + offset →
      Offset profile schedule at_ transactionStart offset

/-- **The profile says something about this instant**: it is valid, and this step of this
schedule is in effect. -/
structure Profile.Defines (profile : Profile) (at_ : ℤ) (transactionStart : Option ℤ)
    (schedule : Schedule) (period : Period) : Prop where
  /-- It is valid already. -/
  validFrom : ∀ valid, profile.validFrom = some valid → epoch valid ≤ at_
  /-- It is valid still. -/
  validTo : ∀ valid, profile.validTo = some valid → at_ < epoch valid
  /-- The first schedule counts. -/
  first : profile.schedules.head? = some schedule
  /-- The schedule runs, and of its steps that have begun this is the last. -/
  period : ∃ offset, profile.Offset schedule at_ transactionStart offset ∧ 0 ≤ offset ∧
    (∀ duration, schedule.duration = some duration → offset < duration) ∧
    ∃ before after, schedule.periods = before ++ period :: after ∧
      period.startPeriod ≤ offset ∧ ∀ later ∈ after, offset < later.startPeriod

/-- The profile says something about this instant. -/
def Profile.Speaks (profile : Profile) (at_ : ℤ) (transactionStart : Option ℤ) : Prop :=
  ∃ schedule period, profile.Defines at_ transactionStart schedule period

namespace Profile

theorem validAt_iff {profile : Profile} {at_ : ℤ} : profile.validAt at_ = true ↔
    (∀ valid, profile.validFrom = some valid → epoch valid ≤ at_) ∧
      ∀ valid, profile.validTo = some valid → at_ < epoch valid := by
  rw [validAt, Bool.and_eq_true, Option.all_eq_true, Option.all_eq_true]
  simp only [decide_eq_true_eq]

/-- The last step that has begun. -/
theorem periodAt_eq_some_iff {schedule : Schedule} {offset : ℤ} {period : Period} :
    schedule.periodAt offset = some period ↔ 0 ≤ offset ∧
      (∀ duration, schedule.duration = some duration → offset < duration) ∧
      ∃ before after, schedule.periods = before ++ period :: after ∧
        period.startPeriod ≤ offset ∧ ∀ later ∈ after, offset < later.startPeriod := by
  have hruns : (offset < 0 || schedule.duration.any (fun duration => duration ≤ offset)) = false ↔
      0 ≤ offset ∧ ∀ duration, schedule.duration = some duration → offset < duration := by
    rw [Bool.or_eq_false_iff, Option.any_eq_false]
    simp only [decide_eq_false_iff_not, not_lt, not_le]
  have hlast : (schedule.periods.reverse.find? fun period => period.startPeriod ≤ offset) =
      some period ↔ ∃ before after, schedule.periods = before ++ period :: after ∧
        period.startPeriod ≤ offset ∧ ∀ later ∈ after, offset < later.startPeriod := by
    rw [List.find?_eq_some_iff_append]
    constructor
    · rintro ⟨hle, after, before, hsplit, hlater⟩
      refine ⟨before.reverse, after.reverse, ?_, by simpa using hle, fun later hmem => ?_⟩
      · rw [← List.reverse_reverse schedule.periods, hsplit]
        simp
      · simpa using hlater later (List.mem_reverse.mp hmem)
    · rintro ⟨before, after, hsplit, hle, hlater⟩
      refine ⟨by simpa using hle, after.reverse, before.reverse, by simp [hsplit], ?_⟩
      intro later hmem
      simpa using hlater later (List.mem_reverse.mp hmem)
  rw [Schedule.periodAt, ← hlast, ← and_assoc, ← hruns]
  split
  next h => simp [h]
  next h => simp [Bool.eq_false_of_not_eq_true h]

theorem offsetAt_eq_some_iff {profile : Profile} {schedule : Schedule} {at_ offset : ℤ}
    {transactionStart : Option ℤ} (hfirst : profile.schedules.head? = some schedule) :
    profile.offsetAt at_ transactionStart = some offset ↔
      profile.Offset schedule at_ transactionStart offset := by
  rw [offsetAt, hfirst, Option.bind_eq_bind, Option.bind_some]
  constructor
  · intro h
    split at h
    next hkind =>
      rcases hstart : schedule.start with _ | start
      · exact absurd h (by simp [hstart])
      · rw [hstart, Option.map_some, Option.bind_eq_bind, Option.bind_some] at h
        split at h
        · obtain rfl := Option.some.inj h
          exact .absolute hkind hstart ‹_›
        · exact absurd h (by simp)
    next hkind =>
      rcases hstart : transactionStart with _ | start
      · exact absurd h (by simp [hstart])
      · rw [hstart, Option.bind_eq_bind, Option.bind_some] at h
        split at h
        · obtain rfl := Option.some.inj h
          exact .relative hkind rfl ‹_›
        · exact absurd h (by simp)
    next hkind =>
      rcases hstart : schedule.start with _ | start
      · exact absurd h (by simp [hstart])
      rcases hrec : profile.recurrency with _ | recurrency
      · exact absurd h (by simp [hstart, hrec])
      rw [hstart, hrec, Option.map_some, Option.map_some, Option.bind_eq_bind, Option.bind_some,
        Option.bind_some] at h
      split at h
      · exact absurd h (by simp)
      next hle =>
        obtain rfl := Option.some.inj h
        have hpos := recurrency.seconds_pos
        have hnonneg : 0 ≤ at_ - epoch start := by omega
        rw [Int.tmod_eq_emod_of_nonneg hnonneg]
        refine .recurring ((at_ - epoch start) / recurrency.seconds).toNat hkind hstart hrec
          (Int.emod_nonneg _ hpos.ne') (Int.emod_lt_of_pos _ hpos) ?_
        rw [Int.toNat_of_nonneg (Int.ediv_nonneg hnonneg hpos.le)]
        have := Int.mul_ediv_add_emod (at_ - epoch start) recurrency.seconds
        rw [mul_comm] at this
        omega
  · intro h
    cases h with
    | absolute hkind hstart hle => simp [hkind, hstart, hle]
    | relative hkind hstart hle => simp [hkind, hstart, hle]
    | @recurring start recurrency offset occurrence hkind hstart hrec hnonneg hlt heq =>
        have hpos := recurrency.seconds_pos
        have hle : 0 ≤ (occurrence : ℤ) * recurrency.seconds :=
          mul_nonneg (Int.natCast_nonneg _) hpos.le
        have hdiff : at_ - epoch start = offset + recurrency.seconds * occurrence := by
          rw [heq, mul_comm]
          ring
        have hmod : (at_ - epoch start).tmod recurrency.seconds = offset := by
          rw [Int.tmod_eq_emod_of_nonneg (by omega), hdiff, Int.add_mul_emod_self_left,
            Int.emod_eq_of_lt hnonneg hlt]
        have hstarted : ¬at_ < epoch start := by omega
        simp [hkind, hstart, hrec, hstarted, hmod]

/-- **The code says what the profile says.** -/
theorem limitAt_eq_some_iff {profile : Profile} {at_ : ℤ} {transactionStart : Option ℤ}
    {limit : Decimal} {unit : RateUnit} {phases : Option ℤ} :
    profile.limitAt at_ transactionStart = some (limit, unit, phases) ↔
      ∃ schedule period, profile.Defines at_ transactionStart schedule period ∧
        period.limit = limit ∧ schedule.rateUnit = unit ∧ period.numberPhases = phases := by
  constructor
  · intro h
    rw [limitAt] at h
    split at h
    · exact absurd h (by simp)
    next hvalid =>
      obtain ⟨schedule, hfirst, h⟩ := Option.bind_eq_some_iff.mp h
      obtain ⟨offset, hoffset, h⟩ := Option.bind_eq_some_iff.mp h
      obtain ⟨period, hperiod, h⟩ := Option.bind_eq_some_iff.mp h
      obtain ⟨rfl, rfl, rfl⟩ : period.limit = limit ∧ schedule.rateUnit = unit ∧
          period.numberPhases = phases := by simpa using h
      obtain ⟨hfrom, hto⟩ := validAt_iff.mp (by simpa using hvalid)
      exact ⟨schedule, period, ⟨hfrom, hto, hfirst, offset,
        (offsetAt_eq_some_iff hfirst).mp hoffset, periodAt_eq_some_iff.mp hperiod⟩, rfl, rfl, rfl⟩
  · rintro ⟨schedule, period, ⟨hfrom, hto, hfirst, offset, hoffset, hperiod⟩, rfl, rfl, rfl⟩
    rw [limitAt, if_neg (by simp [validAt_iff.mpr ⟨hfrom, hto⟩]), hfirst]
    change (profile.offsetAt at_ transactionStart).bind _ = _
    rw [(offsetAt_eq_some_iff hfirst).mpr hoffset, Option.bind_some,
      periodAt_eq_some_iff.mpr hperiod]
    rfl

/-- It says something if the profile does. -/
theorem speaks_iff {profile : Profile} {at_ : ℤ} {transactionStart : Option ℤ} :
    profile.Speaks at_ transactionStart ↔ profile.limitAt at_ transactionStart ≠ none := by
  rw [Option.ne_none_iff_exists']
  constructor
  · rintro ⟨schedule, period, h⟩
    exact ⟨_, limitAt_eq_some_iff.mpr ⟨schedule, period, h, rfl, rfl, rfl⟩⟩
  · rintro ⟨⟨limit, unit, phases⟩, h⟩
    obtain ⟨schedule, period, hdefines, -⟩ := limitAt_eq_some_iff.mp h
    exact ⟨schedule, period, hdefines⟩

end Profile

/-! ### The rules -/

/-- The profile limits the EVSE to this, in the unit asked for. -/
def Profile.HasLimit (profile : Profile) (supply : Supply) (rateUnit : RateUnit) (at_ : ℤ)
    (transactionStart : Option ℤ) (limit : Decimal) : Prop :=
  ∃ schedule period, profile.Defines at_ transactionStart schedule period ∧
    supply.convert period.limit schedule.rateUnit rateUnit period.numberPhases = some limit

/-- **Of the profiles of this purpose, this one decides**: of those that say something about
the instant none has a higher stack level. Or there is none. -/
def Leads (profiles : List Profile) (at_ : ℤ) (transactionStart : Option ℤ) (purpose : Purpose) :
    Option Profile → Prop
  | some profile => profile ∈ profiles ∧ profile.purpose = purpose ∧
      profile.Speaks at_ transactionStart ∧
      ∀ other ∈ profiles, other.purpose = purpose → other.Speaks at_ transactionStart →
        other.stackLevel ≤ profile.stackLevel
  | none => ∀ other ∈ profiles, other.purpose = purpose → ¬other.Speaks at_ transactionStart

/-- What a purpose allows: the limit of the profile that decides. -/
def PurposeLimit (supply : Supply) (profiles : List Profile) (rateUnit : RateUnit) (at_ : ℤ)
    (transactionStart : Option ℤ) (purpose : Purpose) : Option ℚ → Prop
  | some value => ∃ profile limit, Leads profiles at_ transactionStart purpose (some profile) ∧
      profile.HasLimit supply rateUnit at_ transactionStart limit ∧ limit.toRat = value
  | none => Leads profiles at_ transactionStart purpose none

/-- **What the purposes allow together**: the lowest of the session, the station maximum and the
external constraints, and on top of it what is generated. -/
def combine (limits : Purpose → Option ℚ) : Option ℚ :=
  let session :=
    (limits .priorityCharging).or ((limits .txProfile).or (limits .txDefaultProfile))
  let slots := [session, limits .chargingStationMaxProfile,
    limits .chargingStationExternalConstraints].reduceOption
  slots.min?.map fun lowest => lowest + (limits .localGeneration).getD 0

/-- All conversions have an answer, and so have all sums with what is generated. -/
structure Representable (supply : Supply) (profiles : List Profile) (rateUnit : RateUnit)
    (at_ : ℤ) (transactionStart : Option ℤ) : Prop where
  /-- The conversions. -/
  converts : ∀ profile ∈ profiles, ∀ schedule period,
    profile.Defines at_ transactionStart schedule period → ∃ limit,
      supply.convert period.limit schedule.rateUnit rateUnit period.numberPhases = some limit
  /-- The sums. -/
  adds : ∀ profile ∈ profiles, ∀ generator ∈ profiles, profile.purpose ≠ .localGeneration →
    generator.purpose = .localGeneration → ∀ limit generation,
    profile.HasLimit supply rateUnit at_ transactionStart limit →
    generator.HasLimit supply rateUnit at_ transactionStart generation →
    ∃ sum, limit.checkedAdd generation = some sum

/-! ### Who leads -/

namespace ProfileStore

/-- **Of those with the greatest key**, one is found if there are any. -/
theorem maxByKey_spec {α : Type} (key : α → ℤ) (l : List α) :
    (maxByKey key l = none ∧ l = []) ∨
      ∃ x, maxByKey key l = some x ∧ x ∈ l ∧ ∀ y ∈ l, key y ≤ key x := by
  induction l using List.reverseRecOn with
  | nil => exact Or.inl ⟨rfl, rfl⟩
  | append_singleton l x ih =>
      refine Or.inr ?_
      have hlast : maxByKey key (l ++ [x]) =
          (maxByKey key l).elim (some x) fun b => if key b ≤ key x then some x else some b := by
        rw [maxByKey, maxByKey, List.foldl_append]
        rcases List.foldl _ none l with _ | b
        · rfl
        · rfl
      rw [hlast]
      rcases ih with ⟨hnone, rfl⟩ | ⟨b, hb, hmem, hmax⟩
      · rw [hnone]
        exact ⟨x, rfl, by simp, by simp⟩
      · rw [hb, Option.elim_some]
        split
        next hle =>
          refine ⟨x, rfl, by simp, fun y hy => ?_⟩
          rcases List.mem_append.mp hy with hy | hy
          · exact (hmax y hy).trans hle
          · exact (List.mem_singleton.mp hy ▸ le_rfl)
        next hlt =>
          refine ⟨b, rfl, List.mem_append_left _ hmem, fun y hy => ?_⟩
          rcases List.mem_append.mp hy with hy | hy
          · exact hmax y hy
          · rw [List.mem_singleton.mp hy]
            exact (not_le.mp hlt).le

variable {store : ProfileStore} {profiles : List Profile} {at_ : ℤ} {rateUnit : RateUnit}
  {transactionStart : Option ℤ}

/-- Those of a purpose that say something, with their stack levels. -/
def candidates (profiles : List Profile) (at_ : ℤ) (transactionStart : Option ℤ)
    (purpose : Purpose) : List (ℤ × Decimal × RateUnit × Option ℤ) :=
  (profiles.filter fun profile => profile.purpose = purpose).filterMap fun profile =>
    (profile.limitAt at_ transactionStart).map fun limit => (profile.stackLevel, limit)

theorem mem_candidates {purpose : Purpose} {level : ℤ} {limit : Decimal × RateUnit × Option ℤ} :
    (level, limit) ∈ candidates profiles at_ transactionStart purpose ↔
      ∃ profile ∈ profiles, profile.purpose = purpose ∧ profile.stackLevel = level ∧
        profile.limitAt at_ transactionStart = some limit := by
  simp only [candidates, List.mem_filterMap, List.mem_filter, decide_eq_true_eq,
    Option.map_eq_some_iff, Prod.mk.injEq]
  constructor
  · rintro ⟨profile, ⟨hmem, hpurpose⟩, limit, hlimit, rfl, rfl⟩
    exact ⟨profile, hmem, hpurpose, rfl, hlimit⟩
  · rintro ⟨profile, hmem, hpurpose, rfl, hlimit⟩
    exact ⟨profile, ⟨hmem, hpurpose⟩, limit, hlimit, rfl, rfl⟩

/-- **The code finds who leads.** -/
theorem leading_spec (hrep : Representable store.supply profiles rateUnit at_ transactionStart)
    (purpose : Purpose) :
    (store.leading profiles at_ rateUnit transactionStart purpose = none ∧
      Leads profiles at_ transactionStart purpose none) ∨
    ∃ profile limit phases,
      store.leading profiles at_ rateUnit transactionStart purpose = some (limit, phases) ∧
      Leads profiles at_ transactionStart purpose (some profile) ∧
      profile.HasLimit store.supply rateUnit at_ transactionStart limit := by
  have hleading : store.leading profiles at_ rateUnit transactionStart purpose =
      (maxByKey Prod.fst (candidates profiles at_ transactionStart purpose)).bind fun found =>
        (store.supply.convert found.2.1 found.2.2.1 rateUnit found.2.2.2).bind fun converted =>
          some (converted, found.2.2.2) := rfl
  rw [hleading]
  rcases maxByKey_spec Prod.fst (candidates profiles at_ transactionStart purpose) with
    ⟨hnone, hempty⟩ | ⟨⟨level, limit, unit, phases⟩, hfound, hmem, hmax⟩
  · rw [hnone]
    refine Or.inl ⟨rfl, fun other hother hpurpose hspeaks => ?_⟩
    obtain ⟨limit, hsaid⟩ := Option.ne_none_iff_exists'.mp (Profile.speaks_iff.mp hspeaks)
    have hmem := mem_candidates.mpr ⟨other, hother, hpurpose, rfl, hsaid⟩
    rw [hempty] at hmem
    exact absurd hmem List.not_mem_nil
  · rw [hfound]
    obtain ⟨profile, hprofile, hpurpose, rfl, hlimit⟩ := mem_candidates.mp hmem
    obtain ⟨schedule, period, hdefines, rfl, rfl, rfl⟩ := Profile.limitAt_eq_some_iff.mp hlimit
    obtain ⟨converted, hconvert⟩ := hrep.converts profile hprofile schedule period hdefines
    refine Or.inr ⟨profile, converted, period.numberPhases, ?_, ⟨hprofile, hpurpose,
      ⟨schedule, period, hdefines⟩, fun other hother hpurpose' hspeaks => ?_⟩,
      schedule, period, hdefines, hconvert⟩
    · simp only [Option.bind_some, hconvert]
    · obtain ⟨limit, hlimit'⟩ := Option.ne_none_iff_exists'.mp (Profile.speaks_iff.mp hspeaks)
      exact hmax _ (mem_candidates.mpr ⟨other, hother, hpurpose', rfl, hlimit'⟩)

/-- The number a limit stands for. -/
def value (limit : Option (Decimal × Option ℤ)) : Option ℚ := limit.map fun l => l.1.toRat

/-- What the code finds for a purpose is what it allows. -/
theorem purposeLimit_leading
    (hrep : Representable store.supply profiles rateUnit at_ transactionStart)
    (purpose : Purpose) : PurposeLimit store.supply profiles rateUnit at_ transactionStart purpose
      (value (store.leading profiles at_ rateUnit transactionStart purpose)) := by
  rcases leading_spec hrep purpose with
    ⟨hnone, hleads⟩ | ⟨profile, limit, phases, hsome, hleads, hlimit⟩
  · rw [hnone]
    exact hleads
  · rw [hsome]
    exact ⟨profile, limit, hleads, hlimit, rfl⟩

/-! ### The lowest -/

/-- **The code takes the lowest** of the slots that are filled. -/
theorem value_lower (session station external : Option (Decimal × Option ℤ)) :
    value (lower (lower session station) external) =
      [value session, value station, value external].reduceOption.min? := by
  have hle : ∀ d d' : Decimal, d.le d' = decide (d.toRat ≤ d'.toRat) := by
    intro d d'
    rw [Bool.eq_iff_iff, Decimal.le_iff, decide_eq_true_iff]
  -- two slots, and one more
  have htwo : ∀ a b : Option (Decimal × Option ℤ),
      value (lower a b) = [value a, value b].reduceOption.min? := by
    rintro (_ | ⟨a, p⟩) (_ | ⟨b, q⟩)
    · rfl
    · rfl
    · rfl
    · simp only [lower, hle]
      split
      next h => simp [value, List.reduceOption, List.min?, min_eq_left (of_decide_eq_true h)]
      next h =>
        have hlt : b.toRat ≤ a.toRat := (not_le.mp (by simpa using h)).le
        simp [value, List.reduceOption, List.min?, min_eq_right hlt]
  rw [htwo, htwo]
  rcases value session with _ | s <;> rcases value station with _ | m <;>
    rcases value external with _ | x <;> rfl

/-- The limit of the session slot is that of the first of its purposes that has one. -/
theorem value_orElse (first : Option (Decimal × Option ℤ))
    (second : Unit → Option (Decimal × Option ℤ)) :
    value (first.orElse second) = (value first).or (value (second ())) := by
  rcases first with _ | first
  · rfl
  · rfl

/-- The limits of the purposes, as the code finds them. -/
def found (store : ProfileStore) (profiles : List Profile) (at_ : ℤ) (rateUnit : RateUnit)
    (transactionStart : Option ℤ) (purpose : Purpose) : Option ℚ :=
  value (store.leading profiles at_ rateUnit transactionStart purpose)

/-- The lowest of the slots, as the code finds it. -/
def constrained (store : ProfileStore) (profiles : List Profile) (at_ : ℤ) (rateUnit : RateUnit)
    (transactionStart : Option ℤ) : Option (Decimal × Option ℤ) :=
  let leading := store.leading profiles at_ rateUnit transactionStart
  let session := (leading .priorityCharging).orElse fun _ =>
    (leading .txProfile).orElse fun _ => leading .txDefaultProfile
  lower (lower session (leading .chargingStationMaxProfile))
    (leading .chargingStationExternalConstraints)

theorem value_constrained : value (store.constrained profiles at_ rateUnit transactionStart) =
    combine (Function.update (store.found profiles at_ rateUnit transactionStart)
      .localGeneration none) := by
  rw [constrained, value_lower, value_orElse, value_orElse, combine]
  simp [found, Function.update]

theorem limitAt_eq_constrained : store.limitAt profiles at_ rateUnit transactionStart =
    match store.leading profiles at_ rateUnit transactionStart .localGeneration with
    | some (generation, phases) =>
        match store.constrained profiles at_ rateUnit transactionStart with
        | some (current, currentPhases) =>
            some ((current.checkedAdd generation).getD current, currentPhases)
        | none => some (generation, phases)
    | none => store.constrained profiles at_ rateUnit transactionStart := rfl

/-- What is lowest is one of the slots. -/
theorem constrained_eq_leading {limit : Decimal} {phases : Option ℤ}
    (h : store.constrained profiles at_ rateUnit transactionStart = some (limit, phases)) :
    ∃ purpose, purpose ≠ .localGeneration ∧
      store.leading profiles at_ rateUnit transactionStart purpose = some (limit, phases) := by
  have hlower : ∀ a b : Option (Decimal × Option ℤ), ∀ c, lower a b = some c →
      a = some c ∨ b = some c := by
    rintro (_ | a) (_ | b) c hc
    · exact absurd hc (by simp [lower])
    · exact Or.inr hc
    · exact Or.inl hc
    · rw [lower] at hc
      split at hc
      · exact Or.inl hc
      · exact Or.inr hc
  have hsession : ∀ a b c : Option (Decimal × Option ℤ), ∀ d,
      (a.orElse fun _ => b.orElse fun _ => c) = some d → a = some d ∨ b = some d ∨ c = some d := by
    rintro (_ | a) (_ | b) c d hd
    · exact Or.inr (Or.inr hd)
    · exact Or.inr (Or.inl hd)
    · exact Or.inl hd
    · exact Or.inl hd
  rcases hlower _ _ _ h with h | h
  · rcases hlower _ _ _ h with h | h
    · rcases hsession _ _ _ _ h with h | h | h
      · exact ⟨_, by simp, h⟩
      · exact ⟨_, by simp, h⟩
      · exact ⟨_, by simp, h⟩
    · exact ⟨_, by simp, h⟩
  · exact ⟨_, by simp, h⟩

end ProfileStore

/-- What is generated comes on top. -/
theorem combine_eq (limits : Purpose → Option ℚ) :
    combine limits = (combine (Function.update limits .localGeneration none)).map fun lowest =>
      lowest + (limits .localGeneration).getD 0 := by
  simp only [combine, Function.update, Option.map_map]
  simp [Function.comp_def]

/-- Nothing is allowed or forbidden when none of the purposes of the slots has a limit. -/
theorem combine_eq_none_iff {limits : Purpose → Option ℚ} :
    combine limits = none ↔ ∀ purpose, purpose ≠ .localGeneration → limits purpose = none := by
  rw [combine, Option.map_eq_none_iff, List.min?_eq_none_iff, List.reduceOption,
    List.filterMap_eq_nil_iff]
  simp only [List.forall_mem_cons, id_eq, Option.or_eq_none_iff, List.not_mem_nil, false_imp_iff,
    implies_true, and_true]
  constructor
  · rintro ⟨⟨hpriority, htx, hdefault⟩, hstation, hexternal⟩ purpose hpurpose
    cases purpose with
    | chargingStationMaxProfile => exact hstation
    | txDefaultProfile => exact hdefault
    | txProfile => exact htx
    | chargingStationExternalConstraints => exact hexternal
    | priorityCharging => exact hpriority
    | localGeneration => exact absurd rfl hpurpose
  · intro h
    exact ⟨⟨h _ (by simp), h _ (by simp), h _ (by simp)⟩, h _ (by simp), h _ (by simp)⟩

/-- **The lowest is at most the station maximum.** -/
theorem combine_le {limits : Purpose → Option ℚ} (h : limits .localGeneration = none)
    {ceiling : ℚ} (hceiling : limits .chargingStationMaxProfile = some ceiling) :
    ∃ limit, combine limits = some limit ∧ limit ≤ ceiling := by
  rcases hcombine : combine limits with _ | limit
  · have hnone := combine_eq_none_iff.mp hcombine .chargingStationMaxProfile (by simp)
    exact absurd (hnone.symm.trans hceiling) (by simp)
  · refine ⟨limit, rfl, ?_⟩
    rw [combine, h, Option.map_eq_some_iff] at hcombine
    obtain ⟨lowest, hlowest, rfl⟩ := hcombine
    have hmem : ceiling ∈ [(limits .priorityCharging).or ((limits .txProfile).or
        (limits .txDefaultProfile)), limits .chargingStationMaxProfile,
        limits .chargingStationExternalConstraints].reduceOption :=
      List.reduceOption_mem_iff.mpr (by simp [hceiling])
    have hle := (List.min?_eq_some_iff.mp hlowest).2 ceiling hmem
    rwa [Option.getD_none, add_zero]

/-! ### The code follows the rules -/

/-- No two profiles of one purpose that say something about the instant share a stack level. -/
def NoTies (profiles : List Profile) (at_ : ℤ) (transactionStart : Option ℤ) : Prop :=
  ∀ profile ∈ profiles, ∀ other ∈ profiles, profile.purpose = other.purpose →
    profile.Speaks at_ transactionStart → other.Speaks at_ transactionStart →
    profile.stackLevel = other.stackLevel → profile = other

/-- **The effective limit follows the rules.** -/
structure FollowsRules (store : ProfileStore) (profiles : List Profile) (at_ : ℤ)
    (rateUnit : RateUnit) (transactionStart : Option ℤ) : Prop where
  /-- It is what the purposes allow together; and with nothing generated it is at most the
  station maximum. -/
  combined : ∃ limits : Purpose → Option ℚ,
    (∀ purpose, PurposeLimit store.supply profiles rateUnit at_ transactionStart purpose
      (limits purpose)) ∧
    ProfileStore.value (store.limitAt profiles at_ rateUnit transactionStart) =
      combine limits ∧
    (limits .localGeneration = none →
      ∀ ceiling, limits .chargingStationMaxProfile = some ceiling → ∃ limit,
        ProfileStore.value (store.limitAt profiles at_ rateUnit transactionStart) = some limit ∧
          limit ≤ ceiling)
  /-- Without ties the order of the profiles does not matter. -/
  order : NoTies profiles at_ transactionStart → ∀ profiles', profiles'.Perm profiles →
    store.limitAt profiles' at_ rateUnit transactionStart =
      store.limitAt profiles at_ rateUnit transactionStart
  /-- And neither does the order in which they were installed, none of them in the place of
  another. -/
  installed : ∀ installed installed' : List Profile, installed'.Perm installed →
    (installed.map Profile.id).Nodup → ∀ counts : Profile → Bool,
    NoTies ((installed.foldl ProfileStore.install store).profiles.filter counts) at_
      transactionStart →
    store.limitAt ((installed'.foldl ProfileStore.install store).profiles.filter counts) at_
        rateUnit transactionStart =
      store.limitAt ((installed.foldl ProfileStore.install store).profiles.filter counts) at_
        rateUnit transactionStart

/-- A profile is installed in the place of those with its id. -/
theorem profiles_foldl_install (store : ProfileStore) (installed : List Profile)
    (h : (installed.map Profile.id).Nodup) :
    (installed.foldl ProfileStore.install store).profiles =
      (store.profiles.filter fun existing => existing.id ∉ installed.map Profile.id) ++
        installed := by
  induction installed generalizing store with
  | nil => simp
  | cons profile rest ih =>
      obtain ⟨hfresh, hrest⟩ := List.nodup_cons.mp h
      rw [List.foldl_cons, ih _ hrest, ProfileStore.install, List.filter_append,
        List.filter_filter, List.filter_singleton, List.append_assoc]
      have hkept : (decide (profile.id ∉ rest.map Profile.id)) = true := by simpa using hfresh
      rw [hkept, cond_true, List.singleton_append]
      congr 1
      refine List.filter_congr fun existing _ => ?_
      rw [Bool.eq_iff_iff, Bool.and_eq_true, decide_eq_true_iff, decide_eq_true_iff,
        decide_eq_true_iff, List.map_cons, List.mem_cons, not_or]
      exact and_comm

theorem perm_foldl_install (store : ProfileStore) {installed installed' : List Profile}
    (hperm : installed'.Perm installed) (h : (installed.map Profile.id).Nodup) :
    (installed'.foldl ProfileStore.install store).profiles.Perm
      (installed.foldl ProfileStore.install store).profiles := by
  have hids := hperm.map Profile.id
  rw [profiles_foldl_install store installed h,
    profiles_foldl_install store installed' (hids.nodup_iff.mpr h)]
  simp only [hids.mem_iff]
  exact hperm.append_left _

namespace ProfileStore

variable {store : ProfileStore} {profiles : List Profile} {at_ : ℤ} {rateUnit : RateUnit}
  {transactionStart : Option ℤ}

/-- **Without ties the order of the profiles does not matter** to who leads. -/
theorem leading_perm (h : NoTies profiles at_ transactionStart) {profiles' : List Profile}
    (hperm : profiles'.Perm profiles) (purpose : Purpose) :
    store.leading profiles' at_ rateUnit transactionStart purpose =
      store.leading profiles at_ rateUnit transactionStart purpose := by
  have hsame : maxByKey Prod.fst (candidates profiles' at_ transactionStart purpose) =
      maxByKey Prod.fst (candidates profiles at_ transactionStart purpose) := by
    have hcandidates : (candidates profiles' at_ transactionStart purpose).Perm
        (candidates profiles at_ transactionStart purpose) := (hperm.filter _).filterMap _
    rcases maxByKey_spec Prod.fst (candidates profiles' at_ transactionStart purpose) with
      ⟨hnone', hempty'⟩ | ⟨x', hx', hmem', hmax'⟩
    · rw [hempty'] at hcandidates
      rw [hnone', hcandidates.symm.eq_nil]
      rfl
    · rcases maxByKey_spec Prod.fst (candidates profiles at_ transactionStart purpose) with
        ⟨-, hempty⟩ | ⟨x, hx, hmem, hmax⟩
      · rw [hempty] at hcandidates
        rw [hcandidates.eq_nil] at hmem'
        exact absurd hmem' List.not_mem_nil
      · rw [hx, hx']
        -- both have the highest stack level, so both come from one profile
        have hmem'' := hcandidates.subset hmem'
        have hlevel : x'.1 = x.1 :=
          le_antisymm (hmax x' hmem'') (hmax' x (hcandidates.symm.subset hmem))
        obtain ⟨profile, hprofile, hpurpose, hstack, hlimit⟩ := mem_candidates.mp hmem
        obtain ⟨other, hother, hpurpose', hstack', hlimit'⟩ := mem_candidates.mp hmem''
        have hspeaks : profile.Speaks at_ transactionStart :=
          Profile.speaks_iff.mpr (by simp [hlimit])
        have hspeaks' : other.Speaks at_ transactionStart :=
          Profile.speaks_iff.mpr (by simp [hlimit'])
        obtain rfl := h other hother profile hprofile (hpurpose'.trans hpurpose.symm) hspeaks'
          hspeaks (by rw [hstack', hstack, hlevel])
        have hlimits : x'.2 = x.2 := Option.some.inj (hlimit'.symm.trans hlimit)
        exact congrArg some (Prod.ext hlevel hlimits)
  change (maxByKey Prod.fst (candidates profiles' at_ transactionStart purpose)).bind _ =
    (maxByKey Prod.fst (candidates profiles at_ transactionStart purpose)).bind _
  rw [hsame]

theorem limitAt_perm (h : NoTies profiles at_ transactionStart) {profiles' : List Profile}
    (hperm : profiles'.Perm profiles) :
    store.limitAt profiles' at_ rateUnit transactionStart =
      store.limitAt profiles at_ rateUnit transactionStart := by
  have hleading : store.leading profiles' at_ rateUnit transactionStart =
      store.leading profiles at_ rateUnit transactionStart := funext (leading_perm h hperm)
  rw [limitAt, limitAt, hleading]

/-- **Where a slot is filled or nothing is generated**, the code combines the limits. -/
theorem value_limitAt (hrep : Representable store.supply profiles rateUnit at_ transactionStart)
    (h : store.leading profiles at_ rateUnit transactionStart .localGeneration = none ∨
      store.constrained profiles at_ rateUnit transactionStart ≠ none) :
    value (store.limitAt profiles at_ rateUnit transactionStart) =
      combine (store.found profiles at_ rateUnit transactionStart) := by
  rw [combine_eq, ← value_constrained, limitAt_eq_constrained]
  rcases leading_spec hrep .localGeneration with
    ⟨hnone, -⟩ | ⟨generator, generation, phases, hsome, hleads, hgeneration⟩
  · simp [hnone, found, value, Function.comp_def]
  · rw [hsome] at h ⊢
    obtain ⟨⟨current, currentPhases⟩, hcurrent⟩ :=
      Option.ne_none_iff_exists'.mp (h.resolve_left (by simp))
    obtain ⟨purpose, hpurpose, hleading⟩ := constrained_eq_leading hcurrent
    rcases leading_spec hrep purpose with ⟨hnone, -⟩ | ⟨profile, limit, _, hsome', hleads', hlimit⟩
    · exact absurd (hleading.symm.trans hnone) (by simp)
    · obtain ⟨rfl, rfl⟩ : current = limit ∧ _ = _ := by
        simpa using Option.some.inj (hleading.symm.trans hsome')
      have hother : profile.purpose ≠ .localGeneration := hleads'.2.1 ▸ hpurpose
      obtain ⟨sum, hsum⟩ := hrep.adds profile hleads'.1 generator hleads.1 hother hleads.2.1
        current generation hlimit hgeneration
      rw [hcurrent]
      simp [value, found, hsome, hsum, Decimal.toRat_checkedAdd hsum]

end ProfileStore

/-- Some profile of another purpose than generation says something about the instant. -/
def Constrained (profiles : List Profile) (at_ : ℤ) (transactionStart : Option ℤ) : Prop :=
  ∃ profile ∈ profiles, profile.purpose ≠ .localGeneration ∧ profile.Speaks at_ transactionStart

/-- Nothing is generated at the instant. -/
def NoGeneration (profiles : List Profile) (at_ : ℤ) (transactionStart : Option ℤ) : Prop :=
  ∀ profile ∈ profiles, profile.purpose = .localGeneration →
    ¬profile.Speaks at_ transactionStart

/-- What a purpose allows is nothing exactly where none of its profiles says something. -/
theorem PurposeLimit.eq_none_iff {supply : Supply} {profiles : List Profile} {rateUnit : RateUnit}
    {at_ : ℤ} {transactionStart : Option ℤ} {purpose : Purpose} {limit : Option ℚ}
    (h : PurposeLimit supply profiles rateUnit at_ transactionStart purpose limit) :
    limit = none ↔ ∀ profile ∈ profiles, profile.purpose = purpose →
      ¬profile.Speaks at_ transactionStart := by
  rcases limit with _ | limit
  · exact iff_of_true rfl h
  · obtain ⟨profile, -, ⟨hmem, hpurpose, hspeaks, -⟩, -⟩ := h
    exact iff_of_false (by simp) fun hnone => hnone profile hmem hpurpose hspeaks

/-- Together the purposes allow or forbid something exactly where one of those of the slots
does. -/
theorem combine_ne_none_iff {supply : Supply} {profiles : List Profile} {rateUnit : RateUnit}
    {at_ : ℤ} {transactionStart : Option ℤ} {limits : Purpose → Option ℚ}
    (h : ∀ purpose, PurposeLimit supply profiles rateUnit at_ transactionStart purpose
      (limits purpose)) : combine limits ≠ none ↔ Constrained profiles at_ transactionStart := by
  rw [ne_eq, combine_eq_none_iff, Constrained]
  constructor
  · intro hsome
    by_contra hnot
    refine hsome fun purpose hpurpose => (h purpose).eq_none_iff.mpr ?_
    intro profile hmem hsame hspeaks
    exact hnot ⟨profile, hmem, hsame ▸ hpurpose, hspeaks⟩
  · rintro ⟨profile, hmem, hpurpose, hspeaks⟩ hnone
    exact (h profile.purpose).eq_none_iff.mp (hnone _ hpurpose) profile hmem rfl hspeaks

/-- **When the effective limit follows the rules**: exactly where nothing is generated or some
other profile says something. -/
theorem limitAt_combined_iff (store : ProfileStore) (profiles : List Profile) (at_ : ℤ)
    (rateUnit : RateUnit) (transactionStart : Option ℤ)
    (hrep : Representable store.supply profiles rateUnit at_ transactionStart) :
    FollowsRules store profiles at_ rateUnit transactionStart ↔
      NoGeneration profiles at_ transactionStart ∨ Constrained profiles at_ transactionStart := by
  have hfound := ProfileStore.purposeLimit_leading hrep
  -- who leads among the generators, and whether a slot is filled
  have hgeneration : store.leading profiles at_ rateUnit transactionStart .localGeneration = none ↔
      NoGeneration profiles at_ transactionStart := by
    rw [NoGeneration, ← (hfound .localGeneration).eq_none_iff, ProfileStore.value,
      Option.map_eq_none_iff]
  have hconstrained : store.constrained profiles at_ rateUnit transactionStart ≠ none ↔
      Constrained profiles at_ transactionStart := by
    rw [← combine_ne_none_iff hfound, combine_eq, ne_eq, ne_eq, Option.map_eq_none_iff]
    change _ ↔ ¬combine (Function.update (store.found profiles at_ rateUnit transactionStart)
      .localGeneration none) = none
    rw [← ProfileStore.value_constrained, ProfileStore.value, Option.map_eq_none_iff]
  constructor
  · rintro ⟨⟨limits, hlimits, hcombine, -⟩, -, -⟩
    by_contra hnot
    obtain ⟨hgen, hfree⟩ := not_or.mp hnot
    -- by the rules there is no limit, and the code reports what is generated
    have hnone : combine limits = none := by
      rw [← combine_ne_none_iff hlimits, not_not] at hfree
      exact hfree
    rw [← hconstrained, not_not] at hfree
    obtain ⟨generation, hsome⟩ := Option.ne_none_iff_exists'.mp (mt hgeneration.mp hgen)
    rw [hnone, ProfileStore.limitAt_eq_constrained, hsome, hfree] at hcombine
    exact absurd hcombine (by simp [ProfileStore.value])
  · intro h
    rw [← hgeneration, ← hconstrained] at h
    have hvalue := ProfileStore.value_limitAt hrep h
    refine ⟨⟨_, hfound, hvalue, fun hnone ceiling hceiling => ?_⟩, ?_, ?_⟩
    · rw [hvalue]
      exact combine_le hnone hceiling
    · intro hties profiles' hperm
      exact ProfileStore.limitAt_perm hties hperm
    · intro installed installed' hperm hids counts hties
      exact ProfileStore.limitAt_perm hties ((perm_foldl_install store hperm hids).filter _)

end OcppKit

namespace OcppKit.Reference

/-! ### A site with solar panels -/

/-- From the start on, one limit in amperes. -/
def always (id : ℤ) (purpose : Purpose) (limit : Decimal) : Profile where
  id := id
  stackLevel := 0
  purpose := purpose
  kind := .absolute
  schedules := [{ start := some ⟨0⟩, rateUnit := .a, periods := [⟨0, limit, none⟩] }]

/-- 8 A are generated. -/
def panels : Profile := always 1 .localGeneration (.fromI64 8)

/-- A transaction gets 16 A. -/
def sixteenAmperes : Profile := always 2 .txDefaultProfile sixteen

/-- What such a profile says. -/
theorem hasLimit_always {id : ℤ} {purpose : Purpose} {limit limit' : Decimal} {supply : Supply}
    {at_ : ℤ} {transactionStart : Option ℤ}
    (h : (always id purpose limit).HasLimit supply .a at_ transactionStart limit') :
    limit' = limit := by
  obtain ⟨schedule, period, hdefines, hconvert⟩ := h
  obtain rfl := Option.some.inj hdefines.first
  obtain ⟨offset, -, -, -, before, after, hsplit, -, -⟩ := hdefines.period
  obtain rfl : period = ⟨0, limit, none⟩ := by
    have hsplit' : [(⟨0, limit, none⟩ : Period)] = before ++ period :: after := hsplit
    have hmem : period ∈ [(⟨0, limit, none⟩ : Period)] := hsplit' ▸ by simp
    exact List.mem_singleton.mp hmem
  exact (Option.some.inj hconvert).symm

theorem converts_always (id : ℤ) (purpose : Purpose) (limit : Decimal) (supply : Supply)
    (at_ : ℤ) (transactionStart : Option ℤ) (schedule : Schedule) (period : Period)
    (h : (always id purpose limit).Defines at_ transactionStart schedule period) :
    ∃ limit', supply.convert period.limit schedule.rateUnit .a period.numberPhases =
      some limit' := by
  obtain rfl := Option.some.inj h.first
  exact ⟨_, rfl⟩

theorem representable_panels : Representable Supply.default [panels, sixteenAmperes] .a 0 none where
  converts := by
    intro profile hprofile
    rcases List.mem_pair.mp hprofile with rfl | rfl
    · exact converts_always _ _ _ _ _ _
    · exact converts_always _ _ _ _ _ _
  adds := by
    intro profile hprofile generator hgenerator hother hgeneration limit generation hlimit hgen
    obtain rfl : profile = sixteenAmperes := by
      rcases List.mem_pair.mp hprofile with rfl | rfl
      · exact absurd rfl hother
      · rfl
    obtain rfl : generator = panels := by
      rcases List.mem_pair.mp hgenerator with rfl | rfl
      · rfl
      · exact absurd hgeneration (by decide)
    obtain rfl := hasLimit_always hlimit
    obtain rfl := hasLimit_always hgen
    exact ⟨.fromI64 24, by decide +kernel⟩

/-- With a transaction profile, the generation comes on top of it. -/
theorem limitAt_combined_iff_panels : FollowsRules {} [panels, sixteenAmperes] 0 .a none := by
  refine (limitAt_combined_iff {} [panels, sixteenAmperes] 0 .a none representable_panels).mpr ?_
  refine Or.inr ⟨sixteenAmperes, by simp, by decide, ?_⟩
  exact Profile.speaks_iff.mpr (by decide +kernel)

/-- **With nothing else, it does not**: what is generated is reported as a limit. -/
theorem not_followsRules : ¬∀ (store : ProfileStore) (profiles : List Profile) (at_ : ℤ)
    (rateUnit : RateUnit) (transactionStart : Option ℤ),
    Representable store.supply profiles rateUnit at_ transactionStart →
    FollowsRules store profiles at_ rateUnit transactionStart := by
  intro h
  have hrep : Representable Supply.default [panels] .a 0 none := by
    refine ⟨fun profile hmem => ?_, fun profile hmem generator _ hother => ?_⟩
    · obtain rfl := List.mem_singleton.mp hmem
      exact converts_always _ _ _ _ _ _
    · obtain rfl := List.mem_singleton.mp hmem
      exact absurd rfl hother
  obtain ⟨limits, hlimits, hcombine, -⟩ := (h {} [panels] 0 .a none hrep).combined
  have hnone : combine limits = none := by
    refine combine_eq_none_iff.mpr fun purpose hpurpose => (hlimits purpose).eq_none_iff.mpr ?_
    intro profile hmem hsame
    obtain rfl := List.mem_singleton.mp hmem
    exact absurd hsame.symm hpurpose
  rw [hnone] at hcombine
  exact absurd hcombine (by decide +kernel)

end OcppKit.Reference
