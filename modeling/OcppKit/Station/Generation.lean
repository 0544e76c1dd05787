import OcppKit.Station.Stacking

/-!
# Local generation

What the site generates is capacity, not a limit: with it the profiles are to allow at least
what they allow without it. Where there is no limit everything is allowed, so what is allowed
is a number or `⊤` (`OcppKit.ProfileStore.allowed`).

`OcppKit.generation_raises_iff`: that is so exactly where no generation leads or a profile of
another purpose does. Generation alone turns `⊤` into a number: the site that generates 8 A
is held to 8 A.
-/

namespace OcppKit

namespace ProfileStore

/-- **What is allowed**: everything, if there is no limit. -/
def allowed (limit : Option (Decimal × Option ℤ)) : WithTop ℚ :=
  match limit with
  | some (limit, _) => (limit.toRat : WithTop ℚ)
  | none => ⊤

/-- The profiles but those for local generation. -/
def withoutGeneration (profiles : List Profile) : List Profile :=
  profiles.filter fun profile => profile.purpose ≠ .localGeneration

variable {store : ProfileStore} {profiles : List Profile} {at_ : ℤ} {rateUnit : RateUnit}
  {transactionStart : Option ℤ}

/-! ### Without the generation -/

/-- The other purposes have the candidates they had. -/
theorem candidates_withoutGeneration {purpose : Purpose} (h : purpose ≠ .localGeneration) :
    candidates (withoutGeneration profiles) at_ transactionStart purpose =
      candidates profiles at_ transactionStart purpose := by
  rw [candidates, candidates, withoutGeneration, List.filter_filter]
  congr 1
  refine List.filter_congr fun profile _ => ?_
  rw [Bool.eq_iff_iff, Bool.and_eq_true, decide_eq_true_iff, decide_eq_true_iff]
  exact and_iff_left_of_imp fun hsame => hsame ▸ h

/-- Generation has none. -/
theorem candidates_localGeneration :
    candidates (withoutGeneration profiles) at_ transactionStart .localGeneration = [] := by
  have hnone : (withoutGeneration profiles).filter
      (fun profile => profile.purpose = .localGeneration) = [] := by
    rw [List.filter_eq_nil_iff]
    intro profile hmem
    have hne := (List.mem_filter.mp hmem).2
    simpa using hne
  rw [candidates, hnone, List.filterMap_nil]

/-- **Without the generation there is the lowest of the slots**, and nothing on top. -/
theorem limitAt_withoutGeneration :
    store.limitAt (withoutGeneration profiles) at_ rateUnit transactionStart =
      store.constrained profiles at_ rateUnit transactionStart := by
  have hleading : ∀ purpose, purpose ≠ .localGeneration →
      store.leading (withoutGeneration profiles) at_ rateUnit transactionStart purpose =
        store.leading profiles at_ rateUnit transactionStart purpose := by
    intro purpose hpurpose
    change (maxByKey Prod.fst (candidates _ at_ transactionStart purpose)).bind _ =
      (maxByKey Prod.fst (candidates _ at_ transactionStart purpose)).bind _
    rw [candidates_withoutGeneration hpurpose]
  have hgeneration : store.leading (withoutGeneration profiles) at_ rateUnit transactionStart
      .localGeneration = none := by
    change (maxByKey Prod.fst (candidates _ at_ transactionStart _)).bind _ = none
    rw [candidates_localGeneration]
    rfl
  rw [limitAt_eq_constrained, hgeneration]
  simp only [constrained]
  rw [hleading _ (by simp), hleading _ (by simp), hleading _ (by simp), hleading _ (by simp),
    hleading _ (by simp)]

/-- There is a lowest exactly where a profile of one of the slots leads. -/
theorem constrained_ne_none_iff :
    store.constrained profiles at_ rateUnit transactionStart ≠ none ↔
      ∃ purpose, purpose ≠ .localGeneration ∧
        store.leading profiles at_ rateUnit transactionStart purpose ≠ none := by
  have hvalue : ∀ limit : Option (Decimal × Option ℤ), value limit = none ↔ limit = none :=
    fun limit => Option.map_eq_none_iff
  rw [ne_eq, ← hvalue, value_constrained, combine_eq_none_iff]
  push Not
  refine exists_congr fun purpose => and_congr_right fun hpurpose => ?_
  rw [Function.update_of_ne hpurpose, found, ne_eq, hvalue]

/-! ### What is generated -/

/-- What leads is the limit of a profile. -/
theorem exists_of_leading {purpose : Purpose} {limit : Decimal} {phases : Option ℤ}
    (h : store.leading profiles at_ rateUnit transactionStart purpose = some (limit, phases)) :
    ∃ profile ∈ profiles, profile.purpose = purpose ∧
      profile.HasLimit store.supply rateUnit at_ transactionStart limit := by
  obtain ⟨⟨level, source, unit, phases'⟩, hfound, h⟩ := Option.bind_eq_some_iff.mp h
  obtain ⟨converted, hconvert, hpair⟩ := Option.bind_eq_some_iff.mp h
  obtain ⟨rfl, rfl⟩ := Prod.mk.inj (Option.some.inj hpair)
  rcases maxByKey_spec Prod.fst (candidates profiles at_ transactionStart purpose) with
    ⟨hnone, -⟩ | ⟨x, hx, hmem, -⟩
  · exact absurd (hfound.symm.trans hnone) (by simp)
  · obtain rfl := Option.some.inj (hfound.symm.trans hx)
    obtain ⟨profile, hprofile, hpurpose, -, hlimit⟩ := mem_candidates.mp hmem
    obtain ⟨schedule, period, hdefines, rfl, rfl, rfl⟩ := Profile.limitAt_eq_some_iff.mp hlimit
    exact ⟨profile, hprofile, hpurpose, schedule, period, hdefines, hconvert⟩

/-- Nothing negative is generated, in the unit asked for. -/
def GenerationNonneg (store : ProfileStore) (profiles : List Profile) (at_ : ℤ)
    (rateUnit : RateUnit) (transactionStart : Option ℤ) : Prop :=
  ∀ profile ∈ profiles, profile.purpose = .localGeneration → ∀ limit,
    profile.HasLimit store.supply rateUnit at_ transactionStart limit → 0 ≤ limit.toRat

/-- **No limit of a generator is negative, and neither is the voltage**: then nothing negative
is generated, in whatever unit. -/
theorem generationNonneg_of_limits (hvoltage : 0 ≤ store.supply.voltage.toRat)
    (hlimits : ∀ profile ∈ profiles, profile.purpose = .localGeneration →
      ∀ schedule ∈ profile.schedules, ∀ period ∈ schedule.periods, 0 ≤ period.limit.toRat) :
    store.GenerationNonneg profiles at_ rateUnit transactionStart := by
  intro profile hmem hpurpose limit ⟨schedule, period, hdefines, hconvert⟩
  have hperiod : 0 ≤ period.limit.mantissa := by
    obtain ⟨-, -, -, -, before, after, hsplit, -⟩ := hdefines.period
    refine Decimal.toRat_nonneg_iff.mp (hlimits profile hmem hpurpose schedule
      (List.mem_of_mem_head? hdefines.first) period ?_)
    rw [hsplit]
    exact List.mem_append_right _ List.mem_cons_self
  refine Decimal.toRat_nonneg_iff.mpr ?_
  rw [Supply.convert] at hconvert
  split at hconvert
  next hsame =>
    obtain rfl := Option.some.inj hconvert
    exact hperiod
  next hother =>
    obtain ⟨phases, hphases, hconvert⟩ := Option.bind_eq_some_iff.mp hconvert
    obtain ⟨factor, hfactor, hconvert⟩ := Option.bind_eq_some_iff.mp hconvert
    have hpos : 0 ≤ phases.mantissa := by
      rw [Decimal.mantissa_of_narrow hphases]
      exact zero_le_one.trans (le_max_right _ _)
    have hfactor' : 0 ≤ factor.mantissa :=
      Decimal.checkedMul_nonneg (Decimal.toRat_nonneg_iff.mp hvoltage) hpos hfactor
    split at hconvert
    · exact Decimal.checkedMul_nonneg hperiod hfactor' hconvert
    · exact Decimal.checkedDiv_nonneg hperiod hfactor' hconvert
    · obtain rfl := Option.some.inj hconvert
      exact hperiod

end ProfileStore

/-- **When generation raises what is allowed**: exactly where none leads or a profile of
another purpose does. -/
theorem generation_raises_iff (store : ProfileStore) (profiles : List Profile) (at_ : ℤ)
    (rateUnit : RateUnit) (transactionStart : Option ℤ)
    (hnonneg : store.GenerationNonneg profiles at_ rateUnit transactionStart) :
    ProfileStore.allowed (store.limitAt (ProfileStore.withoutGeneration profiles) at_ rateUnit
        transactionStart) ≤
      ProfileStore.allowed (store.limitAt profiles at_ rateUnit transactionStart) ↔
    store.leading profiles at_ rateUnit transactionStart .localGeneration = none ∨
      ∃ purpose, purpose ≠ .localGeneration ∧
        store.leading profiles at_ rateUnit transactionStart purpose ≠ none := by
  rw [← ProfileStore.constrained_ne_none_iff, ProfileStore.limitAt_withoutGeneration,
    ProfileStore.limitAt_eq_constrained]
  rcases hleading : store.leading profiles at_ rateUnit transactionStart .localGeneration with
    _ | ⟨generation, phases⟩
  · exact iff_of_true le_rfl (Or.inl rfl)
  · rcases hcurrent : store.constrained profiles at_ rateUnit transactionStart with
      _ | ⟨current, currentPhases⟩
    · -- everything was allowed, and now only what is generated
      refine iff_of_false ?_ (by simp)
      exact not_le.mpr (WithTop.coe_lt_top generation.toRat)
    · refine iff_of_true ?_ (Or.inr (by simp))
      rw [ProfileStore.allowed, ProfileStore.allowed, WithTop.coe_le_coe]
      rcases hsum : current.checkedAdd generation with _ | sum
      · rfl
      · obtain ⟨profile, hmem, hpurpose, hlimit⟩ := ProfileStore.exists_of_leading hleading
        have hpos := hnonneg profile hmem hpurpose generation hlimit
        rw [Option.getD_some, Decimal.toRat_checkedAdd hsum]
        exact le_add_of_nonneg_right hpos

end OcppKit

namespace OcppKit.Reference

/-- **Panels and a transaction profile**: 24 A are allowed where 16 A were. -/
theorem generation_raises_iff_panels :
    ProfileStore.allowed (ProfileStore.limitAt {}
        (ProfileStore.withoutGeneration [panels, sixteenAmperes]) 0 .a none) ≤
      ProfileStore.allowed (ProfileStore.limitAt {} [panels, sixteenAmperes] 0 .a none) := by
  refine (generation_raises_iff {} [panels, sixteenAmperes] 0 .a none
    (ProfileStore.generationNonneg_of_limits (by decide +kernel) (by decide +kernel))).mpr ?_
  exact Or.inr ⟨.txDefaultProfile, by decide, by decide +kernel⟩

/-- **Panels alone**: 8 A are allowed where everything was. -/
theorem generation_lowers : ¬∀ (store : ProfileStore) (profiles : List Profile) (at_ : ℤ)
    (rateUnit : RateUnit) (transactionStart : Option ℤ),
    store.GenerationNonneg profiles at_ rateUnit transactionStart →
    ProfileStore.allowed (store.limitAt (ProfileStore.withoutGeneration profiles) at_ rateUnit
        transactionStart) ≤
      ProfileStore.allowed (store.limitAt profiles at_ rateUnit transactionStart) := by
  intro h
  have hraises := h {} [panels] 0 .a none
    (ProfileStore.generationNonneg_of_limits (by decide +kernel) (by decide +kernel))
  have hwithout : ProfileStore.limitAt {} (ProfileStore.withoutGeneration [panels]) 0 .a none =
      none := by decide +kernel
  have hwith : ProfileStore.limitAt {} [panels] 0 .a none = some (.fromI64 8, none) := by
    decide +kernel
  rw [hwithout, hwith] at hraises
  exact absurd hraises (not_le.mpr (WithTop.coe_lt_top _))

end OcppKit.Reference
