import OcppKit.Csms.Ledger
import OcppKit.Decimal.Shift
import OcppKit.Decimal.Text

/-!
# The energy register

What a station reports of its meter are sampled values of many kinds, and an event is about one
of them: `OcppKit.energyFromSamples` goes through them once, converts every register it can to
watt-hours, and keeps two of them, the best of all and the best of the context that is
preferred. What it does with one sample depends on that sample alone
(`OcppKit.Sample.reading`, `OcppKit.Sample.complaint`), so the whole is a choice from a list
(`OcppKit.energyFromSamples_eq`).

Two exact moves of the point make the conversion: by the multiplier of the sample, and from its
unit. Both have to be representable, although only the product ought to be, and the first
refuses some zeros: `OcppKit.energyFromSamples_faithful_iff` is where the register that is found
is the one that ought to be.
-/

namespace OcppKit

/-! ### Samples, readings, warnings -/

/-- Which kind of thing a warning is about. -/
inductive WarningKind where
  /-- A signed record that does not parse. -/
  | unreadableSignedData
  /-- An energy register that is no number. -/
  | unreadableReading
  /-- An energy register in a unit that is no unit of energy. -/
  | unknownEnergyUnit
  /-- An energy register that no decimal is in watt-hours. -/
  | unrepresentableReading
deriving DecidableEq

/-- Something a station sent that could not be carried across. -/
structure Warning where
  /-- What went wrong. -/
  kind : WarningKind
  /-- What the station sent. -/
  detail : String
deriving DecidableEq

/-- One reading of the energy register. -/
structure EnergyReading where
  /-- The register, in watt-hours. -/
  wh : Decimal
  /-- The sample's context, when it named one. -/
  context : Option String
  /-- The signed form of this reading, when the sample carried one. -/
  signed : Option SignedMeterValue
deriving DecidableEq

/-- One sampled value, reduced to what the extraction looks at. -/
structure Sample where
  /-- The measurand, when it names one. -/
  measurand : Option String
  /-- The unit, when it names one. -/
  unit : Option String
  /-- The power of ten the value is multiplied by, when it names one. -/
  multiplier : Option ℤ
  /-- The context, when it names one. -/
  context : Option String
  /-- The value, when it is a number. -/
  value : Option Decimal
  /-- The text of a measurement that is no number. -/
  unreadableValue : Option String
  /-- The signed record, or why it does not parse. -/
  signed : Option (Except String SignedMeterValue)

/-- Which of several matching samples to take. -/
inductive Prefer where
  /-- The first. -/
  | first
  /-- The last. -/
  | last
deriving DecidableEq

/-- The measurand of an energy register, and the one that is assumed. -/
def energyRegister : String := "Energy.Active.Import.Register"

/-- Two texts are the same but for the case of ASCII letters. -/
def eqIgnoreAsciiCase (text text' : String) : Bool :=
  text.toList.map Char.toLower = text'.toList.map Char.toLower

/-- **How many powers of ten separate a unit from watt-hours**, if it is one of energy. -/
def unitExponent : Option String → Option ℤ
  | none => some 0
  | some unit =>
      if eqIgnoreAsciiCase unit "wh" then some 0
      else if eqIgnoreAsciiCase unit "kwh" then some 3
      else if eqIgnoreAsciiCase unit "mwh" then some 6
      else none

/-- A decimal as text. -/
def Decimal.display (d : Decimal) : String :=
  String.ofList (d.toText.map fun b => Char.ofNat b.toNat)

/-! ### The extraction -/

/-- Puts what was found where the best is kept: it stays unless the last is wanted. -/
def Prefer.put {α : Type} (prefer : Prefer) (slot : Option α) (found : α) : Option α :=
  if slot.isNone || prefer = .last then some found else slot

/-- What the extraction keeps on its way. -/
structure Extraction where
  /-- The best of all. -/
  best : Option EnergyReading
  /-- The best of the context that is preferred. -/
  bestInContext : Option EnergyReading
  /-- What had to be said. -/
  warnings : List Warning

/-- One more warning. -/
def Extraction.warn (state : Extraction) (kind : WarningKind) (detail : String) : Extraction :=
  { state with warnings := state.warnings ++ [⟨kind, detail⟩] }

/-- The sample is of the context that is preferred. -/
def Sample.inContext (preferredContext : Option String) (sample : Sample) : Bool :=
  preferredContext.any fun wanted => sample.context = some wanted

/-- One sample. -/
def Extraction.step (prefer : Prefer) (preferredContext : Option String) (state : Extraction)
    (sample : Sample) : Extraction :=
  if sample.measurand.getD energyRegister ≠ energyRegister then state
  else
    match sample.value with
    | none =>
      match sample.unreadableValue with
      | some text => state.warn .unreadableReading text
      | none => state
    | some value =>
      match unitExponent sample.unit with
      | none => state.warn .unknownEnergyUnit (sample.unit.getD "")
      | some exponent =>
        -- the multiplier first, then the unit
        match (value.checkedPow10 (sample.multiplier.getD 0)).bind
            fun scaled => scaled.checkedPow10 exponent with
        | none => state.warn .unrepresentableReading
            (value.display ++ " with multiplier " ++ toString (sample.multiplier.getD 0))
        | some wh =>
          let reading : EnergyReading := ⟨wh, sample.context, sample.signed.bind Except.toOption⟩
          { state with
            best := prefer.put state.best reading
            bestInContext :=
              if sample.inContext preferredContext then prefer.put state.bestInContext reading
              else state.bestInContext }

/-- **Extracts the energy register**, in watt-hours, and says what could not be carried. -/
def energyFromSamples (samples : List Sample) (prefer : Prefer) (preferredContext : Option String)
    (warnings : List Warning) : Option EnergyReading × List Warning :=
  let state := samples.foldl (Extraction.step prefer preferredContext) ⟨none, none, warnings⟩
  (state.bestInContext.or state.best, state.warnings)

/-! ### One sample -/

namespace Sample

/-- The sample is one of the energy register. -/
def IsRegister (sample : Sample) : Prop := sample.measurand.getD energyRegister = energyRegister

instance (sample : Sample) : Decidable sample.IsRegister :=
  inferInstanceAs (Decidable (_ = _))

/-- A value in watt-hours, as it is converted. -/
def converted (sample : Sample) (value : Decimal) (exponent : ℤ) : Option Decimal :=
  (value.checkedPow10 (sample.multiplier.getD 0)).bind fun scaled => scaled.checkedPow10 exponent

/-- The reading that is made of a sample, if one is. -/
def reading (sample : Sample) : Option EnergyReading :=
  if sample.IsRegister then
    sample.value.bind fun value => (unitExponent sample.unit).bind fun exponent =>
      (sample.converted value exponent).map fun wh =>
        ⟨wh, sample.context, sample.signed.bind Except.toOption⟩
  else none

/-- What is said of a register that is no reading, given what makes it none. -/
def remark (sample : Sample) (representable : Decimal → ℤ → Bool) : Option Warning :=
  if sample.IsRegister then
    match sample.value with
    | none => sample.unreadableValue.map (Warning.mk .unreadableReading)
    | some value =>
      match unitExponent sample.unit with
      | none => some ⟨.unknownEnergyUnit, sample.unit.getD ""⟩
      | some exponent =>
        if representable value exponent then none
        else some ⟨.unrepresentableReading,
          value.display ++ " with multiplier " ++ toString (sample.multiplier.getD 0)⟩
  else none

/-- What is said of a sample. -/
def complaint (sample : Sample) : Option Warning :=
  sample.remark fun value exponent => (sample.converted value exponent).isSome

end Sample

/-- **One sample is kept, or said something of, or neither.** -/
theorem Extraction.step_eq (prefer : Prefer) (preferredContext : Option String)
    (state : Extraction) (sample : Sample) :
    (state.step prefer preferredContext sample).best =
        (sample.reading.elim state.best fun reading => prefer.put state.best reading) ∧
      (state.step prefer preferredContext sample).bestInContext =
        (if sample.inContext preferredContext then
          sample.reading.elim state.bestInContext fun reading =>
            prefer.put state.bestInContext reading
        else state.bestInContext) ∧
      (state.step prefer preferredContext sample).warnings =
        state.warnings ++ sample.complaint.toList := by
  rw [Extraction.step, Sample.reading, Sample.complaint, Sample.remark]
  by_cases hregister : sample.IsRegister
  swap
  · have hne : sample.measurand.getD energyRegister ≠ energyRegister := hregister
    rw [if_pos hne, if_neg hregister, if_neg hregister]
    exact ⟨rfl, by simp, by simp⟩
  have heq : ¬sample.measurand.getD energyRegister ≠ energyRegister := not_not.mpr hregister
  rw [if_neg heq, if_pos hregister, if_pos hregister]
  rcases hvalue : sample.value with _ | value
  · rcases hunreadable : sample.unreadableValue with _ | text
    · simp
    · simp [Extraction.warn]
  rcases hunit : unitExponent sample.unit with _ | exponent
  · simp [Extraction.warn]
  have hbind : (value.checkedPow10 (sample.multiplier.getD 0)).bind
      (fun scaled => scaled.checkedPow10 exponent) = sample.converted value exponent := rfl
  simp only [hbind]
  rcases hconverted : sample.converted value exponent with _ | wh
  · simp [Extraction.warn, hconverted]
  · simp [hconverted]

theorem Extraction.ext_of_eq {state state' : Extraction} (hbest : state.best = state'.best)
    (hcontext : state.bestInContext = state'.bestInContext)
    (hwarnings : state.warnings = state'.warnings) : state = state' := by
  cases state
  cases state'
  subst hbest hcontext hwarnings
  rfl

/-! ### A choice from a list -/

/-- The first of a list, or the last. -/
def Prefer.pick {α : Type} : Prefer → List α → Option α
  | .first, l => l.head?
  | .last, l => l.getLast?

theorem Prefer.pick_concat {α : Type} (prefer : Prefer) (l : List α) (a : α) :
    prefer.pick (l ++ [a]) = prefer.put (prefer.pick l) a := by
  cases prefer with
  | first => cases l <;> rfl
  | last =>
      rw [Prefer.pick, List.getLast?_concat, Prefer.put]
      exact (if_pos (by simp)).symm

/-- **The extraction picks a reading from the list of those in the preferred context, or of
all, and says what it says in order.** -/
theorem energyFromSamples_eq (samples : List Sample) (prefer : Prefer)
    (preferredContext : Option String) (warnings : List Warning) :
    energyFromSamples samples prefer preferredContext warnings =
      ((prefer.pick
          ((samples.filter (Sample.inContext preferredContext)).filterMap Sample.reading)).or
        (prefer.pick (samples.filterMap Sample.reading)),
      warnings ++ samples.filterMap Sample.complaint) := by
  have hstate : samples.foldl (Extraction.step prefer preferredContext) ⟨none, none, warnings⟩ =
      ⟨prefer.pick (samples.filterMap Sample.reading),
        prefer.pick ((samples.filter (Sample.inContext preferredContext)).filterMap Sample.reading),
        warnings ++ samples.filterMap Sample.complaint⟩ := by
    induction samples using List.reverseRecOn with
    | nil => cases prefer <;> simp [Prefer.pick]
    | append_singleton samples sample ih =>
        obtain ⟨hbest, hcontext, hwarnings⟩ := Extraction.step_eq prefer preferredContext
          ⟨prefer.pick (samples.filterMap Sample.reading),
            prefer.pick
              ((samples.filter (Sample.inContext preferredContext)).filterMap Sample.reading),
            warnings ++ samples.filterMap Sample.complaint⟩ sample
        rw [List.foldl_append, ih, List.foldl_cons, List.foldl_nil]
        refine Extraction.ext_of_eq ?_ ?_ ?_
        · rw [hbest, List.filterMap_append]
          rcases hreading : sample.reading with _ | reading
          · simp [hreading]
          · simp [hreading, Prefer.pick_concat]
        · rw [hcontext, List.filter_append, List.filterMap_append]
          by_cases hin : sample.inContext preferredContext
          · rcases hreading : sample.reading with _ | reading
            · simp [hin, hreading]
            · simp [hin, hreading, Prefer.pick_concat]
          · simp [hin]
        · rw [hwarnings, List.filterMap_append, List.append_assoc]
          rcases hcomplaint : sample.complaint with _ | warning <;> simp [hcomplaint]
  rw [energyFromSamples, hstate]

/-! ### What ought to be found -/

/-- A reading as the number it stands for. -/
def EnergyReading.exact (reading : EnergyReading) :
    ℚ × Option String × Option SignedMeterValue :=
  (reading.wh.toRat, reading.context, reading.signed)

/-- The first of a list of readings, or the last, is so as a number too. -/
theorem Prefer.map_pick {α β : Type} (prefer : Prefer) (f : α → β) (l : List α) :
    (prefer.pick l).map f = prefer.pick (l.map f) := by
  cases prefer with
  | first => exact List.head?_map.symm
  | last => exact List.getLast?_map.symm

theorem unitExponent_nonneg {unit : Option String} {exponent : ℤ}
    (h : unitExponent unit = some exponent) : 0 ≤ exponent := by
  rcases unit with _ | unit
  · obtain rfl := Option.some.inj h
    exact le_rfl
  · rw [unitExponent] at h
    split_ifs at h <;> obtain rfl := Option.some.inj h <;> norm_num

namespace Sample

/-- A value in watt-hours, as a number. -/
def wattHours (sample : Sample) (value : Decimal) (exponent : ℤ) : ℚ :=
  value.toRat * 10 ^ (sample.multiplier.getD 0 + exponent)

open Classical in
/-- **The reading that ought to be made of a sample**: one is, of every register in a unit of
energy that some decimal is in watt-hours. -/
noncomputable def exactReading (sample : Sample) :
    Option (ℚ × Option String × Option SignedMeterValue) :=
  if sample.IsRegister then
    sample.value.bind fun value => (unitExponent sample.unit).bind fun exponent =>
      if Decimal.Representable (sample.wattHours value exponent) then
        some (sample.wattHours value exponent, sample.context,
          sample.signed.bind Except.toOption)
      else none
  else none

open Classical in
/-- What ought to be said of a sample. -/
noncomputable def exactComplaint (sample : Sample) : Option Warning :=
  sample.remark fun value exponent =>
    decide (Decimal.Representable (sample.wattHours value exponent))

/-- **The first move of the point does not stand in the way of the second**: a register that
some decimal is in watt-hours is one after the multiplier already, and is no zero that is lost
on the way. -/
def Shiftable (sample : Sample) : Prop :=
  sample.IsRegister → ∀ value exponent, sample.value = some value →
    unitExponent sample.unit = some exponent →
    Decimal.Representable (sample.wattHours value exponent) →
    Decimal.Representable (value.toRat * 10 ^ sample.multiplier.getD 0) ∧
      ¬value.LostZero (sample.multiplier.getD 0)

/-- What is converted is exact. -/
theorem toRat_of_converted {sample : Sample} {value wh : Decimal} {exponent : ℤ}
    (h : sample.converted value exponent = some wh) :
    wh.toRat = sample.wattHours value exponent := by
  obtain ⟨scaled, hscaled, hwh⟩ := Option.bind_eq_some_iff.mp h
  rw [Decimal.toRat_of_checkedPow10 hwh, Decimal.toRat_of_checkedPow10 hscaled, wattHours,
    zpow_add₀ (by norm_num), mul_assoc]

/-- A value is converted when there are decimals at both of the moves. -/
theorem converted_isSome_iff {sample : Sample} (value : Decimal) {exponent : ℤ}
    (hexponent : 0 ≤ exponent) : (sample.converted value exponent).isSome ↔
      Decimal.Representable (sample.wattHours value exponent) ∧
        Decimal.Representable (value.toRat * 10 ^ sample.multiplier.getD 0) ∧
        ¬value.LostZero (sample.multiplier.getD 0) := by
  rw [← Decimal.checkedPow10_isSome_iff, converted]
  rcases hscaled : value.checkedPow10 (sample.multiplier.getD 0) with _ | scaled
  · simp
  · have hscale := scaled.scale_le
    have hlost : ¬scaled.LostZero exponent := by
      rintro ⟨-, -, hfar⟩
      omega
    have hnumber : scaled.toRat * 10 ^ exponent = sample.wattHours value exponent := by
      rw [Decimal.toRat_of_checkedPow10 hscaled, wattHours, zpow_add₀ (by norm_num), mul_assoc]
    rw [Option.bind_some, Decimal.checkedPow10_isSome_iff, hnumber]
    simp [hlost]

/-- **Nothing ought to be said but what is said.** -/
theorem exactComplaint_eq (sample : Sample) :
    sample.exactComplaint = none ∨ sample.exactComplaint = sample.complaint := by
  classical
  rw [exactComplaint, complaint, remark, remark]
  by_cases hregister : sample.IsRegister
  swap
  · rw [if_neg hregister]
    exact Or.inl rfl
  rw [if_pos hregister, if_pos hregister]
  rcases sample.value with _ | value
  · exact Or.inr rfl
  rcases hunit : unitExponent sample.unit with _ | exponent
  · exact Or.inr rfl
  dsimp only
  by_cases hexact : Decimal.Representable (sample.wattHours value exponent)
  · exact Or.inl (if_pos (decide_eq_true hexact))
  · refine Or.inr ?_
    rw [if_neg (by simpa using hexact), if_neg]
    rw [converted_isSome_iff value (unitExponent_nonneg hunit)]
    exact fun h => hexact h.1

/-- **What is said is what ought to be said, where the moves do not stand in each other's
way.** -/
theorem complaint_eq_iff (sample : Sample) :
    sample.complaint = sample.exactComplaint ↔ sample.Shiftable := by
  classical
  rw [exactComplaint, complaint, remark, remark, Shiftable]
  by_cases hregister : sample.IsRegister
  swap
  · rw [if_neg hregister, if_neg hregister]
    exact iff_of_true rfl fun h => absurd h hregister
  rw [if_pos hregister, if_pos hregister]
  rcases hvalue : sample.value with _ | value
  · exact iff_of_true rfl fun _ _ _ h => absurd h (by simp)
  rcases hunit : unitExponent sample.unit with _ | exponent
  · exact iff_of_true rfl fun _ _ _ _ h => absurd h (by simp)
  have hsome := @converted_isSome_iff sample value _ (unitExponent_nonneg hunit)
  dsimp only
  constructor
  · rintro h - value' exponent' hvalue' hunit' hexact
    obtain rfl := Option.some.inj hvalue'
    obtain rfl := Option.some.inj hunit'
    rw [if_pos (decide_eq_true hexact)] at h
    by_contra hlost
    rw [if_neg fun hconverted => hlost (hsome.mp hconverted).2] at h
    exact absurd h (by simp)
  · intro h
    by_cases hexact : Decimal.Representable (sample.wattHours value exponent)
    · rw [if_pos (hsome.mpr ⟨hexact, h hregister value exponent rfl rfl hexact⟩),
        if_pos (decide_eq_true hexact)]
    · rw [if_neg fun hconverted => hexact (hsome.mp hconverted).1,
        if_neg (by simpa using hexact)]

/-- There too, what is read is what ought to be read. -/
theorem reading_exact {sample : Sample} (h : sample.Shiftable) :
    sample.reading.map EnergyReading.exact = sample.exactReading := by
  classical
  rw [reading, exactReading]
  by_cases hregister : sample.IsRegister
  swap
  · rw [if_neg hregister, if_neg hregister]
    rfl
  rw [if_pos hregister, if_pos hregister]
  rcases hvalue : sample.value with _ | value
  · rfl
  rcases hunit : unitExponent sample.unit with _ | exponent
  · rfl
  have hsome := @converted_isSome_iff sample value _ (unitExponent_nonneg hunit)
  simp only [Option.bind_some]
  by_cases hexact : Decimal.Representable (sample.wattHours value exponent)
  · obtain ⟨wh, hwh⟩ := Option.isSome_iff_exists.mp
      (hsome.mpr ⟨hexact, h hregister value exponent hvalue hunit hexact⟩)
    rw [if_pos hexact, hwh, Option.map_some, Option.map_some, EnergyReading.exact,
      toRat_of_converted hwh]
  · have hnone : sample.converted value exponent = none :=
      Option.not_isSome_iff_eq_none.mp fun hconverted => hexact (hsome.mp hconverted).1
    rw [if_neg hexact, hnone]
    rfl

end Sample

/-! ### Where it is found -/

/-- A list with parts left out is the whole list only when nothing was left out. -/
theorem eq_of_filterMap_eq {α β : Type} {f g : α → Option β} {l : List α}
    (hpart : ∀ a ∈ l, g a = none ∨ g a = f a) (h : l.filterMap f = l.filterMap g) :
    ∀ a ∈ l, f a = g a := by
  have hlength : ∀ l : List α, (∀ a ∈ l, g a = none ∨ g a = f a) →
      (l.filterMap g).length ≤ (l.filterMap f).length := by
    intro l hl
    induction l with
    | nil => exact le_rfl
    | cons a l ih =>
        have htail := ih fun b hb => hl b (List.mem_cons_of_mem a hb)
        rcases hl a List.mem_cons_self with hnone | hsame
        · rw [List.filterMap_cons_none hnone]
          refine htail.trans ?_
          rw [List.filterMap_cons]
          split <;> simp
        · rw [List.filterMap_cons, List.filterMap_cons, hsame]
          split <;> simpa using htail
  induction l with
  | nil => exact fun a ha => absurd ha List.not_mem_nil
  | cons a l ih =>
      have htail := fun b hb => hpart b (List.mem_cons_of_mem a hb)
      rw [List.forall_mem_cons]
      rcases hf : f a with _ | b
      · have hg : g a = none := by
          rcases hpart a List.mem_cons_self with hnone | hsame
          · exact hnone
          · rw [hsame, hf]
        rw [List.filterMap_cons_none hf, List.filterMap_cons_none hg] at h
        exact ⟨hg.symm, ih htail h⟩
      · rcases hpart a List.mem_cons_self with hnone | hsame
        · rw [List.filterMap_cons_some hf, List.filterMap_cons_none hnone] at h
          have := hlength l htail
          rw [← h, List.length_cons] at this
          omega
        · rw [List.filterMap_cons_some hf, List.filterMap_cons_some (hsame.trans hf)] at h
          exact ⟨(hsame.trans hf).symm, ih htail (List.cons.inj h).2⟩

/-- The register that ought to be found: the one that is preferred, of those in the preferred
context if there are any, and of all otherwise. -/
noncomputable def exactRegister (samples : List Sample) (prefer : Prefer)
    (preferredContext : Option String) : Option (ℚ × Option String × Option SignedMeterValue) :=
  (prefer.pick
      ((samples.filter (Sample.inContext preferredContext)).filterMap Sample.exactReading)).or
    (prefer.pick (samples.filterMap Sample.exactReading))

/-- The extraction finds the register it ought to, and says what it ought to, in order. -/
def ExtractedExactly (samples : List Sample) (prefer : Prefer) (preferredContext : Option String) :
    Prop :=
  ∀ warnings,
    (energyFromSamples samples prefer preferredContext warnings).1.map EnergyReading.exact =
        exactRegister samples prefer preferredContext ∧
      (energyFromSamples samples prefer preferredContext warnings).2 =
        warnings ++ samples.filterMap Sample.exactComplaint

/-- **The register is extracted exactly, and nothing is dropped in silence or complained of
without reason, where no multiplier makes a number of a register that no decimal is, for its
unit to make one of it that some decimal is.** -/
theorem extractedExactly_iff (samples : List Sample) (prefer : Prefer)
    (preferredContext : Option String) :
    ExtractedExactly samples prefer preferredContext ↔ ∀ sample ∈ samples, sample.Shiftable := by
  constructor
  · intro h sample hsample
    have hwarnings := (h []).2
    rw [energyFromSamples_eq] at hwarnings
    rw [← Sample.complaint_eq_iff]
    exact eq_of_filterMap_eq (fun a _ => a.exactComplaint_eq) hwarnings sample hsample
  · intro h warnings
    have hreading : ∀ l : List Sample, (∀ sample ∈ l, sample.Shiftable) →
        (l.filterMap Sample.reading).map EnergyReading.exact =
          l.filterMap Sample.exactReading := by
      intro l hl
      rw [List.map_filterMap]
      exact List.filterMap_congr fun sample hsample => Sample.reading_exact (hl sample hsample)
    rw [energyFromSamples_eq]
    refine ⟨?_, ?_⟩
    · rw [Option.map_or, Prefer.map_pick, Prefer.map_pick, exactRegister, hreading samples h,
        hreading _ fun sample hsample => h sample (List.mem_of_mem_filter hsample)]
    · refine congrArg (warnings ++ ·) (List.filterMap_congr fun sample hsample => ?_)
      exact sample.complaint_eq_iff.mpr (h sample hsample)

end OcppKit

namespace OcppKit.Reference

/-! ### A register between the two moves -/

/-- A register of `10 ^ (-19)` kilowatt-hours. -/
def smallRegister : Sample where
  measurand := none
  unit := some "kWh"
  multiplier := some (-19)
  context := none
  value := some (Decimal.fromI64 1)
  unreadableValue := none
  signed := none

theorem smallRegister_representable :
    Decimal.Representable (smallRegister.wattHours (Decimal.fromI64 1) 3) := by
  refine ⟨⟨1, 16, by decide, by decide⟩, ?_⟩
  rw [Sample.wattHours, Decimal.toRat, Decimal.toRat]
  norm_num [smallRegister, Decimal.fromI64]

/-- **A register of `10 ^ (-16)` watt-hours is complained of**, since no decimal is its
`10 ^ (-19)`. -/
theorem smallRegister_refused :
    ¬∀ (samples : List Sample) (prefer : Prefer) (preferredContext : Option String),
      ExtractedExactly samples prefer preferredContext := by
  classical
  intro h
  have hwarnings := (h [smallRegister] .last none []).2
  have hexact : smallRegister.exactComplaint = none :=
    if_pos (decide_eq_true smallRegister_representable)
  rw [List.filterMap_cons_none hexact] at hwarnings
  have hsaid : (energyFromSamples [smallRegister] .last none []).2.length = 1 := by decide
  rw [hwarnings] at hsaid
  exact absurd hsaid (by decide)

end OcppKit.Reference
