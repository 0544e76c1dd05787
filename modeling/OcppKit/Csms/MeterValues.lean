import OcppKit.Csms.Energy
import OcppKit.Library.Utf8

/-!
# Meter values and their instant

A `MeterValues` request has entries, each with an instant and with what was sampled at it. The
event that is made of it has one instant, the latest of all (`OcppKit.latest`), and one reading of
the energy register, the last that could be made. The two are found apart from each other: where
the register is not in an entry that is as late as any, the event has the reading of one instant
and another for its own. Everywhere else it has both of one entry
(`OcppKit.meterValues_keepInstant_iff`).

The versions differ in what a sample is. In 1.6 it is a text, which may be a signed document
instead of a number; reading that is a matter of JSON, and `OcppKit.SignedDocuments` stands for
it.
-/

namespace OcppKit

/-! ### Requests -/

/-- What was sampled at one instant. -/
structure MeterValue (σ : Type) where
  /-- The instant. -/
  timestamp : DateTime
  /-- The samples. -/
  sampledValue : List σ

/-- Reads the document a 1.6 station puts into a signed sample, or says why it is none. -/
class SignedDocuments where
  /-- The record, or the reason. -/
  fromSignedData : String → Except String SignedMeterValue

namespace V16

/-- A sampled value of 1.6: a text. -/
structure SampledValue where
  /-- The value. -/
  value : String
  /-- The measurand, when it names one. -/
  measurand : Option String
  /-- The unit, when it names one. -/
  unit : Option String
  /-- The context, when it names one. -/
  context : Option String
  /-- The format, when it names one. -/
  format : Option String

/-- A `MeterValues` request of 1.6. -/
structure MeterValuesRequest where
  /-- The connector. -/
  connectorId : ℤ
  /-- The transaction, when the samples belong to one. -/
  transactionId : Option ℤ
  /-- The entries. -/
  meterValue : List (MeterValue SampledValue)

/-- The signed record of a sample that claims to be one. -/
def SampledValue.signedMeterValue [SignedDocuments] (sample : SampledValue) :
    Option (Except String SignedMeterValue) :=
  if sample.format = some "SignedData" then some (SignedDocuments.fromSignedData sample.value)
  else none

/-- A sample as the extraction looks at it. -/
def SampledValue.toSample [SignedDocuments] (sample : SampledValue) : Sample :=
  let signed := sample.signedMeterValue
  -- a signed document is not an unreadable measurement, but none at all
  let measurement :=
    if signed.isNone then some (Decimal.fromAscii (Utf8.encode sample.value)) else none
  { measurand := sample.measurand
    unit := sample.unit
    multiplier := none
    context := sample.context
    value := measurement.bind Except.toOption
    unreadableValue :=
      match measurement with
      | some (.error _) => some sample.value
      | _ => none
    signed }

end V16

namespace V2

/-- A unit of 2.x. -/
structure UnitOfMeasure where
  /-- The unit, when it names one. -/
  unit : Option String
  /-- The power of ten, when it names one. -/
  multiplier : Option ℤ

/-- A sampled value of 2.x: a number. -/
structure SampledValue where
  /-- The value. -/
  value : Decimal
  /-- The measurand, when it names one. -/
  measurand : Option String
  /-- The context, when it names one. -/
  context : Option String
  /-- The unit, when there is one. -/
  unitOfMeasure : Option UnitOfMeasure
  /-- The signed record, when there is one. -/
  signedMeterValue : Option SignedMeterValue

/-- A `MeterValues` request of 2.x. -/
structure MeterValuesRequest where
  /-- The EVSE. -/
  evseId : ℤ
  /-- The entries. -/
  meterValue : List (MeterValue SampledValue)

/-- A sample as the extraction looks at it. -/
def SampledValue.toSample (sample : SampledValue) : Sample where
  measurand := sample.measurand
  unit := sample.unitOfMeasure.bind UnitOfMeasure.unit
  multiplier := sample.unitOfMeasure.bind UnitOfMeasure.multiplier
  context := sample.context
  value := some sample.value
  unreadableValue := none
  signed := sample.signedMeterValue.map Except.ok

end V2

/-! ### The event -/

/-- What is observed of a `MeterValues` request. -/
structure MeterValuesEvent where
  /-- The EVSE, in 2.x. -/
  evseId : Option ℤ
  /-- The connector, in 1.6. -/
  connectorId : Option ℤ
  /-- The transaction, when the samples belong to one. -/
  transactionId : Option String
  /-- How many samples arrived. -/
  samples : ℕ
  /-- The energy register, when one of the samples carried it. -/
  energy : Option EnergyReading
  /-- Every signed meter value, in the order they arrived. -/
  signed : List SignedReading
  /-- The instant of the reading. -/
  timestamp : Option DateTime

/-- The latest of some instants. -/
def latest (instants : List DateTime) : Option DateTime :=
  (instants.map DateTime.nanos).max?.map DateTime.mk

/-- The samples of all entries. -/
def samplesOf {σ : Type} (toSample : σ → Sample) (entries : List (MeterValue σ)) : List Sample :=
  entries.flatMap fun entry => entry.sampledValue.map toSample

/-- **Collects every signed meter value**, and says which do not parse. -/
def signedFromSamples (samples : List Sample) (warnings : List Warning) :
    List SignedReading × List Warning :=
  samples.foldl
    (fun found sample =>
      match sample.signed with
      | some (.ok value) => (found.1 ++ [⟨value, sample.context, sample.measurand⟩], found.2)
      | some (.error reason) => (found.1, found.2 ++ [⟨.unreadableSignedData, reason⟩])
      | none => found)
    ([], warnings)

/-- What the two versions have in common: the readings, and the instant. -/
def observeEntries {σ : Type} (toSample : σ → Sample) (entries : List (MeterValue σ))
    (evseId connectorId : Option ℤ) (transactionId : Option String) :
    MeterValuesEvent × List Warning :=
  let energy := energyFromSamples (samplesOf toSample entries) .last none []
  let signed := signedFromSamples (samplesOf toSample entries) energy.2
  ({ evseId, connectorId, transactionId
     samples := (entries.map fun entry => entry.sampledValue.length).sum
     energy := energy.1
     signed := signed.1
     timestamp := latest (entries.map MeterValue.timestamp) }, signed.2)

/-- **The event of a `MeterValues` request of 1.6.** -/
def V16.MeterValuesRequest.observe [SignedDocuments] (values : V16.MeterValuesRequest) :
    MeterValuesEvent × List Warning :=
  observeEntries V16.SampledValue.toSample values.meterValue none (some values.connectorId)
    (values.transactionId.map toString)

/-- **The event of a `MeterValues` request of 2.x.** -/
def V2.MeterValuesRequest.observe (values : V2.MeterValuesRequest) :
    MeterValuesEvent × List Warning :=
  observeEntries V2.SampledValue.toSample values.meterValue (some values.evseId) none none

/-! ### The entry of a reading -/

section Entries

variable {σ : Type} (toSample : σ → Sample)

/-- The readings that are made of an entry's samples. -/
def MeterValue.readings (entry : MeterValue σ) : List EnergyReading :=
  (entry.sampledValue.map toSample).filterMap Sample.reading

/-- An entry has a usable register. -/
def MeterValue.Usable (entry : MeterValue σ) : Prop := entry.readings toSample ≠ []

/-- The last entry of some that has a usable register. -/
def LastUsable (entries : List (MeterValue σ)) (entry : MeterValue σ) : Prop :=
  ∃ before after, entries = before ++ entry :: after ∧ entry.Usable toSample ∧
    ∀ later ∈ after, ¬later.Usable toSample

/-- **A reading was taken from an entry**: it is the last that is made of its samples, and none
is made of those of later entries. -/
def TakenFrom (entries : List (MeterValue σ)) (entry : MeterValue σ) (reading : EnergyReading) :
    Prop :=
  LastUsable toSample entries entry ∧ (entry.readings toSample).getLast? = some reading

/-- **An event ought to keep the instant of its reading**, and no later entry to have a usable
register. -/
def KeepsInstant (entries : List (MeterValue σ)) (event : MeterValuesEvent) : Prop :=
  ∀ reading, event.energy = some reading → ∃ entry, TakenFrom toSample entries entry reading ∧
    event.timestamp = some entry.timestamp ∧
      ∀ other ∈ entries, other.Usable toSample → other.timestamp.nanos ≤ entry.timestamp.nanos

variable {toSample}

theorem filterMap_samplesOf (entries : List (MeterValue σ)) :
    (samplesOf toSample entries).filterMap Sample.reading =
      entries.flatMap fun entry => entry.readings toSample := by
  rw [samplesOf, List.filterMap_flatMap]
  rfl

/-- Where some entry has a usable register, one is the last. -/
theorem exists_lastUsable {entries : List (MeterValue σ)}
    (h : ∃ entry ∈ entries, entry.Usable toSample) :
    ∃ entry, LastUsable toSample entries entry := by
  classical
  induction entries using List.reverseRecOn with
  | nil =>
      obtain ⟨entry, hentry, -⟩ := h
      exact absurd hentry List.not_mem_nil
  | append_singleton entries entry ih =>
      by_cases husable : entry.Usable toSample
      · exact ⟨entry, entries, [], rfl, husable, fun later hlater => absurd hlater List.not_mem_nil⟩
      · obtain ⟨other, hother, husable'⟩ := h
        have hmem : other ∈ entries := by
          rcases List.mem_append.mp hother with hmem | hmem
          · exact hmem
          · exact absurd (List.mem_singleton.mp hmem ▸ husable') husable
        obtain ⟨last, before, after, rfl, hlast, hafter⟩ := ih ⟨other, hmem, husable'⟩
        refine ⟨last, before, after ++ [entry], by simp, hlast, fun later hlater => ?_⟩
        rcases List.mem_append.mp hlater with hlater | hlater
        · exact hafter later hlater
        · exact List.mem_singleton.mp hlater ▸ husable

/-- Only one is. -/
theorem LastUsable.eq {entries : List (MeterValue σ)} {entry entry' : MeterValue σ}
    (h : LastUsable toSample entries entry) (h' : LastUsable toSample entries entry') :
    entry = entry' := by
  obtain ⟨before, after, hentries, husable, hafter⟩ := h
  obtain ⟨before', after', hentries', husable', hafter'⟩ := h'
  rcases List.append_eq_append_iff.mp (hentries.symm.trans hentries') with
    ⟨between, rfl, hrest⟩ | ⟨between, rfl, hrest⟩
  · rcases between with _ | ⟨first, between⟩
    · exact (List.cons.inj hrest).1
    · obtain ⟨rfl, rfl⟩ := List.cons.inj hrest
      exact absurd husable' (hafter entry' (List.mem_append_right _ List.mem_cons_self))
  · rcases between with _ | ⟨first, between⟩
    · exact (List.cons.inj hrest).1.symm
    · obtain ⟨rfl, rfl⟩ := List.cons.inj hrest
      exact absurd husable (hafter' entry (List.mem_append_right _ List.mem_cons_self))

/-- The reading of an event is the last of all. -/
theorem energy_eq (entries : List (MeterValue σ)) (evseId connectorId : Option ℤ)
    (transactionId : Option String) :
    (observeEntries toSample entries evseId connectorId transactionId).1.energy =
      (entries.flatMap fun entry => entry.readings toSample).getLast? := by
  have hcontext : (samplesOf toSample entries).filter (Sample.inContext none) = [] :=
    List.filter_eq_nil_iff.mpr fun sample _ => by simp [Sample.inContext]
  rw [observeEntries]
  dsimp only
  rw [energyFromSamples_eq, hcontext, ← filterMap_samplesOf]
  rfl

/-- **The reading of an event is the last of the last entry that has one.** -/
theorem energy_of_lastUsable {entries : List (MeterValue σ)} {entry : MeterValue σ}
    (h : LastUsable toSample entries entry) (evseId connectorId : Option ℤ)
    (transactionId : Option String) :
    (observeEntries toSample entries evseId connectorId transactionId).1.energy =
      (entry.readings toSample).getLast? := by
  obtain ⟨before, after, rfl, husable, hafter⟩ := h
  have hnone : (after.flatMap fun entry => entry.readings toSample) = [] :=
    List.flatMap_eq_nil_iff.mpr fun later hlater => not_not.mp (hafter later hlater)
  rw [energy_eq, List.flatMap_append, List.flatMap_cons, hnone, List.append_nil]
  exact List.getLast?_append_of_ne_nil _ husable

theorem latest_eq_some_iff {instants : List DateTime} {instant : DateTime}
    (h : instant ∈ instants) :
    latest instants = some instant ↔ ∀ other ∈ instants, other.nanos ≤ instant.nanos := by
  rw [latest, Option.map_eq_some_iff]
  constructor
  · rintro ⟨nanos, hmax, rfl⟩ other hother
    exact (List.max?_eq_some_iff.mp hmax).2 _ (List.mem_map_of_mem hother)
  · intro hmax
    refine ⟨instant.nanos, List.max?_eq_some_iff.mpr ⟨List.mem_map_of_mem h, ?_⟩, rfl⟩
    intro nanos hnanos
    obtain ⟨other, hother, rfl⟩ := List.mem_map.mp hnanos
    exact hmax other hother

/-- **An event keeps the instant of its reading exactly where the last entry with a usable
register is as late as any.** -/
theorem keepsInstant_iff (entries : List (MeterValue σ)) (evseId connectorId : Option ℤ)
    (transactionId : Option String) :
    KeepsInstant toSample entries
        (observeEntries toSample entries evseId connectorId transactionId).1 ↔
      ∀ entry, LastUsable toSample entries entry →
        ∀ other ∈ entries, other.timestamp.nanos ≤ entry.timestamp.nanos := by
  have hinstant : ∀ entry ∈ entries,
      ((observeEntries toSample entries evseId connectorId transactionId).1.timestamp =
          some entry.timestamp ↔
        ∀ other ∈ entries, other.timestamp.nanos ≤ entry.timestamp.nanos) := by
    intro entry hentry
    refine (latest_eq_some_iff (List.mem_map_of_mem hentry)).trans ?_
    exact List.forall_mem_map
  have hmem : ∀ entry, LastUsable toSample entries entry → entry ∈ entries := by
    rintro entry ⟨before, after, rfl, -⟩
    exact List.mem_append_right _ List.mem_cons_self
  constructor
  · intro h entry hlast
    obtain ⟨-, -, -, husable, -⟩ := id hlast
    have henergy := energy_of_lastUsable hlast evseId connectorId transactionId
    rw [List.getLast?_eq_some_getLast husable] at henergy
    obtain ⟨entry', ⟨hlast', -⟩, htimestamp, -⟩ := h _ henergy
    obtain rfl := hlast.eq hlast'
    exact (hinstant entry (hmem entry hlast)).mp htimestamp
  · intro h reading hreading
    obtain ⟨entry, hlast⟩ : ∃ entry, LastUsable toSample entries entry := by
      refine exists_lastUsable ?_
      by_contra hnone
      rw [energy_eq, List.flatMap_eq_nil_iff.mpr fun entry hentry => not_not.mp fun husable =>
        hnone ⟨entry, hentry, husable⟩] at hreading
      exact absurd hreading (by simp)
    have hlate := h entry hlast
    rw [energy_of_lastUsable hlast] at hreading
    exact ⟨entry, ⟨hlast, hreading⟩, (hinstant entry (hmem entry hlast)).mpr hlate,
      fun other hother _ => hlate other hother⟩

end Entries

/-- **Where the events of `MeterValues` requests keep the instants of their readings**, in 1.6
and in 2.x: where the last entry with a usable register, if there is one, is as late as any. -/
theorem meterValues_keepInstant_iff [SignedDocuments] (values : V16.MeterValuesRequest)
    (values' : V2.MeterValuesRequest) :
    (KeepsInstant V16.SampledValue.toSample values.meterValue values.observe.1 ↔
        ∀ entry, LastUsable V16.SampledValue.toSample values.meterValue entry →
          ∀ other ∈ values.meterValue, other.timestamp.nanos ≤ entry.timestamp.nanos) ∧
      (KeepsInstant V2.SampledValue.toSample values'.meterValue values'.observe.1 ↔
        ∀ entry, LastUsable V2.SampledValue.toSample values'.meterValue entry →
          ∀ other ∈ values'.meterValue, other.timestamp.nanos ≤ entry.timestamp.nanos) :=
  ⟨keepsInstant_iff values.meterValue _ _ _, keepsInstant_iff values'.meterValue _ _ _⟩

end OcppKit

namespace OcppKit.Reference

/-! ### A register, and later a voltage -/

/-- A register of 5 Wh. -/
def fiveWattHours : V2.SampledValue := ⟨Decimal.fromI64 5, none, none, none, none⟩

/-- A voltage. -/
def voltage : V2.SampledValue := ⟨Decimal.fromI64 231, some "Voltage", none, none, none⟩

/-- The register at one instant, and the voltage at the next. -/
def registerThenVoltage : V2.MeterValuesRequest :=
  ⟨1, [⟨⟨0⟩, [fiveWattHours]⟩, ⟨⟨1⟩, [voltage]⟩]⟩

/-- **The register is told of the instant of the voltage.** -/
theorem instant_of_voltage : ¬∀ values : V2.MeterValuesRequest,
    KeepsInstant V2.SampledValue.toSample values.meterValue values.observe.1 := by
  intro h
  have henergy : registerThenVoltage.observe.1.energy = some ⟨Decimal.fromI64 5, none, none⟩ := by
    decide
  obtain ⟨entry, ⟨⟨before, after, hentries, husable, -⟩, -⟩, htimestamp, -⟩ :=
    h registerThenVoltage _ henergy
  have hlatest : registerThenVoltage.observe.1.timestamp = some ⟨1⟩ := by decide
  rw [hlatest] at htimestamp
  have hvoltage : (⟨⟨1⟩, [voltage]⟩ : MeterValue V2.SampledValue).readings
      V2.SampledValue.toSample = [] := by
    decide
  have hmem : entry ∈ registerThenVoltage.meterValue := by
    rw [hentries]
    exact List.mem_append_right _ List.mem_cons_self
  rcases List.mem_cons.mp hmem with rfl | hmem
  · exact absurd htimestamp (by decide)
  · rw [List.mem_singleton.mp hmem] at husable
    exact husable hvoltage

end OcppKit.Reference
