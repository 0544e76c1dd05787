import OcppKit.Basic
import OcppKit.Decimal

/-!
# Charging profiles and the composite schedule

The profiles a CSMS installs at a station limit what an EVSE may draw, each in its own unit
and on its own schedule. What they allow together at one instant is
`OcppKit.ProfileStore.limitAt`: within a purpose the highest stack level that says something
leads, across purposes the lowest limit counts, and local generation comes on top.

`OcppKit.ProfileStore.composite` is the schedule that is reported for a window of time. It
looks at `limitAt` in a set of instants only (`OcppKit.ProfileStore.boundaries`) and merges
what it finds.

Time is in whole seconds, and sums of seconds are taken to fit in 64 bits, phase counts in
32.
-/

namespace OcppKit

/-! ### Profiles -/

/-- The unit a limit is expressed in. -/
inductive RateUnit where
  /-- Watts. -/
  | w
  /-- Amperes, per phase. -/
  | a
deriving DecidableEq

/-- What a profile is for. -/
inductive Purpose where
  /-- The station's own ceiling. -/
  | chargingStationMaxProfile
  /-- The default for any transaction. -/
  | txDefaultProfile
  /-- A profile for one transaction. -/
  | txProfile
  /-- A limit imposed from outside. -/
  | chargingStationExternalConstraints
  /-- Priority charging for one transaction. -/
  | priorityCharging
  /-- Local generation. -/
  | localGeneration
deriving DecidableEq

/-- How a profile's schedule is anchored in time. -/
inductive ProfileKind where
  /-- At an instant. -/
  | absolute
  /-- At an instant, and then again and again. -/
  | recurring
  /-- At the start of the transaction. -/
  | relative
deriving DecidableEq

/-- How often a recurring profile repeats. -/
inductive Recurrency where
  /-- Every 24 hours. -/
  | daily
  /-- Every 7 days. -/
  | weekly
deriving DecidableEq

/-- The seconds from one occurrence to the next. -/
def Recurrency.seconds : Recurrency → ℤ
  | .daily => 86400
  | .weekly => 604800

theorem Recurrency.seconds_pos (recurrency : Recurrency) : 0 < recurrency.seconds := by
  cases recurrency <;> decide

/-- One step of a schedule. -/
structure Period where
  /-- Seconds after the schedule's start at which this step begins. -/
  startPeriod : ℤ
  /-- The limit, in the schedule's unit. -/
  limit : Decimal
  /-- How many phases may be used. -/
  numberPhases : Option ℤ := none
deriving DecidableEq

/-- A profile's schedule. -/
structure Schedule where
  /-- When the schedule starts. -/
  start : Option DateTime := none
  /-- How long it lasts, in seconds. -/
  duration : Option ℤ := none
  /-- The unit the limits are in. -/
  rateUnit : RateUnit
  /-- The steps. -/
  periods : List Period
deriving DecidableEq

/-- The step in effect `offset` seconds after the schedule started. -/
def Schedule.periodAt (schedule : Schedule) (offset : ℤ) : Option Period :=
  if offset < 0 || schedule.duration.any (fun duration => duration ≤ offset) then none
  else schedule.periods.reverse.find? fun period => period.startPeriod ≤ offset

/-- A charging profile, as installed. -/
structure Profile where
  /-- Its id. -/
  id : ℤ
  /-- Higher wins within a purpose. -/
  stackLevel : ℤ
  /-- What it is for. -/
  purpose : Purpose
  /-- How its schedule is anchored. -/
  kind : ProfileKind
  /-- How often it repeats. -/
  recurrency : Option Recurrency := none
  /-- Not in effect before this instant. -/
  validFrom : Option DateTime := none
  /-- Not in effect from this instant on. -/
  validTo : Option DateTime := none
  /-- The transaction it belongs to. -/
  transactionId : Option String := none
  /-- The EVSE it was installed on; 0 is the whole station. -/
  evseId : ℕ := 0
  /-- Its schedules, of which the first counts. -/
  schedules : List Schedule
deriving DecidableEq

/-- Whole seconds since the Unix epoch; what is left is cut off. -/
def epoch (at_ : DateTime) : ℤ := at_.nanos.tdiv 1000000000

namespace Profile

/-- Whether the instant is in the profile's validity window. -/
def validAt (profile : Profile) (at_ : ℤ) : Bool :=
  profile.validFrom.all (fun valid => epoch valid ≤ at_) &&
    profile.validTo.all (fun valid => at_ < epoch valid)

/-- The offset into the schedule, honouring recurrence, or `none` when the profile says
nothing about that instant. -/
def offsetAt (profile : Profile) (at_ : ℤ) (transactionStart : Option ℤ) : Option ℤ := do
  let schedule ← profile.schedules.head?
  match profile.kind with
  | .absolute =>
      let start ← schedule.start.map epoch
      if start ≤ at_ then some (at_ - start) else none
  | .relative =>
      let start ← transactionStart
      if start ≤ at_ then some (at_ - start) else none
  | .recurring =>
      let start ← schedule.start.map epoch
      let period ← profile.recurrency.map Recurrency.seconds
      if at_ < start then none else some ((at_ - start).tmod period)

/-- The limit this profile imposes at an instant, in its own unit. -/
def limitAt (profile : Profile) (at_ : ℤ) (transactionStart : Option ℤ) :
    Option (Decimal × RateUnit × Option ℤ) :=
  if !profile.validAt at_ then none
  else do
    let schedule ← profile.schedules.head?
    let offset ← profile.offsetAt at_ transactionStart
    let period ← schedule.periodAt offset
    some (period.limit, schedule.rateUnit, period.numberPhases)

end Profile

/-! ### Units -/

/-- The supply parameters needed to convert between amperes and watts. -/
structure Supply where
  /-- Nominal line voltage, in volts. -/
  voltage : Decimal
  /-- The number of phases available. -/
  phases : ℤ

/-- 230 V, three phases. -/
def Supply.default : Supply := ⟨.fromI64 230, 3⟩

/-- The scale a limit converted between amperes and watts is rounded to. -/
def conversionScale : ℕ := 3

/-- Converts a limit. A phase count is a 32-bit number, and always fits. -/
def Supply.convert (supply : Supply) (limit : Decimal) (source target : RateUnit)
    (phases : Option ℤ) : Option Decimal :=
  if source = target then some limit
  else do
    let phases ← Decimal.narrow (max (phases.getD supply.phases) 1) 0 Decimal.scale_zero_le
    let factor ← supply.voltage.checkedMul phases
    match source, target with
    | .a, .w => limit.checkedMul factor
    | .w, .a => limit.checkedDiv factor conversionScale
    | _, _ => some limit

/-! ### The store -/

/-- One step of a computed composite schedule. -/
structure CompositePeriod where
  /-- Seconds after the requested start. -/
  startPeriod : ℤ
  /-- The effective limit, or `none` when no profile constrains this stretch. -/
  limit : Option Decimal
  /-- The phase count the winning profile asked for. -/
  numberPhases : Option ℤ
deriving DecidableEq

/-- The answer to `GetCompositeSchedule`. -/
structure CompositeSchedule where
  /-- The EVSE it was computed for. -/
  evseId : ℕ
  /-- When the schedule starts. -/
  start : DateTime
  /-- How long it covers, in seconds. -/
  duration : ℤ
  /-- The unit the limits are in. -/
  rateUnit : RateUnit
  /-- The steps. -/
  periods : List CompositePeriod

/-- Whether two limits are the same number, or both absent. -/
def sameLimit : Option Decimal → Option Decimal → Bool
  | some limit, some limit' => limit.same limit'
  | none, none => true
  | _, _ => false

/-- Whether two consecutive steps say the same thing. -/
def sameStep (previous next : CompositePeriod) : Bool :=
  sameLimit previous.limit next.limit && previous.numberPhases = next.numberPhases

/-- The installed profiles, and the supply they are converted with. -/
structure ProfileStore where
  /-- The profiles. -/
  profiles : List Profile := []
  /-- The supply. -/
  supply : Supply := Supply.default

namespace ProfileStore

/-- `install`: a profile is installed, in place of any with the same id. -/
def install (store : ProfileStore) (profile : Profile) : ProfileStore :=
  { store with
    profiles := (store.profiles.filter fun existing => existing.id ≠ profile.id) ++ [profile] }

/-- Of those with the greatest key, the last. -/
def maxByKey {α : Type} (key : α → ℤ) (l : List α) : Option α :=
  l.foldl (fun best x =>
    match best with
    | some b => if key b ≤ key x then some x else some b
    | none => some x) none

/-- The limit of the leading profile of a purpose: of those that say something about this
instant, the one with the highest stack level. -/
def leading (store : ProfileStore) (profiles : List Profile) (at_ : ℤ) (rateUnit : RateUnit)
    (transactionStart : Option ℤ) (purpose : Purpose) : Option (Decimal × Option ℤ) := do
  let candidates := (profiles.filter fun profile => profile.purpose = purpose).filterMap
    fun profile => (profile.limitAt at_ transactionStart).map fun limit =>
      (profile.stackLevel, limit)
  let (_, limit, unit, phases) ← maxByKey Prod.fst candidates
  let converted ← store.supply.convert limit unit rateUnit phases
  some (converted, phases)

/-- The lower of what stands so far and the limit of one more purpose. -/
def lower (effective : Option (Decimal × Option ℤ)) :
    Option (Decimal × Option ℤ) → Option (Decimal × Option ℤ)
  | some (limit, phases) =>
      match effective with
      | some (current, currentPhases) =>
          if current.le limit then some (current, currentPhases) else some (limit, phases)
      | none => some (limit, phases)
  | none => effective

/-- **The effective limit at one instant**, applying the stacking rules. -/
def limitAt (store : ProfileStore) (profiles : List Profile) (at_ : ℤ) (rateUnit : RateUnit)
    (transactionStart : Option ℤ) : Option (Decimal × Option ℤ) :=
  let leading := store.leading profiles at_ rateUnit transactionStart
  let session := (leading .priorityCharging).orElse fun _ =>
    (leading .txProfile).orElse fun _ => leading .txDefaultProfile
  let effective := lower (lower session (leading .chargingStationMaxProfile))
    (leading .chargingStationExternalConstraints)
  match leading .localGeneration with
  | some (generation, phases) =>
      match effective with
      | some (current, currentPhases) =>
          some ((current.checkedAdd generation).getD current, currentPhases)
      | none => some (generation, phases)
  | none => effective

/-- The occurrences of a recurring schedule that are looked at, at most `left` of them. -/
def occurrences (stop period : ℤ) : ℕ → ℤ → List ℤ
  | 0, _ => []
  | left + 1, at_ => if at_ < stop then at_ :: occurrences stop period left (at_ + period) else []

/-- How many occurrences are looked at, at most. -/
def expansionCap : ℕ := 4096

/-- The instants a schedule of this profile is counted from, in a window. -/
def anchors (profile : Profile) (schedule : Schedule) (start stop : ℤ)
    (transactionStart : Option ℤ) : List ℤ :=
  match profile.kind with
  | .absolute => (schedule.start.map epoch).toList
  | .relative => transactionStart.toList
  | .recurring =>
      match schedule.start.map epoch, profile.recurrency.map Recurrency.seconds with
      | some first, some period =>
          occurrences stop period expansionCap (first + (start - first).ediv period * period)
      | _, _ => []

/-- The instants at which a profile is looked at, before they are cut to the window. -/
def instants (profile : Profile) (start stop : ℤ) (transactionStart : Option ℤ) : List ℤ :=
  (profile.validFrom.map epoch).toList ++ (profile.validTo.map epoch).toList ++
    match profile.schedules.head? with
    | none => []
    | some schedule =>
        (anchors profile schedule start stop transactionStart).flatMap fun anchor =>
          schedule.periods.map (fun step => anchor + step.startPeriod) ++
            (schedule.duration.map fun duration => anchor + duration).toList

/-- The instants of a window at which the composite is computed, in order. -/
def boundaries (profiles : List Profile) (start stop : ℤ) (transactionStart : Option ℤ) :
    List ℤ :=
  let points := profiles.flatMap fun profile =>
    (instants profile start stop transactionStart).filter fun at_ => start ≤ at_ && at_ < stop
  (start :: points).dedup.insertionSort (· ≤ ·)

/-- Whether a profile counts for this EVSE and this transaction. -/
def applies (evseId : ℕ) (transaction : Option (String × DateTime)) (profile : Profile) : Bool :=
  (profile.evseId = 0 || profile.evseId = evseId) &&
    match profile.purpose with
    | .txProfile | .priorityCharging =>
        match profile.transactionId, transaction with
        | some id, some (running, _) => id = running
        | none, some _ => true
        | _, none => false
    | _ => true

/-- The profiles that count. -/
def applicable (store : ProfileStore) (evseId : ℕ) (transaction : Option (String × DateTime)) :
    List Profile :=
  store.profiles.filter (applies evseId transaction)

/-- The step at one instant. -/
def stepAt (store : ProfileStore) (profiles : List Profile) (rateUnit : RateUnit)
    (transactionStart : Option ℤ) (start at_ : ℤ) : CompositePeriod :=
  let effective := store.limitAt profiles at_ rateUnit transactionStart
  ⟨at_ - start, effective.map Prod.fst, effective.bind Prod.snd⟩

/-- The step is taken into the schedule: it is left out if it says the same as the one before,
and a leading gap is not a step. -/
def pushStep (periods : List CompositePeriod) (step : CompositePeriod) : List CompositePeriod :=
  match periods.getLast? with
  | some previous => if sameStep previous step then periods else periods ++ [step]
  | none => if step.limit.isNone then periods else periods ++ [step]

/-- **The composite schedule** of an EVSE for a window of time. -/
def composite (store : ProfileStore) (evseId : ℕ) (source : DateTime) (duration : ℤ)
    (rateUnit : RateUnit) (transaction : Option (String × DateTime)) : CompositeSchedule :=
  let start := epoch source
  let stop := start + max duration 0
  let transactionStart := transaction.map fun t => epoch t.2
  let profiles := store.applicable evseId transaction
  let steps := (boundaries profiles start stop transactionStart).map
    (store.stepAt profiles rateUnit transactionStart start)
  ⟨evseId, source, duration, rateUnit, steps.foldl pushStep []⟩

end ProfileStore

end OcppKit

namespace OcppKit.Reference

/-- The limit of the examples. -/
def sixteen : Decimal := .fromI64 16

end OcppKit.Reference
