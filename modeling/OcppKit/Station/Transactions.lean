import OcppKit.Basic
import Mathlib.Data.Finset.Basic

/-!
# The transaction machine of an EVSE

A transaction of 2.x starts and stops with conditions, not with messages: the first of the
start points that begins to hold starts it, the first of the stop points that ceases to hold
ends it. `OcppKit.TransactionMachine.observe` is told what the EVSE observes and compares it
with what it was told before; `OcppKit.TransactionMachine.update` and
`OcppKit.TransactionMachine.abort` are for what the machine does not observe.

Each returns the events that are to be sent. The ids of the transactions come from a source
outside of the machine, here the sequence of the ids it is going to produce. Sequence numbers
are 32-bit numbers: past the last one the source panics, and the model gives no machine.
-/

namespace OcppKit

/-! ### Conditions -/

/-- One condition that can gate the start or the end of a transaction. -/
inductive TxPoint where
  /-- A vehicle is detected in the parking bay. -/
  | parkingBayOccupancy
  /-- The cable is plugged into the vehicle. -/
  | evConnected
  /-- A token has been authorized. -/
  | authorized
  /-- Signed meter data is available. -/
  | dataSigned
  /-- The contactor is closed. -/
  | powerPathClosed
  /-- Energy is being transferred. -/
  | energyTransfer
deriving DecidableEq

/-- The conditions, in the order a set of them is gone through. -/
def TxPoint.all : List TxPoint :=
  [.parkingBayOccupancy, .evConnected, .authorized, .dataSigned, .powerPathClosed,
    .energyTransfer]

/-- What the EVSE currently observes. -/
structure Conditions where
  /-- A vehicle is in the parking bay. -/
  parkingBayOccupied : Bool := false
  /-- The cable is connected to the vehicle. -/
  evConnected : Bool := false
  /-- A token is authorized. -/
  authorized : Bool := false
  /-- Signed meter data is available. -/
  dataSigned : Bool := false
  /-- Energy is flowing. -/
  energyTransfer : Bool := false
deriving DecidableEq

/-- Whether the named condition holds: the power path is closed when a token is authorized and
the cable connected. -/
def Conditions.holds (conditions : Conditions) : TxPoint → Bool
  | .parkingBayOccupancy => conditions.parkingBayOccupied
  | .evConnected => conditions.evConnected
  | .authorized => conditions.authorized
  | .dataSigned => conditions.dataSigned
  | .powerPathClosed => conditions.authorized && conditions.evConnected
  | .energyTransfer => conditions.energyTransfer

/-! ### Events -/

/-- What the machine wants sent. -/
inductive TxEvent where
  /-- The transaction began. -/
  | started (transactionId : String) (seqNo : ℤ) (trigger : String) (timestamp : DateTime)
  /-- Something changed. -/
  | updated (transactionId : String) (seqNo : ℤ) (trigger : String) (timestamp : DateTime)
  /-- The transaction finished. -/
  | ended (transactionId : String) (seqNo : ℤ) (trigger stoppedReason : String)
      (timestamp : DateTime)
deriving DecidableEq

namespace TxEvent

/-- The sequence number the event carries. -/
def seqNo : TxEvent → ℤ
  | started _ seqNo _ _ | updated _ seqNo _ _ | ended _ seqNo _ _ _ => seqNo

/-- The transaction it belongs to. -/
def transactionId : TxEvent → String
  | started id _ _ _ | updated id _ _ _ | ended id _ _ _ _ => id

/-- When it happened. -/
def timestamp : TxEvent → DateTime
  | started _ _ _ timestamp | updated _ _ _ timestamp | ended _ _ _ _ timestamp => timestamp

end TxEvent

/-- The trigger reason that best explains a change of conditions. -/
def triggerFor (before after : Conditions) : String :=
  if before.authorized ≠ after.authorized then
    if after.authorized then "Authorized" else "Deauthorized"
  else if before.evConnected ≠ after.evConnected then
    if after.evConnected then "CablePluggedIn" else "EVCommunicationLost"
  else if before.parkingBayOccupied ≠ after.parkingBayOccupied then
    if after.parkingBayOccupied then "EVDetected" else "EVDeparted"
  else if before.dataSigned ≠ after.dataSigned && after.dataSigned then "SignedDataReceived"
  else if before.energyTransfer ≠ after.energyTransfer then "ChargingStateChanged"
  else "Trigger"

/-- The reason implied by the stop point that ceased to hold. -/
def stoppedReason (point : TxPoint) (before after : Conditions) : String :=
  match point with
  | .evConnected | .parkingBayOccupancy => "EVDisconnected"
  | .authorized => "DeAuthorized"
  | .powerPathClosed =>
      if before.evConnected && !after.evConnected then "EVDisconnected" else "DeAuthorized"
  | .energyTransfer => "StoppedByEV"
  | .dataSigned => "Other"

/-! ### The machine -/

/-- The transaction that is running. -/
structure Active where
  /-- Its id. -/
  id : String
  /-- The number of its next event. -/
  nextSeq : ℤ
deriving DecidableEq

/-- The number of the next event has been given out. Past the last one it panics. -/
def Active.bump (active : Active) : Option Active :=
  if active.nextSeq = 2 ^ 31 - 1 then none
  else some { active with nextSeq := active.nextSeq + 1 }

/-- Tracks one EVSE's transaction. -/
structure TransactionMachine where
  /-- What starts a transaction. -/
  startPoints : Finset TxPoint
  /-- What ends it. -/
  stopPoints : Finset TxPoint
  /-- The ids the source is going to produce, in order. -/
  ids : ℕ → String
  /-- What was observed last. -/
  conditions : Conditions
  /-- The transaction that is running. -/
  active : Option Active

namespace TransactionMachine

/-- A machine with these start and stop points. -/
def new (startPoints stopPoints : Finset TxPoint) (ids : ℕ → String) : TransactionMachine :=
  ⟨startPoints, stopPoints, ids, {}, none⟩

/-- The first of the points, in their order, that meets a condition. -/
def find (points : Finset TxPoint) (p : TxPoint → Bool) : Option TxPoint :=
  (TxPoint.all.filter (· ∈ points)).find? p

/-- **Reports what the EVSE now observes**, and returns the events that follow. -/
def observe (machine : TransactionMachine) (conditions : Conditions) (now : DateTime) :
    Option (TransactionMachine × List TxEvent) :=
  let previous := machine.conditions
  let machine := { machine with conditions := conditions }
  match machine.active with
  | none =>
      match find machine.startPoints fun p => !previous.holds p && conditions.holds p with
      | some _ =>
          let id := machine.ids 0
          let machine := { machine with ids := fun n => machine.ids (n + 1) }
          some ({ machine with active := some ⟨id, 1⟩ },
            [.started id 0 (triggerFor previous conditions) now])
      | none => some (machine, [])
  | some active =>
      match find machine.stopPoints fun p => previous.holds p && !conditions.holds p with
      | some point =>
          some ({ machine with active := none },
            [.ended active.id active.nextSeq (triggerFor previous conditions)
              (stoppedReason point previous conditions) now])
      | none =>
          if previous ≠ conditions then do
            let bumped ← active.bump
            some ({ machine with active := some bumped },
              [.updated active.id active.nextSeq (triggerFor previous conditions) now])
          else some (machine, [])

/-- An event for something the machine does not track itself, if a transaction is running. -/
def update (machine : TransactionMachine) (trigger : String) (now : DateTime) :
    Option (TransactionMachine × Option TxEvent) :=
  match machine.active with
  | none => some (machine, none)
  | some active => do
      let bumped ← active.bump
      some ({ machine with active := some bumped },
        some (.updated active.id active.nextSeq trigger now))

/-- Ends the transaction that is running, for a reason outside the stop points. -/
def abort (machine : TransactionMachine) (stoppedReason : String) (now : DateTime) :
    TransactionMachine × Option TxEvent :=
  match machine.active with
  | none => (machine, none)
  | some active =>
      ({ machine with active := none },
        some (.ended active.id active.nextSeq "AbnormalCondition" stoppedReason now))

end TransactionMachine

/-! ### Runs -/

/-- What is done with a machine. -/
inductive MachineCall where
  /-- Conditions are reported. -/
  | observe (conditions : Conditions) (now : DateTime)
  /-- Something else is reported. -/
  | update (trigger : String) (now : DateTime)
  /-- The transaction is ended. -/
  | abort (stoppedReason : String) (now : DateTime)
deriving DecidableEq

namespace TransactionMachine

/-- One call, and the events it returns. -/
def call (machine : TransactionMachine) : MachineCall → Option (TransactionMachine × List TxEvent)
  | .observe conditions now => machine.observe conditions now
  | .update trigger now => (machine.update trigger now).map fun r => (r.1, r.2.toList)
  | .abort reason now => some ((machine.abort reason now).1, (machine.abort reason now).2.toList)

/-- **What a call does**: nothing is sent, or a transaction starts, or the one that is running
goes on or ends. -/
inductive Emits (machine : TransactionMachine) : List TxEvent → TransactionMachine → Prop
  /-- Nothing is sent. -/
  | nothing {machine' : TransactionMachine} : machine'.active = machine.active →
      machine'.ids = machine.ids → Emits machine [] machine'
  /-- A transaction starts, under an id of the source. -/
  | start {machine' : TransactionMachine} {trigger : String} {now : DateTime} :
      machine.active = none → machine'.active = some ⟨machine.ids 0, 1⟩ →
      (machine'.ids = fun n => machine.ids (n + 1)) →
      Emits machine [.started (machine.ids 0) 0 trigger now] machine'
  /-- The one that is running goes on. -/
  | goOn {machine' : TransactionMachine} {active : Active} {trigger : String} {now : DateTime} :
      machine.active = some active →
      machine'.active = some { active with nextSeq := active.nextSeq + 1 } →
      machine'.ids = machine.ids →
      Emits machine [.updated active.id active.nextSeq trigger now] machine'
  /-- The one that is running ends. -/
  | stop {machine' : TransactionMachine} {active : Active} {trigger reason : String}
      {now : DateTime} : machine.active = some active → machine'.active = none →
      machine'.ids = machine.ids →
      Emits machine [.ended active.id active.nextSeq trigger reason now] machine'

theorem bump_eq {active bumped : Active} (h : active.bump = some bumped) :
    bumped = { active with nextSeq := active.nextSeq + 1 } := by
  rw [Active.bump] at h
  split at h
  · exact absurd h (by simp)
  · exact (Option.some.inj h).symm

theorem observe_emits {machine machine' : TransactionMachine} {conditions : Conditions}
    {now : DateTime} {events : List TxEvent}
    (h : machine.observe conditions now = some (machine', events)) :
    machine.Emits events machine' := by
  rw [observe] at h
  dsimp only at h
  split at h
  next hactive =>
    split at h
    · obtain ⟨rfl, rfl⟩ := Prod.mk.inj (Option.some.inj h)
      exact .start hactive rfl rfl
    · obtain ⟨rfl, rfl⟩ := Prod.mk.inj (Option.some.inj h)
      exact .nothing rfl rfl
  next active hactive =>
    split at h
    · obtain ⟨rfl, rfl⟩ := Prod.mk.inj (Option.some.inj h)
      exact .stop hactive rfl rfl
    · split at h
      · obtain ⟨bumped, hbump, h⟩ := Option.bind_eq_some_iff.mp h
        obtain ⟨rfl, rfl⟩ := Prod.mk.inj (Option.some.inj h)
        exact .goOn hactive (congrArg some (bump_eq hbump)) rfl
      · obtain ⟨rfl, rfl⟩ := Prod.mk.inj (Option.some.inj h)
        exact .nothing rfl rfl

/-- **The three calls do nothing else.** -/
theorem call_emits {machine machine' : TransactionMachine} {c : MachineCall}
    {events : List TxEvent} (h : machine.call c = some (machine', events)) :
    machine.Emits events machine' := by
  cases c with
  | observe conditions now => exact observe_emits h
  | update trigger now =>
      obtain ⟨⟨updated, event⟩, hupdate, hpair⟩ := Option.map_eq_some_iff.mp h
      obtain ⟨rfl, rfl⟩ := Prod.mk.inj hpair
      rw [update] at hupdate
      split at hupdate
      next hactive =>
        obtain ⟨rfl, rfl⟩ := Prod.mk.inj (Option.some.inj hupdate)
        exact .nothing rfl rfl
      next active hactive =>
        obtain ⟨bumped, hbump, hupdate⟩ := Option.bind_eq_some_iff.mp hupdate
        obtain ⟨rfl, rfl⟩ := Prod.mk.inj (Option.some.inj hupdate)
        exact .goOn hactive (congrArg some (bump_eq hbump)) rfl
  | abort reason now =>
      obtain ⟨rfl, rfl⟩ := Prod.mk.inj (Option.some.inj h)
      rw [abort]
      split
      next hactive => exact .nothing rfl rfl
      next active hactive => exact .stop hactive rfl rfl

end TransactionMachine

end OcppKit
