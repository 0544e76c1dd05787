import OcppKit.Basic
import OcppKit.Decimal

/-!
# The transaction ledger

What a CSMS keeps of the transactions its stations report: one record for each station and
transaction, into which the events of the transaction are taken, in whatever order and
however often they come.

A message that has a sequence number goes through `OcppKit.Ledger.ingest`, and is recognised
by it. A 1.6 message has none and goes through `OcppKit.Ledger.ingestUnsequenced`, which
gives it the next one and recognises it by its kind and its time. That counter is a 32-bit
number: past its end the source panics, and the model gives no ledger.

Sequence numbers are integers, sets of them finite sets, and the maps of the source are
functions to optional values.
-/

namespace OcppKit

/-! ### Events -/

/-- The name of a charging station. -/
structure Identity where
  /-- The name as text. -/
  asStr : String
deriving DecidableEq, Repr

/-- A meter reading carrying the meter's own digital signature. -/
structure SignedMeterValue where
  /-- The signed record, as sent. -/
  signedMeterData : String
  /-- How the record is encoded. -/
  encodingMethod : Option String
  /-- The signature algorithm. -/
  signingMethod : Option String
  /-- The key the station claims signed the record. -/
  publicKey : Option String
deriving DecidableEq

/-- A signed meter value, and what the sample that carried it said about it. -/
structure SignedReading where
  /-- The signed record. -/
  value : SignedMeterValue
  /-- The sample's context, when it named one. -/
  context : Option String
  /-- The sample's measurand, when it named one. -/
  measurand : Option String
deriving DecidableEq

/-- Which phase of a transaction an event belongs to. -/
inductive EventKind where
  /-- The transaction began. -/
  | started
  /-- Something changed during the transaction. -/
  | updated
  /-- The transaction finished. -/
  | ended
deriving DecidableEq

/-- A version-neutral transaction event. -/
structure TransactionEvent where
  /-- Which charging station sent it. -/
  identity : Identity
  /-- The transaction id. -/
  transactionId : String
  /-- The EVSE the transaction is at, when the message named one. -/
  evseId : Option ℤ := none
  /-- The connector, when the message named one. -/
  connectorId : Option ℤ := none
  /-- Its position in the transaction. -/
  seqNo : ℤ
  /-- Which phase it belongs to. -/
  kind : EventKind
  /-- When the station says it happened. -/
  timestamp : DateTime
  /-- Whether the station was offline when it happened. -/
  offline : Bool := false
  /-- The energy register, in Wh, if the event carried one. -/
  meterWh : Option Decimal := none
  /-- Every signed meter value the event carried. -/
  signed : List SignedReading := []
  /-- The token that authorized the transaction. -/
  idToken : Option String := none
  /-- Why the transaction stopped. -/
  stoppedReason : Option String := none
deriving DecidableEq

/-- What the ledger files an event under. -/
abbrev Key := Identity × String

/-- The key of an event. -/
def TransactionEvent.key (event : TransactionEvent) : Key := (event.identity, event.transactionId)

/-- What the ledger did with an event. -/
inductive Ingested where
  /-- Recorded. -/
  | applied
  /-- Recorded, but sequence numbers are missing before it. -/
  | appliedWithGap (missing : List ℤ)
  /-- Already recorded. -/
  | duplicate
  /-- Recorded, after the transaction had ended. -/
  | afterEnd
deriving DecidableEq

/-! ### Records -/

/-- One transaction, as the CSMS knows it. -/
structure Record where
  /-- Which charging station. -/
  identity : Identity
  /-- The transaction id. -/
  transactionId : String
  /-- The EVSE, from the first event that named one. -/
  evseId : Option ℤ
  /-- The connector, from the first event that named one. -/
  connectorId : Option ℤ
  /-- When it started. -/
  startedAt : Option DateTime
  /-- When it ended. -/
  endedAt : Option DateTime
  /-- The token that authorized it. -/
  idToken : Option String
  /-- Why it stopped. -/
  stoppedReason : Option String
  /-- The reading the transaction started at. -/
  meterStartWh : Option Decimal
  /-- The reading the transaction ended at. -/
  meterStopWh : Option Decimal
  /-- Every signed meter value the events carried, in arrival order. -/
  signed : List SignedReading
  /-- Whether any event was produced while the station was offline. -/
  hadOfflineEvents : Bool
  /-- The sequence numbers seen. -/
  seen : Finset ℤ
  /-- The kind and time of every event that came without a sequence number. -/
  unsequenced : Finset (EventKind × DateTime)
  /-- The highest sequence number seen, or -1. -/
  highest : ℤ
deriving DecidableEq

namespace Record

/-- The record a transaction begins with. -/
def fresh (identity : Identity) (transactionId : String) : Record where
  identity := identity
  transactionId := transactionId
  evseId := none
  connectorId := none
  startedAt := none
  endedAt := none
  idToken := none
  stoppedReason := none
  meterStartWh := none
  meterStopWh := none
  signed := []
  hadOfflineEvents := false
  seen := ∅
  unsequenced := ∅
  highest := -1

/-- The sequence numbers that have not arrived, below the highest one seen. -/
def missing (record : Record) : List ℤ :=
  ((List.range (record.highest + 1).toNat).map Int.ofNat).filter (· ∉ record.seen)

/-- Whether the transaction is still open. -/
def isOpen (record : Record) : Bool := record.endedAt.isNone

/-- The energy delivered, in Wh, when both a start and a stop reading are known. -/
def energyWh (record : Record) : Option Decimal := do
  (← record.meterStopWh).checkedSub (← record.meterStartWh)

/-- The reading of an event is filed: `started` and `ended` speak for their own end of the
transaction, `updated` for what is left. -/
def fileMeter (record : Record) (event : TransactionEvent) (afterEnd : Bool) : Record :=
  match event.meterWh with
  | none => record
  | some wh =>
      match event.kind with
      | .started => { record with meterStartWh := some wh }
      | .ended => { record with meterStopWh := some wh }
      | .updated =>
          let record := if record.meterStartWh.isNone then
            { record with meterStartWh := some wh } else record
          if !afterEnd then { record with meterStopWh := some wh } else record

/-- The two ends of the transaction are dated. -/
def fileKind (record : Record) (event : TransactionEvent) : Record :=
  match event.kind with
  | .started => { record with startedAt := some event.timestamp }
  | .ended => { record with endedAt := some event.timestamp, stoppedReason := event.stoppedReason }
  | .updated => record

/-- The event is filed, apart from its reading and its time. -/
def fileEvent (record : Record) (event : TransactionEvent) : Record :=
  { record with
    seen := insert event.seqNo record.seen
    highest := max record.highest event.seqNo
    hadOfflineEvents := record.hadOfflineEvents || event.offline
    evseId := if record.evseId.isNone then event.evseId else record.evseId
    connectorId := if record.connectorId.isNone then event.connectorId else record.connectorId
    signed := record.signed ++ event.signed
    idToken := match event.idToken with
      | some token => some (record.idToken.getD token)
      | none => record.idToken }

/-- The whole event is filed. -/
def file (record : Record) (event : TransactionEvent) : Record :=
  ((record.fileEvent event).fileMeter event record.endedAt.isSome).fileKind event

/-- What is answered when an event has been filed. -/
def verdict (record : Record) (afterEnd : Bool) : Ingested :=
  if afterEnd then .afterEnd
  else if record.missing.isEmpty then .applied else .appliedWithGap record.missing

/-- **The energy is exact**: it is the stop reading less the start reading. -/
theorem toRat_energyWh {record : Record} {energy : Decimal} (h : record.energyWh = some energy) :
    ∃ start stop, record.meterStartWh = some start ∧ record.meterStopWh = some stop ∧
      energy.toRat = stop.toRat - start.toRat := by
  obtain ⟨stop, hstop, h⟩ := Option.bind_eq_some_iff.mp h
  obtain ⟨start, hstart, h⟩ := Option.bind_eq_some_iff.mp h
  exact ⟨start, stop, hstart, hstop, Decimal.toRat_checkedSub h⟩

end Record

/-! ### The ledger -/

/-- The ledger. -/
structure Ledger where
  /-- The transactions. -/
  records : Key → Option Record
  /-- The next sequence number to give out, for a transaction that has none of its own. -/
  nextSeq : Key → Option ℤ

namespace Ledger

/-- An empty ledger. -/
def new : Ledger := ⟨fun _ => none, fun _ => none⟩

/-- The record of a transaction, or the one it would begin with. -/
def entry (ledger : Ledger) (event : TransactionEvent) : Record :=
  (ledger.records event.key).getD (.fresh event.identity event.transactionId)

/-- The ledger with this record. -/
def put (ledger : Ledger) (key : Key) (record : Record) : Ledger :=
  { ledger with records := Function.update ledger.records key (some record) }

/-- Records one event, deduplicating on the station, the transaction and the number. -/
def ingest (ledger : Ledger) (event : TransactionEvent) : Ledger × Ingested :=
  let record := ledger.entry event
  if event.seqNo ∈ record.seen then (ledger.put event.key record, .duplicate)
  else
    let filed := record.file event
    (ledger.put event.key filed, filed.verdict record.endedAt.isSome)

/-- The greatest 32-bit number. -/
def i32Max : ℤ := 2 ^ 31 - 1

/-- Whether an event of this kind and time was taken without a number. -/
def hasMark (ledger : Ledger) (key : Key) (mark : EventKind × DateTime) : Bool :=
  (ledger.records key).any fun record => mark ∈ record.unsequenced

/-- The mark of an event is kept in its record. -/
def keepMark (ledger : Ledger) (key : Key) (mark : EventKind × DateTime) : Ledger :=
  match ledger.records key with
  | some record => ledger.put key { record with unsequenced := insert mark record.unsequenced }
  | none => ledger

/-- Records an event for a version that has no sequence number, giving it the next one of the
transaction. Past the last number it panics. -/
def ingestUnsequenced (ledger : Ledger) (event : TransactionEvent) : Option (Ledger × Ingested) :=
  let mark := (event.kind, event.timestamp)
  if ledger.hasMark event.key mark then some (ledger, .duplicate)
  else
    let seq := (ledger.nextSeq event.key).getD 0
    if seq = i32Max then none
    else
      let nextSeq := Function.update ledger.nextSeq event.key (some (seq + 1))
      let ledger := { ledger with nextSeq := nextSeq }
      let (ledger, outcome) := ledger.ingest { event with seqNo := seq }
      some (ledger.keepMark event.key mark, outcome)

/-- Forgets the transactions that ended before `cutoff`. -/
def pruneEndedBefore (ledger : Ledger) (cutoff : DateTime) : Ledger :=
  { ledger with
    records := fun key => (ledger.records key).filter fun record =>
      record.endedAt.all fun ended => cutoff.nanos ≤ ended.nanos }

/-- Looks a transaction up. -/
def transaction (ledger : Ledger) (identity : Identity) (transactionId : String) : Option Record :=
  ledger.records (identity, transactionId)

end Ledger

end OcppKit
