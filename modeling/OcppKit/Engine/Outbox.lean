import OcppKit.Engine.Step
import OcppKit.Library.OutboxStore

/-!
# The engine's outbox

The queue, the outstanding call, the store and the history of an engine, read as
the state of an `Outbox`: `OcppKit.Engine.outbox`. Transaction-related messages are
the ordered ones, `SEND`s are exempt from the slot, and the only call whose answer
is acted on before its outcome is reported is a `BootNotification`.

While an answer is being acted on, its call has left the slot and has no outcome
yet. That is the held message of the outbox, which no field of the engine holds;
`OcppKit.Engine.outbox` takes it as an argument.
-/

namespace OcppKit

theorem toOption_eq_some {ε α : Type} {x : Except ε α} {a : α} :
    x.toOption = some a ↔ x = .ok a := by
  rcases x with ε | b
  · simp [Except.toOption]
  · simp [Except.toOption]

theorem toOption_eq_none {ε α : Type} {x : Except ε α} :
    x.toOption = none ↔ ∃ error, x = .error error := by
  rcases x with ε | b
  · simp [Except.toOption]
  · simp [Except.toOption]

variable [Externals]

/-! ### Messages, verdicts and the policy -/

/-- What a message says, however often it has been sent. -/
structure Message where
  /-- The action. -/
  action : String
  /-- The payload. -/
  payload : RawValue
  /-- `CALL` or `SEND`. -/
  kind : MessageKind
  /-- Whether it is transaction-related. -/
  transactional : Bool
deriving DecidableEq

/-- How a message ended. -/
abbrev Verdict := Except CallFailure Answer

/-- Whether a result is the peer's answer, rather than a failure of the engine's. -/
def isAnswer : Verdict → Bool
  | .ok (.result _) => true
  | .error (.rejected _) => true
  | _ => false

/-- **How the engine treats its messages.** -/
def policy : Outbox.Policy Message Verdict where
  ordered m := m.transactional
  exempt m := m.kind = .send
  early m := m.action = "BootNotification"
  answer := isAnswer
  count n := (n + 1) % 2 ^ 32
  again n := n < u32Max

/-- What a stored message says. -/
def QueuedCall.message (r : QueuedCall) : Message := ⟨r.action, r.payload, r.kind, r.transactional⟩

/-- A message as it is first stored. -/
def Message.queued (m : Message) : QueuedCall :=
  ⟨m.action, m.payload, m.kind, 0, m.transactional⟩

/-- What a queued entry says. -/
def Pending.message (p : Pending) : Message := ⟨p.action, p.payload, p.kind, p.transactional⟩

/-- A queued entry as an item of the outbox. -/
def Pending.item (p : Pending) : Outbox.Item Message := ⟨p.token, p.seq, p.attempts, p.message⟩

/-- What the outstanding call says. -/
def InFlight.message (f : InFlight) : Message := ⟨f.action, f.payload, .call, f.transactional⟩

/-- The outstanding call as an item of the outbox. -/
def InFlight.item (f : InFlight) : Outbox.Item Message := ⟨f.token, f.seq, f.attempts, f.message⟩

/-- The outstanding call as the outbox sees it. -/
def InFlight.flight (f : InFlight) : Outbox.Flight MessageId Message := ⟨f.id, f.item⟩

/-- A stored message as an item of the outbox. -/
def restoredItem (record : Seq × QueuedCall) (token : ℕ) : Outbox.Item Message :=
  ⟨token, some record.1, record.2.attempts, record.2.message⟩

theorem Pending.launched_flight {p : Pending} (h : p.kind = .call) (id : MessageId)
    (deadline : Instant) : (p.launched id deadline).flight = p.item.launch policy id := by
  simp only [InFlight.flight, InFlight.item, InFlight.message, Pending.launched, Pending.item,
    Pending.message, Outbox.Item.launch, policy, h]

theorem InFlight.requeued_item {f : InFlight} (h : f.transactional = true) (at_ : Instant) :
    (f.requeued at_).item = f.item := by
  simp only [InFlight.item, InFlight.message, InFlight.requeued, Pending.item, Pending.message, h]

/-! ### The store -/

section

variable {S : Type} [MessageStore S]

instance : Outbox.RecordStore S Message where
  push s m := ((MessageStore.push s m.queued).1, (MessageStore.push s m.queued).2.toOption)
  ack s q := (MessageStore.ack s q).1
  setAttempts s q n := (MessageStore.setAttempts s q n).1
  records s := (MessageStore.records s).map fun r => (r.1, r.2.message, r.2.attempts)

theorem records_eq_map (s : S) : (Outbox.RecordStore.records s : List (ℕ × Message × ℕ)) =
    (MessageStore.records s).map fun r => (r.1, r.2.message, r.2.attempts) := rfl

instance [LawfulMessageStore S] : Outbox.LawfulRecordStore S Message where
  nodup s := by
    rw [records_eq_map, List.map_map]
    exact LawfulMessageStore.nodup s
  push_some s m q h := by
    have h' := LawfulMessageStore.push_ok s m.queued q (toOption_eq_some.mp h)
    rw [records_eq_map, records_eq_map, Outbox.RecordStore.push]
    exact (congrArg _ h'.1).trans List.map_append
  push_none s m h := by
    obtain ⟨error, he⟩ := toOption_eq_none.mp h
    rw [records_eq_map, records_eq_map, Outbox.RecordStore.push]
    exact congrArg _ (LawfulMessageStore.push_error s m.queued error he)
  ack s q := by
    rw [records_eq_map, records_eq_map, List.filter_map]
    exact congrArg _ (LawfulMessageStore.ack_ok s q).2
  setAttempts s q n := by
    rw [records_eq_map, records_eq_map, List.map_map]
    refine (congrArg _ (LawfulMessageStore.setAttempts_ok s q n).2).trans ?_
    rw [List.map_map]
    refine List.map_congr_left fun r _ => ?_
    simp only [Function.comp_apply, setAttemptsOf]
    split <;> rfl

end

/-! ### The history -/

/-- What an entry of the engine's history means to the outbox. -/
def Event.ev : Event → Option (Outbox.Ev MessageId Message Verdict)
  | .accepted entry => some (.accepted entry.item)
  | .sent id entry => some (.sent id entry.item)
  | .out (.outcome o) => some (.resolved o.token o.result)
  | _ => none

/-- The outbox's history of an engine's. -/
def outboxHistory (log : List Event) : List (Outbox.Ev MessageId Message Verdict) :=
  log.filterMap Event.ev

theorem outboxHistory_append (l l' : List Event) :
    outboxHistory (l ++ l') = outboxHistory l ++ outboxHistory l' :=
  List.filterMap_append

theorem outboxHistory_cons_of_some {event : Event} {x : Outbox.Ev MessageId Message Verdict}
    (h : event.ev = some x) (log : List Event) :
    outboxHistory (event :: log) = x :: outboxHistory log :=
  List.filterMap_cons_some h

theorem outboxHistory_cons_of_none {event : Event} (h : event.ev = none) (log : List Event) :
    outboxHistory (event :: log) = outboxHistory log :=
  List.filterMap_cons_none h

namespace Engine

variable {S : Type}

/-- The message whose answer is being acted on, and the verdict. -/
abbrev Held := Option (Outbox.Item Message × Verdict)

/-- **The engine as an outbox**, while this message is held. -/
def outbox (e : Engine S) (held : Held) :
    Outbox.State MessageId Message Verdict S where
  queue := e.queue.map Pending.item
  slot := e.inflight.map InFlight.flight
  held := held
  next := e.nextToken
  store := e.store
  hist := outboxHistory e.log

end Engine

end OcppKit
