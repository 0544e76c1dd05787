import OcppKit.Station.Transactions
import OcppKit.Csms.Arrival
import OcppKit.Library.Transitions

/-!
# The events of a station's transactions

What the transaction machine sends is a stream for each of its transactions: a start under
number zero, events under the numbers that follow, and nothing after the end
(`OcppKit.EventStream`). One transaction runs at a time.

The ledger of a CSMS that is fed with the events in order applies each of them, misses none,
and has an open record for the transaction that is running and for no other. So the two sides
agree on what they count (`OcppKit.eventStream_of_run`), as long as the source of the ids
never repeats one.
-/

namespace OcppKit

/-! ### Streams -/

/-- The kind the event has for the CSMS. -/
def TxEvent.kind : TxEvent → EventKind
  | .started .. => .started
  | .updated .. => .updated
  | .ended .. => .ended

/-- The events of one transaction. -/
def stream (log : List TxEvent) (id : String) : List TxEvent :=
  log.filter fun event => event.transactionId = id

/-- **A well-formed stream**: numbered from zero on, the first event and no other is the start,
and an end is the last. -/
structure EventStream (events : List TxEvent) : Prop where
  /-- They are numbered in order. -/
  numbers : ∀ (i : ℕ) (h : i < events.length), events[i].seqNo = i
  /-- It begins with the start. -/
  started : ∀ (i : ℕ) (h : i < events.length), events[i].kind = .started ↔ i = 0
  /-- Nothing comes after the end. -/
  ended : ∀ (i : ℕ) (h : i < events.length), events[i].kind = .ended → i + 1 = events.length

/-- The transaction has started and has not ended. -/
def Running (log : List TxEvent) (id : String) : Prop :=
  stream log id ≠ [] ∧ ∀ event ∈ stream log id, event.kind ≠ .ended

theorem stream_concat_self {log : List TxEvent} {event : TxEvent} {id : String}
    (h : event.transactionId = id) : stream (log ++ [event]) id = stream log id ++ [event] := by
  rw [stream, List.filter_append, List.filter_singleton]
  simp [h, stream]

theorem stream_concat_of_ne {log : List TxEvent} {event : TxEvent} {id : String}
    (h : event.transactionId ≠ id) : stream (log ++ [event]) id = stream log id := by
  rw [stream, List.filter_append, List.filter_singleton]
  simp [h, stream]

/-- With one more event its transaction has not ended if it had not and the event is no end. -/
theorem running_concat_self {log : List TxEvent} {event : TxEvent} {id : String}
    (h : event.transactionId = id) : Running (log ++ [event]) id ↔
      event.kind ≠ .ended ∧ ∀ e ∈ stream log id, e.kind ≠ .ended := by
  rw [Running, stream_concat_self h, List.forall_mem_append, List.forall_mem_singleton]
  constructor
  · rintro ⟨-, hall, hlast⟩
    exact ⟨hlast, hall⟩
  · rintro ⟨hlast, hall⟩
    exact ⟨by simp, hall, hlast⟩

/-- To the other transactions it does nothing. -/
theorem running_concat_of_ne {log : List TxEvent} {event : TxEvent} {id : String}
    (h : event.transactionId ≠ id) : Running (log ++ [event]) id ↔ Running log id := by
  rw [Running, stream_concat_of_ne h, Running]

namespace EventStream

theorem nil : EventStream [] where
  numbers i h := absurd h (Nat.not_lt_zero i)
  started i h := absurd h (Nat.not_lt_zero i)
  ended i h := absurd h (Nat.not_lt_zero i)

theorem singleton (id trigger : String) (now : DateTime) :
    EventStream [.started id 0 trigger now] where
  numbers i h := by
    obtain rfl : i = 0 := by simpa using h
    rfl
  started i h := by
    obtain rfl : i = 0 := by simpa using h
    exact iff_of_true rfl rfl
  ended i h := by
    obtain rfl : i = 0 := by simpa using h
    exact fun hkind => absurd hkind (by simp [TxEvent.kind])

/-- **A stream that has not ended goes on** with the next number. -/
theorem concat {events : List TxEvent} {event : TxEvent} (h : EventStream events)
    (hne : events ≠ []) (hopen : ∀ e ∈ events, e.kind ≠ .ended)
    (hseq : event.seqNo = events.length) (hkind : event.kind ≠ .started) :
    EventStream (events ++ [event]) := by
  have hpos : 0 < events.length := List.length_pos_iff.mpr hne
  constructor
  · intro i hi
    rw [List.getElem_append]
    split
    next hlt => exact h.numbers i hlt
    next hge =>
      have hlast : i = events.length := by
        rw [List.length_append, List.length_singleton] at hi
        omega
      simp [hlast, hseq]
  · intro i hi
    rw [List.getElem_append]
    split
    next hlt => exact h.started i hlt
    next hge =>
      rw [List.getElem_singleton]
      exact iff_of_false hkind (by omega)
  · intro i hi
    rw [List.getElem_append]
    split
    next hlt => exact fun hended => absurd hended (hopen _ (List.getElem_mem hlt))
    next hge =>
      rw [List.length_append, List.length_singleton] at hi ⊢
      intro _
      omega

/-- What a stream that is not over ends with. -/
theorem of_concat {events : List TxEvent} {event : TxEvent} (h : EventStream (events ++ [event])) :
    event.seqNo = events.length ∧ ∀ e ∈ events, e.kind ≠ .ended := by
  constructor
  · have hlast := h.numbers events.length (by simp)
    simpa using hlast
  · intro e he hended
    obtain ⟨i, hi, rfl⟩ := List.mem_iff_getElem.mp he
    have hi' : i < (events ++ [event]).length := by
      rw [List.length_append]
      omega
    have hlast := h.ended i hi' (by rwa [List.getElem_append_left hi])
    rw [List.length_append, List.length_singleton] at hlast
    omega

/-- The beginning of a stream is one. -/
theorem of_append {events events' : List TxEvent} (h : EventStream (events ++ events')) :
    EventStream events := by
  have hlt : ∀ i, i < events.length → i < (events ++ events').length := by
    intro i hi
    rw [List.length_append]
    omega
  constructor
  · intro i hi
    have hi' := h.numbers i (hlt i hi)
    rwa [List.getElem_append_left hi] at hi'
  · intro i hi
    have hi' := h.started i (hlt i hi)
    rwa [List.getElem_append_left hi] at hi'
  · intro i hi hended
    have hi' := h.ended i (hlt i hi) (by rwa [List.getElem_append_left hi])
    rw [List.length_append] at hi'
    omega

end EventStream

/-! ### What the machine sends -/

namespace TransactionMachine

/-- One call, and what has been sent so far. -/
def step (s : TransactionMachine × List TxEvent) (c : MachineCall) :
    Option (TransactionMachine × List TxEvent) :=
  (s.1.call c).map fun r => (r.1, s.2 ++ r.2)

/-- **What the machine has sent**: streams of transactions whose ids were drawn from the source,
of which the one that is running has not ended. -/
structure Sent (ids : ℕ → String) (machine : TransactionMachine) (log : List TxEvent) : Prop where
  /-- So many ids have been drawn, and no other has been used. -/
  drawn : ∃ k, machine.ids = (fun n => ids (n + k)) ∧ ∀ e ∈ log, ∃ j < k, e.transactionId = ids j
  /-- The streams are well formed. -/
  streams : ∀ id, EventStream (stream log id)
  /-- The transaction that runs is the active one. -/
  running : ∀ id, Running log id ↔ machine.active.map Active.id = some id
  /-- Its next number is the length of its stream. -/
  next : ∀ active, machine.active = some active →
    active.nextSeq = (stream log active.id).length

namespace Sent

variable {ids : ℕ → String} {machine machine' : TransactionMachine} {log : List TxEvent}
  {event : TxEvent} {active : Active}

theorem new (startPoints stopPoints : Finset TxPoint) (ids : ℕ → String) :
    Sent ids (TransactionMachine.new startPoints stopPoints ids) [] where
  drawn := ⟨0, rfl, fun _ he => absurd he List.not_mem_nil⟩
  streams _ := .nil
  running _ := iff_of_false (fun h => h.1 rfl) (by simp [TransactionMachine.new])
  next _ h := absurd h (by simp [TransactionMachine.new])

/-- **A transaction starts**: its id is new, so its stream is the start alone. -/
theorem start (h : Sent ids machine log) (hids : Function.Injective ids)
    (hactive : machine.active = none) (hid : event.transactionId = machine.ids 0)
    (hstream : EventStream [event]) (hkind : event.kind ≠ .ended)
    (hactive' : machine'.active = some ⟨machine.ids 0, 1⟩)
    (hids' : machine'.ids = fun n => machine.ids (n + 1)) :
    Sent ids machine' (log ++ [event]) := by
  obtain ⟨k, hsource, hdrawn⟩ := h.drawn
  have hdraw : machine.ids 0 = ids k := by
    have hzero : machine.ids 0 = ids (0 + k) := congrFun hsource 0
    rw [hzero, Nat.zero_add]
  have hfresh : stream log (machine.ids 0) = [] := by
    refine List.filter_eq_nil_iff.mpr fun e he => ?_
    obtain ⟨j, hj, hold⟩ := hdrawn e he
    rw [decide_eq_true_iff, hold, hdraw]
    exact fun hsame => absurd (hids hsame) (by omega)
  constructor
  · refine ⟨k + 1, ?_, fun e he => ?_⟩
    · rw [hids', hsource]
      exact funext fun n => congrArg ids (by omega)
    · rcases List.mem_append.mp he with he | he
      · obtain ⟨j, hj, hold⟩ := hdrawn e he
        exact ⟨j, by omega, hold⟩
      · rw [List.mem_singleton.mp he]
        exact ⟨k, by omega, hid.trans hdraw⟩
  · intro id
    by_cases hsame : event.transactionId = id
    · rw [stream_concat_self hsame, ← hsame, hid, hfresh]
      exact hstream
    · rw [stream_concat_of_ne hsame]
      exact h.streams id
  · intro id
    rw [hactive', Option.map_some, Option.some_inj, ← hid]
    by_cases hsame : event.transactionId = id
    · refine iff_of_true ((running_concat_self hsame).mpr ⟨hkind, ?_⟩) hsame
      rw [← hsame, hid, hfresh]
      exact fun _ he => absurd he List.not_mem_nil
    · refine iff_of_false (fun hrunning => ?_) hsame
      have hbefore := (h.running id).mp ((running_concat_of_ne hsame).mp hrunning)
      rw [hactive] at hbefore
      exact absurd hbefore (by simp)
  · intro active hnew
    obtain rfl := Option.some.inj (hactive'.symm.trans hnew)
    rw [stream_concat_self hid, hfresh]
    rfl

/-- An event of the transaction that is running goes into its stream. -/
theorem follow (h : Sent ids machine log) (hactive : machine.active = some active)
    (hid : event.transactionId = active.id) (hseq : event.seqNo = active.nextSeq)
    (hkind : event.kind ≠ .started) (hids' : machine'.ids = machine.ids) :
    (∃ k, machine'.ids = (fun n => ids (n + k)) ∧
      ∀ e ∈ log ++ [event], ∃ j < k, e.transactionId = ids j) ∧
    (∀ id, EventStream (stream (log ++ [event]) id)) ∧
    ∀ e ∈ stream log active.id, e.kind ≠ .ended := by
  obtain ⟨k, hsource, hdrawn⟩ := h.drawn
  obtain ⟨hne, hopen⟩ := (h.running active.id).mpr (by rw [hactive, Option.map_some])
  refine ⟨⟨k, hids'.trans hsource, fun e he => ?_⟩, fun id => ?_, hopen⟩
  · rcases List.mem_append.mp he with he | he
    · exact hdrawn e he
    · -- its id is that of the events before it
      obtain ⟨first, hfirst⟩ := List.exists_mem_of_ne_nil _ hne
      obtain ⟨hmem, hsame⟩ := List.mem_filter.mp hfirst
      obtain ⟨j, hj, hold⟩ := hdrawn first hmem
      rw [List.mem_singleton.mp he, hid, ← decide_eq_true_iff.mp hsame]
      exact ⟨j, hj, hold⟩
  · by_cases hsame : event.transactionId = id
    · rw [stream_concat_self hsame, ← hsame, hid]
      exact (h.streams active.id).concat hne hopen (hseq.trans (h.next active hactive)) hkind
    · rw [stream_concat_of_ne hsame]
      exact h.streams id

/-- **The transaction goes on.** -/
theorem goOn (h : Sent ids machine log) (hactive : machine.active = some active)
    (hid : event.transactionId = active.id) (hseq : event.seqNo = active.nextSeq)
    (hkind : event.kind = .updated)
    (hactive' : machine'.active = some { active with nextSeq := active.nextSeq + 1 })
    (hids' : machine'.ids = machine.ids) : Sent ids machine' (log ++ [event]) := by
  obtain ⟨hdrawn, hstreams, hopen⟩ := h.follow hactive hid hseq (by simp [hkind]) hids'
  refine ⟨hdrawn, hstreams, fun id => ?_, fun active' hnew => ?_⟩
  · rw [hactive', Option.map_some, Option.some_inj]
    by_cases hsame : event.transactionId = id
    · refine iff_of_true ((running_concat_self hsame).mpr ⟨by simp [hkind], ?_⟩)
        (hid.symm.trans hsame)
      rw [← hsame, hid]
      exact hopen
    · have hbefore := h.running id
      rw [hactive, Option.map_some, Option.some_inj] at hbefore
      exact (running_concat_of_ne hsame).trans hbefore
  · obtain rfl := Option.some.inj (hactive'.symm.trans hnew)
    rw [stream_concat_self hid, List.length_append, List.length_singleton]
    change active.nextSeq + 1 = _
    rw [h.next active hactive]
    push_cast
    rfl

/-- **The transaction ends.** -/
theorem stop (h : Sent ids machine log) (hactive : machine.active = some active)
    (hid : event.transactionId = active.id) (hseq : event.seqNo = active.nextSeq)
    (hkind : event.kind = .ended) (hactive' : machine'.active = none)
    (hids' : machine'.ids = machine.ids) : Sent ids machine' (log ++ [event]) := by
  obtain ⟨hdrawn, hstreams, -⟩ := h.follow hactive hid hseq (by simp [hkind]) hids'
  refine ⟨hdrawn, hstreams, fun id => ?_, fun active' hnew => ?_⟩
  · refine iff_of_false (fun hrunning => ?_) (by simp [hactive'])
    by_cases hsame : event.transactionId = id
    · exact ((running_concat_self hsame).mp hrunning).1 hkind
    · have hbefore := (h.running id).mp ((running_concat_of_ne hsame).mp hrunning)
      rw [hactive, Option.map_some, Option.some_inj] at hbefore
      exact hsame (hid.trans hbefore)
  · exact absurd (hactive'.symm.trans hnew) (by simp)

/-- **Whatever a call does, it keeps that.** -/
theorem emits (h : Sent ids machine log) (hids : Function.Injective ids)
    {events : List TxEvent} (hemits : machine.Emits events machine') :
    Sent ids machine' (log ++ events) := by
  cases hemits with
  | nothing hactive hids' =>
      rw [List.append_nil]
      obtain ⟨k, hsource, hdrawn⟩ := h.drawn
      refine ⟨⟨k, hids'.trans hsource, hdrawn⟩, h.streams, fun id => ?_, fun active hnew => ?_⟩
      · rw [hactive]
        exact h.running id
      · exact h.next active (hactive ▸ hnew)
  | start hactive hactive' hids' =>
      exact h.start hids hactive rfl (.singleton _ _ _) (by simp [TxEvent.kind]) hactive' hids'
  | goOn hactive hactive' hids' => exact h.goOn hactive rfl rfl rfl hactive' hids'
  | stop hactive hactive' hids' => exact h.stop hactive rfl rfl rfl hactive' hids'

/-- **And so it is after every run.** -/
theorem run (hids : Function.Injective ids) {startPoints stopPoints : Finset TxPoint}
    {calls : List MachineCall}
    (hrun : Transitions.run step (TransactionMachine.new startPoints stopPoints ids, []) calls =
      some (machine, log)) : Sent ids machine log := by
  have hinv := Transitions.run_invariant (fun s => Sent ids s.1 s.2)
    (fun s c s' hs _ hstep => ?_) (Sent.new startPoints stopPoints ids)
    (Transitions.eachStep_true _ _) hrun
  · exact hinv
  · obtain ⟨⟨machine', events⟩, hcall, rfl⟩ := Option.map_eq_some_iff.mp hstep
    exact hs.emits hids (call_emits hcall)

end Sent

end TransactionMachine

/-! ### What the ledger makes of it -/

/-- **The event as the station reports it**: what else the report carries is left open. -/
structure TxEvent.ReportedAs (station : Identity) (event : TxEvent)
    (reported : TransactionEvent) : Prop where
  /-- By this station. -/
  identity : reported.identity = station
  /-- Of this transaction. -/
  transactionId : reported.transactionId = event.transactionId
  /-- Under this number. -/
  seqNo : reported.seqNo = event.seqNo
  /-- As this kind of event. -/
  kind : reported.kind = event.kind
  /-- At this time. -/
  timestamp : reported.timestamp = event.timestamp

namespace Ledger

/-- **The ledger has taken in what was sent**: there is a record for each stream, it has seen
as many numbers, and it is open as long as the stream has not ended. -/
structure Follows (station : Identity) (log : List TxEvent) (ledger : Ledger) : Prop where
  /-- Of other stations there is nothing. -/
  other : ∀ key : Key, key.1 ≠ station → ledger.records key = none
  /-- Of a transaction without events there is nothing. -/
  absent : ∀ id, stream log id = [] → ledger.records (station, id) = none
  /-- Of the others there is a record. -/
  present : ∀ id, stream log id ≠ [] → ∃ record, ledger.records (station, id) = some record ∧
    record.Topped ∧ (∀ n, n ∈ record.seen ↔ 0 ≤ n ∧ n < (stream log id).length) ∧
    (record.isOpen = true ↔ ∀ event ∈ stream log id, event.kind ≠ .ended)

namespace Follows

variable {station : Identity} {log : List TxEvent} {ledger : Ledger} {event : TxEvent}
  {reported : TransactionEvent}

/-- A record belongs to the station and to a stream. -/
theorem of_records (h : Follows station log ledger) {key : Key} {record : Record}
    (hrecord : ledger.records key = some record) :
    key.1 = station ∧ stream log key.2 ≠ [] ∧ record.missing = [] ∧
      (record.isOpen = true ↔ ∀ event ∈ stream log key.2, event.kind ≠ .ended) := by
  have hstation : key.1 = station := by
    by_contra hother
    exact absurd (hrecord.symm.trans (h.other key hother)) (by simp)
  obtain rfl := hstation
  have hne : stream log key.2 ≠ [] := fun hnil =>
    absurd (hrecord.symm.trans (h.absent key.2 hnil)) (by simp)
  obtain ⟨record', hrecord', htopped, hseen, hopen⟩ := h.present key.2 hne
  obtain rfl := Option.some.inj (hrecord.symm.trans hrecord')
  exact ⟨rfl, hne, htopped.missing_eq_nil hseen, hopen⟩

theorem new (station : Identity) : Follows station [] Ledger.new where
  other _ _ := rfl
  absent _ _ := rfl
  present _ h := absurd rfl h

/-- What stands in the ledger for the transaction of an event, or would. -/
theorem entry (h : Follows station log ledger) (hreported : event.ReportedAs station reported) :
    (ledger.entry reported).Topped ∧
    (∀ n, n ∈ (ledger.entry reported).seen ↔
      0 ≤ n ∧ n < (stream log event.transactionId).length) ∧
    ((ledger.entry reported).isOpen = true ↔
      ∀ e ∈ stream log event.transactionId, e.kind ≠ .ended) := by
  have hkey : reported.key = (station, event.transactionId) :=
    Prod.ext hreported.identity hreported.transactionId
  rw [Ledger.entry, hkey]
  by_cases hnil : stream log event.transactionId = []
  · rw [h.absent _ hnil, hnil, Option.getD_none]
    refine ⟨Record.Topped.fresh _ _, fun n => ?_, iff_of_true rfl fun _ he => ?_⟩
    · simp only [Record.fresh, Finset.notMem_empty, List.length_nil, false_iff]
      omega
    · exact absurd he List.not_mem_nil
  · obtain ⟨record, hrecord, hkept⟩ := h.present _ hnil
    rw [hrecord, Option.getD_some]
    exact hkept

/-- **The next event of a stream is applied**, and leaves nothing missing. -/
theorem ingest (h : Follows station log ledger) (hreported : event.ReportedAs station reported)
    (hstream : EventStream (stream (log ++ [event]) event.transactionId)) :
    (ledger.ingest reported).2 = .applied ∧
      Follows station (log ++ [event]) (ledger.ingest reported).1 := by
  rw [stream_concat_self rfl] at hstream
  obtain ⟨hseq, hopen⟩ := hstream.of_concat
  obtain ⟨htopped, hseen, hisOpen⟩ := h.entry hreported
  have hkey : reported.key = (station, event.transactionId) :=
    Prod.ext hreported.identity hreported.transactionId
  have hnumber : reported.seqNo = (stream log event.transactionId).length :=
    hreported.seqNo.trans hseq
  have hnot : reported.seqNo ∉ (ledger.entry reported).seen := by
    rw [hseen, hnumber]
    omega
  -- the record afterwards
  have htopped' := htopped.file reported
  obtain ⟨hinsert, -⟩ := Record.file_frame (ledger.entry reported) reported
  have hseen' : ∀ n, n ∈ ((ledger.entry reported).file reported).seen ↔
      0 ≤ n ∧ n < (stream log event.transactionId ++ [event]).length := by
    intro n
    rw [hinsert, Finset.mem_insert, hseen, hnumber, List.length_append, List.length_singleton]
    push_cast
    omega
  have hended : (ledger.entry reported).endedAt = none :=
    Option.isNone_iff_eq_none.mp (hisOpen.mpr hopen)
  have hopen' : ((ledger.entry reported).file reported).isOpen = true ↔
      ∀ e ∈ stream log event.transactionId ++ [event], e.kind ≠ .ended := by
    rw [Record.isOpen, (Record.file_fields _ _).2.1, hended, hreported.kind,
      List.forall_mem_append, List.forall_mem_singleton]
    split
    next hkind => exact iff_of_false (by simp) fun hall => hall.2 hkind
    next hkind => exact iff_of_true rfl ⟨hopen, hkind⟩
  constructor
  · rw [Ledger.ingest, if_neg hnot]
    change Record.verdict _ (ledger.entry reported).endedAt.isSome = _
    rw [hended, Record.verdict, htopped'.missing_eq_nil hseen']
    rfl
  · rw [ingest_of_not_seen hnot, hkey]
    constructor
    · intro key hother
      rw [records_put, if_neg fun hsame => hother (by rw [hsame])]
      exact h.other key hother
    · intro id hnil
      by_cases hsame : event.transactionId = id
      · rw [stream_concat_self hsame] at hnil
        exact absurd hnil (by simp)
      · rw [stream_concat_of_ne hsame] at hnil
        rw [records_put, if_neg fun hid => hsame (Prod.mk.inj hid).2.symm]
        exact h.absent id hnil
    · intro id hne
      by_cases hsame : event.transactionId = id
      · subst hsame
        rw [stream_concat_self rfl]
        exact ⟨_, records_put_self _ _ _, htopped', hseen', hopen'⟩
      · rw [stream_concat_of_ne hsame] at hne ⊢
        rw [records_put, if_neg fun hid => hsame (Prod.mk.inj hid).2.symm]
        exact h.present id hne

/-- **Fed with the rest of the streams**, the ledger applies each event. -/
theorem ingestAll (h : Follows station log ledger) {rest : List TxEvent}
    {events : List TransactionEvent}
    (hevents : List.Forall₂ (TxEvent.ReportedAs station) rest events)
    (hstreams : ∀ id, EventStream (stream (log ++ rest) id)) :
    (∀ before reported after, events = before ++ reported :: after →
      ((ledger.ingestAll before).ingest reported).2 = .applied) ∧
    Follows station (log ++ rest) (ledger.ingestAll events) := by
  induction hevents generalizing log ledger with
  | nil =>
      rw [List.append_nil]
      exact ⟨fun before _ _ hsplit => absurd hsplit (by simp), h⟩
  | @cons event reported rest events hreported _ ih =>
      have hsplit : log ++ event :: rest = log ++ [event] ++ rest := by simp
      rw [hsplit] at hstreams ⊢
      have hstream : EventStream (stream (log ++ [event]) event.transactionId) := by
        have hall := hstreams event.transactionId
        rw [stream, List.filter_append] at hall
        exact hall.of_append
      obtain ⟨happlied, hnext⟩ := h.ingest hreported hstream
      obtain ⟨hrest, hlast⟩ := ih hnext hstreams
      refine ⟨fun before reported' after heq => ?_, hlast⟩
      rcases before with _ | ⟨first, before⟩
      · obtain ⟨rfl, -⟩ := List.cons.inj heq
        exact happlied
      · obtain ⟨rfl, heq'⟩ := List.cons.inj heq
        exact hrest before reported' after heq'

end Follows

end Ledger

/-- **The events of a run.** If the source of the ids never repeats one, each transaction is
a well-formed stream, and the one that has started and not ended is the one the machine has
active. A ledger that is fed with the events in order applies each, misses none, and has an
open record for that transaction and no other. -/
theorem eventStream_of_run {startPoints stopPoints : Finset TxPoint} {ids : ℕ → String}
    (hids : Function.Injective ids) {calls : List MachineCall} {machine : TransactionMachine}
    {log : List TxEvent}
    (hrun : Transitions.run TransactionMachine.step
      (TransactionMachine.new startPoints stopPoints ids, []) calls = some (machine, log)) :
    (∀ id, EventStream (stream log id)) ∧
    (∀ id, Running log id ↔ machine.active.map Active.id = some id) ∧
    ∀ (station : Identity) (events : List TransactionEvent),
      List.Forall₂ (TxEvent.ReportedAs station) log events →
      (∀ before reported after, events = before ++ reported :: after →
        ((Ledger.new.ingestAll before).ingest reported).2 = .applied) ∧
      (∀ key record, (Ledger.new.ingestAll events).records key = some record →
        record.missing = []) ∧
      ∀ key : Key, (∃ record, (Ledger.new.ingestAll events).records key = some record ∧
          record.isOpen = true) ↔
        key.1 = station ∧ machine.active.map Active.id = some key.2 := by
  have hsent := TransactionMachine.Sent.run hids hrun
  refine ⟨hsent.streams, hsent.running, fun station events hevents => ?_⟩
  obtain ⟨happlied, hfollows⟩ := (Ledger.Follows.new station).ingestAll hevents hsent.streams
  rw [List.nil_append] at hfollows
  refine ⟨happlied, fun key record hrecord => (hfollows.of_records hrecord).2.2.1, fun key => ?_⟩
  rw [← hsent.running key.2]
  constructor
  · rintro ⟨record, hrecord, hopen⟩
    obtain ⟨hstation, hne, -, hiff⟩ := hfollows.of_records hrecord
    exact ⟨hstation, hne, hiff.mp hopen⟩
  · rintro ⟨rfl, hne, hrunning⟩
    obtain ⟨record, hrecord, -, -, hiff⟩ := hfollows.present key.2 hne
    exact ⟨record, hrecord, hiff.mpr hrunning⟩

end OcppKit

namespace OcppKit.Reference

/-! ### A cable and a card -/

/-- The ids of a counter. -/
def counterIds (n : ℕ) : String := String.ofList (List.replicate (n + 1) 'x')

theorem counterIds_injective : Function.Injective counterIds := by
  intro n n' h
  have hlength := congrArg String.length h
  simp only [counterIds, String.length_ofList, List.length_replicate] at hlength
  omega

/-- The cable is plugged in, a card is shown, a meter is read, the card is shown again, and
with the cable still in nothing more happens until a new card is shown. -/
def charging : List MachineCall :=
  let plugged : Conditions := { evConnected := true }
  let authorized : Conditions := { evConnected := true, authorized := true }
  [.observe plugged ⟨0⟩, .observe authorized ⟨1⟩, .update "MeterValuePeriodic" ⟨2⟩,
    .observe plugged ⟨3⟩, .update "MeterValuePeriodic" ⟨4⟩, .observe authorized ⟨5⟩]

/-- The machine with the defaults of 1.6. -/
def defaultMachine : TransactionMachine :=
  .new {.powerPathClosed} {.evConnected, .authorized} counterIds

/-- The first transaction has three events and is over, the second is running. -/
theorem eventStream_of_run_charging : ∃ machine log,
    Transitions.run TransactionMachine.step (defaultMachine, []) charging = some (machine, log) ∧
    log.length = 4 ∧ EventStream (stream log (counterIds 0)) ∧
    Running log (counterIds 1) ∧ ¬Running log (counterIds 0) := by
  have hsome : (Transitions.run TransactionMachine.step (defaultMachine, []) charging).isSome =
      true := by decide +kernel
  have hlog : (Transitions.run TransactionMachine.step (defaultMachine, []) charging).map
      (fun s => (s.2.length, s.1.active.map Active.id)) = some (4, some (counterIds 1)) := by
    decide +kernel
  obtain ⟨⟨machine, log⟩, hrun⟩ := Option.isSome_iff_exists.mp hsome
  obtain ⟨hlength, hactive⟩ : log.length = 4 ∧ machine.active.map Active.id =
      some (counterIds 1) := by
    rw [hrun] at hlog
    exact Prod.mk.inj (Option.some.inj hlog)
  obtain ⟨hstreams, hrunning, -⟩ := eventStream_of_run counterIds_injective hrun
  refine ⟨machine, log, hrun, hlength, hstreams _, (hrunning _).mpr hactive, fun hfirst => ?_⟩
  have hsame := ((hrunning _).mp hfirst).symm.trans hactive
  exact absurd (counterIds_injective (Option.some.inj hsame)) (by decide)

end OcppKit.Reference
