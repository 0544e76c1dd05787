import OcppKit.Engine.Correlation
import OcppKit.Engine.FileRefinement
import OcppKit.Engine.Moves

/-!
# How much is outstanding

A call is accepted while the queue is below its bound, so a queue and the slot together hold at
most one message more than that. They also grow past the check: a call that lost its answer goes
back to the head of the queue. But it comes from the slot, so what is queued and in flight
together does not grow by it (`OcppKit.Engine.outstanding`). Every operation keeps it within the
bound, or where it was (`OcppKit.Engine.Bounded`), and the messages that were restored
from the store are the only ones that may exceed it: `OcppKit.outgoing_bounded`.

A call that is not accepted – because the engine refuses it, or because it is failed at once –
leaves nothing behind (`OcppKit.Engine.callWith_cases`).
-/

namespace OcppKit

variable [Externals]

namespace Engine

variable {S : Type}

/-! ### What is queued and in flight -/

/-- **The number of messages that are queued or in flight.** -/
def outstanding (e : Engine S) : ℕ := e.queue.length + e.inflight.toList.length

/-- **Between the two states the engine stayed within its bound**, or where it was. -/
structure Bounded (e e' : Engine S) : Prop where
  /-- The bound stays. -/
  offline : e'.config.offline = e.config.offline
  /-- There is no more outstanding than before, or no more than the bound allows. -/
  outstanding : e'.outstanding ≤ max e.outstanding (e.config.offline.maxQueued + 1)

/-- What does not grow stays within the bound. -/
theorem bounded_of_le {e e' : Engine S} (hoffline : e'.config.offline = e.config.offline)
    (h : e'.outstanding ≤ e.outstanding) : Bounded e e' :=
  ⟨hoffline, h.trans (le_max_left _ _)⟩

theorem Bounded.refl (e : Engine S) : Bounded e e := bounded_of_le rfl le_rfl

theorem Bounded.trans {e e' e'' : Engine S} (h : Bounded e e') (h' : Bounded e' e'') :
    Bounded e e'' where
  offline := h'.offline.trans h.offline
  outstanding := by
    have hfirst := h.outstanding
    have hlast := h'.outstanding
    rw [h.offline] at hlast
    exact hlast.trans (max_le hfirst (le_max_right _ _))

theorem Aside.offline {e e' : Engine S} (h : Aside e e') :
    e'.config.offline = e.config.offline := by
  obtain ⟨timeout, hconfig⟩ := h.config
  rw [hconfig]

theorem Aside.bounded {e e' : Engine S} (h : Aside e e') : Bounded e e' := by
  refine bounded_of_le h.offline ?_
  rw [outstanding, outstanding, h.queue, h.inflight]

theorem bounded_tick (e : Engine S) (now : Instant) : Bounded e (e.advance now) :=
  bounded_of_le rfl le_rfl

variable [MessageStore S]

/-! ### What sends -/

theorem bounded_sendUnconfirmed (e : Engine S) (index : ℕ) (entry : Pending) :
    Bounded e (e.sendUnconfirmed index entry) := by
  obtain ⟨hqueue, hinflight, hsetting⟩ := sendUnconfirmed_frame e index entry
  refine bounded_of_le (congrArg (fun s : Setting => s.config.offline) hsetting) ?_
  rw [outstanding, outstanding, hqueue, hinflight]
  exact Nat.add_le_add_right (List.eraseIdx_sublist e.queue index).length_le _

theorem bounded_pumpSends (n : ℕ) (e : Engine S) : Bounded e (pumpSends n e) := by
  induction n generalizing e with
  | zero => exact Bounded.refl e
  | succ n ih =>
      rw [pumpSends]
      split
      · exact Bounded.refl e
      split
      · exact Bounded.refl e
      · exact (bounded_sendUnconfirmed e _ _).trans (ih _)

omit [MessageStore S] in
/-- The call that is sent moves from the queue to the free slot. -/
theorem bounded_sendCall {e : Engine S} {xs ys : List Pending} {entry : Pending}
    (hq : e.queue = xs ++ entry :: ys) (hfree : e.inflight = none) :
    Bounded e (e.sendCall xs.length entry) := by
  let e₁ : Engine S := { e with queue := xs ++ ys, ids := fun n => e.ids (n + 1) }
  have htransmit := aside_transmit (e₁.note (.sent (e.ids 0) entry))
    (.call (e.ids 0) entry.action entry.payload)
  simp only [sendCall, nextId, hq, eraseIdx_length]
  refine bounded_of_le htransmit.offline ?_
  change ((e₁.note (.sent (e.ids 0) entry)).transmit _).queue.length + 1 ≤ _
  rw [htransmit.queue, outstanding, hq, hfree]
  change (xs ++ ys).length + 1 ≤ _
  simp only [List.length_append, List.length_cons, Option.toList_none, List.length_nil]
  omega

omit [MessageStore S] in
theorem bounded_pumpCall (e : Engine S) : Bounded e e.pumpCall := by
  rw [pumpCall]
  split
  · exact Bounded.refl e
  next hidle =>
  rcases hnext : e.nextEligible .call with _ | index
  · exact Bounded.refl e
  · obtain ⟨xs, entry, ys, hq, rfl, -, -⟩ := nextEligible_spec hnext
    have hget : e.queue[xs.length]? = some entry := by simp [hq]
    simp only [hget]
    exact bounded_sendCall hq (by simpa using hidle)

theorem bounded_pump (e : Engine S) : Bounded e e.pump := by
  rw [pump]
  split
  · exact (bounded_pumpSends _ e).trans (bounded_pumpCall _)
  · exact Bounded.refl e

/-- The queue is pumped, and the drain is looked at. -/
theorem bounded_pump_checkDrain (e : Engine S) : Bounded e e.pump.checkDrain :=
  (bounded_pump e).trans (aside_checkDrain _).bounded

/-! ### What gives a call up -/

omit [MessageStore S] in
/-- A call leaves the slot. -/
theorem bounded_free (e : Engine S) : Bounded e { e with inflight := none } :=
  bounded_of_le rfl (Nat.add_le_add_left (Nat.zero_le e.inflight.toList.length) e.queue.length)

/-- **A call that lost its answer moves from the slot to the queue**, or leaves. -/
theorem bounded_requeueOrFail {e : Engine S} {f : InFlight} (hf : e.inflight = some f)
    (why : CallFailure) : Bounded e ({ e with inflight := none }.requeueOrFail f why) := by
  have hslot : e.outstanding = e.queue.length + 1 := by rw [outstanding, hf]; rfl
  rw [requeueOrFail]
  split
  · have hstore := aside_storeAttempts { e with inflight := none } f.seq f.attempts
    have hinflight : (({ e with inflight := none } : Engine S).storeAttempts f.seq
        f.attempts).inflight = none := hstore.inflight
    refine bounded_of_le hstore.offline ?_
    change (_ :: (({ e with inflight := none } : Engine S).storeAttempts f.seq
      f.attempts).queue).length + (({ e with inflight := none } : Engine S).storeAttempts f.seq
      f.attempts).inflight.toList.length ≤ _
    rw [hinflight, hstore.queue, hslot, List.length_cons]
    rfl
  · have hack := aside_ackStore { e with inflight := none } f.seq
    refine (bounded_free e).trans (hack.bounded.trans ?_)
    exact bounded_of_le rfl le_rfl

theorem bounded_loseInflight (e : Engine S) : Bounded e e.loseInflight := by
  rw [loseInflight]
  split
  · next f hf => exact bounded_requeueOrFail hf _
  · exact Bounded.refl e

theorem bounded_fireCallTimeout (e : Engine S) : Bounded e e.fireCallTimeout := by
  rw [fireCallTimeout]
  split
  · next f hf =>
    split
    · have hclear : Aside e (e.emit (.clearTimer .callTimeout)) := aside_emit e rfl
      exact hclear.bounded.trans
        (bounded_requeueOrFail (e := e.emit (.clearTimer .callTimeout)) hf _)
    · exact Bounded.refl e
  · exact Bounded.refl e

/-- What does not wait out a disconnection leaves. -/
theorem bounded_failOffline (e : Engine S) :
    Bounded e (failOffline e.queue [] { e with queue := [] }).checkDrain := by
  obtain ⟨left, hleft, h⟩ := failOffline_spec e.queue [] { e with queue := [] }
  have hdrop : Bounded e { e with queue := left } :=
    bounded_of_le rfl (Nat.add_le_add_right hleft.length_le _)
  exact hdrop.trans ((h.trans (aside_checkDrain _)).bounded)

/-! ### What learns from an answer -/

theorem bounded_applyBootInterval (e : Engine S) (state : BootState) (interval : Option Duration)
    (outgoing : Bool) : Bounded e (e.applyBootInterval state interval outgoing) := by
  have hset : Aside e { e with heartbeatInterval := interval.filter (· ≠ 0) } :=
    aside_of_eq rfl rfl rfl rfl rfl rfl rfl
  cases state with
  | idle => exact Bounded.refl e
  | accepted =>
      rcases outgoing with _ | _
      · exact (hset.trans (aside_armHeartbeat _)).bounded.trans (bounded_pump _)
      · exact hset.bounded
  | pending =>
      rcases outgoing with _ | _
      · exact bounded_of_le rfl le_rfl
      · exact Bounded.refl e
  | rejected =>
      rcases outgoing with _ | _
      · exact bounded_of_le rfl le_rfl
      · exact Bounded.refl e

theorem bounded_observeBootAnswer (e : Engine S) (payload : RawValue) (outgoing : Bool) :
    Bounded e (e.observeBootAnswer payload outgoing) := by
  rw [observeBootAnswer]
  split
  · exact Bounded.refl e
  split
  · exact Bounded.refl e
  refine .trans (bounded_of_le ?_ ?_) (bounded_applyBootInterval _ _ _ _)
  · split
    · split <;> rfl
    · rfl
  · split
    · split <;> exact le_rfl
    · exact le_rfl

theorem bounded_observeAnswer (e : Engine S) (action : String) (payload : RawValue) :
    Bounded e (e.observeAnswer action payload) := by
  rw [observeAnswer]
  split
  · exact bounded_observeBootAnswer e payload false
  split
  · split
    · exact (aside_emit e rfl).bounded
    · exact Bounded.refl e
  · exact Bounded.refl e

/-- The answered call leaves the slot. -/
theorem bounded_taken (e : Engine S) (f : InFlight) : Bounded e (e.taken f) :=
  (bounded_free e).trans (aside_taken e f).bounded

theorem bounded_onCallResult (e : Engine S) (id : MessageId) (payload : RawValue) :
    Bounded e (e.onCallResult id payload) := by
  by_cases hid : ∃ f, e.inflight = some f ∧ f.id = id
  · obtain ⟨f, hf, rfl⟩ := hid
    refine (bounded_taken e f).trans ?_
    simp only [onCallResult, takeInflight_of_eq hf]
    exact (bounded_observeAnswer _ f.action payload).trans
      ((aside_emit _ rfl).bounded.trans (bounded_pump_checkDrain _))
  · rw [onCallResult_of_ne fun f hf he => hid ⟨f, hf, he⟩]
    exact (aside_violate e _).bounded

theorem bounded_onCallError (e : Engine S) (id : MessageId) (error : CallErrorRef) :
    Bounded e (e.onCallError id error) := by
  by_cases hid : ∃ f, e.inflight = some f ∧ f.id = id
  · obtain ⟨f, hf, rfl⟩ := hid
    refine (bounded_taken e f).trans ?_
    simp only [onCallError, takeInflight_of_eq hf]
    exact (aside_emit _ rfl).bounded.trans (bounded_pump_checkDrain _)
  · rw [onCallError_of_ne fun f hf he => hid ⟨f, hf, he⟩]
    exact (aside_violate e _).bounded

theorem bounded_onFrame (e : Engine S) (frame : Frame) : Bounded e (e.onFrame frame) := by
  unfold onFrame
  refine (aside_checkId e frame.id).bounded.trans ?_
  generalize (if frame.id.isConforming then e
    else e.violate (.nonConformingMessageId frame.id)) = e₁
  rcases frame with ⟨id, action, payload⟩ | ⟨id, payload⟩ | ⟨id, error⟩ | ⟨id, error⟩ |
    ⟨id, action, payload⟩
  · exact (aside_onCall e₁ id action payload .call).bounded
  · exact bounded_onCallResult e₁ id payload
  · exact bounded_onCallError e₁ id error
  · exact (aside_emit e₁ rfl).bounded
  · exact (aside_onCall e₁ id action payload .send).bounded

theorem bounded_onReceived (e : Engine S) (text : String) : Bounded e (e.onReceived text) := by
  rw [onReceived]
  refine (aside_armHeartbeat e).bounded.trans ?_
  split
  · exact (aside_onMalformed _ _).bounded
  · exact bounded_onFrame _ _

/-! ### What accepts -/

/-- **Nothing is left of a call that is refused**: it is not queued, and the store is as it was or
as a push left it that failed. -/
structure Refuses (e e' : Engine S) : Prop where
  /-- The bound stays. -/
  offline : e'.config.offline = e.config.offline
  /-- The queue stays. -/
  queue : e'.queue = e.queue
  /-- So does the outstanding call. -/
  inflight : e'.inflight = e.inflight
  /-- So does the boot state. -/
  boot : e'.boot = e.boot
  /-- So does what the CSMS asked for. -/
  solicited : e'.solicited = e.solicited
  /-- The store took nothing. -/
  store : e'.store = e.store ∨ ∃ record error,
    (MessageStore.push e.store record).2 = .error error ∧
      e'.store = (MessageStore.push e.store record).1

theorem Refuses.refl (e : Engine S) : Refuses e e := ⟨rfl, rfl, rfl, rfl, rfl, Or.inl rfl⟩

/-- **A call is refused, or joins a queue that has room for it.** -/
theorem callWith_cases (e : Engine S) (now : Instant) (action : String) (payload : RawValue)
    (options : CallOptions) :
    Refuses e (e.callWith now action payload options).2 ∨
      ∃ store s entry, (e.callWith now action payload options).1 = .ok e.nextToken ∧
        e.queue.length < e.config.offline.maxQueued ∧
        (e.callWith now action payload options).2 =
          ({ e.advance now with nextToken := e.nextToken + 1, store := store
                                solicited := s }.enqueue entry) := by
  rw [callWith]
  dsimp only
  split
  · exact Or.inl ⟨rfl, rfl, rfl, rfl, rfl, Or.inl rfl⟩
  split
  · exact Or.inl ⟨rfl, rfl, rfl, rfl, rfl, Or.inl rfl⟩
  next kind _ =>
  split
  · exact Or.inl ⟨rfl, rfl, rfl, rfl, rfl, Or.inl rfl⟩
  split
  · exact Or.inl ⟨rfl, rfl, rfl, rfl, rfl, Or.inl rfl⟩
  split
  · exact Or.inl ⟨rfl, rfl, rfl, rfl, rfl, Or.inl rfl⟩
  split
  · exact Or.inl ⟨rfl, rfl, rfl, rfl, rfl, Or.inl rfl⟩
  next hroom =>
  rcases persistCall_takes (e.advance now).mintToken.2
      (options.persist.getD (Actions.isTransactionRelated (e.advance now).version action))
      ⟨action, payload, kind, 0, Actions.isTransactionRelated (e.advance now).version action⟩
    with ⟨error, hpersist, -, herror⟩ | ⟨seq, store, hpersist, -⟩
  · simp only [hpersist]
    exact Or.inl ⟨rfl, rfl, rfl, rfl, rfl, Or.inr ⟨_, error, herror, rfl⟩⟩
  · simp only [hpersist]
    obtain ⟨s, hs⟩ :=
      rememberSolicited_or { (e.advance now).mintToken.2 with store := store } action payload
    rw [hs]
    exact Or.inr ⟨store, s, _, rfl, not_le.mp hroom, rfl⟩

theorem bounded_callWith (e : Engine S) (now : Instant) (action : String) (payload : RawValue)
    (options : CallOptions) : Bounded e (e.callWith now action payload options).2 := by
  rcases callWith_cases e now action payload options with h | ⟨store, s, entry, -, hroom, heq⟩
  · refine bounded_of_le h.offline ?_
    rw [outstanding, outstanding, h.queue, h.inflight]
  · rw [heq]
    let e₁ : Engine S := { e.advance now with
      nextToken := e.nextToken + 1, store := store, solicited := s, queue := e.queue ++ [entry] }
    have hjoined : Bounded e (e₁.note (.accepted entry)) := by
      refine ⟨rfl, le_max_of_le_right ?_⟩
      change (e.queue ++ [entry]).length + e.inflight.toList.length ≤ _
      have hslot : e.inflight.toList.length ≤ 1 := by cases e.inflight <;> simp
      rw [List.length_append, List.length_singleton]
      omega
    exact hjoined.trans (bounded_pump _)

/-! ### Timers -/

theorem bounded_fireHeartbeat (e : Engine S) : Bounded e e.fireHeartbeat := by
  rw [fireHeartbeat]
  split
  · split
    · have hclear : Bounded e { e with heartbeatAt := none } := bounded_of_le rfl le_rfl
      refine hclear.trans (.trans ?_ (aside_armHeartbeat _).bounded)
      split
      · exact bounded_callWith _ _ "Heartbeat" _ _
      · exact Bounded.refl _
    · exact Bounded.refl e
  · exact Bounded.refl e

omit [MessageStore S] in
theorem bounded_fireBootRetry (e : Engine S) : Bounded e e.fireBootRetry := by
  rw [fireBootRetry]
  split
  · split
    · exact bounded_of_le rfl le_rfl
    · exact Bounded.refl e
  · exact Bounded.refl e

theorem bounded_fireDrain (e : Engine S) : Bounded e e.fireDrain := by
  rw [fireDrain]
  split
  · exact bounded_of_le rfl le_rfl
  · exact bounded_pump_checkDrain e

/-! ### An operation -/

theorem bounded_respond (e : Engine S) (now : Instant) (id : MessageId) (payload : RawValue) :
    Bounded e (e.respond now id payload).2 := by
  rw [respond]
  refine (bounded_tick e now).trans ?_
  generalize e.advance now = e
  rcases takePeerRequest_cases e id with ⟨error, h⟩ | h
  · rw [h]
    exact Bounded.refl e
  · rw [h]
    have hpeer : Bounded e { e with peerInflight := e.peerInflight.erase id } :=
      bounded_of_le rfl le_rfl
    refine hpeer.trans (.trans ?_ (aside_answer _ rfl _).bounded)
    split
    · exact bounded_observeBootAnswer _ payload true
    · exact Bounded.refl _

omit [MessageStore S] in
theorem bounded_respondError (e : Engine S) (now : Instant) (id : MessageId)
    (error : CallError) : Bounded e (e.respondError now id error).2 := by
  rw [respondError]
  refine (bounded_tick e now).trans ?_
  generalize e.advance now = e
  rcases takePeerRequest_cases e id with ⟨error, h⟩ | h
  · rw [h]
    exact Bounded.refl e
  · rw [h]
    have hpeer : Bounded e { e with peerInflight := e.peerInflight.erase id } :=
      bounded_of_le rfl le_rfl
    exact hpeer.trans (aside_answer _ rfl _).bounded

omit [MessageStore S] in
theorem bounded_rejectResult (e : Engine S) (now : Instant) (id : MessageId)
    (error : CallError) : Bounded e (e.rejectResult now id error).2 := by
  rw [rejectResult]
  refine (bounded_tick e now).trans ?_
  split
  · exact (aside_answer _ rfl _).bounded
  · exact Bounded.refl _

omit [MessageStore S] in
theorem bounded_shutdown (e : Engine S) (now deadline : Instant) :
    Bounded e (e.shutdown now deadline) := by
  rw [shutdown]
  refine (bounded_tick e now).trans ?_
  generalize e.advance now = e
  split
  · exact Bounded.refl e
  · have hset : Bounded e { e with draining := some deadline } := bounded_of_le rfl le_rfl
    have htimer := aside_emit ({ e with draining := some deadline } : Engine S)
      (o := .setTimer .drainDeadline deadline) rfl
    exact hset.trans (htimer.trans (aside_checkDrain _)).bounded

theorem bounded_cancel (e : Engine S) (token : CallToken) : Bounded e (e.cancel token).2 := by
  rw [cancel]
  split
  · exact Bounded.refl e
  split
  · exact Bounded.refl e
  next index _ _ entry _ =>
  have hdrop : Bounded e { e with queue := e.queue.eraseIdx index } :=
    bounded_of_le rfl (Nat.add_le_add_right (List.eraseIdx_sublist e.queue index).length_le _)
  exact hdrop.trans
    (aside_abandon _ entry (show CallFailure.cancelled ≠ .retriesExhausted by simp)).bounded

/-- **Every operation stays within the bound.** -/
theorem exec_bounded (e : Engine S) (op : Op) : Bounded e (exec e op) := by
  have hfed : ∀ now input, Bounded e (fed e now input) := fun now input =>
    (bounded_tick e now).trans (aside_fed e now input).bounded
  cases op with
  | handle now input =>
      cases input with
      | connected version =>
          refine (hfed now (.connected version)).trans ?_
          have hup : Bounded (fed e now (.connected version))
              (e.started (.handle now (.connected version))) := bounded_of_le rfl le_rfl
          exact (hup.trans (aside_armHeartbeat _).bounded).trans (bounded_pump _)
      | received text => exact (hfed now (.received text)).trans (bounded_onReceived _ text)
      | disconnected =>
          refine (bounded_tick e now).trans ((aside_hungUp e now).bounded.trans ?_)
          exact (bounded_loseInflight _).trans (bounded_failOffline _)
      | timeout =>
          refine (hfed now .timeout).trans ((bounded_fireCallTimeout _).trans ?_)
          exact (bounded_fireHeartbeat _).trans
            ((bounded_fireBootRetry _).trans (bounded_fireDrain _))
  | callWith now action payload options => exact bounded_callWith e now action payload options
  | respond now id payload => exact bounded_respond e now id payload
  | respondError now id error => exact bounded_respondError e now id error
  | rejectResult now id error => exact bounded_rejectResult e now id error
  | cancel token => exact bounded_cancel e token
  | shutdown now deadline => exact bounded_shutdown e now deadline
  | setCallTimeout timeout => exact bounded_of_le rfl le_rfl
  | setIdGenerator ids => exact bounded_of_le rfl le_rfl
  | pollOutput => exact bounded_of_le rfl le_rfl
  | drain => exact bounded_of_le rfl le_rfl

/-- **So does a run.** -/
theorem run_bounded (e : Engine S) (ops : List Op) : Bounded e (run e ops) := by
  induction ops generalizing e with
  | nil => exact Bounded.refl e
  | cons op ops ih => exact (exec_bounded e op).trans (ih (exec e op))

/-! ### What a load holds -/

/-- An engine starts with what its store holds. -/
theorem outstanding_withStore {config : EngineConfig} {store : S} {ids : ℕ → MessageId}
    {e : Engine S} (h : Engine.withStore config store ids = .ok e) :
    e.outstanding = (MessageStore.records store).length := by
  obtain ⟨records, hpending, rfl⟩ := eq_of_withStore h
  obtain ⟨hinflight, hqueue⟩ := foldl_restore_queue records (fresh config store ids)
  have hlength := congrArg List.length hqueue
  simp only [List.length_map, List.length_append] at hlength
  rw [outstanding, hlength, hinflight, MessageStore.records, hpending]
  exact Nat.zero_add _

/-! ### What fails at once -/

/-- The calls a history fails, in order. -/
def failures (log : List Event) : List CallOutcome :=
  (outcomes log).filter fun o => !o.result.isOk

theorem failures_append (l l' : List Event) : failures (l ++ l') = failures l ++ failures l' := by
  rw [failures, outcomes_append, List.filter_append, failures, failures]

omit [MessageStore S] in
theorem failures_reports {e e' : Engine S} {ts : List String} (h : Reports e e' ts) :
    failures e'.log = failures e.log := by
  obtain ⟨evs, hlog, hquiet, -⟩ := h.log
  rw [hlog, failures_append, failures, failures, outcomes_of_history hquiet]
  exact List.append_nil _

omit [MessageStore S] in
theorem failures_transmit (e : Engine S) (id : MessageId) (entry : Pending) (frame : Frame) :
    failures ((e.note (.sent id entry)).transmit frame).log = failures e.log := by
  rw [failures_reports (reports_transmit _ frame), note, failures_append]
  exact List.append_nil _

theorem failures_sendUnconfirmed (e : Engine S) (index : ℕ) (entry : Pending) :
    failures (e.sendUnconfirmed index entry).log = failures e.log := by
  let e₁ : Engine S := { e with queue := e.queue.eraseIdx index, ids := fun n => e.ids (n + 1) }
  have hsent := failures_transmit e₁ (e.ids 0) entry (.send (e.ids 0) entry.action entry.payload)
  have hack := failures_reports (reports_ackStore ((e₁.note (.sent (e.ids 0) entry)).transmit
    (.send (e.ids 0) entry.action entry.payload)) entry.seq)
  rw [sendUnconfirmed]
  simp only [nextId, emit]
  rw [failures_append]
  refine (List.append_nil _).trans (hack.trans hsent)

omit [MessageStore S] in
theorem failures_sendCall (e : Engine S) (index : ℕ) (entry : Pending) :
    failures (e.sendCall index entry).log = failures e.log := by
  let e₁ : Engine S := { e with queue := e.queue.eraseIdx index, ids := fun n => e.ids (n + 1) }
  rw [sendCall]
  simp only [nextId, emit]
  rw [failures_append]
  exact (List.append_nil _).trans (failures_transmit e₁ (e.ids 0) entry _)

theorem failures_pumpSends (n : ℕ) (e : Engine S) :
    failures (pumpSends n e).log = failures e.log := by
  induction n generalizing e with
  | zero => rfl
  | succ n ih =>
      rw [pumpSends]
      split
      · rfl
      split
      · rfl
      · rw [ih, failures_sendUnconfirmed]

/-- **Sending fails no call.** -/
theorem failures_pump (e : Engine S) : failures e.pump.log = failures e.log := by
  rw [pump]
  split
  · rw [pumpCall]
    split
    · exact failures_pumpSends _ e
    split
    · exact failures_pumpSends _ e
    split
    · exact failures_pumpSends _ e
    · rw [failures_sendCall, failures_pumpSends]
  · rfl

/-- A call that is accepted does not fail at once. -/
theorem failures_enqueue (e : Engine S) (entry : Pending) :
    failures (e.enqueue entry).log = failures e.log := by
  rw [enqueue, failures_pump, note, failures_append]
  exact List.append_nil _

end Engine

/-! ### A store that fails -/

/-- **A store whose failing push keeps what it holds.** -/
class FailSafeStore (S : Type) [MessageStore S] : Prop where
  /-- A failing push changes nothing. -/
  push_error : ∀ (s : S) (entry : QueuedCall) (error : StoreError),
    (MessageStore.push s entry).2 = .error error →
      MessageStore.records (MessageStore.push s entry).1 = MessageStore.records s

instance : FailSafeStore MemStore := ⟨LawfulMessageStore.push_error⟩

/-- The journal keeps what it holds, whatever the disk does. -/
instance [JournalText] : FailSafeStore StoreSession where
  push_error s entry error h := by
    have hends := StoreOp.ends (.push entry) s
    have hon : ((StoreOp.push entry).on s).2 = .error error := by
      change (MessageStore.push s entry).2.map some = _
      rw [h]
      rfl
    change MessageStore.records ((StoreOp.push entry).on s).1 = _
    rw [hon] at hends
    generalize ((StoreOp.push entry).on s).1 = s' at hends
    cases hends with
    | torn hrecord hd => rfl
    | unrewritten hrecord hd hplan hpush hj => exact absurd rfl (hpush entry)
    | detached hrecord hd hplan hpush => exact absurd rfl (hpush entry)

/-! ### What is outstanding -/

open Engine

variable {S : Type} [MessageStore S] [FailSafeStore S]

/-- **What is outstanding is bounded, and what is refused leaves nothing behind.** In every run
what is queued and in flight together stays within the bound, or within what was restored; and
a call that is refused, or failed at once because the queue is full or the link down, leaves the
queue, the slot, the store, the boot state and what the CSMS asked for as they were. -/
theorem outgoing_bounded {config : EngineConfig} {store : S} {ids : ℕ → MessageId}
    {e₀ : Engine S} (h : Engine.withStore config store ids = .ok e₀) (ops : List Op) :
    (run e₀ ops).queue.length + (run e₀ ops).inflight.toList.length ≤
        max (config.offline.maxQueued + 1) (MessageStore.records store).length ∧
    ∀ (now : Instant) (action : String) (payload : RawValue) (options : CallOptions),
      (∃ error, ((run e₀ ops).callWith now action payload options).1 = .error error) ∨
        (∃ token o, ((run e₀ ops).callWith now action payload options).1 = .ok token ∧
          o ∈ outcomes (newEvents (run e₀ ops) (.callWith now action payload options)) ∧
          o.token = token ∧ (o.result = .error .queueFull ∨ o.result = .error .disconnected)) →
      ((run e₀ ops).callWith now action payload options).2.queue = (run e₀ ops).queue ∧
        ((run e₀ ops).callWith now action payload options).2.inflight =
          (run e₀ ops).inflight ∧
        MessageStore.records ((run e₀ ops).callWith now action payload options).2.store =
          MessageStore.records (run e₀ ops).store ∧
        ((run e₀ ops).callWith now action payload options).2.boot = (run e₀ ops).boot ∧
        ((run e₀ ops).callWith now action payload options).2.solicited =
          (run e₀ ops).solicited := by
  constructor
  · have hbounded := run_bounded e₀ ops
    have hoffline : e₀.config.offline = config.offline :=
      congrArg (fun s : Setting => s.config.offline) (setting_withStore h)
    have houtstanding := hbounded.outstanding
    rw [outstanding_withStore h, hoffline, max_comm] at houtstanding
    exact houtstanding
  · generalize run e₀ ops = e
    rintro now action payload options hrefused
    rcases callWith_cases e now action payload options with
      hrefuses | ⟨store', s, entry, hok, -, heq⟩
    · refine ⟨hrefuses.queue, hrefuses.inflight, ?_, hrefuses.boot, hrefuses.solicited⟩
      rcases hrefuses.store with hstore | ⟨record, error, herror, hstore⟩
      · rw [hstore]
      · rw [hstore, FailSafeStore.push_error _ _ _ herror]
    · exfalso
      rcases hrefused with ⟨error, herror⟩ | ⟨token, o, -, ho, -, hresult⟩
      · rw [hok] at herror
        cases herror
      · -- nothing that an accepted call does reports a failure
        have hlog := log_exec e (.callWith now action payload options)
        have hfailures : failures (exec e (.callWith now action payload options)).log =
            failures e.log := by
          change failures (e.callWith now action payload options).2.log = _
          rw [heq, failures_enqueue]
          rfl
        rw [hlog, failures_append] at hfailures
        have hnone : failures (newEvents e (.callWith now action payload options)) = [] :=
          List.append_right_eq_self.mp hfailures
        have hmem : o ∈ failures (newEvents e (.callWith now action payload options)) := by
          refine List.mem_filter.mpr ⟨ho, ?_⟩
          rcases hresult with hresult | hresult <;> rw [hresult] <;> rfl
        rw [hnone] at hmem
        exact absurd hmem List.not_mem_nil

end OcppKit

namespace OcppKit.Reference

/-! ### A run -/

/-- A station that queues two messages. -/
def cramped : EngineConfig :=
  { EngineConfig.new .chargingStation .v2_0_1 with
    offline := { queueAllMessages := false, maxQueued := 2 } }

/-- It starts with an empty store. -/
def crampedStation : Engine MemStore := Engine.fresh cramped MemStore.new (numbered "s")

theorem withStore_cramped :
    Engine.withStore cramped MemStore.new (numbered "s") = .ok crampedStation := rfl

/-- **A heartbeat for which there is no room fails at once**: one call is in flight and two are
queued, and they stay. -/
theorem outgoing_bounded_full :
    (run crampedStation stationRun).queue.map Pending.token = [2, 3] ∧
    (run crampedStation stationRun).inflight.map InFlight.token = some 1 ∧
    ((run crampedStation stationRun).callWith 4 "Heartbeat" .emptyObject {}).2.queue =
      (run crampedStation stationRun).queue ∧
    ((run crampedStation stationRun).callWith 4 "Heartbeat" .emptyObject {}).2.inflight =
      (run crampedStation stationRun).inflight ∧
    (run crampedStation stationRun).queue.length +
      (run crampedStation stationRun).inflight.toList.length ≤ 3 := by
  obtain ⟨hbound, hrefused⟩ := outgoing_bounded withStore_cramped stationRun
  have hat := hrefused 4 "Heartbeat" .emptyObject {}
    (Or.inr ⟨4, ⟨4, none, "Heartbeat", .error .queueFull⟩, by decide +kernel, by decide +kernel,
      rfl, Or.inl rfl⟩)
  exact ⟨by decide +kernel, by decide +kernel, hat.1, hat.2.1, hbound⟩

end OcppKit.Reference
