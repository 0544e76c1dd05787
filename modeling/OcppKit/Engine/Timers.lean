import OcppKit.Engine.Moves

/-!
# The timers the engine asks for

The engine has no clock of its own to wait for: it asks its driver to set and to clear
timers, and the driver wakes it when one of them is due. `OcppKit.Engine.deadline` is what
the engine waits for, timer by timer, and `OcppKit.Engine.Times` says that what a function
left in the history turns the deadlines there were into those there are.

`OcppKit.Engine.Beating` is about the heartbeat alone: while the connection is up there is a
next one, and it is at most an interval away. What keeps the timers without changing the
interval (`OcppKit.Engine.Ticks`) keeps this, and the boot answer, which changes the interval,
counts the next heartbeat anew.
-/

namespace OcppKit

variable [Externals]

/-! ### What a history does to a timer -/

/-- What an entry of the history does to this timer: it is set, or it is cleared. -/
def Event.timed (timer : Timer) : Event → Option (Option Instant)
  | .out (.setTimer timer' at_) => if timer' = timer then some (some at_) else none
  | .out (.clearTimer timer') => if timer' = timer then some none else none
  | _ => none

/-- **The last thing a history does to this timer**, if it does anything. -/
def lastTimed (timer : Timer) (evs : List Event) : Option (Option Instant) :=
  (evs.filterMap (Event.timed timer)).getLast?

theorem lastTimed_append (timer : Timer) (l l' : List Event) :
    lastTimed timer (l ++ l') = (lastTimed timer l').or (lastTimed timer l) := by
  rw [lastTimed, List.filterMap_append, List.getLast?_append, lastTimed, lastTimed]

theorem lastTimed_eq_none {timer : Timer} {evs : List Event}
    (h : ∀ ev ∈ evs, ev.timed timer = none) : lastTimed timer evs = none := by
  rw [lastTimed, List.filterMap_eq_nil_iff.mpr h]
  rfl

namespace Engine

variable {S : Type}

/-! ### Keeping the timers -/

/-- **What the engine waits for**, timer by timer. -/
def deadline (e : Engine S) : Timer → Option Instant
  | .callTimeout => e.inflight.map InFlight.deadline
  | .heartbeat => e.heartbeatAt
  | .bootRetry => e.bootRetryAt
  | .transactionRetry => retryTimer e.log
  | .drainDeadline => e.draining

/-- **Between the two states the timers were kept**: what was left in the history turns the
deadlines there were into those there are, and only these timers were touched. The retry
timer, which is never cleared, is not looked at. -/
def Times (touched : List Timer) (e e' : Engine S) : Prop :=
  ∃ evs, e'.log = e.log ++ evs ∧ ∀ timer, timer ≠ .transactionRetry →
    (lastTimed timer evs).getD (e.deadline timer) = e'.deadline timer ∧
      (timer ∉ touched → lastTimed timer evs = none)

/-- An untouched timer is as it was. -/
theorem Times.untouched {touched : List Timer} {e e' : Engine S} (h : Times touched e e')
    {timer : Timer} (hretry : timer ≠ .transactionRetry) (htimer : timer ∉ touched) :
    e'.deadline timer = e.deadline timer := by
  obtain ⟨evs, -, hevs⟩ := h
  obtain ⟨hkept, hnone⟩ := hevs timer hretry
  rw [hnone htimer] at hkept
  exact hkept.symm

theorem Times.trans {touched : List Timer} {e e' e'' : Engine S} (h : Times touched e e')
    (h' : Times touched e' e'') : Times touched e e'' := by
  obtain ⟨evs, hlog, hevs⟩ := h
  obtain ⟨evs', hlog', hevs'⟩ := h'
  refine ⟨evs ++ evs', by rw [hlog', hlog, List.append_assoc], fun timer hretry => ?_⟩
  obtain ⟨hkept, hnone⟩ := hevs timer hretry
  obtain ⟨hkept', hnone'⟩ := hevs' timer hretry
  rw [lastTimed_append]
  refine ⟨?_, fun htimer => by rw [hnone htimer, hnone' htimer]; rfl⟩
  rw [← hkept', ← hkept]
  rcases lastTimed timer evs' with _ | value
  · rfl
  · rfl

theorem Times.mono {touched touched' : List Timer} {e e' : Engine S} (h : Times touched e e')
    (hsub : touched ⊆ touched') : Times touched' e e' := by
  obtain ⟨evs, hlog, hevs⟩ := h
  refine ⟨evs, hlog, fun timer hretry => ⟨(hevs timer hretry).1, fun htimer => ?_⟩⟩
  exact (hevs timer hretry).2 fun hmem => htimer (hsub hmem)

/-! ### The heartbeat -/

/-- **Between the two states the timers were kept, and so was the heartbeat**: its interval
stays, and if its deadline is another one it was counted from now. -/
structure Ticks (touched : List Timer) (e e' : Engine S) : Prop where
  /-- The timers were kept. -/
  times : Times touched e e'
  /-- The configuration stays. -/
  config : e'.config = e.config
  /-- So does the connection. -/
  connected : e'.connected = e.connected
  /-- So does the clock. -/
  now : e'.now = e.now
  /-- So does the interval. -/
  interval : e'.heartbeatInterval = e.heartbeatInterval
  /-- The deadline stays, or is counted from now. -/
  armed : e'.heartbeatAt = e.heartbeatAt ∨ ∃ interval, e.heartbeatInterval = some interval ∧
    e'.heartbeatAt = some (Instant.saturatingAdd e.now interval)

theorem Ticks.trans {touched : List Timer} {e e' e'' : Engine S} (h : Ticks touched e e')
    (h' : Ticks touched e' e'') : Ticks touched e e'' where
  times := h.times.trans h'.times
  config := h'.config.trans h.config
  connected := h'.connected.trans h.connected
  now := h'.now.trans h.now
  interval := h'.interval.trans h.interval
  armed := by
    rcases h'.armed with hsame | ⟨interval, hinterval, harmed⟩
    · rw [hsame]
      exact h.armed
    · exact Or.inr ⟨interval, h.interval ▸ hinterval, h.now ▸ harmed⟩

theorem Ticks.mono {touched touched' : List Timer} {e e' : Engine S} (h : Ticks touched e e')
    (hsub : touched ⊆ touched') : Ticks touched' e e' :=
  { h with times := h.times.mono hsub }

/-- The entry does nothing to any timer but the retry timer. -/
def Untimed (ev : Event) : Prop := ∀ timer, timer ≠ .transactionRetry → ev.timed timer = none

/-- **What leaves the deadlines alone, and sets and clears nothing**, keeps the timers. -/
theorem ticks_of_eq {e e' : Engine S} (touched : List Timer) (evs : List Event)
    (hlog : e'.log = e.log ++ evs) (hevs : ∀ ev ∈ evs, Untimed ev)
    (hinflight : e'.inflight = e.inflight) (hbeat : e'.heartbeatAt = e.heartbeatAt)
    (hboot : e'.bootRetryAt = e.bootRetryAt) (hdrain : e'.draining = e.draining)
    (hconfig : e'.config = e.config) (hconnected : e'.connected = e.connected)
    (hnow : e'.now = e.now) (hinterval : e'.heartbeatInterval = e.heartbeatInterval) :
    Ticks touched e e' := by
  refine ⟨⟨evs, hlog, fun timer hretry => ?_⟩, hconfig, hconnected, hnow, hinterval,
    Or.inl hbeat⟩
  have hnone : lastTimed timer evs = none :=
    lastTimed_eq_none fun ev hev => hevs ev hev timer hretry
  refine ⟨?_, fun _ => hnone⟩
  rw [hnone, Option.getD_none]
  cases timer with
  | callTimeout => exact congrArg (Option.map InFlight.deadline) hinflight.symm
  | heartbeat => exact hbeat.symm
  | bootRetry => exact hboot.symm
  | transactionRetry => exact absurd rfl hretry
  | drainDeadline => exact hdrain.symm

/-- The other fields do not matter. -/
theorem ticks_same {e e' : Engine S} (touched : List Timer) (hlog : e'.log = e.log)
    (hinflight : e'.inflight = e.inflight) (hbeat : e'.heartbeatAt = e.heartbeatAt)
    (hboot : e'.bootRetryAt = e.bootRetryAt) (hdrain : e'.draining = e.draining)
    (hconfig : e'.config = e.config) (hconnected : e'.connected = e.connected)
    (hnow : e'.now = e.now) (hinterval : e'.heartbeatInterval = e.heartbeatInterval) :
    Ticks touched e e' :=
  ticks_of_eq touched [] (by rw [hlog, List.append_nil]) (fun _ h => absurd h List.not_mem_nil)
    hinflight hbeat hboot hdrain hconfig hconnected hnow hinterval

theorem Ticks.refl (touched : List Timer) (e : Engine S) : Ticks touched e e :=
  ticks_same touched rfl rfl rfl rfl rfl rfl rfl rfl rfl

theorem ticks_note (touched : List Timer) (e : Engine S) {ev : Event} (h : Untimed ev) :
    Ticks touched e (e.note ev) :=
  ticks_of_eq touched [ev] rfl (fun _ hev => List.mem_singleton.mp hev ▸ h)
    rfl rfl rfl rfl rfl rfl rfl rfl

theorem ticks_emit (touched : List Timer) (e : Engine S) {o : Output} (h : Untimed (.out o)) :
    Ticks touched e (e.emit o) :=
  ticks_of_eq touched [Event.out o] rfl (fun _ hev => List.mem_singleton.mp hev ▸ h)
    rfl rfl rfl rfl rfl rfl rfl rfl

theorem ticks_violate (touched : List Timer) (e : Engine S) (v : ProtocolViolation) :
    Ticks touched e (e.violate v) :=
  ticks_emit touched e fun _ _ => rfl

/-- **A deadline is set, and the driver is told.** -/
theorem times_set {e e' : Engine S} {touched : List Timer} {timer : Timer} {value : Option Instant}
    {ev : Event} (hlog : e'.log = e.log ++ [ev]) (hmem : timer ∈ touched)
    (hset : ev.timed timer = some value) (hother : ∀ t, t ≠ timer → ev.timed t = none)
    (hvalue : e'.deadline timer = value)
    (hsame : ∀ t, t ≠ .transactionRetry → t ≠ timer → e'.deadline t = e.deadline t) :
    Times touched e e' := by
  refine ⟨[ev], hlog, fun t hretry => ?_⟩
  by_cases ht : t = timer
  · subst ht
    have hlast : lastTimed t [ev] = some value := by simp [lastTimed, hset]
    exact ⟨by rw [hlast, hvalue]; rfl, fun hno => absurd hmem hno⟩
  · have hlast : lastTimed t [ev] = none :=
      lastTimed_eq_none fun ev' hev' => List.mem_singleton.mp hev' ▸ hother t ht
    exact ⟨by rw [hlast, hsame t hretry ht]; rfl, fun _ => hlast⟩

/-! ### The functions that keep the timers -/

theorem ticks_armHeartbeat (e : Engine S) : Ticks [.heartbeat] e e.armHeartbeat := by
  rw [armHeartbeat]
  split
  · exact Ticks.refl _ e
  split
  · exact Ticks.refl _ e
  next interval hinterval =>
  dsimp only
  split
  · exact Ticks.refl _ e
  · refine ⟨times_set rfl (List.mem_singleton_self _) rfl (fun t ht => ?_) rfl
      (fun t _ ht => ?_), rfl, rfl, rfl, rfl, Or.inr ⟨interval, ?_, rfl⟩⟩
    · exact if_neg (Ne.symm ht)
    · cases t with
      | heartbeat => exact absurd rfl ht
      | transactionRetry => exact absurd rfl ‹_›
      | _ => rfl
    · exact (Option.filter_eq_some_iff.mp hinterval).1

theorem ticks_transmit (e : Engine S) (frame : Frame) :
    Ticks [.heartbeat] e (e.transmit frame) := by
  rw [transmit]
  split
  · exact (ticks_emit _ e fun _ _ => rfl).trans (ticks_armHeartbeat _)
  · exact ticks_violate _ e _

theorem ticks_answer (e : Engine S) {mark : Event} (h : Untimed mark) (frame : Frame) :
    Ticks [.heartbeat] e ((e.note mark).transmit frame) :=
  (ticks_note _ e h).trans (ticks_transmit _ frame)

theorem ticks_reject (e : Engine S) (id : MessageId) (kind : MessageKind) (error : CallError) :
    Ticks [.heartbeat] e (e.reject id kind error) := by
  rcases kind with _ | _
  · exact ticks_answer e (fun _ _ => rfl) _
  · exact Ticks.refl _ e

theorem ticks_deliver (e : Engine S) (id : MessageId) (action : String) (payload : RawValue)
    (received : MessageKind) : Ticks [.heartbeat] e (e.deliver id action payload received) := by
  rw [deliver]
  split
  · exact ticks_reject e id received _
  dsimp only
  refine Ticks.trans ?_ (ticks_emit _ _ fun _ _ => rfl)
  split
  · split
    · exact ticks_same _ rfl rfl rfl rfl rfl rfl rfl rfl rfl
    · exact ticks_same _ rfl rfl rfl rfl rfl rfl rfl rfl rfl
  · split
    · exact ticks_same _ rfl rfl rfl rfl rfl rfl rfl rfl rfl
    · exact Ticks.refl _ e

theorem ticks_admission (e : Engine S) (id : MessageId) :
    Ticks [.heartbeat] e (e.admission id).2 := by
  rw [admission]
  split
  · exact ticks_violate _ e _
  split
  · exact Ticks.refl _ e
  have hviolate : Ticks [.heartbeat] e (e.violate (.concurrentCall id)) := ticks_violate _ e _
  dsimp only
  split
  · split
    · exact hviolate.trans (ticks_violate _ _ _)
    · exact hviolate.trans (ticks_violate _ _ _)
  · split
    · exact hviolate
    · exact hviolate

theorem ticks_onCall (e : Engine S) (id : MessageId) (action : String) (payload : RawValue)
    (received : MessageKind) : Ticks [.heartbeat] e (e.onCall id action payload received) := by
  rw [onCall]
  split
  · exact ticks_reject e id received _
  split
  · exact (ticks_violate _ e _).trans (ticks_reject _ id received _)
  split
  · exact (ticks_violate _ e _).trans (ticks_reject _ id received _)
  split
  · have hadmission := ticks_admission e id
    rcases h : e.admission id with ⟨_ | error, e₁⟩ <;> rw [h] at hadmission
    · exact hadmission.trans (ticks_deliver e₁ id action payload received)
    · exact hadmission.trans (ticks_reject e₁ id received error)
  · exact ticks_deliver e id action payload received

theorem ticks_onMalformed (e : Engine S) (error : FrameError) :
    Ticks [.heartbeat] e (e.onMalformed error) := by
  rw [onMalformed]
  have hviolate := ticks_violate [.heartbeat] e error.violation
  rcases error.reply e.version with _ | _ | _
  · exact hviolate
  · exact hviolate.trans (ticks_answer _ (fun _ _ => rfl) _)
  · exact hviolate.trans (ticks_answer _ (fun _ _ => rfl) _)

variable [MessageStore S]

theorem ticks_ackStore (touched : List Timer) (e : Engine S) (seq : Option Seq) :
    Ticks touched e (e.ackStore seq) := by
  rcases seq with _ | seq
  · exact Ticks.refl _ e
  rw [ackStore]
  have hstore : ∀ store : S, Ticks touched e { e with store := store } :=
    fun _ => ticks_same _ rfl rfl rfl rfl rfl rfl rfl rfl rfl
  split
  · exact hstore _
  · exact (hstore _).trans (ticks_violate _ _ _)

theorem ticks_storeAttempts (touched : List Timer) (e : Engine S) (seq : Option Seq)
    (attempts : ℕ) : Ticks touched e (e.storeAttempts seq attempts) := by
  rcases seq with _ | seq
  · exact Ticks.refl _ e
  rw [storeAttempts]
  have hstore : ∀ store : S, Ticks touched e { e with store := store } :=
    fun _ => ticks_same _ rfl rfl rfl rfl rfl rfl rfl rfl rfl
  split
  · exact hstore _
  · exact (hstore _).trans (ticks_violate _ _ _)

theorem ticks_abandon (touched : List Timer) (e : Engine S) (entry : Pending)
    (why : CallFailure) : Ticks touched e (e.abandon entry why) :=
  (ticks_ackStore touched e entry.seq).trans (ticks_emit _ _ fun _ _ => rfl)

/-! ### Pumping -/

theorem ticks_sendUnconfirmed (e : Engine S) (index : ℕ) (entry : Pending) :
    Ticks [.heartbeat] e (e.sendUnconfirmed index entry) := by
  simp only [sendUnconfirmed, nextId]
  refine Ticks.trans ?_ (ticks_emit _ _ fun _ _ => rfl)
  refine Ticks.trans ?_ (ticks_ackStore _ _ _)
  have htaken : Ticks [.heartbeat] e { e with
      queue := e.queue.eraseIdx index, ids := fun n => e.ids (n + 1) } :=
    ticks_same _ rfl rfl rfl rfl rfl rfl rfl rfl rfl
  exact htaken.trans (ticks_answer _ (fun _ _ => rfl) _)

theorem ticks_pumpSends (n : ℕ) (e : Engine S) : Ticks [.heartbeat] e (pumpSends n e) := by
  induction n generalizing e with
  | zero => exact Ticks.refl _ e
  | succ n ih =>
      rw [pumpSends]
      split
      · exact Ticks.refl _ e
      split
      · exact Ticks.refl _ e
      · exact (ticks_sendUnconfirmed e _ _).trans (ih _)

/-- The timers that sending sets. -/
def sendTimers : List Timer := [.callTimeout, .heartbeat]

omit [MessageStore S] in
theorem ticks_sendCall (e : Engine S) (index : ℕ) (entry : Pending) :
    Ticks sendTimers e (e.sendCall index entry) := by
  simp only [sendCall, nextId]
  have htaken : Ticks [.heartbeat] e { e with
      queue := e.queue.eraseIdx index, ids := fun n => e.ids (n + 1) } :=
    ticks_same _ rfl rfl rfl rfl rfl rfl rfl rfl rfl
  have hmark : Untimed (.sent (e.ids 0) entry) := fun _ _ => rfl
  have hwrite := htaken.trans (ticks_answer _ hmark (.call (e.ids 0) entry.action entry.payload))
  refine (hwrite.mono (by simp [sendTimers])).trans ?_
  -- the slot is filled, and its timer is set
  refine ⟨times_set rfl (List.mem_cons_self) rfl (fun t ht => ?_) rfl (fun t _ ht => ?_),
    rfl, rfl, rfl, rfl, Or.inl rfl⟩
  · exact if_neg (Ne.symm ht)
  · cases t with
    | callTimeout => exact absurd rfl ht
    | transactionRetry => exact absurd rfl ‹_›
    | _ => rfl

omit [MessageStore S] in
theorem ticks_pumpCall (e : Engine S) : Ticks sendTimers e e.pumpCall := by
  rw [pumpCall]
  split
  · exact Ticks.refl _ e
  split
  · exact Ticks.refl _ e
  split
  · exact Ticks.refl _ e
  · exact ticks_sendCall e _ _

theorem ticks_pump (e : Engine S) : Ticks sendTimers e e.pump := by
  rw [pump]
  split
  · exact ((ticks_pumpSends _ e).mono (by simp [sendTimers])).trans (ticks_pumpCall _)
  · exact Ticks.refl _ e

/-! ### Accepting, and giving up -/

theorem ticks_callWith (e : Engine S) (now : Instant) (action : String) (payload : RawValue)
    (options : CallOptions) :
    Ticks sendTimers (e.advance now) (e.callWith now action payload options).2 := by
  rw [callWith]
  generalize e.advance now = e₁
  have hmint : Ticks sendTimers e₁ e₁.mintToken.2 :=
    ticks_same _ rfl rfl rfl rfl rfl rfl rfl rfl rfl
  dsimp only
  split
  · exact Ticks.refl _ e₁
  split
  · exact Ticks.refl _ e₁
  next kind _ =>
  split
  · exact Ticks.refl _ e₁
  split
  · exact Ticks.refl _ e₁
  split
  · exact hmint.trans (ticks_emit _ _ fun _ _ => rfl)
  split
  · exact hmint.trans (ticks_emit _ _ fun _ _ => rfl)
  have hstore : ∀ store : S, Ticks sendTimers e₁ { e₁.mintToken.2 with store := store } :=
    fun _ => ticks_same _ rfl rfl rfl rfl rfl rfl rfl rfl rfl
  rcases persistCall_takes e₁.mintToken.2
      (options.persist.getD (Actions.isTransactionRelated e₁.version action))
      ⟨action, payload, kind, 0, Actions.isTransactionRelated e₁.version action⟩
    with ⟨error, hpersist, -, -⟩ | ⟨seq, store, hpersist, -⟩
  · simp only [hpersist]
    exact (hstore _).trans ((ticks_violate _ _ _).trans (ticks_emit _ _ fun _ _ => rfl))
  · simp only [hpersist]
    obtain ⟨s, hs⟩ :=
      rememberSolicited_or { e₁.mintToken.2 with store := store } action payload
    rw [hs]
    refine (hstore store).trans (Ticks.trans ?_ (ticks_pump _))
    refine ticks_of_eq _ [Event.accepted _] rfl (fun ev hev => ?_) rfl rfl rfl rfl rfl rfl rfl rfl
    obtain rfl := List.mem_singleton.mp hev
    exact fun _ _ => rfl

/-- What happens to a call that is out of the slot concerns the retry timer alone. -/
theorem ticks_requeueOrFail (touched : List Timer) (e : Engine S) (f : InFlight)
    (why : CallFailure) : Ticks touched e (e.requeueOrFail f why) := by
  rw [requeueOrFail]
  split
  · refine (ticks_storeAttempts touched e f.seq f.attempts).trans ?_
    refine ticks_of_eq _ [Event.out _] rfl (fun ev hev => ?_) rfl rfl rfl rfl rfl rfl rfl rfl
    obtain rfl := List.mem_singleton.mp hev
    exact fun timer hretry => if_neg (Ne.symm hretry)
  · exact (ticks_ackStore touched e f.seq).trans (ticks_emit _ _ fun _ _ => rfl)

theorem ticks_failOffline (touched : List Timer) (rest kept : List Pending) (e : Engine S) :
    Ticks touched e (failOffline rest kept e) := by
  induction rest generalizing kept e with
  | nil => exact ticks_same _ rfl rfl rfl rfl rfl rfl rfl rfl rfl
  | cons entry rest ih =>
      rw [failOffline]
      split
      · exact ih (kept ++ [entry]) e
      · exact (ticks_abandon touched e entry .disconnected).trans (ih kept _)

omit [MessageStore S] in
/-- The drain deadline is cleared, whether or not there is one. -/
theorem ticks_clearDrain (e : Engine S) :
    Ticks [.drainDeadline] e ({ e with draining := none }.emit (.clearTimer .drainDeadline)) := by
  refine ⟨times_set rfl (List.mem_singleton_self _) rfl (fun t ht => ?_) rfl (fun t _ ht => ?_),
    rfl, rfl, rfl, rfl, Or.inl rfl⟩
  · exact if_neg (Ne.symm ht)
  · cases t with
    | drainDeadline => exact absurd rfl ht
    | transactionRetry => exact absurd rfl ‹_›
    | _ => rfl

omit [MessageStore S] in
theorem ticks_checkDrain (e : Engine S) : Ticks [.drainDeadline] e e.checkDrain := by
  rw [checkDrain]
  split
  · exact (ticks_clearDrain e).trans (ticks_emit _ _ fun _ _ => rfl)
  · exact Ticks.refl _ e

omit [MessageStore S] in
/-- **A call is out of the slot, and its timer is cleared.** -/
theorem times_release {touched : List Timer} {e e₁ : Engine S}
    (h : Ticks touched { e with inflight := none } e₁) (hnot : Timer.callTimeout ∉ touched) :
    Times (.callTimeout :: touched) e (e₁.emit (.clearTimer .callTimeout)) := by
  have hfree : e₁.deadline .callTimeout = none := h.times.untouched (by simp) hnot
  obtain ⟨evs, hlog, hevs⟩ := h.times
  refine ⟨evs ++ [Event.out (.clearTimer .callTimeout)], ?_, fun timer hretry => ?_⟩
  · change e₁.log ++ _ = _
    rw [hlog, List.append_assoc]
  · rw [lastTimed_append]
    by_cases ht : timer = .callTimeout
    · subst ht
      exact ⟨hfree.symm, fun hno => absurd List.mem_cons_self hno⟩
    · obtain ⟨hkept, hnone⟩ := hevs timer hretry
      have hlast : lastTimed timer [Event.out (.clearTimer .callTimeout)] = none := by
        refine lastTimed_eq_none fun ev hev => ?_
        obtain rfl := List.mem_singleton.mp hev
        exact if_neg (Ne.symm ht)
      rw [hlast, Option.none_or]
      refine ⟨?_, fun hno => hnone fun hmem => hno (List.mem_cons_of_mem _ hmem)⟩
      cases timer with
      | callTimeout => exact absurd rfl ht
      | transactionRetry => exact absurd rfl hretry
      | _ => exact hkept

/-! ### The heart beats -/

omit [MessageStore S] in
/-- **The heart of a station beats**: with automatic heartbeats and a positive interval, the
next one is at most an interval away, and while the connection is up there is a next one. -/
def Beating (e : Engine S) : Prop :=
  e.config.role = .chargingStation → e.config.heartbeat = .automatic →
    ∀ interval, e.heartbeatInterval = some interval → 0 < interval →
      (∀ at_, e.heartbeatAt = some at_ → at_ ≤ Instant.saturatingAdd e.now interval) ∧
        (e.connected = true → e.heartbeatAt ≠ none)

omit [MessageStore S] in
/-- Arming counts the next heartbeat from now. -/
theorem beating_armHeartbeat (e : Engine S) : Beating e.armHeartbeat := by
  have hkept := ticks_armHeartbeat e
  intro hrole hauto interval hinterval hpos
  rw [hkept.config] at hrole hauto
  rw [hkept.interval] at hinterval
  have harmed : e.armHeartbeat.heartbeatAt = some (Instant.saturatingAdd e.now interval) := by
    have hfilter : e.heartbeatInterval.filter (· ≠ 0) = some interval := by
      rw [hinterval, Option.filter_some, if_pos (by simpa using Nat.ne_of_gt hpos)]
    rw [armHeartbeat, if_neg (by simp [hrole, hauto])]
    simp only [hfilter]
    split
    · next h => exact h
    · rfl
  rw [hkept.now]
  refine ⟨fun at_ hat => ?_, fun _ hnone => ?_⟩
  · rw [harmed] at hat
    exact (Option.some.inj hat).ge
  · rw [harmed] at hnone
    exact absurd hnone (by simp)

omit [MessageStore S] in
/-- **Whatever keeps the timers keeps the heart beating.** -/
theorem Ticks.beating {touched : List Timer} {e e' : Engine S} (h : Ticks touched e e')
    (hb : Beating e) : Beating e' := by
  intro hrole hauto interval hinterval hpos
  rw [h.config] at hrole hauto
  rw [h.interval] at hinterval
  obtain ⟨hsoon, hsome⟩ := hb hrole hauto interval hinterval hpos
  rw [h.now, h.connected]
  rcases h.armed with hsame | ⟨interval', hinterval', harmed⟩
  · rw [hsame]
    exact ⟨hsoon, hsome⟩
  · obtain rfl : interval = interval' := Option.some.inj (hinterval.symm.trans hinterval')
    rw [harmed]
    refine ⟨fun at_ hat => (Option.some.inj hat).ge, fun _ hnone => absurd hnone (by simp)⟩

omit [Externals] [MessageStore S] in
theorem saturatingAdd_mono {now now' : Instant} (h : now ≤ now') (d : Duration) :
    Instant.saturatingAdd now d ≤ Instant.saturatingAdd now' d :=
  min_le_min (Nat.add_le_add_right h _) le_rfl

omit [MessageStore S] in
/-- Time passes. -/
theorem Beating.advance {e : Engine S} (h : Beating e) (now : Instant) :
    Beating (e.advance now) := by
  intro hrole hauto interval hinterval hpos
  obtain ⟨hsoon, hsome⟩ := h hrole hauto interval hinterval hpos
  refine ⟨fun at_ hat => (hsoon at_ hat).trans ?_, hsome⟩
  exact saturatingAdd_mono (now_le_advance e now) interval

omit [MessageStore S] in
/-- At a CSMS there is no heart to beat. -/
theorem beating_csms {e : Engine S} (h : e.config.role = .csms) : Beating e := by
  intro hrole
  exact absurd (h.symm.trans hrole) (by simp)

/-! ### Minding both -/

omit [MessageStore S] in
/-- **Between the two states the timers were kept, and the heart kept beating.** -/
structure Minds (e e' : Engine S) : Prop where
  /-- The timers were kept. -/
  times : Times [.callTimeout, .heartbeat, .bootRetry, .drainDeadline] e e'
  /-- The heart kept beating. -/
  beating : Beating e → Beating e'

omit [MessageStore S] in
theorem Minds.trans {e e' e'' : Engine S} (h : Minds e e') (h' : Minds e' e'') : Minds e e'' :=
  ⟨h.times.trans h'.times, fun hb => h'.beating (h.beating hb)⟩

omit [MessageStore S] in
theorem Ticks.minds {touched : List Timer} {e e' : Engine S} (h : Ticks touched e e') :
    Minds e e' := by
  refine ⟨?_, h.beating⟩
  obtain ⟨evs, hlog, hevs⟩ := h.times
  refine ⟨evs, hlog, fun timer hretry => ⟨(hevs timer hretry).1, fun hno => absurd ?_ hno⟩⟩
  cases timer <;> simp_all

omit [MessageStore S] in
theorem Minds.refl (e : Engine S) : Minds e e := (Ticks.refl [] e).minds

omit [MessageStore S] in
/-- The boot timer is set. -/
theorem minds_bootRetry (e : Engine S) (at_ : Instant) :
    Minds e ({ e with bootRetryAt := some at_ }.emit (.setTimer .bootRetry at_)) := by
  have hset : Ticks [.bootRetry] e
      ({ e with bootRetryAt := some at_ }.emit (.setTimer .bootRetry at_)) := by
    refine ⟨times_set rfl (List.mem_singleton_self _) rfl (fun t ht => ?_) rfl
      (fun t _ ht => ?_), rfl, rfl, rfl, rfl, Or.inl rfl⟩
    · exact if_neg (Ne.symm ht)
    · cases t with
      | bootRetry => exact absurd rfl ht
      | transactionRetry => exact absurd rfl ‹_›
      | _ => rfl
  exact hset.minds

/-- **The intervals a boot answer sets**: a new heartbeat interval is counted from now. -/
theorem minds_applyBootInterval (e : Engine S) (state : BootState) (interval : Option Duration)
    {outgoing : Bool} (h : outgoing = true → e.config.role = .csms) :
    Minds e (e.applyBootInterval state interval outgoing) := by
  cases state with
  | idle => exact Minds.refl e
  | accepted =>
      let e₁ : Engine S := { e with heartbeatInterval := interval.filter (· ≠ 0) }
      have hset : Times [.callTimeout, .heartbeat, .bootRetry, .drainDeadline] e e₁ :=
        (ticks_same _ rfl rfl rfl rfl rfl rfl rfl rfl rfl :
          Ticks _ { e with heartbeatInterval := e₁.heartbeatInterval } e₁).times
      rcases outgoing with _ | _
      · have harm : Minds e e₁.armHeartbeat :=
          ⟨hset.trans (ticks_armHeartbeat e₁).minds.times, fun _ => beating_armHeartbeat e₁⟩
        exact harm.trans (ticks_pump _).minds
      · exact ⟨hset, fun _ => beating_csms (h rfl)⟩
  | pending =>
      rcases outgoing with _ | _
      · exact minds_bootRetry e _
      · exact Minds.refl e
  | rejected =>
      rcases outgoing with _ | _
      · exact minds_bootRetry e _
      · exact Minds.refl e

theorem minds_observeBootAnswer (e : Engine S) (payload : RawValue) {outgoing : Bool}
    (h : outgoing = true → e.config.role = .csms) :
    Minds e (e.observeBootAnswer payload outgoing) := by
  rw [observeBootAnswer]
  split
  · exact Minds.refl e
  split
  · exact Minds.refl e
  next state _ =>
  have hstate : Ticks [] e ({ e with boot := state }.emit (.bootState state)) :=
    ticks_of_eq _ [Event.out _] rfl (fun ev hev => List.mem_singleton.mp hev ▸ fun _ _ => rfl)
      rfl rfl rfl rfl rfl rfl rfl rfl
  have hsample : ∀ sample, Ticks [] e
      (({ e with boot := state }.emit (.bootState state)).emit (.clockSample sample)) :=
    fun sample => hstate.trans (ticks_emit _ _ fun _ _ => rfl)
  split
  · split
    · exact hstate.minds.trans (minds_applyBootInterval _ state _ h)
    · exact (hsample _).minds.trans (minds_applyBootInterval _ state _ h)
  · exact hstate.minds.trans (minds_applyBootInterval _ state _ h)

theorem minds_observeAnswer (e : Engine S) (action : String) (payload : RawValue) :
    Minds e (e.observeAnswer action payload) := by
  rw [observeAnswer]
  split
  · exact minds_observeBootAnswer e payload (by simp)
  split
  · split
    · exact (ticks_emit (o := .clockSample _) [] e fun _ _ => rfl).minds
    · exact Minds.refl e
  · exact Minds.refl e

/-- The outstanding call is answered. -/
theorem minds_taken (e : Engine S) (f : InFlight) : Minds e (e.taken f) := by
  have hack := ticks_ackStore [] { e with inflight := none } f.seq
  have htimes := times_release hack (by simp)
  refine ⟨htimes.mono (by simp), fun hb => ?_⟩
  have hfree : Beating { e with inflight := none } := hb
  exact hack.beating hfree

theorem minds_reported (e : Engine S) {o : Output} (h : Untimed (.out o)) :
    Minds e (e.emit o).pump.checkDrain :=
  (ticks_emit [] e h).minds.trans ((ticks_pump _).minds.trans (ticks_checkDrain _).minds)

theorem minds_onCallResult (e : Engine S) (id : MessageId) (payload : RawValue) :
    Minds e (e.onCallResult id payload) := by
  by_cases hid : ∃ f, e.inflight = some f ∧ f.id = id
  · obtain ⟨f, hf, rfl⟩ := hid
    simp only [onCallResult, takeInflight_of_eq hf]
    refine (minds_taken e f).trans ((minds_observeAnswer _ f.action payload).trans ?_)
    exact minds_reported _ fun _ _ => rfl
  · rw [onCallResult_of_ne fun f hf he => hid ⟨f, hf, he⟩]
    exact (ticks_violate [] e _).minds

theorem minds_onCallError (e : Engine S) (id : MessageId) (error : CallErrorRef) :
    Minds e (e.onCallError id error) := by
  by_cases hid : ∃ f, e.inflight = some f ∧ f.id = id
  · obtain ⟨f, hf, rfl⟩ := hid
    simp only [onCallError, takeInflight_of_eq hf]
    exact (minds_taken e f).trans (minds_reported _ fun _ _ => rfl)
  · rw [onCallError_of_ne fun f hf he => hid ⟨f, hf, he⟩]
    exact (ticks_violate [] e _).minds

omit [MessageStore S] in
theorem ticks_checkId (e : Engine S) (id : MessageId) :
    Ticks [] e (if id.isConforming then e else e.violate (.nonConformingMessageId id)) := by
  split
  · exact Ticks.refl _ e
  · exact ticks_violate _ e _

theorem minds_onFrame (e : Engine S) (frame : Frame) : Minds e (e.onFrame frame) := by
  unfold onFrame
  refine (ticks_checkId e frame.id).minds.trans ?_
  generalize (if frame.id.isConforming then e
    else e.violate (.nonConformingMessageId frame.id)) = e₁
  rcases frame with ⟨id, action, payload⟩ | ⟨id, payload⟩ | ⟨id, error⟩ | ⟨id, error⟩ |
    ⟨id, action, payload⟩
  · exact (ticks_onCall e₁ id action payload .call).minds
  · exact minds_onCallResult e₁ id payload
  · exact minds_onCallError e₁ id error
  · exact (ticks_emit (o := .resultRejected _ _) [] e₁ fun _ _ => rfl).minds
  · exact (ticks_onCall e₁ id action payload .send).minds

theorem minds_onReceived (e : Engine S) (text : String) : Minds e (e.onReceived text) := by
  rw [onReceived]
  refine (ticks_armHeartbeat e).minds.trans ?_
  split
  · exact (ticks_onMalformed _ _).minds
  · exact minds_onFrame _ _

/-! ### Operations -/

omit [MessageStore S] in
theorem minds_advance (e : Engine S) (now : Instant) : Minds e (e.advance now) := by
  refine ⟨⟨[], (List.append_nil _).symm, fun timer _ => ⟨?_, fun _ => rfl⟩⟩,
    fun hb => hb.advance now⟩
  cases timer <;> rfl

omit [MessageStore S] in
theorem minds_fed (e : Engine S) (now : Instant) (input : Input) : Minds e (fed e now input) :=
  (minds_advance e now).trans (ticks_note [] _ fun _ _ => rfl).minds

theorem minds_connected (e : Engine S) (now : Instant) (version : Version) :
    Minds e (exec e (.handle now (.connected version))) := by
  let e₁ := e.started (.handle now (.connected version))
  have hup : Times [.callTimeout, .heartbeat, .bootRetry, .drainDeadline]
      (fed e now (.connected version)) e₁ := by
    refine ⟨[], (List.append_nil _).symm, fun timer _ => ⟨?_, fun _ => rfl⟩⟩
    cases timer <;> rfl
  have harm : Minds e e₁.armHeartbeat :=
    ⟨(minds_fed e now (.connected version)).times.trans
      (hup.trans (ticks_armHeartbeat e₁).minds.times), fun _ => beating_armHeartbeat e₁⟩
  exact harm.trans (ticks_pump _).minds

omit [MessageStore S] in
/-- The connection is gone, and with it the timers of the outstanding call and of the
heartbeat. -/
theorem minds_hungUp (e : Engine S) (now : Instant) :
    Minds e { e.hungUp now with inflight := none } := by
  refine ⟨⟨[.input .disconnected, .out (.clearTimer .callTimeout), .out (.clearTimer .heartbeat)],
    ?_, fun timer hretry => ⟨?_, fun hno => ?_⟩⟩, fun _ _ _ _ _ _ => ?_⟩
  · change ((e.log ++ _) ++ _) ++ _ = _
    simp only [List.append_assoc, List.cons_append, List.nil_append]
  · cases timer with
    | transactionRetry => exact absurd rfl hretry
    | _ => rfl
  · cases timer <;> simp_all
  · exact ⟨fun at_ hat => absurd hat (by simp [hungUp]),
      fun hup => absurd hup (by simp [hungUp, emit])⟩

theorem minds_loseInflight (e : Engine S) (now : Instant) :
    Minds e (e.hungUp now).loseInflight := by
  have hdown := minds_hungUp e now
  rw [loseInflight]
  split
  · exact hdown.trans (ticks_requeueOrFail [] _ _ _).minds
  · next hfree =>
    have hsame : ({ e.hungUp now with inflight := none } : Engine S) = e.hungUp now := by
      rw [← hfree]
    rwa [hsame] at hdown

theorem minds_disconnected (e : Engine S) (now : Instant) :
    Minds e (exec e (.handle now .disconnected)) := by
  have hlost := minds_loseInflight e now
  change Minds e (failOffline (e.hungUp now).loseInflight.queue []
    { (e.hungUp now).loseInflight with queue := [] }).checkDrain
  generalize (e.hungUp now).loseInflight = e₁ at hlost ⊢
  have htaken : Ticks [] e₁ { e₁ with queue := [] } :=
    ticks_same _ rfl rfl rfl rfl rfl rfl rfl rfl rfl
  have hfail := htaken.trans (ticks_failOffline [] e₁.queue [] _)
  exact hlost.trans (hfail.minds.trans (ticks_checkDrain _).minds)

theorem minds_respond (e : Engine S) (now : Instant) (id : MessageId) (payload : RawValue) :
    Minds e (e.respond now id payload).2 := by
  rw [respond]
  refine (minds_advance e now).trans ?_
  generalize e.advance now = e
  rcases takePeerRequest_cases e id with ⟨error, h⟩ | h
  · rw [h]
    exact Minds.refl e
  · rw [h]
    have hpeer : Ticks [] e { e with peerInflight := e.peerInflight.erase id } :=
      ticks_same _ rfl rfl rfl rfl rfl rfl rfl rfl rfl
    refine hpeer.minds.trans (.trans ?_ (ticks_answer _ (fun _ _ => rfl) _).minds)
    split
    · next hrole => exact minds_observeBootAnswer _ payload fun _ => hrole
    · exact Minds.refl _

omit [MessageStore S] in
theorem minds_respondError (e : Engine S) (now : Instant) (id : MessageId) (error : CallError) :
    Minds e (e.respondError now id error).2 := by
  rw [respondError]
  refine (minds_advance e now).trans ?_
  generalize e.advance now = e
  rcases takePeerRequest_cases e id with ⟨error, h⟩ | h
  · rw [h]
    exact Minds.refl e
  · rw [h]
    have hpeer : Ticks [] e { e with peerInflight := e.peerInflight.erase id } :=
      ticks_same _ rfl rfl rfl rfl rfl rfl rfl rfl rfl
    exact hpeer.minds.trans (ticks_answer _ (fun _ _ => rfl) _).minds

omit [MessageStore S] in
theorem minds_rejectResult (e : Engine S) (now : Instant) (id : MessageId) (error : CallError) :
    Minds e (e.rejectResult now id error).2 := by
  rw [rejectResult]
  refine (minds_advance e now).trans ?_
  split
  · exact (ticks_answer _ (fun _ _ => rfl) _).minds
  · exact Minds.refl _

theorem minds_cancel (e : Engine S) (token : CallToken) : Minds e (e.cancel token).2 := by
  rw [cancel]
  split
  · exact Minds.refl e
  split
  · exact Minds.refl e
  next index _ _ entry _ =>
  have htaken : Ticks [] e { e with queue := e.queue.eraseIdx index } :=
    ticks_same _ rfl rfl rfl rfl rfl rfl rfl rfl rfl
  exact (htaken.trans (ticks_abandon _ _ entry _)).minds

omit [MessageStore S] in
theorem minds_shutdown (e : Engine S) (now deadline : Instant) :
    Minds e (e.shutdown now deadline) := by
  rw [shutdown]
  refine (minds_advance e now).trans ?_
  generalize e.advance now = e
  split
  · exact Minds.refl e
  · have hset : Ticks [.drainDeadline] e ({ e with draining := some deadline }.emit
        (.setTimer .drainDeadline deadline)) := by
      refine ⟨times_set rfl (List.mem_singleton_self _) rfl (fun t ht => ?_) rfl
        (fun t _ ht => ?_), rfl, rfl, rfl, rfl, Or.inl rfl⟩
      · exact if_neg (Ne.symm ht)
      · cases t with
        | drainDeadline => exact absurd rfl ht
        | transactionRetry => exact absurd rfl ‹_›
        | _ => rfl
    exact (hset.trans (ticks_checkDrain _)).minds

/-- **Every operation but a timeout minds the timers and the heart.** -/
theorem minds_exec (e : Engine S) {op : Op} (h : ∀ now, op ≠ .handle now .timeout) :
    Minds e (exec e op) := by
  cases op with
  | handle now input =>
      cases input with
      | connected version => exact minds_connected e now version
      | received text => exact (minds_fed e now (.received text)).trans (minds_onReceived _ text)
      | disconnected => exact minds_disconnected e now
      | timeout => exact absurd rfl (h now)
  | callWith now action payload options =>
      exact (minds_advance e now).trans (ticks_callWith e now action payload options).minds
  | respond now id payload => exact minds_respond e now id payload
  | respondError now id error => exact minds_respondError e now id error
  | rejectResult now id error => exact minds_rejectResult e now id error
  | cancel token => exact minds_cancel e token
  | shutdown now deadline => exact minds_shutdown e now deadline
  | setCallTimeout timeout =>
      refine ⟨⟨[], (List.append_nil _).symm, fun timer _ => ⟨?_, fun _ => rfl⟩⟩, fun hb => hb⟩
      cases timer <;> rfl
  | setIdGenerator ids => exact Ticks.minds (ticks_same [] rfl rfl rfl rfl rfl rfl rfl rfl rfl)
  | pollOutput => exact Ticks.minds (ticks_same [] rfl rfl rfl rfl rfl rfl rfl rfl rfl)
  | drain => exact Ticks.minds (ticks_same [] rfl rfl rfl rfl rfl rfl rfl rfl rfl)

end Engine

end OcppKit
