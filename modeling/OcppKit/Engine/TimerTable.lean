import OcppKit.Engine.Attempts
import OcppKit.Engine.Timers

/-!
# The timer table of the driver

What the driver keeps is one instant a timer (`OcppKit.TimerTable`): it writes down what the
engine asks for, and when it wakes the engine it drops what is due. `OcppKit.timers_faithful`
says that this table always holds exactly the deadlines the engine waits for, and that the
heart of a station that is connected never stops.

Every operation but a timeout keeps the timers (`OcppKit.Engine.minds_exec`). A timeout does
not: the driver drops a timer that is due before it looks at what the engine has to say, and
of some timers the engine says nothing. So each timer is followed through the four steps of a
timeout by itself (`OcppKit.Engine.Fires`): until its turn nothing happens to it, then the
engine drops it as the driver does, and then it is kept.
-/

namespace OcppKit

variable [Externals]

/-! ### The table -/

/-- The timers a driver holds. -/
abbrev TimerTable := Timer → Option Instant

/-- `flush`: what an output does to the timers. -/
def TimerTable.flush (table : TimerTable) : Output → TimerTable
  | .setTimer timer at_ => Function.update table timer (some at_)
  | .clearTimer timer => Function.update table timer none
  | _ => table

/-- `timers.retain`: what is due is dropped. -/
def TimerTable.retain (table : TimerTable) (now : Instant) : TimerTable :=
  fun timer => (table timer).filter fun at_ => now < at_

/-- The outputs of a history, in order. -/
def outputs (evs : List Event) : List Output :=
  evs.filterMap fun
    | .out output => some output
    | _ => none

theorem outputs_append (l l' : List Event) : outputs (l ++ l') = outputs l ++ outputs l' :=
  List.filterMap_append

/-- **Flushing the outputs of a history** leaves each timer as the last of them put it. -/
theorem flush_outputs (table : TimerTable) (evs : List Event) (timer : Timer) :
    (outputs evs).foldl TimerTable.flush table timer =
      (lastTimed timer evs).getD (table timer) := by
  induction evs using List.reverseRecOn with
  | nil => rfl
  | append_singleton evs ev ih =>
      have hone : (outputs [ev]).foldl TimerTable.flush
          ((outputs evs).foldl TimerTable.flush table) timer =
          (ev.timed timer).getD ((outputs evs).foldl TimerTable.flush table timer) := by
        cases ev with
        | out output =>
            cases output with
            | setTimer timer' at_ =>
                by_cases he : timer' = timer
                · simp [outputs, TimerTable.flush, Event.timed, he]
                · simp [outputs, TimerTable.flush, Event.timed, he, Ne.symm he]
            | clearTimer timer' =>
                by_cases he : timer' = timer
                · simp [outputs, TimerTable.flush, Event.timed, he]
                · simp [outputs, TimerTable.flush, Event.timed, he, Ne.symm he]
            | _ => rfl
        | _ => rfl
      rw [outputs_append, List.foldl_append, hone, ih, lastTimed_append]
      rcases h : ev.timed timer with _ | value
      · have hnone : lastTimed timer [ev] = none :=
          lastTimed_eq_none fun _ hev' => List.mem_singleton.mp hev' ▸ h
        rw [hnone]
        rfl
      · rw [show lastTimed timer [ev] = some value by simp [lastTimed, h]]
        rfl

namespace Engine

variable {S : Type}

/-! ### One timer through a timeout -/

/-- **Between the two states this timer was kept.** -/
def Keeps (timer : Timer) (e e' : Engine S) : Prop :=
  ∃ evs, e'.log = e.log ++ evs ∧
    (lastTimed timer evs).getD (e.deadline timer) = e'.deadline timer

/-- **Between the two states nothing happened to this timer**, and time stood still. -/
def Skips (timer : Timer) (e e' : Engine S) : Prop :=
  e'.deadline timer = e.deadline timer ∧ e'.now = e.now ∧
    ∃ evs, e'.log = e.log ++ evs ∧ lastTimed timer evs = none

/-- **Between the two states this timer was kept, once it had been dropped if it was due.** -/
def Fires (timer : Timer) (e e' : Engine S) : Prop :=
  ∃ evs, e'.log = e.log ++ evs ∧
    (lastTimed timer evs).getD ((e.deadline timer).filter fun at_ => e.now < at_) =
      e'.deadline timer

theorem Times.keeps {touched : List Timer} {e e' : Engine S} (h : Times touched e e')
    {timer : Timer} (hretry : timer ≠ .transactionRetry) : Keeps timer e e' := by
  obtain ⟨evs, hlog, hevs⟩ := h
  exact ⟨evs, hlog, (hevs timer hretry).1⟩

theorem Times.skips {touched : List Timer} {e e' : Engine S} (h : Times touched e e')
    (hnow : e'.now = e.now) {timer : Timer} (hretry : timer ≠ .transactionRetry)
    (htimer : timer ∉ touched) : Skips timer e e' := by
  refine ⟨h.untouched hretry htimer, hnow, ?_⟩
  obtain ⟨evs, hlog, hevs⟩ := h
  exact ⟨evs, hlog, (hevs timer hretry).2 htimer⟩

theorem Keeps.trans {timer : Timer} {e e' e'' : Engine S} (h : Keeps timer e e')
    (h' : Keeps timer e' e'') : Keeps timer e e'' := by
  obtain ⟨evs, hlog, hevs⟩ := h
  obtain ⟨evs', hlog', hevs'⟩ := h'
  refine ⟨evs ++ evs', by rw [hlog', hlog, List.append_assoc], ?_⟩
  rw [lastTimed_append, ← hevs', ← hevs]
  rcases lastTimed timer evs' with _ | value
  · rfl
  · rfl

theorem Skips.trans {timer : Timer} {e e' e'' : Engine S} (h : Skips timer e e')
    (h' : Skips timer e' e'') : Skips timer e e'' := by
  obtain ⟨hsame, hnow, evs, hlog, hevs⟩ := h
  obtain ⟨hsame', hnow', evs', hlog', hevs'⟩ := h'
  refine ⟨hsame'.trans hsame, hnow'.trans hnow, evs ++ evs', ?_, ?_⟩
  · rw [hlog', hlog, List.append_assoc]
  · rw [lastTimed_append, hevs', hevs]
    rfl

/-- Until its turn nothing happens to the timer. -/
theorem Skips.fires {timer : Timer} {e e' e'' : Engine S} (h : Skips timer e e')
    (h' : Fires timer e' e'') : Fires timer e e'' := by
  obtain ⟨hsame, hnow, evs, hlog, hevs⟩ := h
  obtain ⟨evs', hlog', hevs'⟩ := h'
  refine ⟨evs ++ evs', by rw [hlog', hlog, List.append_assoc], ?_⟩
  rw [lastTimed_append, hevs, Option.or_none, ← hevs', hsame, hnow]

/-- After its turn the timer is kept. -/
theorem Fires.keeps {timer : Timer} {e e' e'' : Engine S} (h : Fires timer e e')
    (h' : Keeps timer e' e'') : Fires timer e e'' := by
  obtain ⟨evs, hlog, hevs⟩ := h
  obtain ⟨evs', hlog', hevs'⟩ := h'
  refine ⟨evs ++ evs', by rw [hlog', hlog, List.append_assoc], ?_⟩
  rw [lastTimed_append, ← hevs', ← hevs]
  rcases lastTimed timer evs' with _ | value
  · rfl
  · rfl

/-- **The engine drops the timer as the driver does**, and then keeps it. -/
theorem Keeps.fires {timer : Timer} {e e₁ e' : Engine S} (h : Keeps timer e₁ e')
    (hlog : e₁.log = e.log)
    (hdrop : e₁.deadline timer = (e.deadline timer).filter fun at_ => e.now < at_) :
    Fires timer e e' := by
  obtain ⟨evs, hevs, hkept⟩ := h
  exact ⟨evs, hlog ▸ hevs, hdrop ▸ hkept⟩

/-- A timer that is not due is not dropped. -/
theorem Keeps.not_due {timer : Timer} {e e' : Engine S} (h : Keeps timer e e')
    (hdue : ∀ at_, e.deadline timer = some at_ → e.now < at_) : Fires timer e e' := by
  refine h.fires rfl ?_
  rcases hat : e.deadline timer with _ | at_
  · rfl
  · rw [Option.filter_some, if_pos (by simpa using hdue at_ hat)]

omit [Externals] in
/-- A timer that is due is dropped. -/
theorem filter_due {now at_ : Instant} (h : at_ ≤ now) :
    (some at_).filter (fun at_ => now < at_) = none := by
  rw [Option.filter_some, if_neg (by simpa using h)]

variable [MessageStore S]

/-! ### The steps of a timeout -/

/-- The message timeout. -/
theorem times_fireCallTimeout (e : Engine S) :
    Times [.callTimeout] e e.fireCallTimeout ∧ e.fireCallTimeout.now = e.now ∧
      (Beating e → Beating e.fireCallTimeout) := by
  rw [fireCallTimeout]
  split
  · next f _ =>
    split
    · have hfree := times_release (Ticks.refl [] { e with inflight := none }) (by simp)
      have hlost := ticks_requeueOrFail [.callTimeout]
        ({ e with inflight := none }.emit (.clearTimer .callTimeout)) f .timeout
      exact ⟨hfree.trans hlost.times, hlost.now, hlost.beating⟩
    · exact ⟨(Ticks.refl _ e).times, rfl, id⟩
  · exact ⟨(Ticks.refl _ e).times, rfl, id⟩

theorem fires_callTimeout (e : Engine S) : Fires .callTimeout e e.fireCallTimeout := by
  have hrefl : Keeps .callTimeout e e := (Ticks.refl [] e).times.keeps (by simp)
  have hat : e.deadline .callTimeout = e.inflight.map InFlight.deadline := rfl
  rw [fireCallTimeout]
  split
  next f hf =>
    rw [hf, Option.map_some] at hat
    split
    next hdue =>
      -- the slot is emptied, and the driver is told although it knows
      have hclear : Keeps .callTimeout { e with inflight := none }
          ({ e with inflight := none }.emit (.clearTimer .callTimeout)) :=
        ⟨[.out (.clearTimer .callTimeout)], rfl, rfl⟩
      have hlost := ticks_requeueOrFail [] ({ e with inflight := none }.emit
        (.clearTimer .callTimeout)) f .timeout
      refine (hclear.trans (hlost.times.keeps (by simp))).fires rfl ?_
      rw [hat, filter_due hdue]
      rfl
    next hdue =>
      refine hrefl.not_due fun at_ hat' => ?_
      obtain rfl := Option.some.inj (hat.symm.trans hat')
      exact not_le.mp hdue
  next hfree =>
    rw [hfree, Option.map_none] at hat
    exact hrefl.not_due fun at_ hat' => absurd (hat.symm.trans hat') (by simp)

/-- The engine's own heartbeat is sent, and the next one is armed. -/
theorem ticks_beat (e : Engine S) : Ticks sendTimers e
    (if e.connected && e.boot.allowsTraffic then e.sendHeartbeat else e).armHeartbeat := by
  have harm : ∀ e : Engine S, Ticks sendTimers e e.armHeartbeat :=
    fun e => (ticks_armHeartbeat e).mono (by simp [sendTimers])
  split
  · have hsend := ticks_callWith e e.now "Heartbeat" RawValue.emptyObject
      { queueWhenOffline := some false }
    rw [show e.advance e.now = e by simp [advance]] at hsend
    exact hsend.trans (harm _)
  · exact harm e

/-- The inactivity timer. -/
theorem skips_fireHeartbeat (e : Engine S) {timer : Timer} (hretry : timer ≠ .transactionRetry)
    (htimer : timer ∉ sendTimers) : Skips timer e e.fireHeartbeat := by
  rw [fireHeartbeat]
  split
  · split
    · have hbeat := ticks_beat { e with heartbeatAt := none }
      obtain ⟨hsame, hnow, hlog⟩ := hbeat.times.skips hbeat.now hretry htimer
      refine ⟨hsame.trans ?_, hnow, hlog⟩
      cases timer with
      | heartbeat => exact absurd (by simp [sendTimers]) htimer
      | _ => rfl
    · exact (Ticks.refl [] e).times.skips rfl hretry (by simp)
  · exact (Ticks.refl [] e).times.skips rfl hretry (by simp)

theorem keeps_fireHeartbeat (e : Engine S) : Keeps .callTimeout e e.fireHeartbeat := by
  rw [fireHeartbeat]
  split
  · split
    · exact (ticks_beat { e with heartbeatAt := none }).times.keeps (by simp)
    · exact (Ticks.refl [] e).times.keeps (by simp)
  · exact (Ticks.refl [] e).times.keeps (by simp)

theorem fires_heartbeat (e : Engine S) : Fires .heartbeat e e.fireHeartbeat := by
  rw [fireHeartbeat]
  split
  next at_ hat =>
    have hdead : e.deadline .heartbeat = some at_ := hat
    split
    next hdue =>
      refine ((ticks_beat { e with heartbeatAt := none }).times.keeps (by simp)).fires rfl ?_
      rw [hdead, filter_due hdue]
      rfl
    next hdue =>
      refine Keeps.not_due ((Ticks.refl [] e).times.keeps (by simp)) fun at' hat' => ?_
      obtain rfl := Option.some.inj (hdead.symm.trans hat')
      exact not_le.mp hdue
  next hnone =>
    refine Keeps.not_due ((Ticks.refl [] e).times.keeps (by simp)) fun at_ hat => ?_
    exact absurd (hnone.symm.trans hat) (by simp)

/-- The heart beats on. -/
theorem beating_fireHeartbeat {e : Engine S} (h : Beating e) : Beating e.fireHeartbeat := by
  rw [fireHeartbeat]
  split
  · split
    · exact beating_armHeartbeat _
    · exact h
  · exact h

omit [MessageStore S] in
/-- The boot retry timer is dropped without a word. -/
theorem skips_fireBootRetry (e : Engine S) {timer : Timer} (h : timer ≠ .bootRetry) :
    timer ≠ .transactionRetry → Skips timer e e.fireBootRetry := by
  intro hretry
  have hrefl : Skips timer e e := (Ticks.refl [] e).times.skips rfl hretry (by simp)
  rw [fireBootRetry]
  split
  · split
    · have hboot : Ticks [] ({ e with bootRetryAt := none, boot := .idle } : Engine S)
          ({ e with bootRetryAt := none, boot := .idle }.emit (.bootState .idle)) :=
        ticks_emit _ _ fun _ _ => rfl
      obtain ⟨hsame, hnow, hlog⟩ := hboot.times.skips rfl hretry (by simp)
      refine ⟨hsame.trans ?_, hnow, hlog⟩
      cases timer with
      | bootRetry => exact absurd rfl h
      | _ => rfl
    · exact hrefl
  · exact hrefl

omit [MessageStore S] in
theorem fires_bootRetry (e : Engine S) : Fires .bootRetry e e.fireBootRetry := by
  rw [fireBootRetry]
  split
  next at_ hat =>
    have hdead : e.deadline .bootRetry = some at_ := hat
    split
    next hdue =>
      have hboot : Ticks [] ({ e with bootRetryAt := none, boot := .idle } : Engine S)
          ({ e with bootRetryAt := none, boot := .idle }.emit (.bootState .idle)) :=
        ticks_emit _ _ fun _ _ => rfl
      refine (hboot.times.keeps (by simp)).fires rfl ?_
      rw [hdead, filter_due hdue]
      rfl
    next hdue =>
      refine Keeps.not_due ((Ticks.refl [] e).times.keeps (by simp)) fun at' hat' => ?_
      obtain rfl := Option.some.inj (hdead.symm.trans hat')
      exact not_le.mp hdue
  next hnone =>
    refine Keeps.not_due ((Ticks.refl [] e).times.keeps (by simp)) fun at_ hat => ?_
    exact absurd (hnone.symm.trans hat) (by simp)

omit [MessageStore S] in
theorem beating_fireBootRetry {e : Engine S} (h : Beating e) : Beating e.fireBootRetry := by
  rw [fireBootRetry]
  split
  · split
    · exact h
    · exact h
  · exact h

theorem ticks_pumpDrain (e : Engine S) :
    Ticks (.drainDeadline :: sendTimers) e e.pump.checkDrain :=
  ((ticks_pump e).mono (by simp)).trans ((ticks_checkDrain _).mono (by simp))

/-- The drain deadline is dropped without a word. -/
theorem keeps_fireDrain (e : Engine S) {timer : Timer} (h : timer ≠ .drainDeadline)
    (hretry : timer ≠ .transactionRetry) : Keeps timer e e.fireDrain := by
  rw [fireDrain]
  split
  · have hclose : Ticks [] e (e.emit (.close .drainTimedOut)) := ticks_emit _ e fun _ _ => rfl
    obtain ⟨evs, hlog, hkept⟩ := hclose.times.keeps hretry
    refine ⟨evs, hlog, hkept.trans ?_⟩
    cases timer with
    | drainDeadline => exact absurd rfl h
    | _ => rfl
  · exact (ticks_pumpDrain e).times.keeps hretry

/-- With nothing to send, pumping does nothing. -/
theorem pump_of_complete {e : Engine S} (h : e.drainComplete = true) : e.pump = e := by
  obtain ⟨hfree, hempty⟩ : e.inflight = none ∧ e.queue = [] := by
    simpa [drainComplete] using h
  rw [pump, hempty]
  split
  · rw [List.length_nil, pumpSends, pumpCall, nextEligible_nil hempty]
    split
    · rfl
    · rfl
  · rfl

theorem fires_drainDeadline (e : Engine S) : Fires .drainDeadline e e.fireDrain := by
  rw [fireDrain]
  split
  next hout =>
    obtain ⟨hdue, -⟩ := Bool.and_eq_true_iff.mp hout
    obtain ⟨at_, hat, hle⟩ : ∃ at_, e.draining = some at_ ∧ at_ ≤ e.now := by
      simpa [Option.any_eq_true] using hdue
    have hclose : Ticks [] { e with draining := none }
        ({ e with draining := none }.emit (.close .drainTimedOut)) := ticks_emit _ _ fun _ _ => rfl
    refine (hclose.times.keeps (by simp)).fires rfl ?_
    rw [show e.deadline .drainDeadline = some at_ from hat, filter_due hle]
    rfl
  next hin =>
    by_cases hdue : ∃ at_, e.draining = some at_ ∧ at_ ≤ e.now
    · -- nothing is left to do, and the drain ends
      obtain ⟨at_, hat, hle⟩ := hdue
      have hcomplete : e.drainComplete = true := by simpa [hat, hle] using hin
      have hdone : Ticks [.drainDeadline] { e with draining := none }
          (({ e with draining := none }.emit (.clearTimer .drainDeadline)).emit
            (.close .drained)) :=
        (ticks_clearDrain { e with draining := none }).trans (ticks_emit _ _ fun _ _ => rfl)
      rw [pump_of_complete hcomplete, checkDrain, if_pos (by simp [hat, hcomplete])]
      refine (hdone.times.keeps (by simp)).fires rfl ?_
      rw [show e.deadline .drainDeadline = some at_ from hat, filter_due hle]
      rfl
    · refine ((ticks_pumpDrain e).times.keeps (by simp)).not_due fun at_ hat => ?_
      exact not_le.mp fun hle => hdue ⟨at_, hat, hle⟩

theorem beating_fireDrain {e : Engine S} (h : Beating e) : Beating e.fireDrain := by
  rw [fireDrain]
  split
  · exact h
  · exact (ticks_pumpDrain e).beating h

/-- The deadlines of a timeout, timer by timer. -/
theorem fires_onTimeout (e : Engine S) {timer : Timer} (hretry : timer ≠ .transactionRetry) :
    Fires timer e e.onTimeout := by
  have hcall := times_fireCallTimeout e
  rw [onTimeout]
  generalize he₁ : e.fireCallTimeout = e₁ at hcall ⊢
  obtain ⟨htimes, hnow, -⟩ := hcall
  have hskip : timer ≠ .callTimeout → Skips timer e e₁ :=
    fun h => htimes.skips hnow hretry (by simpa using h)
  cases timer with
  | callTimeout =>
      have hfire : Fires .callTimeout e e₁ := he₁ ▸ fires_callTimeout e
      obtain ⟨hsame, -, evs, hlog, hnone⟩ :
          Skips .callTimeout e₁.fireHeartbeat e₁.fireHeartbeat.fireBootRetry :=
        skips_fireBootRetry _ (by simp) hretry
      have hboot : Keeps .callTimeout e₁.fireHeartbeat e₁.fireHeartbeat.fireBootRetry :=
        ⟨evs, hlog, by rw [hnone, hsame]; rfl⟩
      refine hfire.keeps ((keeps_fireHeartbeat e₁).trans (hboot.trans ?_))
      exact keeps_fireDrain _ (by simp) hretry
  | heartbeat =>
      obtain ⟨hsame, -, evs, hlog, hnone⟩ :
          Skips .heartbeat e₁.fireHeartbeat e₁.fireHeartbeat.fireBootRetry :=
        skips_fireBootRetry _ (by simp) hretry
      have hboot : Keeps .heartbeat e₁.fireHeartbeat e₁.fireHeartbeat.fireBootRetry :=
        ⟨evs, hlog, by rw [hnone, hsame]; rfl⟩
      refine (hskip (by simp)).fires ((fires_heartbeat e₁).keeps (hboot.trans ?_))
      exact keeps_fireDrain _ (by simp) hretry
  | bootRetry =>
      refine ((hskip (by simp)).trans (skips_fireHeartbeat e₁ hretry ?_)).fires ?_
      · simp [sendTimers]
      · exact (fires_bootRetry _).keeps (keeps_fireDrain _ (by simp) hretry)
  | transactionRetry => exact absurd rfl hretry
  | drainDeadline =>
      refine ((hskip (by simp)).trans (skips_fireHeartbeat e₁ hretry ?_)).fires ?_
      · simp [sendTimers]
      · exact (skips_fireBootRetry _ (by simp) hretry).fires (fires_drainDeadline _)

/-- The heart beats on through a timeout. -/
theorem beating_onTimeout {e : Engine S} (h : Beating e) : Beating e.onTimeout := by
  have hcall := (times_fireCallTimeout e).2.2 h
  exact beating_fireDrain (beating_fireBootRetry (beating_fireHeartbeat hcall))

end Engine

open Engine

/-! ### The driver -/

/-- Whether this operation is the driver's `Timeout`, and when. -/
def Op.timeoutAt : Op → Option Instant
  | .handle now .timeout => some now
  | _ => none

variable {S : Type} [MessageStore S]

/-- `timers.retain` after a `Timeout`: what is due is dropped. -/
def TimerTable.kept (table : TimerTable) (op : Op) : TimerTable :=
  match op.timeoutAt with
  | some now => table.retain now
  | none => table

/-- **What the driver does to its table** as the engine takes an operation: on a timeout what
is due is dropped, and then the outputs are flushed. -/
def TimerTable.step (table : TimerTable) (e : Engine S) (op : Op) : TimerTable :=
  (outputs (newEvents e op)).foldl flush (table.kept op)

/-- The table after a run. -/
def TimerTable.after (table : TimerTable) (e : Engine S) : List Op → TimerTable
  | [] => table
  | op :: ops => TimerTable.after (table.step e op) (exec e op) ops

/-- The driver's clock is monotonic: when it wakes the engine, it is not behind it. -/
def InTime (e : Engine S) (op : Op) : Prop := ∀ now, op = .handle now .timeout → e.now ≤ now

/-- **The table holds the deadlines of the engine**, and the heart of a station beats. -/
structure Faithful (table : TimerTable) (e : Engine S) : Prop where
  /-- The message timeout runs while a call is outstanding, to its deadline. -/
  callTimeout : table .callTimeout = e.inflight.map InFlight.deadline
  /-- The inactivity timer runs to the next heartbeat. -/
  heartbeat : table .heartbeat = e.heartbeatAt
  /-- The boot retry timer runs to the next `BootNotification`. -/
  bootRetry : table .bootRetry = e.bootRetryAt
  /-- The drain deadline runs while the engine is draining. -/
  drainDeadline : table .drainDeadline = e.draining
  /-- While a message is backing off, the retry timer runs to its next attempt. -/
  transactionRetry : ∀ entry ∈ e.queue, ∀ at_, entry.notBefore = some at_ → e.now < at_ →
    table .transactionRetry = some at_
  /-- An accepted station that is connected and is to send heartbeats of its own has one
  ahead, at most an interval away. -/
  beats : e.connected = true → e.boot = .accepted → e.config.role = .chargingStation →
    e.config.heartbeat = .automatic → ∀ interval, e.heartbeatInterval = some interval →
    0 < interval → ∃ at_, e.heartbeatAt = some at_ ∧ at_ ≤ Instant.saturatingAdd e.now interval

/-- What carries this along a run. -/
structure Minded (table : TimerTable) (e : Engine S) : Prop where
  /-- All timers but the retry timer stand where the engine waits for them. -/
  deadlines : ∀ timer, timer ≠ .transactionRetry → table timer = e.deadline timer
  /-- The retry timer stands where it was last put, unless it was due. -/
  retry : ∀ at_, retryTimer e.log = some at_ → e.now < at_ →
    table .transactionRetry = some at_
  /-- What backs off waits for the retry timer. -/
  waiting : e.Waiting
  /-- The heart beats. -/
  beating : Beating e

omit [MessageStore S] in
theorem Minded.faithful {table : TimerTable} {e : Engine S} (h : Minded table e) :
    Faithful table e where
  callTimeout := h.deadlines .callTimeout (by simp)
  heartbeat := h.deadlines .heartbeat (by simp)
  bootRetry := h.deadlines .bootRetry (by simp)
  drainDeadline := h.deadlines .drainDeadline (by simp)
  transactionRetry := by
    intro entry hentry at_ hat hlt
    obtain ⟨-, htimer, -⟩ := h.waiting.backoff entry hentry at_ hat
    exact h.retry at_ htimer hlt
  beats := by
    intro hup _ hrole hauto interval hinterval hpos
    obtain ⟨hsoon, hsome⟩ := h.beating hrole hauto interval hinterval hpos
    obtain ⟨at_, hat⟩ := Option.ne_none_iff_exists'.mp (hsome hup)
    exact ⟨at_, hat, hsoon at_ hat⟩

omit [MessageStore S] in
/-- The retry timer stands where a history put it last. -/
theorem retryTimer_eq (evs : List Event) :
    retryTimer evs = (lastTimed .transactionRetry evs).join := by
  have hsame : Event.retry = Event.timed .transactionRetry := by
    funext ev
    cases ev with
    | out o =>
        cases o with
        | setTimer timer at_ => cases timer <;> rfl
        | clearTimer timer => cases timer <;> rfl
        | _ => rfl
    | _ => rfl
  rw [retryTimer, hsame, lastTimed]

/-- The clock does not go back. -/
theorem now_le_exec (e : Engine S) (op : Op) : e.now ≤ (exec e op).now := by
  rw [now_exec]
  cases op with
  | handle now input =>
      cases input <;> exact now_le_advance e now
  | callWith now _ _ _ => exact now_le_advance e now
  | respond now _ _ => exact now_le_advance e now
  | respondError now _ _ => exact now_le_advance e now
  | rejectResult now _ _ => exact now_le_advance e now
  | shutdown now _ => exact now_le_advance e now
  | _ => exact le_rfl

/-- A timer is where the last word about it puts it. -/
theorem step_apply (table : TimerTable) (e : Engine S) (op : Op) (timer : Timer) :
    table.step e op timer = (lastTimed timer (newEvents e op)).getD (table.kept op timer) :=
  flush_outputs _ _ timer

/-- **The driver follows the engine** in every timer but the retry timer. -/
theorem step_deadline {table : TimerTable} {e : Engine S} {op : Op} (hclock : InTime e op)
    (h : ∀ timer, timer ≠ .transactionRetry → table timer = e.deadline timer)
    {timer : Timer} (hretry : timer ≠ .transactionRetry) :
    table.step e op timer = (exec e op).deadline timer := by
  rw [step_apply]
  by_cases hop : ∃ now, op = .handle now .timeout
  · -- what is due is dropped on both sides
    obtain ⟨now, rfl⟩ := hop
    obtain ⟨evs, hlog, hfires⟩ := fires_onTimeout (fed e now .timeout) hretry
    have hevs : newEvents e (.handle now .timeout) = .input .timeout :: evs :=
      newEvents_of_log (hlog.trans (List.append_assoc _ _ _))
    have hlast : lastTimed timer (.input .timeout :: evs) = lastTimed timer evs := rfl
    have hnow : (fed e now .timeout).now = now := by
      have hle : e.now ≤ now := hclock now rfl
      change (if e.now < now then now else e.now) = now
      split
      · rfl
      · next hge => exact le_antisymm hle (not_lt.mp hge)
    have hsame : (fed e now .timeout).deadline timer = e.deadline timer := by
      cases timer with
      | transactionRetry => exact absurd rfl hretry
      | _ => rfl
    rw [hnow, hsame, ← h timer hretry] at hfires
    rw [hevs, hlast]
    exact hfires
  · -- nothing is dropped, and the timers are kept
    have hkept : table.kept op = table := by
      cases op with
      | handle now input =>
          cases input with
          | timeout => exact absurd ⟨now, rfl⟩ hop
          | _ => rfl
      | _ => rfl
    obtain ⟨evs, hlog, hminds⟩ := (minds_exec e fun now h => hop ⟨now, h⟩).times
    rw [hkept, newEvents_of_log hlog, h timer hretry]
    exact (hminds timer hretry).1

/-- What is not due is kept. -/
theorem kept_of_lt {table : TimerTable} {timer : Timer} {at_ : Instant}
    (h : table timer = some at_) (e : Engine S) {op : Op} (hlt : (exec e op).now < at_) :
    table.kept op timer = some at_ := by
  unfold TimerTable.kept
  rcases hat : op.timeoutAt with _ | now
  · exact h
  · obtain rfl : op = .handle now .timeout := by
      cases op with
      | handle now' input =>
          cases input with
          | timeout => exact congrArg (Op.handle · .timeout) (Option.some.inj hat)
          | _ => exact absurd hat (by simp [Op.timeoutAt])
      | _ => exact absurd hat (by simp [Op.timeoutAt])
    have hnow : now ≤ (exec e (.handle now .timeout)).now := by
      rw [now_exec]
      change now ≤ if e.now < now then now else e.now
      split
      · exact le_rfl
      · next hge => exact not_lt.mp hge
    have hlater : now < at_ := hnow.trans_lt hlt
    simp [TimerTable.retain, h, Option.filter_some, hlater]

/-- The retry timer stands where it was last put, unless it was due. -/
theorem step_retry {table : TimerTable} {e : Engine S} {op : Op}
    (h : ∀ at_, retryTimer e.log = some at_ → e.now < at_ → table .transactionRetry = some at_)
    {at_ : Instant} (hat : retryTimer (exec e op).log = some at_) (hlt : (exec e op).now < at_) :
    table.step e op .transactionRetry = some at_ := by
  rw [step_apply]
  rw [log_exec, retryTimer_eq, lastTimed_append] at hat
  rcases hlast : lastTimed .transactionRetry (newEvents e op) with _ | value
  · rw [hlast, Option.none_or, ← retryTimer_eq] at hat
    exact kept_of_lt (h at_ hat ((now_le_exec e op).trans_lt hlt)) e hlt
  · rw [hlast, Option.some_or, Option.join_some] at hat
    exact hat

/-- **The driver follows every operation of the engine.** -/
theorem Minded.exec {table : TimerTable} {e : Engine S} (h : Minded table e) {op : Op}
    (hclock : InTime e op) : Minded (table.step e op) (exec e op) where
  deadlines := fun _ hretry => step_deadline hclock h.deadlines hretry
  retry := fun _ hat hlt => step_retry h.retry hat hlt
  waiting := waiting_exec h.waiting op
  beating := by
    by_cases hop : ∃ now, op = .handle now .timeout
    · obtain ⟨now, rfl⟩ := hop
      exact beating_onTimeout ((minds_fed e now .timeout).beating h.beating)
    · exact (minds_exec e fun now h => hop ⟨now, h⟩).beating h.beating

/-- So it does along a run. -/
theorem Minded.after {table : TimerTable} {e : Engine S} (h : Minded table e) {ops : List Op}
    (hclock : AtEach e ops InTime) : Minded (table.after e ops) (run e ops) := by
  induction ops generalizing table e with
  | nil => exact h
  | cons op ops ih =>
      obtain ⟨hop, hops⟩ := atEach_cons.mp hclock
      exact ih (h.exec hop) hops

omit [MessageStore S] in
/-- Loading the store asks for no timer. -/
theorem ticks_foldl_restore (records : List (Seq × QueuedCall)) (e : Engine S) :
    Ticks [] e (records.foldl restore e) := by
  induction records generalizing e with
  | nil => exact Ticks.refl _ e
  | cons record records ih =>
      have hrestore : Ticks [] e (e.restore record) :=
        ticks_of_eq _ [.accepted _] rfl (fun ev hev => List.mem_singleton.mp hev ▸ fun _ _ => rfl)
          rfl rfl rfl rfl rfl rfl rfl rfl
      exact hrestore.trans (ih (e.restore record))

omit [MessageStore S] in
theorem retryTimer_foldl_restore (records : List (Seq × QueuedCall)) (e : Engine S) :
    retryTimer (records.foldl restore e).log = retryTimer e.log := by
  induction records generalizing e with
  | nil => rfl
  | cons record records ih => exact (ih (e.restore record)).trans (retryTimer_concat e.log rfl)

/-- A driver starts with no timer, and an engine with no deadline. -/
theorem minded_withStore {config : EngineConfig} {store : S} {ids : ℕ → MessageId}
    {e : Engine S} (h : Engine.withStore config store ids = .ok e) :
    Minded (fun _ => none) e := by
  have hwaiting := waiting_withStore h
  obtain ⟨records, -, rfl⟩ := eq_of_withStore h
  have hload := ticks_foldl_restore records (fresh config store ids)
  refine ⟨fun timer hretry => ?_, fun at_ hat _ => ?_, hwaiting, hload.beating ?_⟩
  · rw [hload.times.untouched hretry (by simp)]
    cases timer with
    | transactionRetry => exact absurd rfl hretry
    | _ => rfl
  · rw [retryTimer_foldl_restore] at hat
    exact absurd hat (by simp [fresh, retryTimer])
  · intro _ _ interval hinterval
    exact absurd hinterval (by simp [fresh])

/-- **The driver's timers are faithful, and the heart never stops.** In every run whose
driver has a monotonic clock, the table holds exactly the deadlines of the engine. -/
theorem timers_faithful {config : EngineConfig} {store : S} {ids : ℕ → MessageId}
    {e₀ : Engine S} (h : Engine.withStore config store ids = .ok e₀) (ops : List Op)
    (hclock : AtEach e₀ ops InTime) :
    Faithful (TimerTable.after (fun _ => none) e₀ ops) (run e₀ ops) :=
  ((minded_withStore h).after hclock).faithful

end OcppKit

namespace OcppKit.Reference

/-! ### A run -/

/-- An accepted station reports a transaction, waits for the answer in vain, and tries
again. -/
def wokenRun : List Op :=
  [.handle 1 (.connected .v2_0_1), .callWith 1 "BootNotification" .emptyObject {},
    .handle 2 (.received "[3,\"s0\",\x7b\"status\":\"Accepted\",\"interval\":300\x7d]"),
    .callWith 3 "TransactionEvent" firstEvent {}, .handle 30003 .timeout]

/-- It backs off for a minute, and the next heartbeat is five minutes after the last frame. -/
theorem timers_faithful_wokenRun :
    Faithful (TimerTable.after (fun _ => none) (station .v2_0_1) wokenRun)
      (run (station .v2_0_1) wokenRun) ∧
    TimerTable.after (fun _ => none) (station .v2_0_1) wokenRun .transactionRetry =
      some 90003 ∧
    TimerTable.after (fun _ => none) (station .v2_0_1) wokenRun .heartbeat = some 300003 := by
  refine ⟨timers_faithful (withStore_station .v2_0_1) wokenRun ?_, by decide +kernel,
    by decide +kernel⟩
  have hother : ∀ {e : Engine MemStore} {op : Op}, op.timeoutAt = none → InTime e op := by
    rintro e op hop now rfl
    exact absurd hop (by simp [Op.timeoutAt])
  refine atEach_cons.mpr ⟨hother rfl, atEach_cons.mpr ⟨hother rfl, ?_⟩⟩
  refine atEach_cons.mpr ⟨hother rfl, atEach_cons.mpr ⟨hother rfl, ?_⟩⟩
  refine atEach_cons.mpr ⟨fun now hop => ?_, atEach_nil _ _⟩
  obtain rfl : 30003 = now := by simpa using hop
  decide +kernel

end OcppKit.Reference
