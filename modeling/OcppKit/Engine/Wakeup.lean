import OcppKit.Engine.Pump
import OcppKit.Engine.Legal

/-!
# Who wakes the queue

A message that may go out is sent by the operation that lets it: every operation that ends
in `OcppKit.Engine.pump` leaves nothing that may go out. The others leave what was there,
and a message that only waited for the clock is left to the retry timer, which stands at
its instant (`OcppKit.Engine.Waiting`).

`OcppKit.nothing_oversleeps`: this is all that is ever left, as long as no operation that
does not pump takes something away that held a message back. Withdrawing the oldest
transaction does, and so does a timeout that finds the drain out of time.
-/

namespace OcppKit

variable [Externals]

namespace Engine

variable {S : Type} [MessageStore S]

/-! ### What `eligible` looks at -/

omit [MessageStore S] in
theorem clear_congr {e e' : Engine S} (hnow : e'.now = e.now) (hconfig : e'.config = e.config)
    (hboot : e'.boot = e.boot ∨ e.config.role = .csms) (entry : Pending) :
    e'.clear entry = e.clear entry := by
  rw [clear, clear, hnow, hconfig]
  rcases hboot with hboot | hrole
  · rw [hboot]
  · rw [hrole]
    simp

omit [MessageStore S] in
/-- It looks at the queue, the clock, the configuration, and at a station the boot state. -/
theorem eligible_congr {e e' : Engine S} (hqueue : e'.queue = e.queue) (hnow : e'.now = e.now)
    (hconfig : e'.config = e.config) (hboot : e'.boot = e.boot ∨ e.config.role = .csms)
    (index : ℕ) : e'.eligible index = e.eligible index := by
  rw [Bool.eq_iff_iff, eligible_iff, eligible_iff, oldestTransactional, oldestTransactional,
    hqueue]
  simp only [clear_congr hnow hconfig hboot]

omit [MessageStore S] in
theorem eligible_checkDrain (e : Engine S) (index : ℕ) :
    e.checkDrain.eligible index = e.eligible index := by
  rw [checkDrain]
  split
  · exact eligible_congr rfl rfl rfl (Or.inl rfl) index
  · rfl

omit [MessageStore S] in
/-- What an idle station may send, it may send in any boot state. -/
theorem eligible_of_idle {e e' : Engine S} (hqueue : e'.queue = e.queue) (hnow : e'.now = e.now)
    (hconfig : e'.config = e.config) (hboot : e'.boot = e.boot ∨ e'.boot = .idle) {index : ℕ}
    (h : e'.eligible index = true) : e.eligible index = true := by
  obtain ⟨entry, hget, hclear, hold⟩ := eligible_iff.mp h
  rw [oldestTransactional, hqueue] at hold
  refine eligible_iff.mpr ⟨entry, hqueue ▸ hget, ?_, hold⟩
  rcases hboot with hboot | hidle
  · rw [← clear_congr hnow hconfig (Or.inl hboot)]
    exact hclear
  · rw [clear, hidle, hnow, hconfig] at hclear
    rw [clear]
    simp only [Bool.and_eq_true, Bool.or_eq_true, BootState.allowsTraffic] at hclear ⊢
    refine ⟨hclear.1, ?_⟩
    tauto

/-! ### What is left to the retry timer -/

/-- **The message only waited for the clock**, and the retry timer stands at its instant. -/
structure Overslept (e e' : Engine S) (index : ℕ) : Prop where
  /-- Before the operation it might not go out. -/
  before : e.eligible index = false
  /-- It might have, had the clock stood where it stands now. -/
  clock : { e with now := e'.now }.eligible index = true
  /-- The operation moves the clock past its instant, where the retry timer stands. -/
  timer : ∃ entry at_, e.queue[index]? = some entry ∧ e'.queue[index]? = some entry ∧
    entry.notBefore = some at_ ∧ e.now < at_ ∧ at_ ≤ e'.now ∧ retryTimer e'.log = some at_

omit [MessageStore S] in
theorem overslept_of_clock {e e' : Engine S} (hw : e.Waiting) (hqueue : e'.queue = e.queue)
    (htimer : retryTimer e'.log = retryTimer e.log) {index : ℕ}
    (hbefore : e.eligible index = false)
    (hclock : { e with now := e'.now }.eligible index = true) : Overslept e e' index := by
  refine ⟨hbefore, hclock, ?_⟩
  obtain ⟨entry, hget, hclear, hold⟩ := eligible_iff.mp hclock
  have hget' : e.queue[index]? = some entry := hget
  have hblocked : e.clear entry = false := by
    refine Bool.eq_false_of_not_eq_true fun hclear' => ?_
    exact absurd (eligible_iff.mpr ⟨entry, hget', hclear', hold⟩) (by simp [hbefore])
  -- of what holds a message back, the clock only touches the back-off
  let gate := !e.config.enforceBootGate || e.config.role ≠ .chargingStation ||
    e.boot.allowsTraffic || entry.action = "BootNotification" || entry.triggered
  have hnow : (!entry.notBefore.any (fun at_ => e'.now < at_) && gate) = true := hclear
  have hthen : (!entry.notBefore.any (fun at_ => e.now < at_) && gate) = false := hblocked
  rw [Bool.and_eq_true] at hnow
  rw [hnow.2, Bool.and_true] at hthen
  rcases hat : entry.notBefore with _ | at_
  · exact absurd hthen (by simp [hat])
  · have hle : at_ ≤ e'.now := by simpa [hat] using hnow.1
    have hlt : e.now < at_ := by simpa [hat] using hthen
    obtain ⟨-, hset, -⟩ := hw.backoff entry (List.mem_of_getElem? hget') at_ hat
    exact ⟨entry, at_, hget', by rw [hqueue]; exact hget', hat, hlt, hle, htimer.trans hset⟩

/-- Something might go out, and nothing is outstanding. -/
def Ready (e : Engine S) : Prop :=
  e.connected = true ∧ e.inflight = none ∧ ∃ index, e.eligible index = true

omit [MessageStore S] in
theorem not_ready_of_nil {e : Engine S} (h : e.queue = []) : ¬e.Ready := by
  rintro ⟨-, -, index, helig⟩
  obtain ⟨entry, hget, -⟩ := eligible_iff.mp helig
  rw [h] at hget
  exact absurd hget (by simp)

/-- The engine without the message of this handle. -/
def without (e : Engine S) (token : CallToken) : Engine S :=
  { e with queue := e.queue.eraseP fun entry => entry.token = token }

/-- The outstanding call, if it is due at this time. -/
def dueCall (e : Engine S) (now : Instant) : Option InFlight :=
  e.inflight.filter fun f => f.deadline ≤ (e.advance now).now

/-- The engine once the timers that are due have fired, except for what that sends: the
outstanding call is back in the queue or gone, and a station boots again. -/
def elapsed (e : Engine S) (now : Instant) : Engine S :=
  { e.advance now with
    boot := if e.bootRetryAt.any (fun at_ => at_ ≤ (e.advance now).now) then .idle else e.boot
    inflight := if (e.dueCall now).isSome then none else e.inflight
    queue := match e.dueCall now with
      | some f =>
          if f.transactional && e.config.retry.mayRetry f.attempts then
            f.requeued (Instant.saturatingAdd (e.advance now).now
              (e.config.retry.delayAfter f.attempts)) :: e.queue
          else e.queue
      | none => e.queue }

end Engine

open Engine

variable {S : Type} [MessageStore S]

/-- The operation is one that is to leave nothing behind. -/
def Op.acts : Op → Bool
  | .setCallTimeout _ | .setIdGenerator _ | .pollOutput | .drain => false
  | _ => true

/-- **The operation leaves nothing that might go out**, but for what only waited for the
clock. -/
def Woken (e : Engine S) (op : Op) : Prop :=
  op.acts = true → (exec e op).connected = true → (exec e op).inflight = none →
    ∀ index, (exec e op).eligible index = true → Overslept e (exec e op) index

/-- **The operation leaves a message behind**: it does not pump, and something might go out –
before it already, or because of what it takes away. -/
def LeavesBehind (e : Engine S) : Op → Prop
  | .handle _ (.connected _) | .handle _ .disconnected => False
  | .handle _ (.received _) => e.Ready
  | .handle now .timeout => e.draining.any (fun deadline => deadline ≤ (e.advance now).now) = true ∧
      (e.elapsed now).Ready ∧ (e.inflight = none → e.Ready)
  | .callWith _ action payload options => e.Ready ∧ ¬e.Accepts action payload options
  | .respond _ _ _ | .respondError _ _ _ | .rejectResult _ _ _ | .shutdown _ _ => e.Ready
  | .cancel token => (e.without token).Ready
  | .setCallTimeout _ | .setIdGenerator _ | .pollOutput | .drain => False

/-! ### The invariant -/

omit [MessageStore S] in
/-- Looking at the drain changes nothing here but the history. -/
theorem checkDrain_frame (e : Engine S) : e.checkDrain.connected = e.connected ∧
    e.checkDrain.inflight = e.inflight ∧ e.checkDrain.queue = e.queue ∧
    e.checkDrain.now = e.now ∧ retryTimer e.checkDrain.log = retryTimer e.log := by
  rw [checkDrain]
  split
  · refine ⟨rfl, rfl, rfl, rfl, ?_⟩
    exact (retryTimer_concat _ rfl).trans (retryTimer_concat _ rfl)
  · exact ⟨rfl, rfl, rfl, rfl, rfl⟩

omit [MessageStore S] in
theorem waiting_checkDrain {e : Engine S} (h : e.Waiting) : e.checkDrain.Waiting := by
  obtain ⟨-, hslot, hqueue, -, htimer⟩ := checkDrain_frame e
  constructor
  · rw [hqueue]
    exact h.head
  · rw [hqueue, hslot, htimer]
    exact h.backoff

omit [MessageStore S] in
theorem waiting_started {e : Engine S} (h : e.Waiting) (op : Op) : (e.started op).Waiting := by
  have htimer : retryTimer (e.started op).log = retryTimer e.log := by
    rw [log_started]
    refine retryTimer_append ?_
    cases op <;> rfl
  have hqueue : (e.started op).queue = e.queue := by
    cases op with
    | handle now input => cases input <;> rfl
    | _ => rfl
  have hslot : (e.started op).inflight = e.inflight := by
    cases op with
    | handle now input => cases input <;> rfl
    | _ => rfl
  constructor
  · rw [hqueue]
    exact h.head
  · rw [hqueue, hslot, htimer]
    exact h.backoff

/-- **Every operation leaves what waits at the head of the queue.** -/
theorem waiting_exec {e : Engine S} (h : e.Waiting) (op : Op) : (exec e op).Waiting := by
  have hstart := waiting_started h op
  have hshape := exec_shape e op
  generalize exec e op = e' at hshape
  cases hshape with
  | quiet _ _ _ hq => exact hq.toStill.waiting hstart
  | connected _ _ e₁ hq => exact (tame_pump e₁).waiting (hq.toStill.waiting hstart)
  | accepted _ _ _ _ e₁ _ ht => exact (tame_pump e₁).waiting (ht.waiting hstart)
  | refused _ _ _ _ _ _ hq => exact hq.toStill.waiting hstart
  | answered _ _ e₁ _ ht =>
      exact waiting_checkDrain ((tame_pump e₁).waiting (ht.waiting hstart))
  | timeout _ e₁ ht _ =>
      exact waiting_checkDrain ((tame_pump e₁).waiting (ht.waiting hstart))
  | ranOut _ e₁ ht _ =>
      obtain ⟨hhead, hback⟩ := ht.waiting hstart
      have htimer : retryTimer (e₁.emit (.close .drainTimedOut)).log = retryTimer e₁.log :=
        retryTimer_concat _ rfl
      exact ⟨hhead, fun p hp at_ hat => htimer ▸ hback p hp at_ hat⟩
  | disconnected _ e₁ ht => exact waiting_checkDrain (ht.waiting hstart)
  | cancelled _ index entry _ _ =>
      exact (still_abandon _ entry .cancelled).waiting (h.sublist (List.eraseIdx_sublist _ _))
  | shutdown now deadline _ =>
      have htimer : retryTimer ({ e.advance now with draining := some deadline }.emit
          (.setTimer .drainDeadline deadline)).log = retryTimer e.log := retryTimer_concat _ rfl
      exact waiting_checkDrain ⟨h.head, fun p hp at_ hat => htimer ▸ h.backoff p hp at_ hat⟩

omit [MessageStore S] in
theorem notBefore_foldl_restore (records : List (Seq × QueuedCall)) (e : Engine S)
    (h : ∀ p ∈ e.queue, p.notBefore = none) :
    ∀ p ∈ (records.foldl restore e).queue, p.notBefore = none := by
  induction records generalizing e with
  | nil => exact h
  | cons record records ih =>
      refine ih (e.restore record) fun p hp => ?_
      rcases List.mem_append.mp hp with hp | hp
      · exact h p hp
      · obtain rfl := List.mem_singleton.mp hp
        rfl

/-- An engine starts with nothing that waits. -/
theorem waiting_withStore {config : EngineConfig} {store : S} {ids : ℕ → MessageId}
    {e : Engine S} (h : Engine.withStore config store ids = .ok e) : e.Waiting := by
  obtain ⟨records, -, rfl⟩ := eq_of_withStore h
  have hnone := notBefore_foldl_restore records (fresh config store ids)
    fun p hp => absurd hp List.not_mem_nil
  refine ⟨fun p hp => hnone p (List.mem_of_mem_tail hp), fun p hp at_ hat => ?_⟩
  exact absurd ((hnone p hp).symm.trans hat) (by simp)

/-! ### One operation -/

omit [MessageStore S] in
/-- **What does not pump leaves only what waited for the clock**, if nothing might go out
before. -/
theorem woken_of_quiet {e e₁ e' : Engine S} (hw : e.Waiting) (hready : ¬e.Ready)
    (h : Quiet e₁ e') (hqueue₁ : e₁.queue = e.queue) (hslot₁ : e₁.inflight = e.inflight)
    (hconnected₁ : e₁.connected = e.connected) (hconfig₁ : e₁.config = e.config)
    (hboot₁ : e₁.boot = e.boot) (htimer₁ : retryTimer e₁.log = retryTimer e.log)
    (hup : e'.connected = true) (hfree : e'.inflight = none) (index : ℕ)
    (helig : e'.eligible index = true) : Overslept e e' index := by
  have hconnected : e.connected = true := (h.connected.trans hconnected₁).symm.trans hup
  have hslot : e.inflight = none := (h.inflight.trans hslot₁).symm.trans hfree
  refine overslept_of_clock hw (h.queue.trans hqueue₁) (h.timer.trans htimer₁) ?_ ?_
  · exact Bool.eq_false_of_not_eq_true fun hb => hready ⟨hconnected, hslot, index, hb⟩
  · rw [← helig]
    refine (eligible_congr (e := { e with now := e'.now }) (h.queue.trans hqueue₁) rfl
      (h.config.trans hconfig₁) ?_ index).symm
    rcases h.boot with hboot | hrole
    · exact Or.inl (hboot.trans hboot₁)
    · exact Or.inr (hconfig₁ ▸ hrole)

/-- What ends in pumping leaves nothing that might go out. -/
theorem not_eligible_of_pump {e₁ : Engine S} (hup : e₁.pump.connected = true)
    (hfree : e₁.pump.inflight = none) (index : ℕ) : e₁.pump.eligible index = false :=
  not_eligible_pump ((tame_pump e₁).connected.symm.trans hup) hfree index

/-- Withdrawing a message is quiet, once it has left the queue. -/
theorem quiet_cancel (e : Engine S) (token : CallToken) :
    Quiet (e.without token) (exec e (.cancel token)) := by
  change Quiet (e.without token) (e.cancel token).2
  rw [without, cancel]
  have hfind := @List.eraseP_eq_eraseIdx _ e.queue fun entry => decide (entry.token = token)
  split
  · next hindex =>
      rw [hindex] at hfind
      rw [hfind]
      exact Quiet.refl e
  · next index hindex =>
      rw [hindex] at hfind
      obtain ⟨hlt, -⟩ := List.findIdx?_eq_some_iff_getElem.mp hindex
      simp only [hfind, List.getElem?_eq_getElem hlt]
      exact quiet_abandon _ _ _

/-- A message is withdrawn: what might go out now is left. -/
theorem woken_cancel {e : Engine S} {token : CallToken} (h : ¬(e.without token).Ready) :
    Woken e (.cancel token) := by
  have hquiet := quiet_cancel e token
  intro _ hup hfree index helig
  refine absurd ⟨hquiet.connected.symm.trans hup, hquiet.inflight.symm.trans hfree, index, ?_⟩ h
  rw [← helig]
  exact (eligible_congr hquiet.queue hquiet.now hquiet.config hquiet.boot index).symm

/-- While draining, the heartbeat timer sends nothing. -/
theorem quiet_fireHeartbeat {e : Engine S} (h : e.draining.isSome = true) :
    Quiet e e.fireHeartbeat := by
  have hclear : Quiet e { e with heartbeatAt := none } :=
    ⟨(Still.refl { e with heartbeatAt := none }).of_eq rfl rfl rfl rfl rfl rfl rfl, rfl,
      Or.inl rfl⟩
  have hsend : { e with heartbeatAt := none }.sendHeartbeat = { e with heartbeatAt := none } := by
    rw [sendHeartbeat, callWith]
    have hadvance : ({ e with heartbeatAt := none } : Engine S).advance e.now =
        { e with heartbeatAt := none } := advance_of_le le_rfl
    simp only [hadvance, h, if_true]
  rw [fireHeartbeat]
  split
  · split
    · refine hclear.trans (Quiet.trans ?_ (quiet_armHeartbeat _))
      split
      · rw [hsend]
        exact Quiet.refl _
      · exact Quiet.refl _
    · exact Quiet.refl e
  · exact Quiet.refl e

/-- **The timers have fired**, while draining: but for the history, the engine is as
`elapsed` says. -/
structure Fired (e e' : Engine S) : Prop where
  /-- The queue is as it says. -/
  queue : e'.queue = e.queue
  /-- So is the slot. -/
  inflight : e'.inflight = e.inflight
  /-- So is the connection. -/
  connected : e'.connected = e.connected
  /-- So is the configuration. -/
  config : e'.config = e.config
  /-- So is the clock. -/
  now : e'.now = e.now
  /-- So is the boot state. -/
  boot : e'.boot = e.boot

theorem queue_requeueOrFail (e : Engine S) (f : InFlight) (why : CallFailure) :
    (e.requeueOrFail f why).queue =
      if f.transactional && e.config.retry.mayRetry f.attempts then
        f.requeued (Instant.saturatingAdd e.now (e.config.retry.delayAfter f.attempts)) :: e.queue
      else e.queue := by
  rw [requeueOrFail]
  split
  · exact congrArg _ (still_storeAttempts e f.seq f.attempts).queue
  · exact (still_ackStore e f.seq).queue

theorem inflight_requeueOrFail (e : Engine S) (f : InFlight) (why : CallFailure) :
    (e.requeueOrFail f why).inflight = e.inflight := by
  rw [requeueOrFail]
  split
  · exact (still_storeAttempts e f.seq f.attempts).inflight
  · exact (still_ackStore e f.seq).inflight

/-- What becomes of the outstanding call when it is due. -/
theorem fireCallTimeout_frame (e : Engine S) (now : Instant) :
    (fed e now .timeout).fireCallTimeout.queue = (e.elapsed now).queue ∧
      (fed e now .timeout).fireCallTimeout.inflight = (e.elapsed now).inflight := by
  have hslot : (fed e now .timeout).inflight = e.inflight := rfl
  rw [fireCallTimeout, elapsed, dueCall, hslot]
  rcases hf : e.inflight with _ | f
  · exact ⟨rfl, hf⟩
  · by_cases hdue : f.deadline ≤ (e.advance now).now
    · have hfed : f.deadline ≤ (fed e now .timeout).now := hdue
      simp only [Option.filter_some, hdue, decide_true, if_true, hfed]
      exact ⟨queue_requeueOrFail _ f _, inflight_requeueOrFail _ f _⟩
    · have hfed : ¬f.deadline ≤ (fed e now .timeout).now := hdue
      simp only [Option.filter_some, hdue, decide_false, if_false, hfed]
      exact ⟨rfl, hf⟩

theorem fired_timeout {e : Engine S} (h : e.draining.isSome = true) (now : Instant) :
    Fired (e.elapsed now) (fed e now .timeout).fireCallTimeout.fireHeartbeat.fireBootRetry := by
  obtain ⟨hqueue, hslot⟩ := fireCallTimeout_frame e now
  have hdraining := (tame_fireCallTimeout (fed e now .timeout)).draining
  have hheart := quiet_fireHeartbeat (e := (fed e now .timeout).fireCallTimeout)
    (by rw [hdraining]; exact h)
  have hsetting := (works_fireHeartbeat (fed e now .timeout).fireCallTimeout).setting.trans
    (leaves_fireCallTimeout (fed e now .timeout)).2
  replace hqueue := hheart.queue.trans hqueue
  replace hslot := hheart.inflight.trans hslot
  generalize (fed e now .timeout).fireCallTimeout.fireHeartbeat = e₂ at hsetting hqueue hslot ⊢
  have hat : e₂.bootRetryAt = e.bootRetryAt := congrArg Setting.bootRetryAt hsetting
  have hnow : e₂.now = (e.advance now).now := congrArg Setting.now hsetting
  have hretry := still_fireBootRetry e₂
  refine ⟨hretry.queue.trans hqueue, hretry.inflight.trans hslot,
    hretry.connected.trans (congrArg Setting.connected hsetting),
    hretry.config.trans (congrArg Setting.config hsetting), ?_, ?_⟩
  · rw [fireBootRetry]
    split
    · split <;> exact hnow
    · exact hnow
  · rw [fireBootRetry, elapsed, hat, hnow]
    rcases e.bootRetryAt with _ | at_
    · exact congrArg Setting.boot hsetting
    · by_cases hdue : at_ ≤ (e.advance now).now
      · simp only [hdue, if_true, Option.any_some, decide_true]
        rfl
      · simp only [hdue, if_false, Option.any_some, decide_false]
        exact congrArg Setting.boot hsetting

/-- With the slot free, the timers that fire while draining leave the retry timer alone. -/
theorem retryTimer_fired {e : Engine S} (h : e.draining.isSome = true) (hfree : e.inflight = none)
    (now : Instant) :
    retryTimer (fed e now .timeout).fireCallTimeout.fireHeartbeat.fireBootRetry.log =
      retryTimer e.log := by
  have hcall : (fed e now .timeout).fireCallTimeout = fed e now .timeout := by
    have hslot : (fed e now .timeout).inflight = none := hfree
    rw [fireCallTimeout, hslot]
  rw [hcall]
  refine (still_fireBootRetry _).timer.trans ?_
  refine (quiet_fireHeartbeat (e := fed e now .timeout) h).timer.trans ?_
  exact retryTimer_concat _ rfl

omit [MessageStore S] in
/-- Before the timers fire, a timeout out of time leaves what only waited for the clock,
if the slot was free. -/
theorem woken_ranOut {e e₁ : Engine S} {now : Instant} (hw : e.Waiting) (hready : ¬e.Ready)
    (hfree : e.inflight = none) (h : Fired (e.elapsed now) e₁)
    (htimer : retryTimer e₁.log = retryTimer e.log) (hup : e₁.connected = true) {index : ℕ}
    (helig : e₁.eligible index = true) : Overslept e e₁ index := by
  have hdue : e.dueCall now = none := by
    rw [dueCall, hfree]
    rfl
  have hqueue : e₁.queue = e.queue := by
    rw [h.queue, elapsed, hdue]
  refine overslept_of_clock hw hqueue htimer ?_ ?_
  · refine Bool.eq_false_of_not_eq_true fun hb => hready ⟨?_, hfree, index, hb⟩
    exact h.connected.symm.trans hup
  · refine eligible_of_idle (e := { e with now := e₁.now }) hqueue rfl h.config ?_ helig
    rw [h.boot, elapsed]
    dsimp only
    split
    · exact Or.inr rfl
    · exact Or.inl rfl

/-- A timeout leaves nothing behind, or what the drain that runs out leaves. -/
theorem woken_timeout {e : Engine S} (hw : e.Waiting) {now : Instant}
    (h : ¬LeavesBehind e (.handle now .timeout)) : Woken e (.handle now .timeout) := by
  have hexec : exec e (.handle now .timeout) =
      (fed e now .timeout).fireCallTimeout.fireHeartbeat.fireBootRetry.fireDrain := rfl
  have htame := (tame_fireCallTimeout (fed e now .timeout)).trans (tame_fireHeartbeat _)
  have hdraining := (htame.trans (still_fireBootRetry _).tame).draining
  rw [Woken, hexec, fireDrain]
  intro _ hup hfree index helig
  split at hup
  · next hout =>
      rw [if_pos hout] at hfree helig ⊢
      rw [hdraining, Bool.and_eq_true] at hout
      have hsome : e.draining.isSome = true := Option.isSome_of_any hout.1
      have hfired := fired_timeout hsome now
      have htimer := fun hslot => retryTimer_fired hsome hslot now
      generalize (fed e now .timeout).fireCallTimeout.fireHeartbeat.fireBootRetry = e₂ at *
      have helapsed : (e.elapsed now).Ready := by
        refine ⟨hfired.connected.symm.trans hup, hfired.inflight.symm.trans hfree, index, ?_⟩
        rw [← helig]
        exact (eligible_congr hfired.queue hfired.now hfired.config (Or.inl hfired.boot)
          index).symm
      have htime : e.draining.any (fun deadline => deadline ≤ (e.advance now).now) = true := by
        have hnow : e₂.now = (e.advance now).now := hfired.now
        rw [← hnow]
        exact hout.1
      -- the slot was free all along: nobody else would have pumped
      have hlate : ¬(e.inflight = none → e.Ready) := fun hready => h ⟨htime, helapsed, hready⟩
      obtain ⟨hslot, hready⟩ := Classical.not_imp.mp hlate
      have hclose : retryTimer ({ e₂.emit (.close .drainTimedOut) with draining := none } :
          Engine S).log = retryTimer e.log := (retryTimer_concat _ rfl).trans (htimer hslot)
      have hclosed : Fired (e.elapsed now)
          { e₂.emit (.close .drainTimedOut) with draining := none } :=
        ⟨hfired.queue, hfired.inflight, hfired.connected, hfired.config, hfired.now, hfired.boot⟩
      exact woken_ranOut hw hready hslot hclosed hclose hup helig
  · next hout =>
      rw [if_neg hout] at hfree helig ⊢
      rw [(checkDrain_frame _).1] at hup
      rw [(checkDrain_frame _).2.1] at hfree
      rw [eligible_checkDrain] at helig
      exact absurd helig (by simp [not_eligible_of_pump hup hfree index])

/-- **One operation** leaves nothing that might go out, but for what only waited for the
clock, unless it leaves something behind. -/
theorem woken_exec {e : Engine S} (hw : e.Waiting) {op : Op} (h : ¬LeavesBehind e op) :
    Woken e op := by
  have hpump : ∀ e₁ : Engine S, exec e op = e₁.pump → Woken e op := by
    intro e₁ hexec _ hup hfree index helig
    rw [hexec] at hup hfree helig
    exact absurd helig (by simp [not_eligible_of_pump hup hfree index])
  have hcheck : ∀ e₁ : Engine S, exec e op = e₁.pump.checkDrain → Woken e op := by
    intro e₁ hexec _ hup hfree index helig
    rw [hexec, (checkDrain_frame e₁.pump).1] at hup
    rw [hexec, (checkDrain_frame e₁.pump).2.1] at hfree
    rw [hexec, eligible_checkDrain] at helig
    exact absurd helig (by simp [not_eligible_of_pump hup hfree index])
  have hshape := exec_shape e op
  generalize hexec : exec e op = e' at hshape
  cases hshape with
  | quiet _ _ hmay hq =>
      cases op with
      | handle now input =>
          cases input with
          | received text =>
              intro _ hup hfree index helig
              rw [hexec] at hup hfree helig ⊢
              exact woken_of_quiet hw h hq rfl rfl rfl rfl rfl (retryTimer_concat _ rfl) hup
                hfree index helig
          | _ => exact absurd hmay (by simp [Op.mayBeQuiet])
      | cancel token => exact woken_cancel h
      | callWith _ _ _ _ => exact absurd hmay (by simp [Op.mayBeQuiet])
      | respond _ _ _ | respondError _ _ _ | rejectResult _ _ _ | shutdown _ _ =>
          intro _ hup hfree index helig
          rw [hexec] at hup hfree helig ⊢
          exact woken_of_quiet hw h hq rfl rfl rfl rfl rfl rfl hup hfree index helig
      | _ => exact fun hacts => absurd hacts (by simp [Op.acts])
  | connected _ _ e₁ _ => exact hpump e₁ hexec
  | accepted _ _ _ _ e₁ _ _ => exact hpump e₁ hexec
  | refused _ _ _ _ _ hnot hq =>
      have hready : ¬e.Ready := fun hready => h ⟨hready, hnot⟩
      intro _ hup hfree index helig
      rw [hexec] at hup hfree helig ⊢
      exact woken_of_quiet hw hready hq rfl rfl rfl rfl rfl rfl hup hfree index helig
  | answered _ _ e₁ _ _ => exact hcheck e₁ hexec
  | timeout now e₁ _ _ => exact hcheck e₁ hexec
  | ranOut now e₁ _ _ => exact woken_timeout hw h
  | disconnected now e₁ ht =>
      intro _ hup
      rw [hexec, (checkDrain_frame e₁).1, ht.connected] at hup
      exact absurd hup (by simp [started])
  | cancelled token _ _ _ _ => exact woken_cancel h
  | shutdown now deadline _ =>
      have hready : ¬e.Ready := h
      intro _ hup hfree index helig
      rw [hexec] at hup hfree helig ⊢
      let e₁ : Engine S := { e.advance now with draining := some deadline }.emit
        (.setTimer .drainDeadline deadline)
      obtain ⟨hconnected, hslot, hqueue, hclock, htimer⟩ := checkDrain_frame e₁
      rw [eligible_checkDrain] at helig
      refine overslept_of_clock hw hqueue (htimer.trans (retryTimer_concat _ rfl)) ?_ ?_
      · refine Bool.eq_false_of_not_eq_true fun hb => hready ⟨?_, ?_, index, hb⟩
        · exact hconnected.symm.trans hup
        · exact hslot.symm.trans hfree
      · have hsame : { e with now := e₁.checkDrain.now }.queue = e₁.queue := rfl
        exact (eligible_congr hsame hclock rfl (Or.inl rfl) index).trans helig

/-- **Nothing oversleeps.** In every run in which no operation that does not pump leaves
something behind, every operation leaves nothing that might go out, but for what only
waited for the clock. -/
theorem nothing_oversleeps {config : EngineConfig} {store : S} {ids : ℕ → MessageId}
    {e₀ : Engine S} (h : Engine.withStore config store ids = .ok e₀) (ops : List Op)
    (hops : AtEach e₀ ops fun e op => ¬LeavesBehind e op) : AtEach e₀ ops Woken := by
  rintro before op after rfl
  refine woken_exec ?_ (hops before op after rfl)
  exact run_invariant Engine.Waiting (fun e op he => waiting_exec he op) (waiting_withStore h)
    before

end OcppKit

namespace OcppKit.Reference

/-! ### A run -/

/-- A station is booted and starts two transactions; the first is not answered, and waits at
the head of the queue, before the second. -/
def blockedRun : List Op :=
  [.handle 1 (.connected .v2_0_1), .callWith 1 "BootNotification" .emptyObject {},
    .handle 2 (.received "[3,\"s0\",\x7b\"status\":\"Accepted\",\"interval\":300\x7d]"),
    .callWith 3 "TransactionEvent" firstEvent {},
    .callWith 3 "TransactionEvent" secondEvent {}, .handle 40000 .timeout]

theorem nothing_oversleeps_blockedRun : AtEach (station .v2_0_1) blockedRun Woken := by
  refine nothing_oversleeps (withStore_station .v2_0_1) blockedRun ?_
  simp only [blockedRun, atEach_cons]
  refine ⟨not_false, ?_, ?_, ?_, ?_, ?_, atEach_nil _ _⟩
  · exact fun h => Engine.not_ready_of_nil (by decide +kernel) h.1
  · exact Engine.not_ready_of_nil (by decide +kernel)
  · exact fun h => Engine.not_ready_of_nil (by decide +kernel) h.1
  · rintro ⟨⟨-, hfree, -⟩, -⟩
    exact absurd hfree (by decide +kernel)
  · rintro ⟨hout, -⟩
    exact absurd hout (by decide +kernel)

/-- **The first transaction is withdrawn, and nothing wakes the second.** -/
theorem transaction_oversleeps :
    ¬AtEach (station .v2_0_1) (blockedRun ++ [.cancel 1]) Woken := by
  intro h
  have hstep := h blockedRun (.cancel 1) [] rfl
  have hleft := hstep rfl (by decide +kernel) (by decide +kernel) 0 (by decide +kernel)
  obtain ⟨entry, at_, -, hget, hat, -⟩ := hleft.timer
  have hqueue : ((exec (run (station .v2_0_1) blockedRun) (.cancel 1)).queue[0]?).map
      Pending.notBefore = some none := by decide +kernel
  rw [hget, Option.map_some, hat] at hqueue
  exact absurd hqueue (by simp)

end OcppKit.Reference
