import OcppKit.Engine.Wakeup

/-!
# The moves of a message

What becomes of a message, told once for the whole engine. It is accepted, it is sent, it
goes back to the head of the queue, its attempts are used up, it is answered or given up;
beside that the clock moves, the boot state changes, and much happens that is of no concern
to any message (`OcppKit.Engine.Aside`). `OcppKit.Engine.Move` lists these moves with what
each of them requires, and `OcppKit.Engine.exec_moves` says that an operation does nothing
else.

Nothing is said here about the store: a message that is put on record carries its record
with it, and it is the count in the queue and in the slot that decides how often it is sent.
-/

namespace OcppKit

variable [Externals]

/-! ### Along a history -/

/-- **At each entry of the history**, this is so of what comes before it and of the
entry. -/
def Along (φ : List Event → Event → Prop) (evs : List Event) : Prop :=
  ∀ before ev after, evs = before ++ ev :: after → φ before ev

theorem along_nil (φ : List Event → Event → Prop) : Along φ [] := by
  intro before ev after h
  exact absurd h (by simp)

theorem Along.concat {φ : List Event → Event → Prop} {evs : List Event} {last : Event}
    (h : Along φ evs) (hlast : φ evs last) : Along φ (evs ++ [last]) := by
  intro before ev after hsplit
  rcases List.eq_nil_or_concat' after with rfl | ⟨after, final, rfl⟩
  · obtain ⟨rfl, hev⟩ := List.append_inj' hsplit rfl
    obtain rfl := List.singleton_inj.mp hev
    exact hlast
  · have hcut : evs ++ [last] = (before ++ ev :: after) ++ [final] := by
      rw [hsplit, List.append_assoc, List.cons_append]
    obtain ⟨rfl, -⟩ := List.append_inj' hcut rfl
    exact h before ev after rfl

/-- What is so of every further entry, whatever comes before it, is so along the history. -/
theorem Along.append {φ : List Event → Event → Prop} {evs more : List Event}
    (h : Along φ evs) (hmore : ∀ ev ∈ more, ∀ before, φ before ev) : Along φ (evs ++ more) := by
  induction more generalizing evs with
  | nil => rwa [List.append_nil]
  | cons ev more ih =>
      rw [List.append_cons]
      refine ih (h.concat (hmore ev List.mem_cons_self evs)) fun ev' hev' => ?_
      exact hmore ev' (List.mem_cons_of_mem ev hev')

/-! ### What is of no concern to a message -/

/-- Whether an entry of the history is of no concern to the messages and the boot state. -/
def Event.aside : Event → Bool
  | .out (.bootState _) => false
  | .out (.outcome ⟨_, _, _, .error .retriesExhausted⟩) => false
  | .accepted _ => false
  | .sent _ _ => false
  | _ => true

namespace Engine

variable {S : Type}

/-- **Between the two states nothing happened to any message**: the queue, the slot, the
clock and the boot state are as they were – but for the boot state of a CSMS, which gates
nothing it sends –, and so is all of the configuration but the message timeout. -/
structure Aside (e e' : Engine S) : Prop where
  /-- Of the configuration, only the message timeout may change. -/
  config : ∃ timeout, e'.config = { e.config with callTimeout := timeout }
  /-- The queue stays. -/
  queue : e'.queue = e.queue
  /-- So does the slot. -/
  inflight : e'.inflight = e.inflight
  /-- So does the clock. -/
  now : e'.now = e.now
  /-- So does the boot state of a station. -/
  boot : e'.boot = e.boot ∨ e.config.role = .csms
  /-- Handles may be issued. -/
  nextToken : e.nextToken ≤ e'.nextToken
  /-- The history grows by entries of no concern. -/
  log : ∃ evs, e'.log = e.log ++ evs ∧ ∀ ev ∈ evs, ev.aside = true

theorem Aside.role {e e' : Engine S} (h : Aside e e') : e'.config.role = e.config.role := by
  obtain ⟨timeout, hconfig⟩ := h.config
  rw [hconfig]

theorem Aside.refl (e : Engine S) : Aside e e :=
  ⟨⟨_, rfl⟩, rfl, rfl, rfl, Or.inl rfl, le_rfl, [], (List.append_nil _).symm,
    fun _ h => absurd h List.not_mem_nil⟩

theorem Aside.trans {e e' e'' : Engine S} (h : Aside e e') (h' : Aside e' e'') :
    Aside e e'' where
  config := by
    obtain ⟨timeout, hconfig⟩ := h.config
    obtain ⟨timeout', hconfig'⟩ := h'.config
    exact ⟨timeout', by rw [hconfig', hconfig]⟩
  queue := h'.queue.trans h.queue
  inflight := h'.inflight.trans h.inflight
  now := h'.now.trans h.now
  boot := by
    rcases h'.boot with hb' | hrole
    · exact h.boot.imp_left hb'.trans
    · exact Or.inr (h.role ▸ hrole)
  nextToken := h.nextToken.trans h'.nextToken
  log := by
    obtain ⟨evs, hlog, hevs⟩ := h.log
    obtain ⟨evs', hlog', hevs'⟩ := h'.log
    refine ⟨evs ++ evs', by rw [hlog', hlog, List.append_assoc], fun ev hev => ?_⟩
    rcases List.mem_append.mp hev with hev | hev
    · exact hevs ev hev
    · exact hevs' ev hev

/-- The other fields do not matter. -/
theorem Aside.of_eq {e₀ e e' : Engine S} (h : Aside e e') (hconfig : e.config = e₀.config)
    (hqueue : e.queue = e₀.queue) (hinflight : e.inflight = e₀.inflight)
    (hnow : e.now = e₀.now) (hboot : e.boot = e₀.boot) (hnext : e.nextToken = e₀.nextToken)
    (hlog : e.log = e₀.log) : Aside e₀ e' where
  config := hconfig ▸ h.config
  queue := h.queue.trans hqueue
  inflight := h.inflight.trans hinflight
  now := h.now.trans hnow
  boot := hboot ▸ hconfig ▸ h.boot
  nextToken := hnext ▸ h.nextToken
  log := hlog ▸ h.log

/-- A state that differs in nothing that matters. -/
theorem aside_of_eq {e e' : Engine S} (hconfig : e'.config = e.config)
    (hqueue : e'.queue = e.queue) (hinflight : e'.inflight = e.inflight)
    (hnow : e'.now = e.now) (hboot : e'.boot = e.boot) (hnext : e'.nextToken = e.nextToken)
    (hlog : e'.log = e.log) : Aside e e' :=
  (Aside.refl e').of_eq hconfig hqueue hinflight hnow hboot hnext hlog

theorem aside_note (e : Engine S) {event : Event} (h : event.aside = true) :
    Aside e (e.note event) := by
  refine ⟨⟨_, rfl⟩, rfl, rfl, rfl, Or.inl rfl, le_rfl, [event], rfl, fun ev hev => ?_⟩
  obtain rfl := List.mem_singleton.mp hev
  exact h

theorem aside_emit (e : Engine S) {o : Output} (h : (Event.out o).aside = true) :
    Aside e (e.emit o) := by
  refine ⟨⟨_, rfl⟩, rfl, rfl, rfl, Or.inl rfl, le_rfl, [.out o], rfl, fun ev hev => ?_⟩
  obtain rfl := List.mem_singleton.mp hev
  exact h

theorem aside_violate (e : Engine S) (v : ProtocolViolation) : Aside e (e.violate v) :=
  aside_emit e rfl

/-- At a CSMS the boot state is of no concern to what is sent. -/
theorem aside_boot {e : Engine S} (h : e.config.role = .csms) (boot : BootState) :
    Aside e { e with boot := boot } :=
  { Aside.refl e with boot := Or.inr h }

theorem aside_mint (e : Engine S) : Aside e { e with nextToken := e.nextToken + 1 } :=
  { Aside.refl e with nextToken := Nat.le_succ _ }

theorem aside_armHeartbeat (e : Engine S) : Aside e e.armHeartbeat := by
  rw [armHeartbeat]
  split
  · exact Aside.refl e
  split
  · exact Aside.refl e
  dsimp only
  split
  · exact Aside.refl e
  · exact (aside_emit { e with heartbeatAt := _ } rfl).of_eq rfl rfl rfl rfl rfl rfl rfl

theorem aside_transmit (e : Engine S) (frame : Frame) : Aside e (e.transmit frame) := by
  rw [transmit]
  split
  · exact (aside_emit e rfl).trans (aside_armHeartbeat _)
  · exact aside_violate e _

theorem aside_answer (e : Engine S) {mark : Event} (h : mark.aside = true) (frame : Frame) :
    Aside e ((e.note mark).transmit frame) :=
  (aside_note e h).trans (aside_transmit _ frame)

theorem aside_checkDrain (e : Engine S) : Aside e e.checkDrain := by
  rw [checkDrain]
  split
  · have hclear : Aside e ({ e with draining := none }.emit (.clearTimer .drainDeadline)) :=
      (aside_emit { e with draining := none } rfl).of_eq rfl rfl rfl rfl rfl rfl rfl
    exact hclear.trans (aside_emit _ rfl)
  · exact Aside.refl e

/-! ### Frames that answer nothing -/

theorem aside_reject (e : Engine S) (id : MessageId) (kind : MessageKind) (error : CallError) :
    Aside e (e.reject id kind error) := by
  rcases kind with _ | _
  · exact aside_answer e rfl _
  · exact Aside.refl e

theorem aside_deliver (e : Engine S) (id : MessageId) (action : String) (payload : RawValue)
    (received : MessageKind) : Aside e (e.deliver id action payload received) := by
  rw [deliver]
  split
  · exact aside_reject e id received _
  dsimp only
  refine Aside.trans ?_ (aside_emit _ rfl)
  have hboot : Aside e (if e.config.role = .csms ∧ action = "BootNotification" then
      { e with boot := .idle } else e) := by
    split
    · next h => exact aside_boot h.1 .idle
    · exact Aside.refl e
  generalize (if e.config.role = .csms ∧ action = "BootNotification" then
    { e with boot := .idle } else e) = e₁ at hboot
  refine hboot.trans ?_
  split
  · exact aside_of_eq rfl rfl rfl rfl rfl rfl rfl
  · exact Aside.refl e₁

theorem aside_admission (e : Engine S) (id : MessageId) : Aside e (e.admission id).2 := by
  rw [admission]
  split
  · exact aside_violate e _
  split
  · exact Aside.refl e
  have hviolate : Aside e (e.violate (.concurrentCall id)) := aside_violate e _
  dsimp only
  split
  · split
    · exact hviolate.trans (aside_violate _ _)
    · exact hviolate.trans (aside_violate _ _)
  · split
    · exact hviolate
    · exact hviolate

theorem aside_onCall (e : Engine S) (id : MessageId) (action : String) (payload : RawValue)
    (received : MessageKind) : Aside e (e.onCall id action payload received) := by
  rw [onCall]
  split
  · exact aside_reject e id received _
  split
  · exact (aside_violate e _).trans (aside_reject _ id received _)
  split
  · exact (aside_violate e _).trans (aside_reject _ id received _)
  split
  · have hadmission := aside_admission e id
    rcases h : e.admission id with ⟨_ | error, e₁⟩ <;> rw [h] at hadmission
    · exact hadmission.trans (aside_deliver e₁ id action payload received)
    · exact hadmission.trans (aside_reject e₁ id received error)
  · exact aside_deliver e id action payload received

theorem aside_onMalformed (e : Engine S) (error : FrameError) :
    Aside e (e.onMalformed error) := by
  rw [onMalformed]
  have hviolate := aside_violate e error.violation
  rcases error.reply e.version with _ | _ | _
  · exact hviolate
  · exact hviolate.trans (aside_answer _ rfl _)
  · exact hviolate.trans (aside_answer _ rfl _)

/-- The clock never goes back. -/
theorem now_le_advance (e : Engine S) (now : Instant) : e.now ≤ (e.advance now).now := by
  change e.now ≤ if e.now < now then now else e.now
  split
  · exact le_of_lt ‹_›
  · exact le_rfl

/-! ### The moves -/

/-- **What can happen to a message**, and what it takes. -/
inductive Move : Engine S → Engine S → Prop
  /-- Nothing happens to any message. -/
  | aside {e e' : Engine S} : Aside e e' → Move e e'
  /-- The clock moves. -/
  | tick (e : Engine S) (now : Instant) : Move e (e.advance now)
  /-- The boot state changes, and this is reported. -/
  | boot {e e' : Engine S} (state : BootState) :
      Aside ({ e with boot := state }.emit (.bootState state)) e' → Move e e'
  /-- A message joins the queue under the next handle. -/
  | accept {e e' : Engine S} (entry : Pending) : entry.token = e.nextToken →
      entry.notBefore = none →
      Aside ({ e with queue := e.queue ++ [entry], nextToken := e.nextToken + 1 }.note
        (.accepted entry)) e' → Move e e'
  /-- Messages leave the queue unsent. -/
  | drop {e e' : Engine S} (queue : List Pending) : queue.Sublist e.queue →
      Aside { e with queue := queue } e' → Move e e'
  /-- A `SEND` that nothing holds back is written. -/
  | sendUnconfirmed {e e' : Engine S} (id : MessageId) (xs : List Pending) (entry : Pending)
      (ys : List Pending) : e.queue = xs ++ entry :: ys → e.clear entry = true →
      Aside ({ e with queue := xs ++ ys }.note (.sent id entry)) e' → Move e e'
  /-- A `CALL` that nothing holds back is written, and takes the free slot. -/
  | sendCall {e e' : Engine S} (id : MessageId) (deadline : Instant) (xs : List Pending)
      (entry : Pending) (ys : List Pending) : e.queue = xs ++ entry :: ys →
      e.clear entry = true → e.inflight = none →
      Aside ({ e with queue := xs ++ ys, inflight := some (entry.launched id deadline) }.note
        (.sent id entry)) e' → Move e e'
  /-- A transaction-related call may be tried again, and goes back to the head of the
  queue. -/
  | requeue {e e' : Engine S} (f : InFlight) : e.inflight = some f → f.transactional = true →
      e.config.retry.mayRetry f.attempts = true →
      Aside { e with
        inflight := none
        queue := f.requeued (Instant.saturatingAdd e.now
          (e.config.retry.delayAfter f.attempts)) :: e.queue } e' → Move e e'
  /-- The attempts of a transaction-related call are used up. -/
  | exhaust {e e' : Engine S} (f : InFlight) : e.inflight = some f → f.transactional = true →
      e.config.retry.mayRetry f.attempts = false → Aside { e with inflight := none } e' →
      Move e (e'.emit (.outcome ⟨f.token, some f.id, f.action, .error .retriesExhausted⟩))
  /-- The outstanding call is done with. -/
  | free {e e' : Engine S} (f : InFlight) : e.inflight = some f →
      Aside { e with inflight := none } e' → Move e e'

theorem Aside.log_prefix {e e' : Engine S} (h : Aside e e') : e.log <+: e'.log := by
  obtain ⟨evs, hlog, -⟩ := h.log
  exact ⟨evs, hlog.symm⟩

/-- The history only grows. -/
theorem Move.log_prefix {e e' : Engine S} (h : Move e e') : e.log <+: e'.log := by
  cases h with
  | aside ha => exact ha.log_prefix
  | tick now => exact List.prefix_refl _
  | boot state ha => exact (List.prefix_append _ _).trans ha.log_prefix
  | accept entry _ _ ha => exact (List.prefix_append _ _).trans ha.log_prefix
  | drop queue _ ha => exact ha.log_prefix
  | sendUnconfirmed id xs entry ys _ _ ha => exact (List.prefix_append _ _).trans ha.log_prefix
  | sendCall id deadline xs entry ys _ _ _ ha =>
      exact (List.prefix_append _ _).trans ha.log_prefix
  | requeue f _ _ _ ha => exact ha.log_prefix
  | exhaust f _ _ _ ha => exact ha.log_prefix.trans (List.prefix_append _ _)
  | free f _ ha => exact ha.log_prefix

/-- Any number of moves. -/
abbrev Moves : Engine S → Engine S → Prop := Relation.ReflTransGen Move

theorem Move.moves {e e' : Engine S} (h : Move e e') : Moves e e' :=
  Relation.ReflTransGen.single h

theorem Aside.moves {e e' : Engine S} (h : Aside e e') : Moves e e' := (Move.aside h).moves

/-- **A property kept by every move holds after any number of them.** -/
theorem Moves.invariant (Inv : Engine S → Prop)
    (hmove : ∀ e e', Move e e' → Inv e → Inv e') {e e' : Engine S} (h : Moves e e')
    (he : Inv e) : Inv e' := by
  induction h with
  | refl => exact he
  | tail _ hlast ih => exact hmove _ _ hlast ih

/-! ### Talking to the store -/

variable [MessageStore S]

theorem aside_ackStore (e : Engine S) (seq : Option Seq) : Aside e (e.ackStore seq) := by
  rcases seq with _ | seq
  · exact Aside.refl e
  rw [ackStore]
  split
  · exact aside_of_eq rfl rfl rfl rfl rfl rfl rfl
  · exact (aside_emit { e with store := _ } rfl).of_eq rfl rfl rfl rfl rfl rfl rfl

theorem aside_storeAttempts (e : Engine S) (seq : Option Seq) (attempts : ℕ) :
    Aside e (e.storeAttempts seq attempts) := by
  rcases seq with _ | seq
  · exact Aside.refl e
  rw [storeAttempts]
  split
  · exact aside_of_eq rfl rfl rfl rfl rfl rfl rfl
  · exact (aside_emit { e with store := _ } rfl).of_eq rfl rfl rfl rfl rfl rfl rfl

/-- A failure other than the last attempt's is of no concern. -/
theorem aside_abandon (e : Engine S) (entry : Pending) {why : CallFailure}
    (h : why ≠ .retriesExhausted) : Aside e (e.abandon entry why) := by
  refine (aside_ackStore e entry.seq).trans (aside_emit _ ?_)
  cases why <;> first | rfl | exact absurd rfl h

/-! ### What sends -/

omit [MessageStore S] in
/-- What `nextEligible` finds, nothing holds back. -/
theorem clear_of_nextEligible {e : Engine S} {kind : MessageKind} {xs ys : List Pending}
    {entry : Pending} (h : e.nextEligible kind = some xs.length)
    (hq : e.queue = xs ++ entry :: ys) : e.clear entry = true := by
  obtain ⟨entry', hget, hclear, -⟩ := eligible_iff.mp (eligible_of_nextEligible h)
  have hget' : e.queue[xs.length]? = some entry := by simp [hq]
  obtain rfl : entry = entry' := Option.some.inj (hget'.symm.trans hget)
  exact hclear

theorem move_sendUnconfirmed {e : Engine S} {xs ys : List Pending} {entry : Pending}
    (hq : e.queue = xs ++ entry :: ys) (hclear : e.clear entry = true) :
    Move e (e.sendUnconfirmed xs.length entry) := by
  refine .sendUnconfirmed (e.ids 0) xs entry ys hq hclear ?_
  simp only [sendUnconfirmed, nextId, hq, eraseIdx_length]
  refine Aside.trans ?_ (aside_emit _ rfl)
  refine Aside.trans ?_ (aside_ackStore _ _)
  exact (aside_transmit _ _).of_eq rfl rfl rfl rfl rfl rfl rfl

theorem moves_pumpSends (n : ℕ) (e : Engine S) : Moves e (pumpSends n e) := by
  induction n generalizing e with
  | zero => exact .refl
  | succ n ih =>
      rw [pumpSends]
      rcases hnext : e.nextEligible .send with _ | index
      · exact .refl
      · obtain ⟨xs, entry, ys, hq, rfl, -, -⟩ := nextEligible_spec hnext
        have hget : e.queue[xs.length]? = some entry := by simp [hq]
        simp only [hget]
        exact (move_sendUnconfirmed hq (clear_of_nextEligible hnext hq)).moves.trans (ih _)

omit [MessageStore S] in
theorem move_sendCall {e : Engine S} {xs ys : List Pending} {entry : Pending}
    (hq : e.queue = xs ++ entry :: ys) (hclear : e.clear entry = true)
    (hfree : e.inflight = none) : Move e (e.sendCall xs.length entry) := by
  let e₁ : Engine S := { e with queue := xs ++ ys, ids := fun n => e.ids (n + 1) }
  let e₂ := (e₁.note (.sent (e.ids 0) entry)).transmit (.call (e.ids 0) entry.action entry.payload)
  let deadline := Instant.saturatingAdd e₂.now e₂.config.callTimeout
  have h : Aside (e₁.note (.sent (e.ids 0) entry)) (e₂.emit (.setTimer .callTimeout deadline)) :=
    (aside_transmit _ _).trans (aside_emit _ rfl)
  refine .sendCall (e.ids 0) deadline xs entry ys hq hclear hfree ?_
  simp only [sendCall, nextId, hq, eraseIdx_length]
  -- the slot is filled last, but nothing before that looks at it
  exact ⟨h.config, h.queue, rfl, h.now, h.boot, h.nextToken, h.log⟩

omit [MessageStore S] in
theorem moves_pumpCall (e : Engine S) : Moves e e.pumpCall := by
  rw [pumpCall]
  split
  · exact .refl
  next hidle =>
  rcases hnext : e.nextEligible .call with _ | index
  · exact .refl
  · obtain ⟨xs, entry, ys, hq, rfl, -, -⟩ := nextEligible_spec hnext
    have hget : e.queue[xs.length]? = some entry := by simp [hq]
    simp only [hget]
    exact (move_sendCall hq (clear_of_nextEligible hnext hq) (by simpa using hidle)).moves

theorem moves_pump (e : Engine S) : Moves e e.pump := by
  rw [pump]
  split
  · exact (moves_pumpSends _ e).trans (moves_pumpCall _)
  · exact .refl

/-! ### What gives a call up -/

theorem move_requeueOrFail {e : Engine S} {f : InFlight} (hf : e.inflight = some f)
    {why : CallFailure} (hwhy : why ≠ .retriesExhausted) :
    Move e ({ e with inflight := none }.requeueOrFail f why) := by
  rw [requeueOrFail]
  have hack := aside_ackStore { e with inflight := none } f.seq
  split
  · next h =>
    obtain ⟨htx, hretry⟩ : f.transactional = true ∧ e.config.retry.mayRetry f.attempts = true := by
      simpa only [Bool.and_eq_true] using h
    have hstore := (aside_storeAttempts { e with inflight := none } f.seq f.attempts)
    refine .requeue f hf htx hretry (Aside.trans ?_ (aside_emit _ rfl))
    exact ⟨hstore.config, congrArg (_ :: ·) hstore.queue, hstore.inflight, hstore.now, hstore.boot,
      hstore.nextToken, hstore.log⟩
  · next h =>
    rcases htx : f.transactional with _ | _
    · refine .free f hf (hack.trans (aside_emit _ ?_))
      cases why <;> first | rfl | exact absurd rfl hwhy
    · refine .exhaust f hf htx ?_ hack
      simpa [htx] using h

theorem moves_loseInflight (e : Engine S) : Moves e e.loseInflight := by
  rw [loseInflight]
  split
  · next f hf => exact (move_requeueOrFail hf (by simp)).moves
  · exact .refl

theorem moves_fireCallTimeout (e : Engine S) : Moves e e.fireCallTimeout := by
  rw [fireCallTimeout]
  split
  · next f hf =>
    split
    · have hclear : Aside e (e.emit (.clearTimer .callTimeout)) := aside_emit e rfl
      exact hclear.moves.tail
        (move_requeueOrFail (e := e.emit (.clearTimer .callTimeout)) hf (by simp))
    · exact .refl
  · exact .refl

/-- The loop over the queue, as one move: what does not wait out a disconnection leaves. -/
theorem failOffline_spec (rest kept : List Pending) (e : Engine S) :
    ∃ left, left.Sublist rest ∧
      Aside { e with queue := kept ++ left } (failOffline rest kept e) := by
  induction rest generalizing kept e with
  | nil =>
      refine ⟨[], List.Sublist.refl [], ?_⟩
      rw [failOffline, List.append_nil]
      exact Aside.refl _
  | cons entry rest ih =>
      rw [failOffline]
      split
      · obtain ⟨left, hleft, h⟩ := ih (kept ++ [entry]) e
        refine ⟨entry :: left, hleft.cons_cons entry, ?_⟩
        rwa [List.append_assoc, List.singleton_append] at h
      · obtain ⟨left, hleft, h⟩ := ih kept (e.abandon entry .disconnected)
        refine ⟨left, hleft.cons entry, Aside.trans ?_ h⟩
        have hwhy : CallFailure.disconnected ≠ .retriesExhausted := by simp
        have habandon := aside_abandon e entry hwhy
        exact ⟨habandon.config, rfl, habandon.inflight, habandon.now, habandon.boot,
          habandon.nextToken, habandon.log⟩

/-! ### What learns from an answer -/

theorem moves_applyBootInterval (e : Engine S) (state : BootState) (interval : Option Duration)
    (outgoing : Bool) : Moves e (e.applyBootInterval state interval outgoing) := by
  have hwait : ∀ at_, Aside e ({ e with bootRetryAt := some at_ }.emit
      (.setTimer .bootRetry at_)) := fun at_ =>
    (aside_emit { e with bootRetryAt := some at_ } rfl).of_eq rfl rfl rfl rfl rfl rfl rfl
  cases state with
  | idle => exact .refl
  | accepted =>
      have hset : Aside e { e with heartbeatInterval := interval.filter (· ≠ 0) } :=
        aside_of_eq rfl rfl rfl rfl rfl rfl rfl
      rcases outgoing with _ | _
      · exact (hset.trans (aside_armHeartbeat _)).moves.trans (moves_pump _)
      · exact hset.moves
  | pending =>
      rcases outgoing with _ | _
      · exact (hwait _).moves
      · exact .refl
  | rejected =>
      rcases outgoing with _ | _
      · exact (hwait _).moves
      · exact .refl

theorem moves_observeBootAnswer (e : Engine S) (payload : RawValue) (outgoing : Bool) :
    Moves e (e.observeBootAnswer payload outgoing) := by
  rw [observeBootAnswer]
  split
  · exact .refl
  split
  · exact .refl
  next state _ =>
  refine .trans (Move.moves (.boot state ?_)) (moves_applyBootInterval _ _ _ _)
  split
  · split
    · exact Aside.refl _
    · exact aside_emit _ rfl
  · exact Aside.refl _

theorem moves_observeAnswer (e : Engine S) (action : String) (payload : RawValue) :
    Moves e (e.observeAnswer action payload) := by
  rw [observeAnswer]
  split
  · exact moves_observeBootAnswer e payload false
  split
  · split
    · exact (aside_emit e rfl).moves
    · exact .refl
  · exact .refl

/-- The engine once the outstanding call is answered, before the answer is acted on. -/
def taken (e : Engine S) (f : InFlight) : Engine S :=
  ({ e with inflight := none }.ackStore f.seq).emit (.clearTimer .callTimeout)

theorem aside_taken (e : Engine S) (f : InFlight) :
    Aside { e with inflight := none } (e.taken f) :=
  (aside_ackStore _ f.seq).trans (aside_emit _ rfl)

/-- The outcome is reported, and the queue is looked at. -/
theorem moves_reported (e : Engine S) {o : Output} (h : (Event.out o).aside = true) :
    Moves e (e.emit o).pump.checkDrain :=
  (aside_emit e h).moves.trans ((moves_pump _).trans (aside_checkDrain _).moves)

/-- A result is acted on. -/
theorem moves_taken_result {e : Engine S} {f : InFlight} (hf : e.inflight = some f)
    (payload : RawValue) : Moves (e.taken f) (e.onCallResult f.id payload) := by
  simp only [onCallResult, takeInflight_of_eq hf]
  exact (moves_observeAnswer _ f.action payload).trans (moves_reported _ rfl)

/-- An error is acted on. -/
theorem moves_taken_error {e : Engine S} {f : InFlight} (hf : e.inflight = some f)
    (error : CallErrorRef) : Moves (e.taken f) (e.onCallError f.id error) := by
  simp only [onCallError, takeInflight_of_eq hf]
  exact moves_reported _ rfl

theorem moves_onCallResult (e : Engine S) (id : MessageId) (payload : RawValue) :
    Moves e (e.onCallResult id payload) := by
  by_cases hid : ∃ f, e.inflight = some f ∧ f.id = id
  · obtain ⟨f, hf, rfl⟩ := hid
    exact (Move.moves (.free f hf (aside_taken e f))).trans (moves_taken_result hf payload)
  · rw [onCallResult_of_ne fun f hf he => hid ⟨f, hf, he⟩]
    exact (aside_violate e _).moves

theorem moves_onCallError (e : Engine S) (id : MessageId) (error : CallErrorRef) :
    Moves e (e.onCallError id error) := by
  by_cases hid : ∃ f, e.inflight = some f ∧ f.id = id
  · obtain ⟨f, hf, rfl⟩ := hid
    exact (Move.moves (.free f hf (aside_taken e f))).trans (moves_taken_error hf error)
  · rw [onCallError_of_ne fun f hf he => hid ⟨f, hf, he⟩]
    exact (aside_violate e _).moves

omit [MessageStore S] in
/-- The id of a frame is looked at first. -/
theorem aside_checkId (e : Engine S) (id : MessageId) :
    Aside e (if id.isConforming then e else e.violate (.nonConformingMessageId id)) := by
  split
  · exact Aside.refl e
  · exact aside_violate e _

theorem moves_onFrame (e : Engine S) (frame : Frame) : Moves e (e.onFrame frame) := by
  unfold onFrame
  refine (aside_checkId e frame.id).moves.trans ?_
  generalize (if frame.id.isConforming then e
    else e.violate (.nonConformingMessageId frame.id)) = e₁
  rcases frame with ⟨id, action, payload⟩ | ⟨id, payload⟩ | ⟨id, error⟩ | ⟨id, error⟩ |
    ⟨id, action, payload⟩
  · exact (aside_onCall e₁ id action payload .call).moves
  · exact moves_onCallResult e₁ id payload
  · exact moves_onCallError e₁ id error
  · exact (aside_emit e₁ rfl).moves
  · exact (aside_onCall e₁ id action payload .send).moves

theorem moves_onReceived (e : Engine S) (text : String) : Moves e (e.onReceived text) := by
  rw [onReceived]
  refine (aside_armHeartbeat e).moves.trans ?_
  split
  · exact (aside_onMalformed _ _).moves
  · exact moves_onFrame _ _

/-! ### What accepts -/

/-- A fresh message is accepted, and the queue is pumped. -/
theorem moves_enqueue (e : Engine S) (store : S) (s : Finset String) {entry : Pending}
    (htoken : entry.token = e.nextToken) (hfresh : entry.notBefore = none) :
    Moves e ({ e with nextToken := e.nextToken + 1, store := store
                      solicited := s }.enqueue entry) := by
  refine .trans (Move.moves (.accept entry htoken hfresh ?_)) (moves_pump _)
  exact aside_of_eq rfl rfl rfl rfl rfl rfl rfl

theorem moves_callWith (e : Engine S) (now : Instant) (action : String) (payload : RawValue)
    (options : CallOptions) : Moves e (e.callWith now action payload options).2 := by
  have hmint := aside_mint (e.advance now)
  refine (Move.tick e now).moves.trans ?_
  rw [callWith]
  generalize e.advance now = e₁ at hmint
  dsimp only
  split
  · exact .refl
  split
  · exact .refl
  next kind _ =>
  split
  · exact .refl
  split
  · exact .refl
  split
  · exact (hmint.trans (aside_emit _ rfl)).moves
  split
  · exact (hmint.trans (aside_emit _ rfl)).moves
  rcases persistCall_takes e₁.mintToken.2
      (options.persist.getD (Actions.isTransactionRelated e₁.version action))
      ⟨action, payload, kind, 0, Actions.isTransactionRelated e₁.version action⟩
    with ⟨error, hpersist, -, -⟩ | ⟨seq, store, hpersist, -⟩
  · simp only [hpersist]
    have hrefuse : ∀ (store : S) (v : ProtocolViolation), Aside e₁
        (({ e₁.mintToken.2 with store := store }.violate v).fail e₁.mintToken.1 none action
          .queueFull) := by
      intro store v
      have hstore : Aside { e₁ with nextToken := e₁.nextToken + 1 }
          { e₁.mintToken.2 with store := store } := aside_of_eq rfl rfl rfl rfl rfl rfl rfl
      exact (hmint.trans hstore).trans ((aside_violate _ v).trans (aside_emit _ rfl))
    exact (hrefuse _ _).moves
  · simp only [hpersist]
    obtain ⟨s, hs⟩ :=
      rememberSolicited_or { e₁.mintToken.2 with store := store } action payload
    rw [hs]
    exact moves_enqueue e₁ store s rfl rfl

theorem moves_fireHeartbeat (e : Engine S) : Moves e e.fireHeartbeat := by
  rw [fireHeartbeat]
  split
  · split
    · have hclear : Aside e { e with heartbeatAt := none } :=
        aside_of_eq rfl rfl rfl rfl rfl rfl rfl
      refine hclear.moves.trans (.trans ?_ (aside_armHeartbeat _).moves)
      split
      · exact moves_callWith _ _ "Heartbeat" _ _
      · exact .refl
    · exact .refl
  · exact .refl

/-! ### Timers -/

omit [MessageStore S] in
theorem moves_fireBootRetry (e : Engine S) : Moves e e.fireBootRetry := by
  rw [fireBootRetry]
  split
  · split
    · exact Move.moves (.boot .idle (aside_of_eq rfl rfl rfl rfl rfl rfl rfl))
    · exact .refl
  · exact .refl

theorem moves_fireDrain (e : Engine S) : Moves e e.fireDrain := by
  rw [fireDrain]
  split
  · have hclose : Aside e (e.emit (.close .drainTimedOut)) := aside_emit e rfl
    refine hclose.moves.trans (Aside.moves ?_)
    exact aside_of_eq rfl rfl rfl rfl rfl rfl rfl
  · exact (moves_pump e).trans (aside_checkDrain _).moves

/-- Once the message timeout has fired, the other timers do. -/
theorem moves_otherTimers (e : Engine S) : Moves e e.fireHeartbeat.fireBootRetry.fireDrain :=
  (moves_fireHeartbeat e).trans ((moves_fireBootRetry _).trans (moves_fireDrain _))

/-! ### An operation -/

omit [MessageStore S] in
theorem aside_fed (e : Engine S) (now : Instant) (input : Input) :
    Aside (e.advance now) (fed e now input) := aside_note _ rfl

omit [MessageStore S] in
theorem moves_fed (e : Engine S) (now : Instant) (input : Input) : Moves e (fed e now input) :=
  (Move.tick e now).moves.trans (aside_fed e now input).moves

/-- What is left of an operation once the outstanding call has been given up. -/
theorem moves_failOffline (e : Engine S) :
    Moves e (failOffline e.queue [] { e with queue := [] }).checkDrain := by
  obtain ⟨left, hleft, h⟩ := failOffline_spec e.queue [] { e with queue := [] }
  exact (Move.moves (.drop left hleft h)).trans (aside_checkDrain _).moves

/-- The engine as the outstanding call of a lost connection is given up. -/
def hungUp (e : Engine S) (now : Instant) : Engine S :=
  { (({ fed e now .disconnected with connected := false, peerInflight := ∅ }.emit
    (.clearTimer .callTimeout)).emit (.clearTimer .heartbeat)) with heartbeatAt := none }

omit [MessageStore S] in
theorem aside_hungUp (e : Engine S) (now : Instant) : Aside (e.advance now) (e.hungUp now) := by
  have hdown : Aside (fed e now .disconnected)
      { fed e now .disconnected with connected := false, peerInflight := ∅ } :=
    aside_of_eq rfl rfl rfl rfl rfl rfl rfl
  have hcall := aside_emit { fed e now .disconnected with connected := false, peerInflight := ∅ }
    (o := .clearTimer .callTimeout) rfl
  have hbeat := aside_emit ({ fed e now .disconnected with
    connected := false, peerInflight := ∅ }.emit (.clearTimer .callTimeout))
    (o := .clearTimer .heartbeat) rfl
  refine ((aside_fed e now .disconnected).trans hdown).trans ((hcall.trans hbeat).trans ?_)
  exact aside_of_eq rfl rfl rfl rfl rfl rfl rfl

theorem moves_respond (e : Engine S) (now : Instant) (id : MessageId) (payload : RawValue) :
    Moves e (e.respond now id payload).2 := by
  rw [respond]
  refine (Move.tick e now).moves.trans ?_
  generalize e.advance now = e
  rcases takePeerRequest_cases e id with ⟨error, h⟩ | h
  · rw [h]
  · rw [h]
    have hpeer : Aside e { e with peerInflight := e.peerInflight.erase id } :=
      aside_of_eq rfl rfl rfl rfl rfl rfl rfl
    refine hpeer.moves.trans (.trans ?_ (aside_answer _ rfl _).moves)
    split
    · exact moves_observeBootAnswer _ payload true
    · exact .refl

omit [MessageStore S] in
theorem moves_respondError (e : Engine S) (now : Instant) (id : MessageId) (error : CallError) :
    Moves e (e.respondError now id error).2 := by
  rw [respondError]
  refine (Move.tick e now).moves.trans ?_
  generalize e.advance now = e
  rcases takePeerRequest_cases e id with ⟨error, h⟩ | h
  · rw [h]
  · rw [h]
    have hpeer : Aside e { e with peerInflight := e.peerInflight.erase id } :=
      aside_of_eq rfl rfl rfl rfl rfl rfl rfl
    exact (hpeer.trans (aside_answer _ rfl _)).moves

omit [MessageStore S] in
theorem moves_rejectResult (e : Engine S) (now : Instant) (id : MessageId) (error : CallError) :
    Moves e (e.rejectResult now id error).2 := by
  rw [rejectResult]
  refine (Move.tick e now).moves.trans ?_
  split
  · exact (aside_answer _ rfl _).moves
  · exact .refl

theorem moves_cancel (e : Engine S) (token : CallToken) : Moves e (e.cancel token).2 := by
  rw [cancel]
  split
  · exact .refl
  split
  · exact .refl
  next index _ _ entry _ =>
  refine Move.moves (.drop _ (List.eraseIdx_sublist e.queue index) ?_)
  exact aside_abandon _ entry (show CallFailure.cancelled ≠ .retriesExhausted by simp)

omit [MessageStore S] in
theorem moves_shutdown (e : Engine S) (now deadline : Instant) :
    Moves e (e.shutdown now deadline) := by
  rw [shutdown]
  refine (Move.tick e now).moves.trans ?_
  split
  · exact .refl
  · have hset : Aside (e.advance now) ({ e.advance now with draining := some deadline }.emit
        (.setTimer .drainDeadline deadline)) :=
      (aside_emit { e.advance now with draining := some deadline } rfl).of_eq
        rfl rfl rfl rfl rfl rfl rfl
    exact (hset.trans (aside_checkDrain _)).moves

/-- **An operation is nothing but moves.** -/
theorem exec_moves (e : Engine S) (op : Op) : Moves e (exec e op) := by
  cases op with
  | handle now input =>
      cases input with
      | connected version =>
          refine (moves_fed e now (.connected version)).trans ?_
          have hup : Aside (fed e now (.connected version))
              (e.started (.handle now (.connected version))) :=
            aside_of_eq rfl rfl rfl rfl rfl rfl rfl
          exact (hup.trans (aside_armHeartbeat _)).moves.trans (moves_pump _)
      | received text =>
          exact (moves_fed e now (.received text)).trans (moves_onReceived _ text)
      | disconnected =>
          refine (Move.tick e now).moves.trans ((aside_hungUp e now).moves.trans ?_)
          exact (moves_loseInflight _).trans (moves_failOffline _)
      | timeout =>
          exact (moves_fed e now .timeout).trans
            ((moves_fireCallTimeout _).trans (moves_otherTimers _))
  | callWith now action payload options => exact moves_callWith e now action payload options
  | respond now id payload => exact moves_respond e now id payload
  | respondError now id error => exact moves_respondError e now id error
  | rejectResult now id error => exact moves_rejectResult e now id error
  | cancel token => exact moves_cancel e token
  | shutdown now deadline => exact moves_shutdown e now deadline
  | setCallTimeout timeout =>
      have hset : Aside e (exec e (.setCallTimeout timeout)) :=
        { Aside.refl e with config := ⟨timeout, rfl⟩ }
      exact hset.moves
  | setIdGenerator ids => exact Aside.moves (aside_of_eq rfl rfl rfl rfl rfl rfl rfl)
  | pollOutput => exact Aside.moves (aside_of_eq rfl rfl rfl rfl rfl rfl rfl)
  | drain => exact Aside.moves (aside_of_eq rfl rfl rfl rfl rfl rfl rfl)

/-- So is a run. -/
theorem run_moves (e : Engine S) (ops : List Op) : Moves e (run e ops) := by
  induction ops generalizing e with
  | nil => exact .refl
  | cons op ops ih => exact (exec_moves e op).trans (ih (exec e op))

omit [MessageStore S] in
/-- Loading the store is accepting what it holds. -/
theorem moves_foldl_restore (records : List (Seq × QueuedCall)) (e : Engine S) :
    Moves e (records.foldl restore e) := by
  induction records generalizing e with
  | nil => exact .refl
  | cons record records ih =>
      have hrestore : Move e (e.restore record) := .accept _ rfl rfl (Aside.refl _)
      exact hrestore.moves.trans (ih (e.restore record))

/-- **Whatever state an engine reaches, it got there from nothing by such moves.** -/
theorem moves_of_withStore {config : EngineConfig} {store : S} {ids : ℕ → MessageId}
    {e : Engine S} (h : Engine.withStore config store ids = .ok e) (ops : List Op) :
    Moves (fresh config store ids) (run e ops) := by
  obtain ⟨records, -, rfl⟩ := eq_of_withStore h
  exact (moves_foldl_restore records _).trans (run_moves _ ops)

end Engine

end OcppKit
