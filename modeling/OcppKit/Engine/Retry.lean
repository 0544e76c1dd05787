import OcppKit.Engine.Calm

/-!
# A message that waits out its back-off

At most one queued message waits for an instant before which it may not go out again: the
one at the head of the queue. It is transaction-related, no other such message is
outstanding, and the retry timer stands at its instant: `OcppKit.Engine.Waiting`.

What stands still keeps this. So do, each for its own reason, the few functions that
send, accept, or give a call up: `OcppKit.Engine.Tame`.
-/

namespace OcppKit

variable [Externals]

namespace Engine

variable {S : Type}

/-! ### Waiting -/

/-- **Only the head of the queue waits**, and the retry timer stands at its instant. -/
structure Waiting (e : Engine S) : Prop where
  /-- Nothing behind the head waits. -/
  head : ∀ p ∈ e.queue.tail, p.notBefore = none
  /-- What waits is transaction-related, the timer stands at its instant, and no other such
  message is outstanding. -/
  backoff : ∀ p ∈ e.queue, ∀ at_, p.notBefore = some at_ → p.transactional = true ∧
    retryTimer e.log = some at_ ∧ ∀ f, e.inflight = some f → f.transactional = false

theorem Still.waiting {e e' : Engine S} (h : Still e e') (hw : e.Waiting) : e'.Waiting := by
  constructor
  · rw [h.queue]
    exact hw.head
  · rw [h.queue, h.inflight, h.timer]
    exact hw.backoff

/-- **What leaves the queue leaves the head as it is, or takes it away.** -/
theorem Waiting.sublist {e : Engine S} (h : e.Waiting) {queue : List Pending}
    (hq : queue.Sublist e.queue) : Waiting { e with queue := queue } := by
  refine ⟨fun p hp => ?_, fun p hp => h.backoff p (hq.subset hp)⟩
  have htail : queue.tail.Sublist e.queue.tail := hq.tail
  exact h.head p (htail.subset hp)

/-- A fresh message joins the end of the queue. -/
theorem Waiting.append {e : Engine S} (h : e.Waiting) {entry : Pending}
    (hfresh : entry.notBefore = none) : Waiting { e with queue := e.queue ++ [entry] } := by
  constructor
  · intro p hp
    rcases hq : e.queue with _ | ⟨x, xs⟩
    · rw [hq] at hp
      exact absurd hp List.not_mem_nil
    · simp only [hq, List.cons_append, List.tail_cons, List.mem_append, List.mem_singleton] at hp
      rcases hp with hp | rfl
      · exact h.head p (by rwa [hq])
      · exact hfresh
  · intro p hp at_ hat
    rcases List.mem_append.mp hp with hp | hp
    · exact h.backoff p hp at_ hat
    · obtain rfl := List.mem_singleton.mp hp
      exact absurd (hfresh.symm.trans hat) (by simp)

/-- The outstanding call is settled. -/
theorem Waiting.free {e : Engine S} (h : e.Waiting) : Waiting { e with inflight := none } :=
  ⟨h.head, fun p hp at_ hat =>
    ⟨(h.backoff p hp at_ hat).1, (h.backoff p hp at_ hat).2.1, fun _ hf => absurd hf (by simp)⟩⟩

/-- While a transaction-related message is outstanding, nothing waits. -/
theorem Waiting.none_waits {e : Engine S} (h : e.Waiting) {f : InFlight}
    (hf : e.inflight = some f) (htx : f.transactional = true) :
    ∀ p ∈ e.queue, p.notBefore = none := by
  intro p hp
  rcases hat : p.notBefore with _ | at_
  · rfl
  · exact absurd htx (by simp [(h.backoff p hp at_ hat).2.2 f hf])

/-- **The oldest transaction-related message is all that can wait.** Once it has left the
queue, nothing does. -/
theorem Waiting.none_waits_of_oldest {e : Engine S} (h : e.Waiting) {xs ys : List Pending}
    {entry : Pending} (hq : e.queue = xs ++ entry :: ys)
    (hfirst : ∀ x ∈ xs, x.transactional = false) : ∀ p ∈ xs ++ ys, p.notBefore = none := by
  intro p hp
  rcases List.mem_append.mp hp with hbefore | hbehind
  · -- before it there is nothing that could wait
    rcases hat : p.notBefore with _ | at_
    · rfl
    · have htx := (h.backoff p (hq ▸ List.mem_append_left _ hbefore) at_ hat).1
      exact absurd htx (by simp [hfirst p hbefore])
  · -- behind it nothing is the head
    refine h.head p ?_
    rw [hq]
    rcases xs with _ | ⟨x, xs⟩
    · exact hbehind
    · exact List.mem_append_right xs (List.mem_cons_of_mem entry hbehind)

/-! ### Keeping what waits -/

/-- **Between the two states the engine was tame**: it was calm, and what waits still does
so at the head of the queue. -/
structure Tame (e e' : Engine S) : Prop extends Calm e e' where
  /-- What waits still does so at the head of the queue. -/
  waiting : e.Waiting → e'.Waiting

theorem Still.tame {e e' : Engine S} (h : Still e e') : Tame e e' := ⟨h.toCalm, h.waiting⟩

theorem Tame.refl (e : Engine S) : Tame e e := (Still.refl e).tame

theorem Tame.trans {e e' e'' : Engine S} (h : Tame e e') (h' : Tame e' e'') : Tame e e'' :=
  ⟨h.toCalm.trans h'.toCalm, fun hw => h'.waiting (h.waiting hw)⟩

theorem tame_free (e : Engine S) : Tame e { e with inflight := none } :=
  ⟨calm_inflight e none, Waiting.free⟩

theorem tame_sublist {e : Engine S} {queue : List Pending} (h : queue.Sublist e.queue) :
    Tame e { e with queue := queue } :=
  ⟨(Calm.refl { e with queue := queue }).of_eq rfl rfl rfl rfl rfl, fun hw => hw.sublist h⟩

variable [MessageStore S]

/-! ### What sends -/

omit [MessageStore S] in
/-- A message that has left the queue is written. -/
theorem still_write {e : Engine S} (h : e.connected = true) (ids : ℕ → MessageId)
    (id : MessageId) (entry : Pending) (frame : Frame) :
    Still e (({ e with ids := ids }.note (.sent id entry)).transmit frame) := by
  refine Still.trans ?_ (still_transmit _ frame)
  have hnote : Still { e with ids := ids } ({ e with ids := ids }.note (.sent id entry)) :=
    still_note _ h rfl
  exact hnote.of_eq rfl rfl rfl rfl rfl rfl rfl

theorem tame_sendUnconfirmed {e : Engine S} (h : e.connected = true) (index : ℕ)
    (entry : Pending) : Tame e (e.sendUnconfirmed index entry) := by
  simp only [sendUnconfirmed, nextId]
  refine (tame_sublist (List.eraseIdx_sublist e.queue index)).trans (Still.tame ?_)
  refine Still.trans ?_ (still_emit _ rfl rfl)
  refine Still.trans ?_ (still_ackStore _ _)
  exact still_write (e := { e with queue := e.queue.eraseIdx index }) h _ _ _ _

theorem tame_pumpSends (n : ℕ) {e : Engine S} (h : e.connected = true) :
    Tame e (pumpSends n e) := by
  induction n generalizing e with
  | zero => exact Tame.refl e
  | succ n ih =>
      rw [pumpSends]
      split
      · exact Tame.refl e
      split
      · exact Tame.refl e
      · next _ index _ _ entry _ =>
        have hsend := tame_sendUnconfirmed h index entry
        exact hsend.trans (ih (hsend.connected.trans h))

omit [MessageStore S] in
/-- **A call is sent.** If it is transaction-related it was the oldest such message, and
nothing else waits. -/
theorem tame_sendCall {e : Engine S} (h : e.connected = true) {xs ys : List Pending}
    {entry : Pending} (hq : e.queue = xs ++ entry :: ys)
    (hfirst : entry.transactional = true → ∀ x ∈ xs, x.transactional = false) :
    Tame e (e.sendCall xs.length entry) := by
  simp only [sendCall, nextId, hq, eraseIdx_length]
  let e₁ : Engine S := { e with queue := xs ++ ys }
  let id := e.ids 0
  let e₂ : Engine S := ({ e₁ with ids := fun n => e.ids (n + 1) }.note (.sent id entry)).transmit
    (.call id entry.action entry.payload)
  have hstill : Still e₁ (e₂.emit (.setTimer .callTimeout
      (Instant.saturatingAdd e₂.now e₂.config.callTimeout))) :=
    (still_write (e := e₁) h _ _ _ _).trans (still_emit _ rfl rfl)
  have hsub : (xs ++ ys).Sublist e.queue := by
    rw [hq]
    exact (List.Sublist.refl xs).append (List.sublist_cons_self entry ys)
  have htame := (tame_sublist hsub).trans hstill.tame
  refine ⟨htame.toCalm.trans (calm_inflight _ _), fun hw => ?_⟩
  have hw₂ := htame.waiting hw
  refine ⟨hw₂.head, fun p hp at_ hat => ?_⟩
  obtain ⟨htx, htimer, -⟩ := hw₂.backoff p hp at_ hat
  refine ⟨htx, htimer, fun f hf => ?_⟩
  obtain rfl := Option.some.inj hf
  refine Bool.eq_false_of_not_eq_true fun hentry => ?_
  have hnone := hw.none_waits_of_oldest hq (hfirst hentry) p (show p ∈ e₁.queue from
    hstill.queue ▸ hp)
  exact absurd (hnone.symm.trans hat) (by simp)

omit [MessageStore S] in
theorem tame_pumpCall {e : Engine S} (h : e.connected = true) : Tame e e.pumpCall := by
  rw [pumpCall]
  split
  · exact Tame.refl e
  rcases hn : e.nextEligible .call with _ | index
  · exact Tame.refl e
  · obtain ⟨xs, entry, ys, hq, rfl, -, hfirst⟩ := nextEligible_spec hn
    have hget : e.queue[xs.length]? = some entry := by simp [hq]
    simp only [hget]
    exact tame_sendCall h hq hfirst

/-- **Pumping is tame.** -/
theorem tame_pump (e : Engine S) : Tame e e.pump := by
  rw [pump]
  split
  · next h =>
    have hsends := tame_pumpSends e.queue.length h
    exact hsends.trans (tame_pumpCall (hsends.connected.trans h))
  · exact Tame.refl e

/-! ### What accepts -/

omit [MessageStore S] in
/-- A fresh message that may be sent is accepted. -/
theorem tame_accept {e : Engine S} {entry : Pending}
    (h : Sendable e.version e.config.role entry.action entry.kind)
    (hfresh : entry.notBefore = none) :
    Tame e ({ e with queue := e.queue ++ [entry] }.note (.accepted entry)) := by
  have hnote : Still { e with queue := e.queue ++ [entry] }
      ({ e with queue := e.queue ++ [entry] }.note (.accepted entry)) := still_note _ h rfl
  exact ⟨hnote.toCalm.of_eq rfl rfl rfl rfl rfl, fun hw => hnote.waiting (hw.append hfresh)⟩

/-! ### What gives a call up -/

omit [MessageStore S] in
/-- **A call goes back to the head of the queue**, where nothing waits, and the retry timer
is set for it. -/
theorem tame_requeue {e e₁ : Engine S} {f : InFlight} (hf : e.inflight = some f)
    (htx : f.transactional = true) (h : Still { e with inflight := none } e₁) (at_ : Instant) :
    Tame e ({ e₁ with queue := f.requeued at_ :: e₁.queue }.emit
      (.setTimer .transactionRetry at_)) := by
  have hset : Calm { e₁ with queue := f.requeued at_ :: e₁.queue }
      ({ e₁ with queue := f.requeued at_ :: e₁.queue }.emit (.setTimer .transactionRetry at_)) :=
    calm_emit _ rfl
  refine ⟨((calm_inflight e none).trans h.toCalm).trans (hset.of_eq rfl rfl rfl rfl rfl),
    fun hw => ?_⟩
  have hnone : ∀ p ∈ e₁.queue, p.notBefore = none := by
    rw [h.queue]
    exact hw.none_waits hf htx
  refine ⟨hnone, fun p hp at' hat => ?_⟩
  rcases List.mem_cons.mp hp with rfl | hp
  · obtain rfl := Option.some.inj hat
    refine ⟨rfl, retryTimer_set _ _, fun g hg => ?_⟩
    exact absurd (h.inflight.symm.trans hg) (by simp)
  · exact absurd ((hnone p hp).symm.trans hat) (by simp)

/-- **A call is given up**: it goes back to the queue, or it fails. -/
theorem tame_requeueOrFail {e : Engine S} {f : InFlight} (hf : e.inflight = some f)
    (why : CallFailure) : Tame e ({ e with inflight := none }.requeueOrFail f why) := by
  rw [requeueOrFail]
  split
  · next h =>
    have htx : f.transactional = true := by
      simp only [Bool.and_eq_true] at h
      exact h.1
    exact tame_requeue hf htx (still_storeAttempts _ f.seq f.attempts) _
  · exact (tame_free e).trans ((still_ackStore _ f.seq).trans (still_emit _ rfl rfl)).tame

theorem tame_loseInflight (e : Engine S) : Tame e e.loseInflight := by
  rw [loseInflight]
  split
  · next f hf => exact tame_requeueOrFail hf _
  · exact Tame.refl e

theorem tame_fireCallTimeout (e : Engine S) : Tame e e.fireCallTimeout := by
  rw [fireCallTimeout]
  split
  · next f hf =>
    split
    · have hclear : Still e (e.emit (.clearTimer .callTimeout)) := still_emit e rfl rfl
      exact hclear.tame.trans (tame_requeueOrFail (e := e.emit (.clearTimer .callTimeout)) hf _)
    · exact Tame.refl e
  · exact Tame.refl e

/-- The queue loses what does not wait out a disconnection. -/
theorem tame_failOffline (rest kept : List Pending) (e : Engine S) :
    Tame { e with queue := kept ++ rest } (failOffline rest kept e) := by
  induction rest generalizing kept e with
  | nil =>
      rw [failOffline, List.append_nil]
      exact Tame.refl _
  | cons entry rest ih =>
      rw [failOffline]
      split
      · rw [List.append_cons]
        exact ih (kept ++ [entry]) e
      · have hsub : (kept ++ rest).Sublist (kept ++ entry :: rest) :=
          (List.Sublist.refl kept).append (List.sublist_cons_self entry rest)
        have hdrop : Tame { e with queue := kept ++ entry :: rest }
            ({ e with queue := kept ++ rest }.abandon entry .disconnected) :=
          (tame_sublist (e := { e with queue := kept ++ entry :: rest }) hsub).trans
            (still_abandon _ _ _).tame
        rw [abandon_queue] at hdrop
        exact hdrop.trans (ih kept (e.abandon entry .disconnected))

/-! ### What learns from an answer -/

theorem tame_applyBootInterval (e : Engine S) (state : BootState) (interval : Option Duration)
    (outgoing : Bool) : Tame e (e.applyBootInterval state interval outgoing) := by
  have hwait : ∀ at_,
      Still e ({ e with bootRetryAt := some at_ }.emit (.setTimer .bootRetry at_)) :=
    fun at_ => (still_emit { e with bootRetryAt := some at_ } rfl rfl).of_eq
      rfl rfl rfl rfl rfl rfl rfl
  cases state with
  | idle => exact Tame.refl e
  | accepted =>
      have hset : Still e { e with heartbeatInterval := interval.filter (· ≠ 0) } :=
        (Still.refl { e with heartbeatInterval := _ }).of_eq rfl rfl rfl rfl rfl rfl rfl
      rcases outgoing with _ | _
      · exact (hset.trans (still_armHeartbeat _)).tame.trans (tame_pump _)
      · exact hset.tame
  | pending =>
      rcases outgoing with _ | _
      · exact (hwait _).tame
      · exact Tame.refl e
  | rejected =>
      rcases outgoing with _ | _
      · exact (hwait _).tame
      · exact Tame.refl e

theorem tame_observeBootAnswer (e : Engine S) (payload : RawValue) (outgoing : Bool) :
    Tame e (e.observeBootAnswer payload outgoing) := by
  rw [observeBootAnswer]
  split
  · exact Tame.refl e
  split
  · exact Tame.refl e
  next state _ =>
  refine Tame.trans (Still.tame ?_) (tame_applyBootInterval _ _ _ _)
  have hstate : Still e ({ e with boot := state }.emit (.bootState state)) :=
    (still_emit { e with boot := state } rfl rfl).of_eq rfl rfl rfl rfl rfl rfl rfl
  split
  · split
    · exact hstate
    · exact hstate.trans (still_emit _ rfl rfl)
  · exact hstate

theorem tame_observeAnswer (e : Engine S) (action : String) (payload : RawValue) :
    Tame e (e.observeAnswer action payload) := by
  rw [observeAnswer]
  split
  · exact tame_observeBootAnswer e payload false
  split
  · split
    · exact (still_emit e rfl rfl).tame
    · exact Tame.refl e
  · exact Tame.refl e

end Engine

end OcppKit
