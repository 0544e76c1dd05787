import OcppKit.Engine.Retry

/-!
# The shape of an operation

`OcppKit.Engine.exec_shape`: after the setting has changed, an operation is tame, and then
does one of a few things. It leaves the queue and the slot as they are; or it pumps; or it
pumps and looks at the drain; or, when the drain runs out, the connection goes away, a
message is withdrawn or a shutdown starts, it ends in a way of its own.

What an operation leaves undone can be read off its shape.
-/

namespace OcppKit

variable [Externals]

/-- What an operation notes before anything else. -/
def Op.inputs : Op → List Event
  | .handle _ input => [.input input]
  | _ => []

/-- Whether an operation may be one in which nothing is queued, sent or failed. -/
def Op.mayBeQuiet : Op → Bool
  | .handle _ (.received _) | .respond _ _ _ | .respondError _ _ _ | .rejectResult _ _ _
  | .cancel _ | .shutdown _ _ | .setCallTimeout _ | .setIdGenerator _ | .pollOutput
  | .drain => true
  | .handle _ _ | .callWith _ _ _ _ => false

namespace Engine

variable {S : Type}

/-- **Between the two states nothing was queued, sent or failed**: the engine stood still,
the clock stays, and so does the boot state, except at a CSMS. -/
structure Quiet (e e' : Engine S) : Prop extends Still e e' where
  /-- The clock stays. -/
  now : e'.now = e.now
  /-- So does the boot state, where it gates what is sent. -/
  boot : e'.boot = e.boot ∨ e.config.role = .csms

theorem Quiet.refl (e : Engine S) : Quiet e e := ⟨Still.refl e, rfl, Or.inl rfl⟩

theorem Quiet.trans {e e' e'' : Engine S} (h : Quiet e e') (h' : Quiet e' e'') :
    Quiet e e'' where
  toStill := h.toStill.trans h'.toStill
  now := h'.now.trans h.now
  boot := by
    rcases h.boot with hb | hrole
    · rcases h'.boot with hb' | hrole
      · exact Or.inl (hb'.trans hb)
      · exact Or.inr (h.config ▸ hrole)
    · exact Or.inr hrole

/-- Standing still while only reporting is quiet. -/
theorem Still.quiet {e e' : Engine S} {ts : List String} (h : Still e e') (hr : Reports e e' ts) :
    Quiet e e' :=
  ⟨h, congrArg Setting.now hr.setting, Or.inl (congrArg Setting.boot hr.setting)⟩

theorem quiet_armHeartbeat (e : Engine S) : Quiet e e.armHeartbeat :=
  (still_armHeartbeat e).quiet (reports_armHeartbeat e)

theorem quiet_emit (e : Engine S) {o : Output} (h : o.isClose = false)
    (hr : (Event.out o).retry = none) : Quiet e (e.emit o) :=
  ⟨still_emit e h hr, rfl, Or.inl rfl⟩

theorem quiet_violate (e : Engine S) (v : ProtocolViolation) : Quiet e (e.violate v) :=
  quiet_emit e rfl rfl

theorem quiet_peerInflight (e : Engine S) (ids : Finset MessageId) :
    Quiet e { e with peerInflight := ids } :=
  ⟨(Still.refl { e with peerInflight := ids }).of_eq rfl rfl rfl rfl rfl rfl rfl, rfl, Or.inl rfl⟩

theorem quiet_boot {e : Engine S} (h : e.config.role = .csms) (boot : BootState) :
    Quiet e { e with boot := boot } :=
  ⟨(Still.refl { e with boot := boot }).of_eq rfl rfl rfl rfl rfl rfl rfl, rfl, Or.inr h⟩

/-- An answer is written. -/
theorem quiet_answer (e : Engine S) {mark : Event} (frame : Frame)
    (h : mark.InOrder e.config.role e.version e.connected) (hr : mark.retry = none) :
    Quiet e ((e.note mark).transmit frame) := by
  have hw := writes_note_transmit e mark frame
  exact ⟨(still_note e h hr).trans (still_transmit _ frame), congrArg Setting.now hw.setting,
    Or.inl (congrArg Setting.boot hw.setting)⟩

/-! ### Frames that answer nothing -/

theorem quiet_reject (e : Engine S) (id : MessageId) (kind : MessageKind) (error : CallError) :
    Quiet e (e.reject id kind error) := by
  rcases kind with _ | _
  · exact quiet_answer e _ trivial rfl
  · exact Quiet.refl e

theorem quiet_deliver (e : Engine S) (id : MessageId) (action : String) (payload : RawValue)
    (received : MessageKind) : Quiet e (e.deliver id action payload received) := by
  rw [deliver]
  split
  · exact quiet_reject e id received _
  · dsimp only
    refine Quiet.trans ?_ (quiet_emit _ rfl rfl)
    have hboot : Quiet e (if e.config.role = .csms ∧ action = "BootNotification" then
        { e with boot := .idle } else e) := by
      split
      · next h => exact quiet_boot h.1 .idle
      · exact Quiet.refl e
    generalize (if e.config.role = .csms ∧ action = "BootNotification" then
      { e with boot := .idle } else e) = e₁ at hboot
    refine hboot.trans ?_
    split
    · exact quiet_peerInflight e₁ _
    · exact Quiet.refl e₁

theorem quiet_admission (e : Engine S) (id : MessageId) : Quiet e (e.admission id).2 := by
  rw [admission]
  split
  · exact quiet_violate e _
  split
  · exact Quiet.refl e
  have hviolate : Quiet e (e.violate (.concurrentCall id)) := quiet_violate e _
  dsimp only
  split
  · split
    · exact hviolate.trans (quiet_violate _ _)
    · exact hviolate.trans (quiet_violate _ _)
  · split
    · exact hviolate
    · exact hviolate

theorem quiet_onCall (e : Engine S) (id : MessageId) (action : String) (payload : RawValue)
    (received : MessageKind) : Quiet e (e.onCall id action payload received) := by
  rw [onCall]
  split
  · exact quiet_reject e id received _
  split
  · exact (quiet_violate e _).trans (quiet_reject _ id received _)
  split
  · exact (quiet_violate e _).trans (quiet_reject _ id received _)
  split
  · have hadmission := quiet_admission e id
    rcases h : e.admission id with ⟨_ | error, e₁⟩ <;> rw [h] at hadmission
    · exact hadmission.trans (quiet_deliver e₁ id action payload received)
    · exact hadmission.trans (quiet_reject e₁ id received error)
  · exact quiet_deliver e id action payload received

theorem quiet_onMalformed (e : Engine S) (error : FrameError) : Quiet e (e.onMalformed error) := by
  rw [onMalformed]
  have hviolate := quiet_violate e error.violation
  rcases error.reply e.version with _ | _ | _
  · exact hviolate
  · exact hviolate.trans (quiet_answer _ _ trivial rfl)
  · exact hviolate.trans (quiet_answer _ _ trivial rfl)

/-! ### Answers of the application -/

variable [MessageStore S]

theorem quiet_abandon (e : Engine S) (entry : Pending) (why : CallFailure) :
    Quiet e (e.abandon entry why) := by
  have hr := reports_ackStore e entry.seq
  exact ⟨still_abandon e entry why, congrArg Setting.now hr.setting,
    Or.inl (congrArg Setting.boot hr.setting)⟩

/-- At a CSMS, the verdict it sends is all that a boot answer changes. -/
theorem quiet_observeBootAnswer {e : Engine S} (h : e.config.role = .csms) (payload : RawValue) :
    Quiet e (e.observeBootAnswer payload true) := by
  rw [observeBootAnswer]
  split
  · exact Quiet.refl e
  split
  · exact Quiet.refl e
  next state _ =>
  have hstate : Quiet e ({ e with boot := state }.emit (.bootState state)) :=
    (quiet_boot h state).trans (quiet_emit _ rfl rfl)
  have happly : ∀ (e₁ : Engine S) (interval : Option Duration),
      Quiet e₁ (e₁.applyBootInterval state interval true) := by
    intro e₁ interval
    cases state with
    | accepted =>
        exact ⟨(Still.refl { e₁ with heartbeatInterval := _ }).of_eq rfl rfl rfl rfl rfl rfl rfl,
          rfl, Or.inl rfl⟩
    | _ => exact Quiet.refl e₁
  split
  · exact hstate.trans (happly _ _)
  · exact hstate.trans (happly _ _)

theorem quiet_respond (e : Engine S) (now : Instant) (id : MessageId) (payload : RawValue) :
    Quiet (e.advance now) (e.respond now id payload).2 := by
  rw [respond]
  generalize e.advance now = e
  rcases takePeerRequest_cases e id with ⟨error, h⟩ | h
  · rw [h]
    exact Quiet.refl e
  · rw [h]
    refine (quiet_peerInflight e (e.peerInflight.erase id)).trans
      (Quiet.trans ?_ (quiet_answer _ _ trivial rfl))
    split
    · next hrole => exact quiet_observeBootAnswer hrole payload
    · exact Quiet.refl _

omit [MessageStore S] in
theorem quiet_respondError (e : Engine S) (now : Instant) (id : MessageId) (error : CallError) :
    Quiet (e.advance now) (e.respondError now id error).2 := by
  rw [respondError]
  generalize e.advance now = e
  rcases takePeerRequest_cases e id with ⟨error, h⟩ | h
  · rw [h]
    exact Quiet.refl e
  · rw [h]
    exact (quiet_peerInflight e (e.peerInflight.erase id)).trans (quiet_answer _ _ trivial rfl)

omit [MessageStore S] in
theorem quiet_rejectResult (e : Engine S) (now : Instant) (id : MessageId) (error : CallError) :
    Quiet (e.advance now) (e.rejectResult now id error).2 := by
  rw [rejectResult]
  split
  · exact quiet_answer _ _ trivial rfl
  · exact Quiet.refl _

/-! ### The shape -/

/-- The engine once an operation has changed the setting: the clock, the connection and
the version, and what the operation sets directly. -/
def started (e : Engine S) : Op → Engine S
  | .handle now (.connected version) =>
      { fed e now (.connected version) with
        version := version, connected := true, peerInflight := ∅ }
  | .handle now .disconnected =>
      { fed e now .disconnected with connected := false, peerInflight := ∅ }
  | .handle now input => fed e now input
  | .callWith now _ _ _ | .respond now _ _ | .respondError now _ _ | .rejectResult now _ _
  | .shutdown now _ => e.advance now
  | .cancel _ => e
  | .setCallTimeout timeout => e.setCallTimeout timeout
  | .setIdGenerator ids => e.setIdGenerator ids
  | .pollOutput => e.pollOutput.2
  | .drain => e.drain.2

/-- The text is the answer to the outstanding call. -/
def Answered (e : Engine S) (text : String) : Prop :=
  ∃ frame f, Frame.parse text e.version = .ok frame ∧ e.inflight = some f ∧
    ((∃ payload, frame = .callResult f.id payload) ∨ ∃ error, frame = .callError f.id error)

/-- **The engine takes a message over**: it is not draining, this side may send the
message, it can be sent or may wait, there is room for it, and the store takes it if it is
to be persisted. -/
structure Accepts (e : Engine S) (action : String) (payload : RawValue)
    (options : CallOptions) : Prop where
  /-- The engine is not draining. -/
  draining : e.draining = none
  /-- The connection is up, or the message may wait for it. -/
  reachable : e.connected = true ∨ options.queueWhenOffline.getD
    (Actions.isTransactionRelated e.version action || e.config.offline.queueAllMessages) = true
  /-- There is room in the queue. -/
  room : e.queue.length < e.config.offline.maxQueued
  /-- This side may send the message, and the store takes it if it is to be persisted. -/
  stored : ∃ kind, Sendable e.version e.config.role action kind ∧
    (options.persist.getD (Actions.isTransactionRelated e.version action) = true →
      ∃ seq, (MessageStore.push e.store
        ⟨action, payload, kind, 0, Actions.isTransactionRelated e.version action⟩).2 = .ok seq)

/-- **The shapes an operation has.** -/
inductive Shape (e : Engine S) : Op → Engine S → Prop
  /-- Nothing is queued, sent or failed. -/
  | quiet (op : Op) (e' : Engine S) : op.mayBeQuiet = true → Quiet (e.started op) e' →
      Shape e op e'
  /-- The connection comes up, and the queue is pumped. -/
  | connected (now : Instant) (version : Version) (e₁ : Engine S) :
      Quiet (e.started (.handle now (.connected version))) e₁ →
      Shape e (.handle now (.connected version)) e₁.pump
  /-- A message is accepted, and the queue is pumped. -/
  | accepted (now : Instant) (action : String) (payload : RawValue) (options : CallOptions)
      (e₁ : Engine S) : e.Accepts action payload options →
      Tame (e.started (.callWith now action payload options)) e₁ →
      Shape e (.callWith now action payload options) e₁.pump
  /-- A call fails at once. -/
  | refused (now : Instant) (action : String) (payload : RawValue) (options : CallOptions)
      (e₁ : Engine S) : ¬e.Accepts action payload options →
      Quiet (e.started (.callWith now action payload options)) e₁ →
      Shape e (.callWith now action payload options) e₁
  /-- The outstanding call is answered. -/
  | answered (now : Instant) (text : String) (e₁ : Engine S) : e.Answered text →
      Tame (e.started (.handle now (.received text))) e₁ →
      Shape e (.handle now (.received text)) e₁.pump.checkDrain
  /-- Time passes, and the drain does not run out. -/
  | timeout (now : Instant) (e₁ : Engine S) : Tame (e.started (.handle now .timeout)) e₁ →
      ¬(e₁.draining.any (fun deadline => deadline ≤ e₁.now) && !e₁.drainComplete) = true →
      Shape e (.handle now .timeout) e₁.pump.checkDrain
  /-- Time passes, and the drain runs out. -/
  | ranOut (now : Instant) (e₁ : Engine S) : Tame (e.started (.handle now .timeout)) e₁ →
      (e₁.draining.any (fun deadline => deadline ≤ e₁.now) && !e₁.drainComplete) = true →
      Shape e (.handle now .timeout) { e₁.emit (.close .drainTimedOut) with draining := none }
  /-- The connection goes away. -/
  | disconnected (now : Instant) (e₁ : Engine S) :
      Tame (e.started (.handle now .disconnected)) e₁ →
      Shape e (.handle now .disconnected) e₁.checkDrain
  /-- A message is withdrawn. -/
  | cancelled (token : CallToken) (index : ℕ) (entry : Pending) :
      e.queue.findIdx? (fun entry => entry.token = token) = some index →
      e.queue[index]? = some entry →
      Shape e (.cancel token) ({ e with queue := e.queue.eraseIdx index }.abandon entry .cancelled)
  /-- A shutdown starts. -/
  | shutdown (now deadline : Instant) : e.draining = none →
      Shape e (.shutdown now deadline)
        ({ e.advance now with draining := some deadline }.emit
          (.setTimer .drainDeadline deadline)).checkDrain

/-! ### Every operation has a shape -/

/-- The store refuses the record, or takes it if it is asked to. -/
theorem persistCall_takes (e : Engine S) (persist : Bool) (record : QueuedCall) :
    (∃ error, e.persistCall persist record =
        (.error error, { e with store := (MessageStore.push e.store record).1 }) ∧
      persist = true ∧ (MessageStore.push e.store record).2 = .error error) ∨
    ∃ seq store, e.persistCall persist record = (.ok seq, { e with store := store }) ∧
      (persist = true → ∃ seq, (MessageStore.push e.store record).2 = .ok seq) := by
  rcases persist with _ | _
  · exact Or.inr ⟨none, e.store, rfl, fun h => absurd h (by simp)⟩
  · rcases hpush : (MessageStore.push e.store record).2 with error | seq
    · exact Or.inl ⟨error, by simp only [persistCall, if_true, hpush, Except.map], rfl, rfl⟩
    · refine Or.inr ⟨some seq, (MessageStore.push e.store record).1, ?_, fun _ => ⟨seq, rfl⟩⟩
      simp only [persistCall, if_true, hpush, Except.map]

omit [MessageStore S] in
/-- Handles and the store do not show. -/
theorem quiet_mint (e : Engine S) (store : S) :
    Quiet e { e.mintToken.2 with store := store } :=
  ⟨(Still.refl { e.mintToken.2 with store := store }).of_eq rfl rfl rfl rfl rfl rfl rfl, rfl,
    Or.inl rfl⟩

theorem shape_callWith (e : Engine S) (now : Instant) (action : String) (payload : RawValue)
    (options : CallOptions) :
    Shape e (.callWith now action payload options) (e.callWith now action payload options).2 := by
  have hq : Quiet (e.advance now) (e.advance now) := Quiet.refl _
  have hmint : Quiet (e.advance now) (e.advance now).mintToken.2 := quiet_mint _ e.store
  rw [callWith]
  dsimp only
  split
  · next hdrain =>
    refine .refused now action payload options _ (fun h => ?_) hq
    exact absurd hdrain (by simp [advance, h.draining])
  next hdrain =>
  split
  · next hkind =>
    refine .refused now action payload options _ (fun h => ?_) hq
    obtain ⟨kind, hsend, -⟩ := h.stored
    exact absurd (hsend.defined.symm.trans hkind) (by simp)
  next kind hkind =>
  have hunique : e.Accepts action payload options →
      Sendable e.version e.config.role action kind ∧
      (options.persist.getD (Actions.isTransactionRelated e.version action) = true →
        ∃ seq, (MessageStore.push e.store
          ⟨action, payload, kind, 0, Actions.isTransactionRelated e.version action⟩).2 =
            .ok seq) := by
    intro h
    obtain ⟨kind', hsend, hstored⟩ := h.stored
    obtain rfl : kind' = kind := Option.some.inj (hsend.defined.symm.trans hkind)
    exact ⟨hsend, hstored⟩
  split
  · next horigin =>
    refine .refused now action payload options _ (fun h => ?_) hq
    exact absurd ((hunique h).1.origin.symm.trans horigin) (by simp)
  next horigin =>
  split
  · next hsend =>
    refine .refused now action payload options _ (fun h => ?_) hq
    exact absurd (((hunique h).1.extended hsend.1).symm.trans hsend.2) (by simp)
  next hsend =>
  split
  · next hoffline =>
    refine .refused now action payload options _ (fun h => ?_) (hmint.trans (quiet_emit _ rfl rfl))
    have hreach : (e.connected || options.queueWhenOffline.getD
        (Actions.isTransactionRelated e.version action || e.config.offline.queueAllMessages)) =
        true := by
      simpa only [Bool.or_eq_true] using h.reachable
    simp only [Bool.and_eq_true, Bool.not_eq_true'] at hoffline
    obtain ⟨hdown, hwait⟩ := hoffline
    exact absurd hreach (by
      rw [show e.connected = false from hdown, Bool.false_or]
      exact Bool.eq_false_iff.mp hwait)
  next honline =>
  split
  · next hfull =>
    refine .refused now action payload options _ (fun h => ?_) (hmint.trans (quiet_emit _ rfl rfl))
    exact absurd h.room (not_lt.mpr hfull)
  next hroom =>
  rcases persistCall_takes (e.advance now).mintToken.2
      (options.persist.getD (Actions.isTransactionRelated (e.advance now).version action))
      ⟨action, payload, kind, 0, Actions.isTransactionRelated (e.advance now).version action⟩
    with ⟨error, hpersist, hasked, herror⟩ | ⟨seq, store, hpersist, hstored⟩
  · simp only [hpersist]
    refine .refused now action payload options _ (fun h => ?_) ?_
    · obtain ⟨seq, hseq⟩ := (hunique h).2 hasked
      exact absurd (hseq.symm.trans herror) (by simp)
    · exact ((quiet_mint (e.advance now) _).trans (quiet_emit _ rfl rfl)).trans
        (quiet_emit _ rfl rfl)
  · simp only [hpersist]
    have hsendable : Sendable e.version e.config.role action kind :=
      ⟨hkind, Bool.eq_true_of_not_eq_false horigin,
        fun hk => Bool.eq_true_of_not_eq_false fun hext => hsend ⟨hk, hext⟩⟩
    obtain ⟨s, hs⟩ :=
      rememberSolicited_or { (e.advance now).mintToken.2 with store := store } action payload
    rw [hs]
    refine .accepted now action payload options _ ⟨?_, ?_, not_le.mp hroom, kind, hsendable,
      hstored⟩ ?_
    · rcases hd : e.draining with _ | deadline
      · rfl
      · exact absurd (show e.draining.isSome from by rw [hd]; rfl) hdrain
    · simp only [Bool.and_eq_true, Bool.not_eq_true', not_and, Bool.not_eq_false] at honline
      rcases hc : e.connected with _ | _
      · exact Or.inr (honline hc)
      · exact Or.inl rfl
    · have hmint' : Still (e.advance now)
          { (e.advance now).mintToken.2 with store := store, solicited := s } :=
        (Still.refl { (e.advance now).mintToken.2 with store := store, solicited := s }).of_eq
          rfl rfl rfl rfl rfl rfl rfl
      exact hmint'.tame.trans (tame_accept hsendable rfl)

theorem tame_callWith (e : Engine S) (now : Instant) (action : String) (payload : RawValue)
    (options : CallOptions) :
    Tame (e.advance now) (e.callWith now action payload options).2 := by
  have hshape := shape_callWith e now action payload options
  generalize (e.callWith now action payload options).2 = e' at hshape
  cases hshape with
  | quiet _ _ hno _ => exact absurd hno (by simp [Op.mayBeQuiet])
  | accepted _ _ _ _ e₁ _ h => exact h.trans (tame_pump e₁)
  | refused _ _ _ _ _ _ h => exact h.tame

theorem tame_fireHeartbeat (e : Engine S) : Tame e e.fireHeartbeat := by
  rw [fireHeartbeat]
  split
  · split
    · have hclear : Still e { e with heartbeatAt := none } :=
        (Still.refl { e with heartbeatAt := none }).of_eq rfl rfl rfl rfl rfl rfl rfl
      refine hclear.tame.trans (Tame.trans ?_ (still_armHeartbeat _).tame)
      split
      · have h := tame_callWith { e with heartbeatAt := none } e.now "Heartbeat"
          RawValue.emptyObject { queueWhenOffline := some false }
        rwa [advance_of_le le_rfl] at h
      · exact Tame.refl _
    · exact Tame.refl e
  · exact Tame.refl e

theorem shape_disconnected (e : Engine S) (now : Instant) :
    Shape e (.handle now .disconnected) (e.handle now .disconnected) := by
  let e₁ : Engine S := { (((e.started (.handle now .disconnected)).emit
    (.clearTimer .callTimeout)).emit (.clearTimer .heartbeat)) with heartbeatAt := none }
  have h : Still (e.started (.handle now .disconnected)) e₁ := by
    refine ((still_emit _ (o := .clearTimer .callTimeout) rfl rfl).trans
      (still_emit _ (o := .clearTimer .heartbeat) rfl rfl)).trans ?_
    exact (Still.refl e₁).of_eq rfl rfl rfl rfl rfl rfl rfl
  refine .disconnected now _ ((h.tame.trans (tame_loseInflight _)).trans ?_)
  exact tame_failOffline e₁.loseInflight.queue [] { e₁.loseInflight with queue := [] }

theorem shape_timeout (e : Engine S) (now : Instant) :
    Shape e (.handle now .timeout) (e.handle now .timeout) := by
  have h : Tame (e.started (.handle now .timeout))
      (fed e now .timeout).fireCallTimeout.fireHeartbeat.fireBootRetry :=
    ((tame_fireCallTimeout _).trans (tame_fireHeartbeat _)).trans (still_fireBootRetry _).tame
  change Shape e _ (fed e now .timeout).fireCallTimeout.fireHeartbeat.fireBootRetry.fireDrain
  rw [fireDrain]
  split
  · next hout => exact .ranOut now _ h hout
  · next hout => exact .timeout now _ h hout

/-- The answer to the outstanding call is acted on before the queue is pumped. -/
theorem tame_taken {e : Engine S} {f : InFlight} (result : Verdict) (e₁ : Engine S)
    (h : Tame (({ e with inflight := none }.ackStore f.seq).emit (.clearTimer .callTimeout)) e₁) :
    Tame e (e₁.emit (.outcome ⟨f.token, some f.id, f.action, result⟩)) :=
  ((tame_free e).trans ((still_ackStore _ f.seq).trans (still_emit _ rfl rfl)).tame).trans
    (h.trans (still_emit _ rfl rfl).tame)

theorem shape_onFrame {e e₁ : Engine S} {now : Instant} {text : String} {frame : Frame}
    (hparse : Frame.parse text e.version = .ok frame) (hf : e₁.inflight = e.inflight)
    (h : Quiet (e.started (.handle now (.received text))) e₁) :
    Shape e (.handle now (.received text)) (e₁.onFrame frame) := by
  unfold onFrame
  have hcheck : Quiet e₁ (if frame.id.isConforming then e₁
      else e₁.violate (.nonConformingMessageId frame.id)) := by
    split
    · exact Quiet.refl e₁
    · exact quiet_violate e₁ _
  generalize (if frame.id.isConforming then e₁
    else e₁.violate (.nonConformingMessageId frame.id)) = e₂ at hcheck
  have hq := h.trans hcheck
  have hf₂ : e₂.inflight = e.inflight := hcheck.inflight.trans hf
  rcases frame with ⟨id, action, payload⟩ | ⟨id, payload⟩ | ⟨id, error⟩ | ⟨id, error⟩ |
    ⟨id, action, payload⟩
  · exact .quiet _ _ rfl (hq.trans (quiet_onCall e₂ id action payload .call))
  · by_cases hid : ∃ f, e₂.inflight = some f ∧ f.id = id
    · obtain ⟨f, hf', rfl⟩ := hid
      simp only [onCallResult, takeInflight_of_eq hf']
      refine .answered now text _ ⟨_, f, hparse, hf₂ ▸ hf', Or.inl ⟨payload, rfl⟩⟩ ?_
      exact hq.tame.trans (tame_taken _ _ (tame_observeAnswer _ _ _))
    · have hne : ∀ f, e₂.inflight = some f → f.id ≠ id := fun f hf he => hid ⟨f, hf, he⟩
      simp only [onCallResult_of_ne hne]
      exact .quiet _ _ rfl (hq.trans (quiet_violate e₂ _))
  · by_cases hid : ∃ f, e₂.inflight = some f ∧ f.id = id
    · obtain ⟨f, hf', rfl⟩ := hid
      simp only [onCallError, takeInflight_of_eq hf']
      refine .answered now text _ ⟨_, f, hparse, hf₂ ▸ hf', Or.inr ⟨error, rfl⟩⟩ ?_
      exact hq.tame.trans (tame_taken _ _ (Tame.refl _))
    · have hne : ∀ f, e₂.inflight = some f → f.id ≠ id := fun f hf he => hid ⟨f, hf, he⟩
      simp only [onCallError_of_ne hne]
      exact .quiet _ _ rfl (hq.trans (quiet_violate e₂ _))
  · exact .quiet _ _ rfl (hq.trans (quiet_emit e₂ rfl rfl))
  · exact .quiet _ _ rfl (hq.trans (quiet_onCall e₂ id action payload .send))

theorem shape_received (e : Engine S) (now : Instant) (text : String) :
    Shape e (.handle now (.received text)) (e.handle now (.received text)) := by
  change Shape e _ ((fed e now (.received text)).onReceived text)
  rw [onReceived]
  have h := quiet_armHeartbeat (fed e now (.received text))
  generalize (fed e now (.received text)).armHeartbeat = e₁ at h
  rw [show e₁.version = e.version from h.version]
  rcases hparse : Frame.parse text e.version with error | frame
  · exact .quiet _ _ rfl (h.trans (quiet_onMalformed e₁ error))
  · exact shape_onFrame hparse h.inflight h

theorem shape_cancel (e : Engine S) (token : CallToken) :
    Shape e (.cancel token) (e.cancel token).2 := by
  rw [cancel]
  split
  · exact .quiet _ _ rfl (Quiet.refl e)
  next index hindex =>
  split
  · exact .quiet _ _ rfl (Quiet.refl e)
  next entry hentry => exact .cancelled token index entry hindex hentry

theorem shape_shutdown (e : Engine S) (now deadline : Instant) :
    Shape e (.shutdown now deadline) (e.shutdown now deadline) := by
  rw [shutdown]
  split
  · exact .quiet _ _ rfl (Quiet.refl _)
  · next hdrain =>
    refine .shutdown now deadline ?_
    rcases hd : e.draining with _ | deadline
    · rfl
    · exact absurd (show e.draining.isSome from by rw [hd]; rfl) hdrain

/-- **Every operation has a shape.** -/
theorem exec_shape (e : Engine S) (op : Op) : Shape e op (exec e op) := by
  cases op with
  | handle now input =>
      cases input with
      | connected version => exact .connected now version _ (quiet_armHeartbeat _)
      | received text => exact shape_received e now text
      | disconnected => exact shape_disconnected e now
      | timeout => exact shape_timeout e now
  | callWith now action payload options => exact shape_callWith e now action payload options
  | respond now id payload => exact .quiet _ _ rfl (quiet_respond e now id payload)
  | respondError now id error => exact .quiet _ _ rfl (quiet_respondError e now id error)
  | rejectResult now id error => exact .quiet _ _ rfl (quiet_rejectResult e now id error)
  | cancel token => exact shape_cancel e token
  | shutdown now deadline => exact shape_shutdown e now deadline
  | setCallTimeout timeout => exact .quiet _ _ rfl (Quiet.refl _)
  | setIdGenerator ids => exact .quiet _ _ rfl (Quiet.refl _)
  | pollOutput => exact .quiet _ _ rfl (Quiet.refl _)
  | drain => exact .quiet _ _ rfl (Quiet.refl _)

/-! ### What an operation leaves in the history -/

/-- **Between the two states the engine kept its configuration, version and connection**,
and what it left in the history is in order, or a close. -/
structure Orderly (e e' : Engine S) : Prop where
  /-- The configuration stays. -/
  config : e'.config = e.config
  /-- So does the version. -/
  version : e'.version = e.version
  /-- So does the connection. -/
  connected : e'.connected = e.connected
  /-- The history grows by entries that are in order, and by closes. -/
  log : ∃ evs, e'.log = e.log ++ evs ∧ ∀ ev ∈ evs,
    ev.InOrder e.config.role e.version e.connected ∨ ∃ reason, ev = .out (.close reason)

omit [MessageStore S] in
theorem Calm.orderly {e e' : Engine S} (h : Calm e e') : Orderly e e' := by
  obtain ⟨evs, hlog, hevs⟩ := h.log
  exact ⟨h.config, h.version, h.connected, evs, hlog, fun ev hev => Or.inl (hevs ev hev)⟩

omit [MessageStore S] in
theorem Orderly.trans {e e' e'' : Engine S} (h : Orderly e e') (h' : Orderly e' e'') :
    Orderly e e'' where
  config := h'.config.trans h.config
  version := h'.version.trans h.version
  connected := h'.connected.trans h.connected
  log := by
    obtain ⟨evs, hlog, hevs⟩ := h.log
    obtain ⟨evs', hlog', hevs'⟩ := h'.log
    rw [h.config, h.version, h.connected] at hevs'
    refine ⟨evs ++ evs', by rw [hlog', hlog, List.append_assoc], fun ev hev => ?_⟩
    rcases List.mem_append.mp hev with hev | hev
    · exact hevs ev hev
    · exact hevs' ev hev

omit [MessageStore S] in
theorem orderly_close (e : Engine S) (reason : CloseReason) :
    Orderly e { e.emit (.close reason) with draining := none } := by
  refine ⟨rfl, rfl, rfl, [.out (.close reason)], rfl, fun ev hev => ?_⟩
  exact Or.inr ⟨reason, List.mem_singleton.mp hev⟩

omit [MessageStore S] in
theorem orderly_checkDrain (e : Engine S) : Orderly e e.checkDrain := by
  rw [checkDrain]
  split
  · refine ⟨rfl, rfl, rfl, [.out (.clearTimer .drainDeadline), .out (.close .drained)], ?_, ?_⟩
    · simp only [emit, List.append_assoc, List.cons_append, List.nil_append]
    · intro ev hev
      rcases List.mem_pair.mp hev with rfl | rfl
      · exact Or.inl rfl
      · exact Or.inr ⟨_, rfl⟩
  · exact (Calm.refl e).orderly

/-- **Once its setting has changed, an operation is orderly.** -/
theorem exec_orderly (e : Engine S) (op : Op) : Orderly (e.started op) (exec e op) := by
  have hshape := exec_shape e op
  generalize exec e op = e' at hshape
  cases hshape with
  | quiet _ _ _ h => exact h.toCalm.orderly
  | connected _ _ e₁ h => exact (h.toCalm.trans (tame_pump e₁).toCalm).orderly
  | accepted _ _ _ _ e₁ _ h => exact (h.toCalm.trans (tame_pump e₁).toCalm).orderly
  | refused _ _ _ _ _ _ h => exact h.toCalm.orderly
  | answered _ _ e₁ _ h =>
      exact (h.toCalm.trans (tame_pump e₁).toCalm).orderly.trans (orderly_checkDrain _)
  | timeout _ e₁ h _ =>
      exact (h.toCalm.trans (tame_pump e₁).toCalm).orderly.trans (orderly_checkDrain _)
  | ranOut _ e₁ h _ => exact h.toCalm.orderly.trans (orderly_close e₁ _)
  | disconnected _ e₁ h => exact h.toCalm.orderly.trans (orderly_checkDrain e₁)
  | cancelled _ index entry _ _ =>
      have h : Calm e ({ e with queue := e.queue.eraseIdx index }.abandon entry .cancelled) :=
        (still_abandon { e with queue := e.queue.eraseIdx index } _ _).toCalm.of_eq
          rfl rfl rfl rfl rfl
      exact h.orderly
  | shutdown now deadline _ =>
      have h : Orderly (e.advance now) ({ e.advance now with draining := some deadline }.emit
          (.setTimer .drainDeadline deadline)) := by
        refine ⟨rfl, rfl, rfl, [.out (.setTimer .drainDeadline deadline)], rfl, fun ev hev => ?_⟩
        obtain rfl := List.mem_singleton.mp hev
        exact Or.inl rfl
      exact h.trans (orderly_checkDrain _)

omit [MessageStore S] in
/-- Before it is orderly, an operation notes its input. -/
theorem log_started (e : Engine S) (op : Op) : (e.started op).log = e.log ++ op.inputs := by
  cases op with
  | handle now input => cases input <;> rfl
  | _ => exact (List.append_nil _).symm

omit [MessageStore S] in
/-- The role never changes. -/
theorem role_started (e : Engine S) (op : Op) :
    (e.started op).config.role = e.config.role := by
  cases op with
  | handle now input => cases input <;> rfl
  | _ => rfl

/-- **What an operation leaves in the history**, after its input, is in order under the
version, and for the connection, that it leaves, or a close. -/
theorem newEvents_started (e : Engine S) (op : Op) : ∃ evs, newEvents e op = op.inputs ++ evs ∧
    ∀ ev ∈ evs, ev.InOrder e.config.role (exec e op).version (exec e op).connected ∨
      ∃ reason, ev = .out (.close reason) := by
  have h := exec_orderly e op
  obtain ⟨evs, hlog, hevs⟩ := h.log
  rw [log_started, List.append_assoc] at hlog
  rw [← h.version, ← h.connected, role_started] at hevs
  exact ⟨evs, newEvents_of_log hlog, hevs⟩

/-- All of it is. -/
theorem newEvents_inOrder (e : Engine S) (op : Op) : ∀ ev ∈ newEvents e op,
    ev.InOrder e.config.role (exec e op).version (exec e op).connected ∨
      ∃ reason, ev = .out (.close reason) := by
  intro ev hev
  obtain ⟨evs, hnew, hevs⟩ := newEvents_started e op
  rw [hnew] at hev
  rcases List.mem_append.mp hev with hev | hev
  · cases op with
    | handle now input =>
        obtain rfl := List.mem_singleton.mp hev
        exact Or.inl trivial
    | _ => exact absurd hev List.not_mem_nil
  · exact hevs ev hev

end Engine

end OcppKit
