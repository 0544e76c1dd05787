import OcppKit.Engine.Run

/-!
# What an operation does to everything but the outbox

The table `OcppKit.Effect`: for each operation, and each way it can go, the setting
it leaves – the connection, the clock, the ids the peer waits on, the boot state –
and the entries it leaves in the history that are not the engine's own work.
`OcppKit.exec_effect` says that the table is right, and that what an operation puts
on the wire is what it marks.

Together with `OcppKit.exec_outbox` this is all that is used about a single
operation from here on.
-/

namespace OcppKit

variable [Externals]

open Engine

variable {S : Type}

/-! ### The table -/

/-- The marks of the reply to a text that is no frame. -/
def replyMarks (version : Version) (error : FrameError) : List Event :=
  match error.reply version with
  | .ignore => []
  | .callError => [.rejected error.replyId (malformedAnswer error)]
  | .callResultError => [.resultRejected error.replyId (malformedResultAnswer error)]

/-- The frame a request arrives in. -/
def requestFrame (id : MessageId) (action : String) (payload : RawValue) : MessageKind → Frame
  | .call => .call id action payload
  | .send => .send id action payload

/-- The boot timer fires. -/
def BootRetryDue (e : Engine S) (now : Instant) : Prop :=
  ∃ at_, e.bootRetryAt = some at_ ∧ at_ ≤ (e.advance now).now

/-- **What each operation does**: the setting after it, and what it leaves in the
history. -/
inductive Effect (e : Engine S) : Op → Setting → List Event → Prop
  /-- The connection comes up. -/
  | connected (now : Instant) (version : Version) :
      Effect e (.handle now (.connected version))
        { (e.advance now).setting with
          version := version, connected := true, peerInflight := ∅ }
        [.input (.connected version)]
  /-- The connection goes away. -/
  | disconnected (now : Instant) :
      Effect e (.handle now .disconnected)
        { (e.advance now).setting with connected := false, peerInflight := ∅ }
        [.input .disconnected]
  /-- Time passes. -/
  | timeout (now : Instant) : ¬BootRetryDue e now →
      Effect e (.handle now .timeout) (e.advance now).setting [.input .timeout]
  /-- Time passes, and the boot timer fires. -/
  | bootRetry (now : Instant) : BootRetryDue e now →
      Effect e (.handle now .timeout)
        { (e.advance now).setting with boot := .idle, bootRetryAt := none } [.input .timeout]
  /-- A text arrives that is no frame. -/
  | malformed (now : Instant) (text : String) (error : FrameError) :
      Frame.parse text e.version = .error error →
      Effect e (.handle now (.received text)) (e.advance now).setting
        (.input (.received text) :: replyMarks e.version error)
  /-- A call is refused. -/
  | refused (now : Instant) (text : String) (id : MessageId) (action : String)
      (payload : RawValue) (error : CallError) :
      Frame.parse text e.version = .ok (.call id action payload) →
      Refusal e id action .call error →
      Effect e (.handle now (.received text)) (e.advance now).setting
        [.input (.received text), .rejected id error]
  /-- A `SEND` is dropped. -/
  | dropped (now : Instant) (text : String) (id : MessageId) (action : String)
      (payload : RawValue) (error : CallError) :
      Frame.parse text e.version = .ok (.send id action payload) →
      Refusal e id action .send error →
      Effect e (.handle now (.received text)) (e.advance now).setting [.input (.received text)]
  /-- A request is delivered. -/
  | delivered (now : Instant) (text : String) (id : MessageId) (action : String)
      (payload : RawValue) (kind : MessageKind) :
      Frame.parse text e.version = .ok (requestFrame id action payload kind) →
      e.Welcome id action kind →
      Effect e (.handle now (.received text))
        { (e.advance now).setting with
          boot := if e.config.role = Role.csms ∧ action = "BootNotification" then .idle else e.boot
          peerInflight :=
            if kind = MessageKind.call then insert id e.peerInflight else e.peerInflight }
        [.input (.received text), .out (.request ⟨id, action, payload, kind⟩)]
  /-- An answer arrives that nothing waits for. -/
  | unexpected (now : Instant) (text : String) (frame : Frame) :
      Frame.parse text e.version = .ok frame →
      (frame.messageType = .callResult ∨ frame.messageType = .callError) →
      (∀ f, e.inflight = some f → f.id ≠ frame.id) →
      Effect e (.handle now (.received text)) (e.advance now).setting [.input (.received text)]
  /-- The outstanding call is answered with a result. -/
  | answered (now : Instant) (text : String) (f : InFlight) (payload : RawValue)
      (r : Option Instant) :
      Frame.parse text e.version = .ok (.callResult f.id payload) → e.inflight = some f →
      (¬(f.action = "BootNotification" ∧ e.config.role = .chargingStation) →
        r = e.bootRetryAt) →
      Effect e (.handle now (.received text))
        { (e.advance now).setting with boot := e.bootAfter f.action payload, bootRetryAt := r }
        [.input (.received text),
          .out (.outcome ⟨f.token, some f.id, f.action, .ok (.result payload)⟩)]
  /-- The outstanding call is answered with an error. -/
  | answeredError (now : Instant) (text : String) (f : InFlight) (error : CallErrorRef) :
      Frame.parse text e.version = .ok (.callError f.id error) → e.inflight = some f →
      Effect e (.handle now (.received text)) (e.advance now).setting
        [.input (.received text),
          .out (.outcome ⟨f.token, some f.id, f.action, .error (.rejected error.toCallError)⟩)]
  /-- The peer could not use a result. -/
  | resultRejected (now : Instant) (text : String) (id : MessageId) (error : CallErrorRef) :
      Frame.parse text e.version = .ok (.callResultError id error) →
      Effect e (.handle now (.received text)) (e.advance now).setting
        [.input (.received text), .out (.resultRejected id error.toCallError)]
  /-- The application starts a call. -/
  | callWith (now : Instant) (action : String) (payload : RawValue) (options : CallOptions) :
      Effect e (.callWith now action payload options) (e.advance now).setting []
  /-- The application answers a request. -/
  | responded (now : Instant) (id : MessageId) (payload : RawValue) : id ∈ e.peerInflight →
      Effect e (.respond now id payload)
        { (e.advance now).setting with
          boot := if e.config.role = Role.csms then (bootVerdict payload).getD e.boot else e.boot
          peerInflight := e.peerInflight.erase id }
        [.answered id payload]
  /-- There is no such request. -/
  | notResponded (now : Instant) (id : MessageId) (payload : RawValue) : id ∉ e.peerInflight →
      Effect e (.respond now id payload) (e.advance now).setting []
  /-- The application answers a request with an error. -/
  | respondedError (now : Instant) (id : MessageId) (error : CallError) : id ∈ e.peerInflight →
      Effect e (.respondError now id error)
        { (e.advance now).setting with peerInflight := e.peerInflight.erase id }
        [.answeredError id error]
  /-- There is no such request. -/
  | notRespondedError (now : Instant) (id : MessageId) (error : CallError) :
      id ∉ e.peerInflight →
      Effect e (.respondError now id error) (e.advance now).setting []
  /-- The application rejects a result. -/
  | rejectedResult (now : Instant) (id : MessageId) (error : CallError) :
      e.version.hasExtendedMessageTypes = true →
      Effect e (.rejectResult now id error) (e.advance now).setting [.resultRejected id error]
  /-- This version has no way to reject a result. -/
  | notRejected (now : Instant) (id : MessageId) (error : CallError) :
      e.version.hasExtendedMessageTypes = false →
      Effect e (.rejectResult now id error) (e.advance now).setting []
  /-- The application withdraws a call. -/
  | cancel (token : CallToken) : Effect e (.cancel token) e.setting []
  /-- The application starts a drain. -/
  | shutdown (now deadline : Instant) :
      Effect e (.shutdown now deadline) (e.advance now).setting []
  /-- The application changes the message timeout. -/
  | setCallTimeout (timeout : Duration) :
      Effect e (.setCallTimeout timeout)
        { e.setting with config := { e.config with callTimeout := timeout } } []
  /-- The application replaces the id generator. -/
  | setIdGenerator (ids : ℕ → MessageId) : Effect e (.setIdGenerator ids) e.setting []
  /-- The driver takes one output. -/
  | pollOutput : Effect e .pollOutput e.setting []
  /-- The driver takes every output. -/
  | drain : Effect e .drain e.setting []

/-! ### The table is right -/

/-- Between the two states the operation had an effect of the table, and what went
on the wire is what is marked. -/
def HasEffect (e : Engine S) (op : Op) (e' : Engine S) : Prop :=
  ∃ evs left, Effect e op e'.setting left ∧ e'.log = e.log ++ evs ∧ foreign evs = left ∧
    Marked e'.version evs

theorem hasEffect_of_leaves {e e' : Engine S} {op : Op} {s : Setting} {left : List Event}
    (h : Effect e op s left) (hs : e'.setting = s) (hl : Leaves e e' left) :
    HasEffect e op e' := by
  obtain ⟨evs, hlog, hleft, hmark⟩ := hl.log
  exact ⟨evs, left, hs ▸ h, hlog, hleft, hl.version ▸ hmark⟩

theorem leaves_fed (e : Engine S) (now : Instant) (input : Input) :
    Leaves e (fed e now input) [.input input] :=
  (leaves_note (e.advance now) rfl (marked_of_silent rfl rfl)).of_eq rfl rfl rfl

variable [MessageStore S]

theorem hasEffect_connected (e : Engine S) (now : Instant) (version : Version) :
    HasEffect e (.handle now (.connected version)) (e.handle now (.connected version)) := by
  -- the version changes first, and nothing has been written by then
  have h := ((reports_armHeartbeat { fed e now (.connected version) with
    version := version, connected := true, peerInflight := ∅ }).works none).trans
    (works_pump earlyHeld_none _)
  obtain ⟨evs, hlog, hown, hmark⟩ := h.log
  refine ⟨.input (.connected version) :: evs, [.input (.connected version)], ?_, ?_, ?_, ?_⟩
  · exact h.setting ▸ Effect.connected now version
  · rw [show (e.handle now (.connected version)).log = _ from hlog, fed, note, List.append_assoc]
    rfl
  · rw [← List.singleton_append, foreign_append, foreign_eq_nil hown]
    rfl
  · exact (marked_of_silent rfl rfl : Marked _ [.input (.connected version)]).append
      (version_of_setting h.setting ▸ hmark)

theorem leaves_loseInflight (e : Engine S) :
    Leaves e e.loseInflight [] ∧ e.loseInflight.setting = e.setting := by
  rw [loseInflight]
  split
  · next f hf =>
    have h := frees_requeueOrFail hf (show isAnswer (.error .disconnected) = false from rfl)
    exact ⟨h.leaves, h.setting⟩
  · exact ⟨Leaves.refl e, rfl⟩

theorem hasEffect_disconnected (e : Engine S) (now : Instant) :
    HasEffect e (.handle now .disconnected) (e.handle now .disconnected) := by
  let e₁ : Engine S := { ((({ fed e now .disconnected with
    connected := false, peerInflight := ∅ } : Engine S).emit (.clearTimer .callTimeout)).emit
    (.clearTimer .heartbeat)) with heartbeatAt := none }
  have h₁ : Reports { fed e now .disconnected with connected := false, peerInflight := ∅ } e₁ [] :=
    ((reports_emit _ rfl).trans (reports_emit _ rfl)).trans (reports_heartbeatAt _ none)
  obtain ⟨h₂, hs₂⟩ := leaves_loseInflight e₁
  have h₃ := (works_failOffline none e₁.loseInflight.queue []
    { e₁.loseInflight with queue := [] }).trans (works_checkDrain none _)
  refine hasEffect_of_leaves (Effect.disconnected now) ?_ ?_
  · exact h₃.setting.trans (hs₂.trans h₁.setting)
  · exact (((leaves_fed e now .disconnected).trans (h₁.leaves.of_eq rfl rfl rfl)).trans h₂).trans
      (h₃.leaves.of_eq rfl rfl rfl)

theorem leaves_fireCallTimeout (e : Engine S) :
    Leaves e e.fireCallTimeout [] ∧ e.fireCallTimeout.setting = e.setting := by
  rw [fireCallTimeout]
  split
  · next f hf =>
    split
    · have hr := reports_emit e (o := .clearTimer .callTimeout) rfl
      have h := frees_requeueOrFail (e := e.emit (.clearTimer .callTimeout)) hf
        (show isAnswer (.error .timeout) = false from rfl)
      exact ⟨hr.leaves.trans h.leaves, h.setting⟩
    · exact ⟨Leaves.refl e, rfl⟩
  · exact ⟨Leaves.refl e, rfl⟩

theorem hasEffect_timeout (e : Engine S) (now : Instant) :
    HasEffect e (.handle now .timeout) (e.handle now .timeout) := by
  obtain ⟨h₁, hs₁⟩ := leaves_fireCallTimeout (fed e now .timeout)
  have h₂ := works_fireHeartbeat (fed e now .timeout).fireCallTimeout
  have hs₂ := h₂.setting.trans hs₁
  have hl₂ := ((leaves_fed e now .timeout).trans h₁).trans h₂.leaves
  change HasEffect e _ (fed e now .timeout).fireCallTimeout.fireHeartbeat.fireBootRetry.fireDrain
  generalize (fed e now .timeout).fireCallTimeout.fireHeartbeat = e₂ at h₂ hs₂ hl₂ ⊢
  have hat : e₂.bootRetryAt = e.bootRetryAt := congrArg Setting.bootRetryAt hs₂
  have hnow : e₂.now = (e.advance now).now := congrArg Setting.now hs₂
  have h₃ := works_fireDrain e₂.fireBootRetry
  by_cases hdue : BootRetryDue e now
  · obtain ⟨at_, hsome, hle⟩ := id hdue
    have hfire : e₂.fireBootRetry =
        { e₂ with bootRetryAt := none, boot := .idle }.emit (.bootState .idle) := by
      simp only [fireBootRetry, hat, hsome, hnow, hle, if_true]
    have hr : Reports { e₂ with bootRetryAt := none, boot := .idle } e₂.fireBootRetry [] :=
      hfire ▸ reports_emit _ rfl
    refine hasEffect_of_leaves (Effect.bootRetry now hdue) ?_
      ((hl₂.trans (hr.leaves.of_eq rfl rfl rfl)).trans h₃.leaves)
    have hset : e₂.setting = (e.advance now).setting := hs₂
    rw [h₃.setting, hr.setting, ← hset]
    rfl
  · have hfire : e₂.fireBootRetry = e₂ := by
      rw [fireBootRetry, hat]
      split
      · next at_ hsome => rw [if_neg fun hle => hdue ⟨at_, hsome, hnow ▸ hle⟩]
      · rfl
    rw [hfire] at h₃ ⊢
    exact hasEffect_of_leaves (Effect.timeout now hdue) (h₃.setting.trans hs₂)
      (hl₂.trans h₃.leaves)

/-! ### A text that arrives -/

omit [MessageStore S] in
/-- What a `CALL` or a `SEND` does, from a state that differs from the one before the
operation in the clock and in reports. -/
theorem hasEffect_receives {e e₁ e' : Engine S} {now : Instant} {text : String} {id : MessageId}
    {action : String} {payload : RawValue} {kind : MessageKind}
    (hparse : Frame.parse text e.version = .ok (requestFrame id action payload kind))
    (hs : e₁.setting = (e.advance now).setting) (hsol : e₁.solicited = e.solicited)
    (hl : Leaves e e₁ [.input (.received text)]) (h : Receives e₁ id action payload kind e') :
    HasEffect e (.handle now (.received text)) e' := by
  have hconfig : e₁.config = e.config := congrArg Setting.config hs
  have hversion : e₁.version = e.version := congrArg Setting.version hs
  have hpeer : e₁.peerInflight = e.peerInflight := congrArg Setting.peerInflight hs
  have hboot : e₁.boot = e.boot := congrArg Setting.boot hs
  have hgate : e₁.gated action = e.gated action := by
    rw [gated, gated, hconfig, hboot, hsol]
  cases h with
  | refused e₂ error hkind hr hwhy =>
      subst hkind
      have hw := writes_note_transmit e₂ (.rejected id error) (.callError id error.toRef)
      exact hasEffect_of_leaves (Effect.refused now text id action payload error hparse
          (hwhy.of_eq hconfig hversion hpeer hboot hgate))
        (hw.setting.trans (hr.setting.trans hs))
        ((hl.trans hr.leaves).trans (hw.leaves rfl rfl))
  | dropped e₂ error hkind hr hwhy =>
      subst hkind
      exact hasEffect_of_leaves (Effect.dropped now text id action payload error hparse
          (hwhy.of_eq hconfig hversion hpeer hboot hgate))
        (hr.setting.trans hs) (hl.trans hr.leaves)
  | delivered e₂ hr hopen =>
      have hwelcome : e.Welcome id action kind := fun error hwhy =>
        hopen error (hwhy.of_eq hconfig.symm hversion.symm hpeer.symm hboot.symm hgate.symm)
      have hset : e₂.setting = (e.advance now).setting := hr.setting.trans hs
      have hd : Leaves e₂ (e₂.delivered id action payload kind)
          [.out (.request ⟨id, action, payload, kind⟩)] :=
        (leaves_emit { e₂ with
          boot := if e₂.config.role = Role.csms ∧ action = "BootNotification" then .idle
            else e₂.boot
          peerInflight :=
            if kind = MessageKind.call then insert id e₂.peerInflight else e₂.peerInflight }
          (o := .request ⟨id, action, payload, kind⟩) rfl (marked_of_silent rfl rfl)).of_eq
            rfl rfl rfl
      refine hasEffect_of_leaves (Effect.delivered now text id action payload kind hparse
          hwelcome) ?_ ((hl.trans hr.leaves).trans hd)
      rw [← hset, show e.config = e₂.config from (congrArg Setting.config hset).symm,
        show e.boot = e₂.boot from (congrArg Setting.boot hset).symm,
        show e.peerInflight = e₂.peerInflight from (congrArg Setting.peerInflight hset).symm]
      rfl

theorem hasEffect_answers {e e₁ e' : Engine S} {now : Instant} {text : String} {f : InFlight}
    {v : Verdict} {boot : BootState} {r : Option Instant} {s : Setting}
    (h : Effect e (.handle now (.received text)) s
      [.input (.received text), .out (.outcome ⟨f.token, some f.id, f.action, v⟩)])
    (hs : s = { e₁.setting with boot := boot, bootRetryAt := r })
    (hl : Leaves e e₁ [.input (.received text)]) (ha : Answers e₁ e' f v boot r) :
    HasEffect e (.handle now (.received text)) e' :=
  hasEffect_of_leaves h (ha.setting.trans hs.symm) (hl.trans ha.leaves)

omit [MessageStore S] in
theorem hasEffect_unexpected {e e₁ : Engine S} {now : Instant} {text : String} {frame : Frame}
    (hparse : Frame.parse text e.version = .ok frame)
    (htype : frame.messageType = .callResult ∨ frame.messageType = .callError)
    (hne : ∀ f, e.inflight = some f → f.id ≠ frame.id)
    (hs : e₁.setting = (e.advance now).setting)
    (hl : Leaves e e₁ [.input (.received text)]) :
    HasEffect e (.handle now (.received text)) (e₁.violate (.unexpectedResponse frame.id)) := by
  have hv := reports_violate e₁ (.unexpectedResponse frame.id)
  exact hasEffect_of_leaves (Effect.unexpected now text frame hparse htype hne)
    (hv.setting.trans hs) (hl.trans hv.leaves)

theorem hasEffect_onFrame {e e₁ : Engine S} {now : Instant} {text : String} {frame : Frame}
    (hparse : Frame.parse text e.version = .ok frame)
    (hs : e₁.setting = (e.advance now).setting) (hf : e₁.inflight = e.inflight)
    (hsol : e₁.solicited = e.solicited) (hl : Leaves e e₁ [.input (.received text)]) :
    HasEffect e (.handle now (.received text)) (e₁.onFrame frame) := by
  unfold onFrame
  have hr := reports_checkId e₁ frame.id
  generalize (if frame.id.isConforming then e₁
    else e₁.violate (.nonConformingMessageId frame.id)) = e₂ at hr
  have hs₂ : e₂.setting = (e.advance now).setting := hr.setting.trans hs
  have hf₂ : e₂.inflight = e.inflight := hr.inflight.trans hf
  have hsol₂ : e₂.solicited = e.solicited := hr.solicited.trans hsol
  have hl₂ : Leaves e e₂ [.input (.received text)] := hl.trans hr.leaves
  have hnone : ∀ id, (¬∃ f, e₂.inflight = some f ∧ f.id = id) →
      (∀ f, e₂.inflight = some f → f.id ≠ id) ∧ ∀ f, e.inflight = some f → f.id ≠ id := by
    intro id h
    exact ⟨fun f hf he => h ⟨f, hf, he⟩, fun f hf he => h ⟨f, hf₂.trans hf, he⟩⟩
  rcases frame with ⟨id, action, payload⟩ | ⟨id, payload⟩ | ⟨id, error⟩ | ⟨id, error⟩ |
    ⟨id, action, payload⟩
  · exact hasEffect_receives (show _ = Except.ok (requestFrame id action payload .call) from hparse)
      hs₂ hsol₂ hl₂ (receives_onCall e₂ id action payload .call)
  · by_cases h : ∃ f, e₂.inflight = some f ∧ f.id = id
    · obtain ⟨f, hf', rfl⟩ := h
      obtain ⟨r, hretry, ha⟩ := answers_onCallResult hf' payload
      rw [show e₂.config = e.config from congrArg Setting.config hs₂,
        show e₂.bootRetryAt = e.bootRetryAt from congrArg Setting.bootRetryAt hs₂] at hretry
      have hboot : e₂.bootAfter f.action payload = e.bootAfter f.action payload := by
        rw [bootAfter, bootAfter, show e₂.config = e.config from congrArg Setting.config hs₂,
          show e₂.boot = e.boot from congrArg Setting.boot hs₂]
      refine hasEffect_answers (Effect.answered now text f payload r hparse (hf₂ ▸ hf')
        hretry) ?_ hl₂ ha
      rw [hs₂, hboot]
    · obtain ⟨hne₂, hne⟩ := hnone id h
      simp only [onCallResult_of_ne hne₂]
      exact hasEffect_unexpected hparse (Or.inl rfl) hne hs₂ hl₂
  · by_cases h : ∃ f, e₂.inflight = some f ∧ f.id = id
    · obtain ⟨f, hf', rfl⟩ := h
      refine hasEffect_answers (Effect.answeredError now text f error hparse (hf₂ ▸ hf')) ?_ hl₂
        (answers_onCallError hf' error)
      exact hs₂.symm
    · obtain ⟨hne₂, hne⟩ := hnone id h
      simp only [onCallError_of_ne hne₂]
      exact hasEffect_unexpected hparse (Or.inr rfl) hne hs₂ hl₂
  · exact hasEffect_of_leaves (Effect.resultRejected now text id error hparse) hs₂
      (hl₂.trans (leaves_emit e₂ rfl (marked_of_silent rfl rfl)))
  · exact hasEffect_receives (show _ = Except.ok (requestFrame id action payload .send) from hparse)
      hs₂ hsol₂ hl₂ (receives_onCall e₂ id action payload .send)

theorem hasEffect_received (e : Engine S) (now : Instant) (text : String) :
    HasEffect e (.handle now (.received text)) (e.handle now (.received text)) := by
  change HasEffect e _ ((fed e now (.received text)).onReceived text)
  rw [onReceived]
  have hr := reports_armHeartbeat (fed e now (.received text))
  have hl := (leaves_fed e now (.received text)).trans hr.leaves
  generalize (fed e now (.received text)).armHeartbeat = e₁ at hr hl
  have hversion : e₁.version = e.version := congrArg Setting.version hr.setting
  rw [hversion]
  rcases hparse : Frame.parse text e.version with error | frame
  · have hbad := Effect.malformed (e := e) now text error hparse
    obtain ⟨e₂, h, ⟨hreply, heq⟩ | ⟨hreply, heq⟩ | ⟨hreply, heq⟩⟩ := onMalformed_cases e₁ error
    all_goals
      rw [hversion] at hreply
      rw [replyMarks, hreply] at hbad
      simp only [heq]
    · exact hasEffect_of_leaves hbad (h.setting.trans hr.setting) (hl.trans h.leaves)
    · have hw := writes_note_transmit e₂ (.rejected error.replyId (malformedAnswer error))
        (.callError error.replyId (malformedAnswer error).toRef)
      exact hasEffect_of_leaves hbad (hw.setting.trans (h.setting.trans hr.setting))
        ((hl.trans h.leaves).trans (hw.leaves rfl rfl))
    · have hw := writes_note_transmit e₂
        (.resultRejected error.replyId (malformedResultAnswer error))
        (.callResultError error.replyId (malformedResultAnswer error).toRef)
      exact hasEffect_of_leaves hbad (hw.setting.trans (h.setting.trans hr.setting))
        ((hl.trans h.leaves).trans (hw.leaves rfl rfl))
  · exact hasEffect_onFrame hparse hr.setting hr.inflight hr.solicited hl

/-! ### An answer that is given -/

theorem hasEffect_respond (e : Engine S) (now : Instant) (id : MessageId) (payload : RawValue) :
    HasEffect e (.respond now id payload) (e.respond now id payload).2 := by
  rw [respond, takePeerRequest]
  by_cases hid : id ∈ (e.advance now).peerInflight
  · rw [if_pos hid]
    let e₁ : Engine S := { e.advance now with peerInflight := e.peerInflight.erase id }
    let boot := if e.config.role = Role.csms then (bootVerdict payload).getD e.boot else e.boot
    have hobs : Reports { e₁ with boot := boot }
        (if e₁.config.role = Role.csms then e₁.observeBootAnswer payload true else e₁) [] := by
      by_cases hrole : e.config.role = .csms
      · simp only [boot, show e₁.config.role = .csms from hrole, hrole, if_true]
        exact reports_observeBootAnswer e₁ payload
      · simp only [boot, show ¬e₁.config.role = .csms from hrole, hrole, if_false]
        exact Reports.refl e₁
    have hl : Leaves e _ [] := hobs.leaves.of_eq rfl rfl rfl
    have hw := writes_note_transmit (if e₁.config.role = Role.csms then
      e₁.observeBootAnswer payload true else e₁) (.answered id payload) (.callResult id payload)
    exact hasEffect_of_leaves (Effect.responded now id payload hid)
      (hw.setting.trans hobs.setting) (hl.trans (hw.leaves rfl rfl))
  · rw [if_neg hid]
    exact hasEffect_of_leaves (Effect.notResponded now id payload hid) rfl
      ((Leaves.refl (e.advance now)).of_eq rfl rfl rfl)

omit [MessageStore S] in
theorem hasEffect_respondError (e : Engine S) (now : Instant) (id : MessageId)
    (error : CallError) :
    HasEffect e (.respondError now id error) (e.respondError now id error).2 := by
  rw [respondError, takePeerRequest]
  by_cases hid : id ∈ (e.advance now).peerInflight
  · rw [if_pos hid]
    have hw := writes_note_transmit
      { e.advance now with peerInflight := (e.advance now).peerInflight.erase id }
      (.answeredError id error) (.callError id error.toRef)
    exact hasEffect_of_leaves (Effect.respondedError now id error hid) hw.setting
      ((hw.leaves rfl rfl).of_eq rfl rfl rfl)
  · rw [if_neg hid]
    exact hasEffect_of_leaves (Effect.notRespondedError now id error hid) rfl
      ((Leaves.refl (e.advance now)).of_eq rfl rfl rfl)

omit [MessageStore S] in
theorem hasEffect_rejectResult (e : Engine S) (now : Instant) (id : MessageId)
    (error : CallError) :
    HasEffect e (.rejectResult now id error) (e.rejectResult now id error).2 := by
  rw [rejectResult]
  by_cases hversion : (e.advance now).version.hasExtendedMessageTypes = true
  · rw [if_pos hversion]
    have hw := writes_note_transmit (e.advance now) (.resultRejected id error)
      (.callResultError id error.toRef)
    exact hasEffect_of_leaves (Effect.rejectedResult now id error hversion) hw.setting
      ((hw.leaves rfl rfl).of_eq rfl rfl rfl)
  · rw [if_neg hversion]
    have hfalse : e.version.hasExtendedMessageTypes = false := Bool.eq_false_of_not_eq_true hversion
    exact hasEffect_of_leaves (Effect.notRejected now id error hfalse) rfl
      ((Leaves.refl (e.advance now)).of_eq rfl rfl rfl)

/-- **Every operation has an effect of the table**, and puts on the wire what it
marks. -/
theorem exec_effect (e : Engine S) (op : Op) : HasEffect e op (exec e op) := by
  cases op with
  | handle now input =>
      cases input with
      | connected version => exact hasEffect_connected e now version
      | received text => exact hasEffect_received e now text
      | disconnected => exact hasEffect_disconnected e now
      | timeout => exact hasEffect_timeout e now
  | callWith now action payload options =>
      have h := works_callWith e now action payload options
      exact hasEffect_of_leaves (Effect.callWith now action payload options) h.setting
        (h.leaves.of_eq rfl rfl rfl)
  | respond now id payload => exact hasEffect_respond e now id payload
  | respondError now id error => exact hasEffect_respondError e now id error
  | rejectResult now id error => exact hasEffect_rejectResult e now id error
  | cancel token =>
      have h := works_cancel e token
      exact hasEffect_of_leaves (Effect.cancel token) h.setting h.leaves
  | shutdown now deadline =>
      have h := works_shutdown e now deadline
      exact hasEffect_of_leaves (Effect.shutdown now deadline) h.setting
        (h.leaves.of_eq rfl rfl rfl)
  | setCallTimeout timeout =>
      exact ⟨[], [], Effect.setCallTimeout timeout, (List.append_nil _).symm, rfl, marked_nil _⟩
  | setIdGenerator ids =>
      exact ⟨[], [], Effect.setIdGenerator ids, (List.append_nil _).symm, rfl, marked_nil _⟩
  | pollOutput => exact ⟨[], [], Effect.pollOutput, (List.append_nil _).symm, rfl, marked_nil _⟩
  | drain => exact ⟨[], [], Effect.drain, (List.append_nil _).symm, rfl, marked_nil _⟩

/-! ### What an operation adds to the history -/

/-- What an operation adds to the history. -/
def newEvents (e : Engine S) (op : Op) : List Event := (exec e op).log.drop e.log.length

theorem newEvents_of_log {e : Engine S} {op : Op} {evs : List Event}
    (h : (exec e op).log = e.log ++ evs) : newEvents e op = evs := by
  rw [newEvents, h, List.drop_left]

/-- The history only grows. -/
theorem log_exec (e : Engine S) (op : Op) : (exec e op).log = e.log ++ newEvents e op := by
  obtain ⟨evs, -, -, hlog, -⟩ := exec_effect e op
  rw [newEvents_of_log hlog, hlog]

theorem run_log (e : Engine S) (ops : List Op) : ∃ evs, (run e ops).log = e.log ++ evs := by
  induction ops generalizing e with
  | nil => exact ⟨[], (List.append_nil _).symm⟩
  | cons op ops ih =>
      obtain ⟨evs, hlog⟩ := ih (exec e op)
      exact ⟨newEvents e op ++ evs, by rw [run_cons, hlog, log_exec, List.append_assoc]⟩

/-- **The effect of an operation**, in terms of what it adds to the history. -/
theorem newEvents_effect (e : Engine S) (op : Op) :
    Effect e op (exec e op).setting (foreign (newEvents e op)) ∧
      Marked (exec e op).version (newEvents e op) := by
  obtain ⟨evs, left, heffect, hlog, hleft, hmark⟩ := exec_effect e op
  rw [newEvents_of_log hlog, hleft]
  exact ⟨heffect, hmark⟩

/-! ### The configuration -/

/-- Only the message timeout of a configuration can be changed. -/
theorem config_exec (e : Engine S) (op : Op) :
    ∃ timeout, (exec e op).config = { e.config with callTimeout := timeout } := by
  have heffect := (newEvents_effect e op).1
  rw [show (exec e op).config = (exec e op).setting.config from rfl]
  generalize (exec e op).setting = s at heffect
  generalize foreign (newEvents e op) = left at heffect
  cases heffect with
  | setCallTimeout timeout => exact ⟨timeout, rfl⟩
  | _ => exact ⟨e.config.callTimeout, rfl⟩

omit [MessageStore S] in
theorem setting_foldl_restore (records : List (Seq × QueuedCall)) (e : Engine S) :
    (records.foldl restore e).setting = e.setting := by
  induction records generalizing e with
  | nil => rfl
  | cons record records ih => exact ih (e.restore record)

/-- The setting an engine starts in. -/
theorem setting_withStore {config : EngineConfig} {store : S} {ids : ℕ → MessageId}
    {e : Engine S} (h : Engine.withStore config store ids = .ok e) :
    e.setting = ⟨config, config.version, false, 0, ∅, .idle, none⟩ := by
  obtain ⟨records, -, rfl⟩ := eq_of_withStore h
  exact setting_foldl_restore records _

theorem config_run {config : EngineConfig} {store : S} {ids : ℕ → MessageId}
    {e₀ : Engine S} (h : Engine.withStore config store ids = .ok e₀) (ops : List Op) :
    ∃ timeout, (run e₀ ops).config = { config with callTimeout := timeout } := by
  refine run_invariant (fun e => ∃ timeout, e.config = { config with callTimeout := timeout })
    ?_ ?_ ops
  · rintro e op ⟨timeout, he⟩
    obtain ⟨timeout', he'⟩ := config_exec e op
    exact ⟨timeout', by rw [he', he]⟩
  · exact ⟨config.callTimeout, congrArg Setting.config (setting_withStore h)⟩

end OcppKit
