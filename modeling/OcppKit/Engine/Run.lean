import OcppKit.Engine.Receive

/-!
# Runs of one engine

A run is a list of operations, `OcppKit.Op`: what the driver feeds and what the
application calls, in any order. `OcppKit.exec` performs one and `OcppKit.run` all
of them, from an engine that `OcppKit.Engine.withStore` gave.

Two theorems say what an operation does, and everything about runs goes through
them. `OcppKit.exec_outbox`: to the outbox it is work, unless the operation settles
the outstanding call, in which case the slot is emptied first. `OcppKit.run_outbox`
is the same for a run, and starts from a loaded outbox.
-/

namespace OcppKit

variable [Externals]

/-! ### Operations -/

/-- One thing the driver or the application does. -/
inductive Op where
  /-- The driver feeds an input. -/
  | handle (now : Instant) (input : Input)
  /-- The application starts a call. -/
  | callWith (now : Instant) (action : String) (payload : RawValue) (options : CallOptions)
  /-- The application answers a request with a result. -/
  | respond (now : Instant) (id : MessageId) (payload : RawValue)
  /-- The application answers a request with an error. -/
  | respondError (now : Instant) (id : MessageId) (error : CallError)
  /-- The application cannot use a result. -/
  | rejectResult (now : Instant) (id : MessageId) (error : CallError)
  /-- The application withdraws a call. -/
  | cancel (token : CallToken)
  /-- The application starts a drain. -/
  | shutdown (now deadline : Instant)
  /-- The application changes the message timeout. -/
  | setCallTimeout (timeout : Duration)
  /-- The application replaces the id generator. -/
  | setIdGenerator (ids : ℕ → MessageId)
  /-- The driver takes one output. -/
  | pollOutput
  /-- The driver takes every output. -/
  | drain

variable {S : Type} [MessageStore S]

open Engine

/-- The engine after an operation. -/
def exec (e : Engine S) : Op → Engine S
  | .handle now input => e.handle now input
  | .callWith now action payload options => (e.callWith now action payload options).2
  | .respond now id payload => (e.respond now id payload).2
  | .respondError now id error => (e.respondError now id error).2
  | .rejectResult now id error => (e.rejectResult now id error).2
  | .cancel token => (e.cancel token).2
  | .shutdown now deadline => e.shutdown now deadline
  | .setCallTimeout timeout => e.setCallTimeout timeout
  | .setIdGenerator ids => e.setIdGenerator ids
  | .pollOutput => e.pollOutput.2
  | .drain => e.drain.2

/-- **The engine after a run.** -/
def run (e : Engine S) (ops : List Op) : Engine S := ops.foldl exec e

@[simp] theorem run_nil (e : Engine S) : run e [] = e := rfl

@[simp] theorem run_cons (e : Engine S) (op : Op) (ops : List Op) :
    run e (op :: ops) = run (exec e op) ops := rfl

theorem run_append (e : Engine S) (ops ops' : List Op) :
    run e (ops ++ ops') = run (run e ops) ops' :=
  List.foldl_append

theorem run_concat (e : Engine S) (ops : List Op) (op : Op) :
    run e (ops ++ [op]) = exec (run e ops) op := by
  rw [run_append, run_cons, run_nil]

/-- **A property kept by every operation holds after any run.** -/
theorem run_invariant (Inv : Engine S → Prop) (hstep : ∀ e op, Inv e → Inv (exec e op))
    {e : Engine S} (he : Inv e) (ops : List Op) : Inv (run e ops) := by
  induction ops generalizing e with
  | nil => exact he
  | cons op ops ih => exact ih (hstep e op he)

/-- **At each step of the run** from this engine, this is so of the state before it
and the operation. -/
def AtEach (e : Engine S) (ops : List Op) (φ : Engine S → Op → Prop) : Prop :=
  ∀ before op after, ops = before ++ op :: after → φ (run e before) op

theorem atEach_nil (e : Engine S) (φ : Engine S → Op → Prop) : AtEach e [] φ := by
  intro before op after h
  exact absurd h (by simp)

theorem atEach_cons {e : Engine S} {op : Op} {ops : List Op} {φ : Engine S → Op → Prop} :
    AtEach e (op :: ops) φ ↔ φ e op ∧ AtEach (exec e op) ops φ := by
  constructor
  · intro h
    exact ⟨h [] op ops rfl, fun before op' after he => h (op :: before) op' after (by simp [he])⟩
  · rintro ⟨hop, hops⟩ before op' after he
    rcases before with _ | ⟨op'', before⟩
    · obtain ⟨rfl, -⟩ : op = op' ∧ ops = after := by simpa using he
      exact hop
    · obtain ⟨rfl, rfl⟩ : op = op'' ∧ ops = before ++ op' :: after := by simpa using he
      exact hops before op' after rfl

/-- What is so at each step is so at each step of a first part. -/
theorem AtEach.of_append {e : Engine S} {ops ops' : List Op} {φ : Engine S → Op → Prop}
    (h : AtEach e (ops ++ ops') φ) : AtEach e ops φ := by
  rintro before op after rfl
  exact h before op (after ++ ops') (by simp)

/-- **A property kept by every step that is as it should be** holds after a run whose
steps all are. -/
theorem AtEach.invariant {φ : Engine S → Op → Prop} (Inv : Engine S → Prop)
    (hstep : ∀ e op, φ e op → Inv e → Inv (exec e op)) {e : Engine S} {ops : List Op}
    (h : AtEach e ops φ) (he : Inv e) : Inv (run e ops) := by
  induction ops generalizing e with
  | nil => exact he
  | cons op ops ih =>
      obtain ⟨hop, hops⟩ := atEach_cons.mp h
      exact ih hops (hstep e op hop he)

/-- Two properties that agree at each state of a run agree along it. -/
theorem atEach_congr {e : Engine S} {ops : List Op} {φ ψ : Engine S → Op → Prop}
    (h : ∀ before op after, ops = before ++ op :: after →
      (φ (run e before) op ↔ ψ (run e before) op)) : AtEach e ops φ ↔ AtEach e ops ψ :=
  ⟨fun hφ before op after he => (h before op after he).mp (hφ before op after he),
    fun hψ before op after he => (h before op after he).mpr (hψ before op after he)⟩

/-! ### What an operation does to the outbox -/

/-- **The operation settles the outstanding call**: its answer arrives, its deadline
has passed, or the connection goes away. -/
def Settles (e : Engine S) : Op → Prop
  | .handle _ (.received text) => ∃ f, e.inflight = some f ∧
      ((∃ payload, Frame.parse text e.version = .ok (.callResult f.id payload)) ∨
        ∃ error, Frame.parse text e.version = .ok (.callError f.id error))
  | .handle now .timeout => ∃ f, e.inflight = some f ∧ f.deadline ≤ (e.advance now).now
  | .handle _ .disconnected => e.inflight.isSome
  | _ => False

/-- What happens to the outbox between two states: work, preceded – if the call is
settled – by a step that empties the slot. -/
def Phase (settled : Prop) (e e' : Engine S) : Prop :=
  Outbox.Keeps policy (e.outbox none) (e'.outbox none) ∨
    (settled ∧ ∃ mid, Outbox.Free policy (e.outbox none) mid ∧
      Outbox.Keeps policy mid (e'.outbox none))

theorem phase_of_works {settled : Prop} {e₀ e e' : Engine S} (h : Works none e e')
    (he : e.outbox none = e₀.outbox none) : Phase settled e₀ e' :=
  Or.inl (he ▸ h.outbox)

theorem phase_of_eq {settled : Prop} {e e' : Engine S} (h : e'.outbox none = e.outbox none) :
    Phase settled e e' :=
  Or.inl (h ▸ Relation.ReflTransGen.refl)

/-- What comes before does not show in the outbox. -/
theorem Phase.of_eq {settled : Prop} {e₀ e e' : Engine S} (h : Phase settled e e')
    (he : e.outbox none = e₀.outbox none) : Phase settled e₀ e' := by
  rw [Phase, he] at h
  exact h

/-- Work after it does not change what a phase is. -/
theorem Phase.works {settled : Prop} {e e' e'' : Engine S} (h : Phase settled e e')
    (h' : Works none e' e'') : Phase settled e e'' := by
  rcases h with h | ⟨hs, mid, hfree, hkeep⟩
  · exact Or.inl (h.trans h'.outbox)
  · exact Or.inr ⟨hs, mid, hfree, hkeep.trans h'.outbox⟩

/-! ### The inputs -/

/-- The engine once the clock has been moved and the input noted. -/
def fed (e : Engine S) (now : Instant) (input : Input) : Engine S :=
  (e.advance now).note (.input input)

omit [MessageStore S] in
theorem outbox_fed (e : Engine S) (now : Instant) (input : Input) (held : Held) :
    (fed e now input).outbox held = e.outbox held := by
  rw [← outbox_advance e now, fed, Engine.outbox, note, outboxHistory_append,
    outboxHistory_cons_of_none rfl]
  exact congrArg _ (List.append_nil _)

theorem phase_onConnected (e : Engine S) (version : Version) :
    Phase False e (e.onConnected version) := by
  rw [onConnected]
  exact phase_of_works (((reports_armHeartbeat _).works none).trans (works_pump earlyHeld_none _))
    rfl

theorem phase_onTimeout (e : Engine S) :
    Phase (∃ f, e.inflight = some f ∧ f.deadline ≤ e.now) e e.onTimeout := by
  have hcall : Phase (∃ f, e.inflight = some f ∧ f.deadline ≤ e.now) e e.fireCallTimeout := by
    rw [fireCallTimeout]
    split
    · next f hf =>
      split
      · next hdl =>
        -- the timer is cleared first; the slot is emptied from there
        have hr := reports_emit e (o := .clearTimer .callTimeout) rfl
        have hfree := frees_requeueOrFail (e := e.emit (.clearTimer .callTimeout)) hf
          (show isAnswer (.error .timeout) = false from rfl)
        refine Or.inr ⟨⟨f, hf, hdl⟩, _, ?_, Relation.ReflTransGen.refl⟩
        rw [← hr.outbox none]
        exact hfree.outbox
      · exact phase_of_eq rfl
    · exact phase_of_eq rfl
  have hboot : ∀ e' : Engine S, Phase False e' e'.fireBootRetry := by
    intro e'
    rw [fireBootRetry]
    split
    · split
      · exact phase_of_works ((reports_emit _ rfl).works none) rfl
      · exact phase_of_eq rfl
    · exact phase_of_eq rfl
  rw [onTimeout]
  refine Phase.works ?_ (works_fireDrain _)
  rcases hboot e.fireCallTimeout.fireHeartbeat with hb | ⟨hfalse, -⟩
  · rcases hcall.works (works_fireHeartbeat _) with hc | ⟨hs, mid, hfree, hkeep⟩
    · exact Or.inl (hc.trans hb)
    · exact Or.inr ⟨hs, mid, hfree, hkeep.trans hb⟩
  · exact absurd hfalse not_false

theorem phase_onDisconnected (e : Engine S) :
    Phase (e.inflight.isSome) e e.onDisconnected := by
  rw [onDisconnected]
  let e₁ : Engine S := { ((({ e with connected := false, peerInflight := ∅ } : Engine S).emit
    (.clearTimer .callTimeout)).emit (.clearTimer .heartbeat)) with heartbeatAt := none }
  have h₁ : e₁.outbox none = e.outbox none :=
    (((reports_emit { e with connected := false, peerInflight := ∅ } rfl).trans
      (reports_emit _ rfl)).trans (reports_heartbeatAt _ none)).outbox none
  have hlose : Phase (e.inflight.isSome) e e₁.loseInflight := by
    rw [loseInflight]
    split
    · next f hf =>
      have hfree := frees_requeueOrFail (e := e₁) hf
        (show isAnswer (.error .disconnected) = false from rfl)
      have hsome : e.inflight.isSome := by
        rw [show e.inflight = some f from hf]
        rfl
      exact Or.inr ⟨hsome, _, h₁ ▸ hfree.outbox, Relation.ReflTransGen.refl⟩
    · exact phase_of_eq h₁
  have hfail := works_failOffline none e₁.loseInflight.queue []
    { e₁.loseInflight with queue := [] }
  exact (hlose.works hfail).works (works_checkDrain none _)

/-! ### An operation, and a run -/

omit [MessageStore S] in
/-- A request, whatever becomes of it, does not show in the outbox. -/
theorem Engine.Receives.outbox {e e' : Engine S} {id : MessageId} {action : String}
    {payload : RawValue}
    {received : MessageKind} (h : Receives e id action payload received e') :
    e'.outbox none = e.outbox none := by
  cases h with
  | refused e₁ error _ hr _ =>
      exact ((writes_note_transmit e₁ (.rejected id error) (.callError id error.toRef)).outbox
        rfl none).trans (hr.outbox none)
  | dropped e₁ error _ hr _ => exact hr.outbox none
  | delivered e₁ hr _ => exact (outbox_emit _ rfl none).trans (hr.outbox none)

omit [MessageStore S] in
/-- Nor does a text that is no frame. -/
theorem outbox_onMalformed (e : Engine S) (error : FrameError) :
    (e.onMalformed error).outbox none = e.outbox none := by
  obtain ⟨e₁, h, ⟨-, heq⟩ | ⟨-, heq⟩ | ⟨-, heq⟩⟩ := onMalformed_cases e error
  · exact heq ▸ h.outbox none
  · rw [heq]
    exact ((writes_note_transmit e₁ _ _).outbox rfl none).trans (h.outbox none)
  · rw [heq]
    exact ((writes_note_transmit e₁ _ _).outbox rfl none).trans (h.outbox none)

/-- The frame answers the outstanding call. -/
def AnswersCall (e : Engine S) (frame : Frame) : Prop :=
  ∃ f, e.inflight = some f ∧
    ((∃ payload, frame = .callResult f.id payload) ∨ ∃ error, frame = .callError f.id error)

theorem phase_answers {e e' : Engine S} {f : InFlight} {v : Verdict} {boot : BootState}
    {r : Option Instant} {settled : Prop} (hs : settled) (h : Answers e e' f v boot r) :
    Phase settled e e' := by
  obtain ⟨mid, hfree, hkeep⟩ := h.outbox
  exact Or.inr ⟨hs, mid, hfree, hkeep⟩

theorem Phase.mono {settled settled' : Prop} {e e' : Engine S} (h : Phase settled e e')
    (hs : settled → settled') : Phase settled' e e' := by
  rcases h with h | ⟨h, hrest⟩
  · exact Or.inl h
  · exact Or.inr ⟨hs h, hrest⟩

omit [MessageStore S] in
/-- The id check of `onFrame` only reports. -/
theorem reports_checkId (e : Engine S) (id : MessageId) : Reports e
    (if id.isConforming then e else e.violate (.nonConformingMessageId id)) [] := by
  split
  · exact Reports.refl e
  · exact reports_violate e _

/-- The frame is no answer to a call. -/
def NoAnswer (frame : Frame) : Prop :=
  frame.messageType ≠ .callResult ∧ frame.messageType ≠ .callError

/-- A frame that is no answer does not show in the outbox. -/
theorem outbox_onFrame (e : Engine S) {frame : Frame} (h : NoAnswer frame) :
    (e.onFrame frame).outbox none = e.outbox none := by
  unfold onFrame
  have hr := reports_checkId e frame.id
  generalize (if frame.id.isConforming then e
    else e.violate (.nonConformingMessageId frame.id)) = e₁ at hr
  refine Eq.trans ?_ (hr.outbox none)
  rcases frame with ⟨id, action, payload⟩ | ⟨id, payload⟩ | ⟨id, error⟩ | ⟨id, error⟩ |
    ⟨id, action, payload⟩
  · exact (receives_onCall e₁ id action payload .call).outbox
  · exact absurd rfl h.1
  · exact absurd rfl h.2
  · exact outbox_emit e₁ rfl none
  · exact (receives_onCall e₁ id action payload .send).outbox

theorem phase_onFrame (e : Engine S) (frame : Frame) :
    Phase (AnswersCall e frame) e (e.onFrame frame) := by
  by_cases hno : NoAnswer frame
  · exact phase_of_eq (outbox_onFrame e hno)
  unfold onFrame
  have hr := reports_checkId e frame.id
  generalize (if frame.id.isConforming then e
    else e.violate (.nonConformingMessageId frame.id)) = e₁ at hr
  refine Phase.of_eq ?_ (hr.outbox none)
  have hmono : AnswersCall e₁ frame → AnswersCall e frame := by
    rw [AnswersCall, hr.inflight]
    exact id
  refine Phase.mono ?_ hmono
  rcases frame with _ | ⟨id, payload⟩ | ⟨id, error⟩ | _ | _
  · exact absurd ⟨nofun, nofun⟩ hno
  · by_cases h : ∃ f, e₁.inflight = some f ∧ f.id = id
    · obtain ⟨f, hf, rfl⟩ := h
      obtain ⟨r, -, ha⟩ := answers_onCallResult hf payload
      exact phase_answers ⟨f, hf, Or.inl ⟨payload, rfl⟩⟩ ha
    · have hne : ∀ f, e₁.inflight = some f → f.id ≠ id := fun f hf he => h ⟨f, hf, he⟩
      simp only [onCallResult_of_ne hne]
      exact phase_of_eq ((reports_violate e₁ _).outbox none)
  · by_cases h : ∃ f, e₁.inflight = some f ∧ f.id = id
    · obtain ⟨f, hf, rfl⟩ := h
      exact phase_answers ⟨f, hf, Or.inr ⟨error, rfl⟩⟩ (answers_onCallError hf error)
    · have hne : ∀ f, e₁.inflight = some f → f.id ≠ id := fun f hf he => h ⟨f, hf, he⟩
      simp only [onCallError_of_ne hne]
      exact phase_of_eq ((reports_violate e₁ _).outbox none)
  · exact absurd ⟨nofun, nofun⟩ hno
  · exact absurd ⟨nofun, nofun⟩ hno

/-- **A text that carries no answer does not show in the outbox.** -/
theorem outbox_onReceived (e : Engine S) {text : String}
    (h : ∀ frame, Frame.parse text e.version = .ok frame → NoAnswer frame) :
    (e.onReceived text).outbox none = e.outbox none := by
  rw [onReceived]
  have hr := reports_armHeartbeat e
  generalize e.armHeartbeat = e₁ at hr
  rw [version_of_setting hr.setting]
  refine Eq.trans ?_ (hr.outbox none)
  rcases hparse : Frame.parse text e.version with error | frame
  · exact outbox_onMalformed e₁ error
  · exact outbox_onFrame e₁ (h frame hparse)

theorem phase_onReceived (e : Engine S) (text : String) :
    Phase (∃ frame, Frame.parse text e.version = .ok frame ∧ AnswersCall e frame) e
      (e.onReceived text) := by
  rw [onReceived]
  have hr := reports_armHeartbeat e
  generalize e.armHeartbeat = e₁ at hr
  refine Phase.of_eq ?_ (hr.outbox none)
  have hversion : e₁.version = e.version := version_of_setting hr.setting
  rw [hversion]
  rcases hparse : Frame.parse text e.version with error | frame
  · exact phase_of_eq (outbox_onMalformed e₁ error)
  · refine (phase_onFrame e₁ frame).mono fun h => ⟨frame, rfl, ?_⟩
    rwa [AnswersCall, hr.inflight] at h

omit [MessageStore S] in
theorem takePeerRequest_cases (e : Engine S) (id : MessageId) :
    (∃ error, e.takePeerRequest id = (.error error, e)) ∨
      e.takePeerRequest id = (.ok (), { e with peerInflight := e.peerInflight.erase id }) := by
  rw [takePeerRequest]
  split
  · exact Or.inr rfl
  · exact Or.inl ⟨_, rfl⟩

theorem outbox_respond (e : Engine S) (now : Instant) (id : MessageId) (payload : RawValue) :
    (e.respond now id payload).2.outbox none = e.outbox none := by
  rw [respond]
  rcases takePeerRequest_cases (e.advance now) id with ⟨error, h⟩ | h
  · rw [h]
    rfl
  · rw [h]
    refine Eq.trans ((writes_note_transmit _ _ _).outbox rfl none) ?_
    split
    · exact (reports_observeBootAnswer _ payload).outbox none
    · rfl

omit [MessageStore S] in
theorem outbox_respondError (e : Engine S) (now : Instant) (id : MessageId) (error : CallError) :
    (e.respondError now id error).2.outbox none = e.outbox none := by
  rw [respondError]
  rcases takePeerRequest_cases (e.advance now) id with ⟨error, h⟩ | h
  · rw [h]
    rfl
  · rw [h]
    exact (writes_note_transmit _ _ _).outbox rfl none

omit [MessageStore S] in
theorem outbox_rejectResult (e : Engine S) (now : Instant) (id : MessageId) (error : CallError) :
    (e.rejectResult now id error).2.outbox none = e.outbox none := by
  rw [rejectResult]
  split
  · exact (writes_note_transmit _ _ _).outbox rfl none
  · rfl

/-- **What an operation does to the outbox**: work, unless it settles the
outstanding call, in which case the slot is emptied first. -/
theorem exec_outbox (e : Engine S) (op : Op) : Phase (Settles e op) e (exec e op) := by
  cases op with
  | handle now input =>
    have hfed := outbox_fed e now input none
    cases input with
    | connected version =>
        exact ((phase_onConnected _ version).of_eq hfed).mono False.elim
    | received text =>
        refine ((phase_onReceived _ text).of_eq hfed).mono ?_
        rintro ⟨frame, hparse, f, hf, ⟨payload, rfl⟩ | ⟨error, rfl⟩⟩
        · exact ⟨f, hf, Or.inl ⟨payload, hparse⟩⟩
        · exact ⟨f, hf, Or.inr ⟨error, hparse⟩⟩
    | disconnected => exact (phase_onDisconnected _).of_eq hfed
    | timeout => exact (phase_onTimeout _).of_eq hfed
  | callWith now action payload options =>
      exact phase_of_works (works_callWith e now action payload options) (outbox_advance e now none)
  | respond now id payload => exact phase_of_eq (outbox_respond e now id payload)
  | respondError now id error => exact phase_of_eq (outbox_respondError e now id error)
  | rejectResult now id error => exact phase_of_eq (outbox_rejectResult e now id error)
  | cancel token => exact phase_of_works (works_cancel e token) rfl
  | shutdown now deadline =>
      exact phase_of_works (works_shutdown e now deadline) (outbox_advance e now none)
  | setCallTimeout timeout => exact phase_of_eq rfl
  | setIdGenerator ids => exact phase_of_eq rfl
  | pollOutput => exact phase_of_eq rfl
  | drain => exact phase_of_eq rfl

theorem Phase.steps {settled : Prop} {e e' : Engine S} (h : Phase settled e e') :
    Outbox.Steps policy (e.outbox none) (e'.outbox none) := by
  rcases h with h | ⟨-, mid, hfree, hkeep⟩
  · exact Outbox.Keeps.steps h
  · exact Relation.ReflTransGen.head (Or.inr hfree) (Outbox.Keeps.steps hkeep)

/-- **A run of the engine is a run of its outbox.** -/
theorem run_outbox (e : Engine S) (ops : List Op) :
    Outbox.Steps policy (e.outbox none) ((run e ops).outbox none) := by
  induction ops generalizing e with
  | nil => exact Relation.ReflTransGen.refl
  | cons op ops ih => exact (exec_outbox e op).steps.trans (ih (exec e op))

/-! ### The start -/

omit [MessageStore S] in
theorem outbox_restore (e : Engine S) (record : Seq × QueuedCall) :
    (e.restore record).outbox none =
      { e.outbox none with
        queue := (e.outbox none).queue ++ [restoredItem record e.nextToken]
        next := e.nextToken + 1
        hist := (e.outbox none).hist ++
          [Outbox.Ev.accepted (restoredItem record e.nextToken)] } := by
  simp only [Engine.outbox, restore, mintToken, note, outboxHistory_append, List.map_append]
  rfl

/-- The items a list of records is loaded as, from this token on. -/
def restoredItems (records : List (Seq × QueuedCall)) (first : ℕ) :
    List (Outbox.Item Message) :=
  (records.zipIdx first).map fun r => restoredItem r.1 r.2

theorem restoredItems_cons (record : Seq × QueuedCall) (records : List (Seq × QueuedCall))
    (first : ℕ) : restoredItems (record :: records) first =
      restoredItem record first :: restoredItems records (first + 1) := by
  rw [restoredItems, List.zipIdx_cons, List.map_cons, restoredItems]

theorem length_restoredItems (records : List (Seq × QueuedCall)) (first : ℕ) :
    (restoredItems records first).length = records.length := by
  rw [restoredItems, List.length_map, List.length_zipIdx]

theorem tokens_restoredItems (records : List (Seq × QueuedCall)) (first : ℕ) :
    (restoredItems records first).map Outbox.Item.token = List.range' first records.length := by
  induction records generalizing first with
  | nil => rfl
  | cons record records ih =>
      rw [restoredItems_cons, List.map_cons, ih, List.length_cons, List.range'_succ]
      rfl

omit [MessageStore S] in
theorem outbox_foldl_restore (records : List (Seq × QueuedCall)) (e : Engine S) :
    (records.foldl restore e).outbox none =
      { e.outbox none with
        queue := (e.outbox none).queue ++ restoredItems records e.nextToken
        next := e.nextToken + records.length
        hist := (e.outbox none).hist ++ (restoredItems records e.nextToken).map .accepted } := by
  induction records generalizing e with
  | nil => simp [restoredItems, Engine.outbox]
  | cons record records ih =>
      rw [List.foldl_cons, ih, outbox_restore, restoredItems_cons]
      simp only [List.append_assoc, List.singleton_append, List.map_cons, List.length_cons,
        show (e.restore record).nextToken = e.nextToken + 1 from rfl, Nat.add_assoc, Nat.add_comm 1]

/-- An engine is what its store holds, loaded into a fresh one. -/
theorem eq_of_withStore {config : EngineConfig} {store : S} {ids : ℕ → MessageId}
    {e : Engine S} (h : Engine.withStore config store ids = .ok e) :
    ∃ records, MessageStore.pending store = .ok records ∧
      e = records.foldl restore (fresh config store ids) := by
  rw [withStore] at h
  rcases hp : MessageStore.pending store with error | records
  · rw [hp] at h
    exact absurd h (by simp [Except.map])
  · rw [hp] at h
    exact ⟨records, rfl, by simpa [Except.map] using h.symm⟩

/-- **An engine starts as a loaded outbox.** -/
theorem withStore_outbox {config : EngineConfig} {store : S} {ids : ℕ → MessageId}
    {e : Engine S} (h : Engine.withStore config store ids = .ok e) :
    ∃ records, MessageStore.pending store = .ok records ∧
      e.outbox none = Outbox.State.loaded (restoredItems records 0) store := by
  obtain ⟨records, hp, rfl⟩ := eq_of_withStore h
  refine ⟨records, hp, ?_⟩
  rw [outbox_foldl_restore, Outbox.State.loaded, length_restoredItems]
  simp [Engine.outbox, fresh, outboxHistory]

/-- **The invariant of the outbox holds in every state an engine reaches.** -/
theorem outbox_invariant {config : EngineConfig} {store : S} {ids : ℕ → MessageId}
    {e₀ : Engine S} (h : Engine.withStore config store ids = .ok e₀) (ops : List Op) :
    ((run e₀ ops).outbox none).Invariant policy := by
  obtain ⟨records, -, hload⟩ := withStore_outbox h
  refine Outbox.invariant_steps (run_outbox e₀ ops) ?_
  rw [hload]
  refine Outbox.invariant_loaded ?_
  rw [tokens_restoredItems, length_restoredItems, List.range_eq_range']

end OcppKit
