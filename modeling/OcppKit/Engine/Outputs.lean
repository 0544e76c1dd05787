import OcppKit.Engine.TimerTable

/-!
# What the driver is handed

The history is what the statements about runs are about; the driver sees none of it. It takes
outputs, one after the other, from a queue (`OcppKit.Engine.pollOutput`).

The two agree: whatever a function of the engine adds to the queue it adds to the history, in
the same order (`OcppKit.Hands`). In every run, with the driver taking outputs at
whatever moments it likes, what it has taken and what still waits for it are together the
outputs of the history (`OcppKit.handed_run`) – none is lost, none is handed out twice, and none
overtakes another.
-/

namespace OcppKit

variable [Externals]

open Engine

variable {S : Type}

/-- **Between the two states the driver was handed what the history says.** -/
def Hands (e e' : Engine S) : Prop :=
  ∃ evs, e'.log = e.log ++ evs ∧ e'.outputs = e.outputs ++ outputs evs

theorem Hands.refl (e : Engine S) : Hands e e :=
  ⟨[], (List.append_nil _).symm, (List.append_nil _).symm⟩

theorem Hands.trans {e e' e'' : Engine S} (h : Hands e e') (h' : Hands e' e'') :
    Hands e e'' := by
  obtain ⟨evs, hlog, houtputs⟩ := h
  obtain ⟨evs', hlog', houtputs'⟩ := h'
  refine ⟨evs ++ evs', ?_, ?_⟩
  · rw [hlog', hlog, List.append_assoc]
  · rw [houtputs', houtputs, outputs_append, List.append_assoc]

/-- The other fields do not matter. -/
theorem Hands.of_eq {e₀ e e' : Engine S} (h : Hands e e') (hlog : e.log = e₀.log)
    (houtputs : e.outputs = e₀.outputs) : Hands e₀ e' := by
  rw [Hands, ← hlog, ← houtputs]
  exact h

theorem hands_of_eq {e e' : Engine S} (hlog : e'.log = e.log)
    (houtputs : e'.outputs = e.outputs) : Hands e e' :=
  (Hands.refl e').of_eq hlog houtputs

theorem hands_note (e : Engine S) {v : Event} (h : outputs [v] = []) :
    Hands e (e.note v) :=
  ⟨[v], rfl, by rw [h, List.append_nil]; rfl⟩

theorem hands_emit (e : Engine S) (o : Output) : Hands e (e.emit o) := ⟨[.out o], rfl, rfl⟩

theorem hands_advance (e : Engine S) (now : Instant) : Hands e (e.advance now) :=
  hands_of_eq rfl rfl

/-! ### Reporting and writing -/

theorem hands_armHeartbeat (e : Engine S) : Hands e e.armHeartbeat := by
  rw [armHeartbeat]
  split
  · exact Hands.refl e
  split
  · exact Hands.refl e
  dsimp only
  split
  · exact Hands.refl e
  · exact (hands_emit { e with heartbeatAt := _ } _).of_eq rfl rfl

theorem hands_transmit (e : Engine S) (frame : Frame) : Hands e (e.transmit frame) := by
  rw [transmit]
  split
  · exact (hands_emit e _).trans (hands_armHeartbeat _)
  · exact hands_emit e _

theorem hands_answer (e : Engine S) {mark : Event} (h : outputs [mark] = []) (frame : Frame) :
    Hands e ((e.note mark).transmit frame) :=
  (hands_note e h).trans (hands_transmit _ frame)

theorem hands_checkDrain (e : Engine S) : Hands e e.checkDrain := by
  rw [checkDrain]
  split
  · refine Hands.trans ?_ (hands_emit _ _)
    exact (hands_emit { e with draining := none } _).of_eq rfl rfl
  · exact Hands.refl e

/-! ### Frames that answer nothing -/

theorem hands_reject (e : Engine S) (id : MessageId) (kind : MessageKind) (error : CallError) :
    Hands e (e.reject id kind error) := by
  cases kind with
  | send => exact Hands.refl e
  | call => exact hands_answer e rfl _

theorem hands_admission (e : Engine S) (id : MessageId) : Hands e (e.admission id).2 := by
  rw [admission]
  split
  · exact hands_emit e _
  split
  · exact Hands.refl e
  dsimp only
  have h := hands_emit e (.violation (.concurrentCall id))
  split
  · split
    · exact h.trans (hands_emit _ _)
    · exact h.trans (hands_emit _ _)
  · split
    · exact h
    · exact h

theorem hands_deliver (e : Engine S) (id : MessageId) (action : String) (payload : RawValue)
    (received : MessageKind) : Hands e (e.deliver id action payload received) := by
  rw [deliver]
  split
  · exact hands_reject e id received _
  dsimp only
  refine Hands.trans ?_ (hands_emit _ _)
  split
  · split
    · exact hands_of_eq rfl rfl
    · exact hands_of_eq rfl rfl
  · split
    · exact hands_of_eq rfl rfl
    · exact Hands.refl e

theorem hands_onCall (e : Engine S) (id : MessageId) (action : String) (payload : RawValue)
    (received : MessageKind) : Hands e (e.onCall id action payload received) := by
  rw [onCall]
  split
  · exact hands_reject e id received _
  split
  · exact (hands_emit e _).trans (hands_reject _ id received _)
  split
  · exact (hands_emit e _).trans (hands_reject _ id received _)
  split
  · have h := hands_admission e id
    split
    next error e' heq =>
      rw [heq] at h
      exact h.trans (hands_reject e' id received error)
    next e' heq =>
      rw [heq] at h
      exact h.trans (hands_deliver e' id action payload received)
  · exact hands_deliver e id action payload received

theorem hands_onMalformed (e : Engine S) (error : FrameError) : Hands e (e.onMalformed error) := by
  rw [onMalformed]
  dsimp only
  have h := hands_emit e (.violation error.violation)
  split
  · exact h
  · exact h.trans (hands_answer _ rfl _)
  · exact h.trans (hands_answer _ rfl _)

theorem hands_takeInflight (e : Engine S) (id : MessageId) : Hands e (e.takeInflight id).2 := by
  rw [takeInflight]
  split
  · split
    · exact hands_of_eq rfl rfl
    · exact Hands.refl e
  · exact Hands.refl e

/-! ### Talking to the store -/

variable [MessageStore S]

theorem hands_ackStore (e : Engine S) (seq : Option Seq) : Hands e (e.ackStore seq) := by
  rcases seq with _ | seq
  · exact Hands.refl e
  rw [ackStore]
  split
  · exact hands_of_eq rfl rfl
  · exact (hands_emit { e with store := _ } _).of_eq rfl rfl

theorem hands_storeAttempts (e : Engine S) (seq : Option Seq) (attempts : ℕ) :
    Hands e (e.storeAttempts seq attempts) := by
  rcases seq with _ | seq
  · exact Hands.refl e
  rw [storeAttempts]
  split
  · exact hands_of_eq rfl rfl
  · exact (hands_emit { e with store := _ } _).of_eq rfl rfl

theorem hands_abandon (e : Engine S) (entry : Pending) (why : CallFailure) :
    Hands e (e.abandon entry why) :=
  (hands_ackStore e entry.seq).trans (hands_emit _ _)

/-! ### Sending -/

theorem hands_sendUnconfirmed (e : Engine S) (index : ℕ) (entry : Pending) :
    Hands e (e.sendUnconfirmed index entry) := by
  let e₁ : Engine S := { e with queue := e.queue.eraseIdx index }
  have h : Hands e ((e₁.nextId.2.note (.sent e₁.nextId.1 entry)).transmit
      (.send e₁.nextId.1 entry.action entry.payload)) :=
    (hands_answer e₁.nextId.2 rfl _).of_eq rfl rfl
  exact (h.trans (hands_ackStore _ entry.seq)).trans (hands_emit _ _)

omit [MessageStore S] in
theorem hands_sendCall (e : Engine S) (index : ℕ) (entry : Pending) :
    Hands e (e.sendCall index entry) := by
  let e₁ : Engine S := { e with queue := e.queue.eraseIdx index }
  have h : Hands e ((e₁.nextId.2.note (.sent e₁.nextId.1 entry)).transmit
      (.call e₁.nextId.1 entry.action entry.payload)) :=
    (hands_answer e₁.nextId.2 rfl _).of_eq rfl rfl
  exact (h.trans (hands_emit _ _)).trans (hands_of_eq rfl rfl)

theorem hands_pumpSends (n : ℕ) (e : Engine S) : Hands e (pumpSends n e) := by
  induction n generalizing e with
  | zero => exact Hands.refl e
  | succ n ih =>
      rw [pumpSends]
      split
      · exact Hands.refl e
      · split
        · exact Hands.refl e
        · exact (hands_sendUnconfirmed e _ _).trans (ih _)

omit [MessageStore S] in
theorem hands_pumpCall (e : Engine S) : Hands e e.pumpCall := by
  rw [pumpCall]
  split
  · exact Hands.refl e
  split
  · exact Hands.refl e
  split
  · exact Hands.refl e
  · exact hands_sendCall e _ _

theorem hands_pump (e : Engine S) : Hands e e.pump := by
  rw [pump]
  split
  · exact (hands_pumpSends _ e).trans (hands_pumpCall _)
  · exact Hands.refl e

/-! ### The application -/

omit [MessageStore S] in
theorem hands_rememberSolicited (e : Engine S) (action : String) (payload : RawValue) :
    Hands e (e.rememberSolicited action payload) :=
  hands_of_eq rfl rfl

theorem hands_enqueue (e : Engine S) (entry : Pending) : Hands e (e.enqueue entry) :=
  ((hands_note { e with queue := e.queue ++ [entry] } (v := .accepted entry) rfl).of_eq
    rfl rfl).trans (hands_pump _)

theorem hands_persistCall (e : Engine S) (persist : Bool) (record : QueuedCall) :
    Hands e (e.persistCall persist record).2 := by
  rw [persistCall]
  split
  · exact hands_of_eq rfl rfl
  · exact Hands.refl e

theorem hands_callWith (e : Engine S) (now : Instant) (action : String) (payload : RawValue)
    (options : CallOptions) : Hands e (e.callWith now action payload options).2 := by
  rw [callWith]
  have hnow := hands_advance e now
  generalize e.advance now = e₁ at hnow
  refine hnow.trans (?_ : Hands e₁ _)
  dsimp only
  split
  · exact Hands.refl e₁
  split
  · exact Hands.refl e₁
  split
  · exact Hands.refl e₁
  split
  · exact Hands.refl e₁
  have hmint : Hands e₁ e₁.mintToken.2 := hands_of_eq rfl rfl
  generalize e₁.mintToken = minted at hmint
  obtain ⟨token, e₂⟩ := minted
  refine hmint.trans (?_ : Hands e₂ _)
  dsimp only
  split
  · exact hands_emit e₂ _
  split
  · exact hands_emit e₂ _
  split
  next error e₃ heq =>
    have hpersist := congrArg Prod.snd heq ▸ hands_persistCall e₂ _ _
    exact (hpersist.trans (hands_emit _ _)).trans (hands_emit _ _)
  next seq e₃ heq =>
    have hpersist := congrArg Prod.snd heq ▸ hands_persistCall e₂ _ _
    refine hpersist.trans (Hands.trans ?_ (hands_enqueue _ _))
    split
    · exact hands_rememberSolicited e₃ action payload
    · exact Hands.refl e₃

omit [MessageStore S] in
theorem hands_takePeerRequest (e : Engine S) (id : MessageId) :
    Hands e (e.takePeerRequest id).2 := by
  rw [takePeerRequest]
  split
  · exact hands_of_eq rfl rfl
  · exact Hands.refl e

theorem hands_applyBootInterval (e : Engine S) (state : BootState) (interval : Option Duration)
    (outgoing : Bool) : Hands e (e.applyBootInterval state interval outgoing) := by
  have hwait : ∀ at_,
      Hands e ({ e with bootRetryAt := some at_ }.emit (.setTimer .bootRetry at_)) :=
    fun at_ => (hands_emit { e with bootRetryAt := some at_ } _).of_eq rfl rfl
  unfold applyBootInterval
  split
  · dsimp only
    split
    · exact hands_of_eq rfl rfl
    · refine Hands.trans ?_ (hands_pump _)
      exact (hands_armHeartbeat { e with heartbeatInterval := _ }).of_eq rfl rfl
  · split
    · exact Hands.refl e
    · exact hwait _
  · split
    · exact Hands.refl e
    · exact hwait _
  · exact Hands.refl e

theorem hands_observeBootAnswer (e : Engine S) (payload : RawValue) (outgoing : Bool) :
    Hands e (e.observeBootAnswer payload outgoing) := by
  rw [observeBootAnswer]
  split
  · exact Hands.refl e
  split
  · exact Hands.refl e
  next answer _ state _ =>
    have hstate : Hands e ({ e with boot := state }.emit (.bootState state)) :=
      (hands_emit { e with boot := state } _).of_eq rfl rfl
    refine hstate.trans (Hands.trans ?_ (hands_applyBootInterval _ state _ outgoing))
    split
    · split
      · exact Hands.refl _
      · exact hands_emit _ _
    · exact Hands.refl _

theorem hands_respond (e : Engine S) (now : Instant) (id : MessageId) (payload : RawValue) :
    Hands e (e.respond now id payload).2 := by
  rw [respond]
  have htake := (hands_advance e now).trans (hands_takePeerRequest (e.advance now) id)
  split
  next error e₁ heq =>
    rw [heq] at htake
    exact htake
  next e₁ heq =>
    rw [heq] at htake
    refine (htake.trans ?_).trans (hands_answer _ rfl _)
    split
    · exact hands_observeBootAnswer e₁ payload true
    · exact Hands.refl e₁

omit [MessageStore S] in
theorem hands_respondError (e : Engine S) (now : Instant) (id : MessageId) (error : CallError) :
    Hands e (e.respondError now id error).2 := by
  rw [respondError]
  have htake := (hands_advance e now).trans (hands_takePeerRequest (e.advance now) id)
  split
  next error e₁ heq =>
    rw [heq] at htake
    exact htake
  next e₁ heq =>
    rw [heq] at htake
    exact htake.trans (hands_answer e₁ rfl _)

omit [MessageStore S] in
theorem hands_rejectResult (e : Engine S) (now : Instant) (id : MessageId) (error : CallError) :
    Hands e (e.rejectResult now id error).2 := by
  rw [rejectResult]
  split
  · exact (hands_advance e now).trans (hands_answer _ rfl _)
  · exact hands_advance e now

theorem hands_cancel (e : Engine S) (token : CallToken) : Hands e (e.cancel token).2 := by
  rw [cancel]
  split
  · exact Hands.refl e
  split
  · exact Hands.refl e
  · exact (hands_abandon { e with queue := _ } _ _).of_eq rfl rfl

omit [MessageStore S] in
theorem hands_shutdown (e : Engine S) (now deadline : Instant) :
    Hands e (e.shutdown now deadline) := by
  rw [shutdown]
  split
  · exact hands_advance e now
  · refine Hands.trans ?_ (hands_checkDrain _)
    exact (hands_emit { e.advance now with draining := some deadline } _).of_eq rfl rfl

/-! ### The connection and the timers -/

theorem hands_requeueOrFail (e : Engine S) (f : InFlight) (why : CallFailure) :
    Hands e (e.requeueOrFail f why) := by
  rw [requeueOrFail]
  split
  · have hstore := hands_storeAttempts e f.seq f.attempts
    generalize e.storeAttempts f.seq f.attempts = e₁ at hstore
    exact hstore.trans ((hands_emit { e₁ with queue := _ } _).of_eq rfl rfl)
  · exact (hands_ackStore e f.seq).trans (hands_emit _ _)

theorem hands_failOffline (waiting kept : List Pending) (e : Engine S) :
    Hands e (failOffline waiting kept e) := by
  induction waiting generalizing kept e with
  | nil => exact hands_of_eq rfl rfl
  | cons entry rest ih =>
      rw [failOffline]
      split
      · exact ih _ e
      · exact (hands_abandon e entry .disconnected).trans (ih kept _)

theorem hands_onConnected (e : Engine S) (version : Version) : Hands e (e.onConnected version) :=
  ((hands_armHeartbeat { e with version := version, connected := true, peerInflight := ∅ }).of_eq
    rfl rfl).trans (hands_pump _)

theorem hands_loseInflight (e : Engine S) : Hands e e.loseInflight := by
  rw [loseInflight]
  split
  · exact (hands_requeueOrFail { e with inflight := none } _ _).of_eq rfl rfl
  · exact Hands.refl e

theorem hands_onDisconnected (e : Engine S) : Hands e e.onDisconnected := by
  rw [onDisconnected]
  let e₁ : Engine S := ({ e with connected := false, peerInflight := ∅ }.emit
    (.clearTimer .callTimeout)).emit (.clearTimer .heartbeat)
  have h₁ : Hands e e₁ :=
    ((hands_emit { e with connected := false, peerInflight := ∅ } _).of_eq rfl rfl).trans
      (hands_emit _ _)
  have h₂ := h₁.trans ((hands_loseInflight { e₁ with heartbeatAt := none }).of_eq rfl rfl)
  refine Hands.trans (h₂.trans ?_) (hands_checkDrain _)
  exact (hands_failOffline _ [] { loseInflight { e₁ with heartbeatAt := none } with
    queue := [] }).of_eq rfl rfl

theorem hands_fireCallTimeout (e : Engine S) : Hands e e.fireCallTimeout := by
  rw [fireCallTimeout]
  split
  · split
    · refine Hands.trans ?_ (hands_requeueOrFail _ _ _)
      exact (hands_emit { e with inflight := none } _).of_eq rfl rfl
    · exact Hands.refl e
  · exact Hands.refl e

theorem hands_fireHeartbeat (e : Engine S) : Hands e e.fireHeartbeat := by
  rw [fireHeartbeat]
  split
  · split
    · refine Hands.trans ?_ (hands_armHeartbeat _)
      split
      · exact (hands_callWith { e with heartbeatAt := none } _ _ _ _).of_eq rfl rfl
      · exact hands_of_eq rfl rfl
    · exact Hands.refl e
  · exact Hands.refl e

omit [MessageStore S] in
theorem hands_fireBootRetry (e : Engine S) : Hands e e.fireBootRetry := by
  rw [fireBootRetry]
  split
  · split
    · exact (hands_emit { e with bootRetryAt := none, boot := .idle } _).of_eq rfl rfl
    · exact Hands.refl e
  · exact Hands.refl e

theorem hands_fireDrain (e : Engine S) : Hands e e.fireDrain := by
  rw [fireDrain]
  split
  · exact (hands_emit e _).trans (hands_of_eq rfl rfl)
  · exact (hands_pump e).trans (hands_checkDrain _)

theorem hands_onTimeout (e : Engine S) : Hands e e.onTimeout :=
  (((hands_fireCallTimeout e).trans (hands_fireHeartbeat _)).trans
    (hands_fireBootRetry _)).trans (hands_fireDrain _)

/-! ### Answers that arrive -/

theorem hands_observeAnswer (e : Engine S) (action : String) (payload : RawValue) :
    Hands e (e.observeAnswer action payload) := by
  rw [observeAnswer]
  split
  · exact hands_observeBootAnswer e payload false
  split
  · split
    · exact hands_emit e _
    · exact Hands.refl e
  · exact Hands.refl e

theorem hands_onCallResult (e : Engine S) (id : MessageId) (payload : RawValue) :
    Hands e (e.onCallResult id payload) := by
  rw [onCallResult]
  have htake := hands_takeInflight e id
  split
  next e₁ heq =>
    rw [heq] at htake
    exact htake.trans (hands_emit e₁ _)
  next f e₁ heq =>
    rw [heq] at htake
    have hack := (htake.trans (hands_ackStore e₁ f.seq)).trans
      (hands_emit _ (.clearTimer .callTimeout))
    have hseen := hack.trans (hands_observeAnswer _ f.action payload)
    exact ((hseen.trans (hands_emit _ _)).trans (hands_pump _)).trans (hands_checkDrain _)

theorem hands_onCallError (e : Engine S) (id : MessageId) (error : CallErrorRef) :
    Hands e (e.onCallError id error) := by
  rw [onCallError]
  have htake := hands_takeInflight e id
  split
  next e₁ heq =>
    rw [heq] at htake
    exact htake.trans (hands_emit e₁ _)
  next f e₁ heq =>
    rw [heq] at htake
    have hack := (htake.trans (hands_ackStore e₁ f.seq)).trans
      (hands_emit _ (.clearTimer .callTimeout))
    exact ((hack.trans (hands_emit _ _)).trans (hands_pump _)).trans (hands_checkDrain _)

theorem hands_onFrame (e : Engine S) (frame : Frame) : Hands e (e.onFrame frame) := by
  unfold onFrame
  have hid : Hands e (if frame.id.isConforming then e
      else e.violate (.nonConformingMessageId frame.id)) := by
    split
    · exact Hands.refl e
    · exact hands_emit e _
  generalize (if frame.id.isConforming then e
    else e.violate (.nonConformingMessageId frame.id)) = e₁ at hid
  refine hid.trans ?_
  cases frame with
  | call id action payload => exact hands_onCall e₁ id action payload .call
  | send id action payload => exact hands_onCall e₁ id action payload .send
  | callResult id payload => exact hands_onCallResult e₁ id payload
  | callError id error => exact hands_onCallError e₁ id error
  | callResultError id error => exact hands_emit e₁ _

theorem hands_onReceived (e : Engine S) (text : String) : Hands e (e.onReceived text) := by
  rw [onReceived]
  have harm := hands_armHeartbeat e
  split
  · exact harm.trans (hands_onMalformed _ _)
  · exact harm.trans (hands_onFrame _ _)

theorem hands_handle (e : Engine S) (now : Instant) (input : Input) :
    Hands e (e.handle now input) := by
  have hfed : Hands e (fed e now input) := (hands_advance e now).trans (hands_note _ rfl)
  cases input with
  | connected version => exact hfed.trans (hands_onConnected _ version)
  | received text => exact hfed.trans (hands_onReceived _ text)
  | disconnected => exact hfed.trans (hands_onDisconnected _)
  | timeout => exact hfed.trans (hands_onTimeout _)

/-! ### Operations and runs -/

/-- What an operation of the driver takes. -/
def takes (e : Engine S) : Op → List Output
  | .pollOutput => e.outputs.head?.toList
  | .drain => e.outputs
  | _ => []

/-- Whether the operation is the driver's, and takes outputs. -/
def Op.polls : Op → Bool
  | .pollOutput | .drain => true
  | _ => false

/-- **Whatever does not take outputs only adds to them**, as the history says. -/
theorem hands_exec (e : Engine S) {op : Op} (h : op.polls = false) : Hands e (exec e op) := by
  cases op with
  | handle now input => exact hands_handle e now input
  | callWith now action payload options => exact hands_callWith e now action payload options
  | respond now id payload => exact hands_respond e now id payload
  | respondError now id error => exact hands_respondError e now id error
  | rejectResult now id error => exact hands_rejectResult e now id error
  | cancel token => exact hands_cancel e token
  | shutdown now deadline => exact hands_shutdown e now deadline
  | setCallTimeout timeout => exact hands_of_eq rfl rfl
  | setIdGenerator ids => exact hands_of_eq rfl rfl
  | pollOutput => cases h
  | drain => cases h

/-- **One operation**: what waited and what it adds are what it takes and what then waits. -/
theorem handed_exec (e : Engine S) (op : Op) :
    e.outputs ++ outputs (newEvents e op) = takes e op ++ (exec e op).outputs := by
  have hhands : op.polls = false → takes e op = [] →
      e.outputs ++ outputs (newEvents e op) = takes e op ++ (exec e op).outputs := by
    intro hop htakes
    obtain ⟨evs, hlog, houtputs⟩ := hands_exec e hop
    rw [newEvents_of_log hlog, htakes, List.nil_append, houtputs]
  cases op with
  | pollOutput =>
      have hnone : newEvents e .pollOutput = [] := newEvents_of_log (List.append_nil _).symm
      rw [hnone]
      change e.outputs ++ [] = e.outputs.head?.toList ++ e.outputs.tail
      rcases e.outputs with _ | ⟨o, rest⟩
      · rfl
      · exact List.append_nil _
  | drain =>
      have hnone : newEvents e .drain = [] := newEvents_of_log (List.append_nil _).symm
      rw [hnone]
      rfl
  | _ => exact hhands rfl rfl

/-- What the driver takes in the course of a run. -/
def taken (e : Engine S) : List Op → List Output
  | [] => []
  | op :: ops => takes e op ++ taken (exec e op) ops

theorem taken_run (e : Engine S) (ops : List Op) : ∃ evs, (run e ops).log = e.log ++ evs ∧
    e.outputs ++ outputs evs = taken e ops ++ (run e ops).outputs := by
  induction ops generalizing e with
  | nil => exact ⟨[], (List.append_nil _).symm, List.append_nil _⟩
  | cons op ops ih =>
      obtain ⟨evs, hlog, houtputs⟩ := ih (exec e op)
      refine ⟨newEvents e op ++ evs, ?_, ?_⟩
      · rw [run_cons, hlog, log_exec, List.append_assoc]
      · rw [outputs_append, ← List.append_assoc, handed_exec, List.append_assoc, houtputs, taken,
          List.append_assoc, run_cons]

omit [MessageStore S] in
theorem handed_foldl_restore (records : List (Seq × QueuedCall)) (e : Engine S) :
    Hands e (records.foldl restore e) := by
  induction records generalizing e with
  | nil => exact Hands.refl e
  | cons record records ih =>
      refine Hands.trans ?_ (ih (e.restore record))
      exact (hands_note { e with queue := _, nextToken := _ } (v := .accepted _) rfl).of_eq
        rfl rfl

/-- An engine starts with the outputs of its history. -/
theorem handed_withStore {config : EngineConfig} {store : S} {ids : ℕ → MessageId}
    {e₀ : Engine S} (h : Engine.withStore config store ids = .ok e₀) :
    e₀.outputs = outputs e₀.log := by
  obtain ⟨records, -, rfl⟩ := eq_of_withStore h
  obtain ⟨evs, hlog, houtputs⟩ := handed_foldl_restore records (fresh config store ids)
  rw [houtputs, hlog, outputs_append]
  rfl

/-- **The driver is handed every output once, in order.** In every run, whatever moments the
driver chooses to take outputs at, those it has taken and those that still wait are together
the outputs of the history. -/
theorem handed_run {config : EngineConfig} {store : S} {ids : ℕ → MessageId}
    {e₀ : Engine S} (h : Engine.withStore config store ids = .ok e₀) (ops : List Op) :
    taken e₀ ops ++ (run e₀ ops).outputs = outputs (run e₀ ops).log := by
  obtain ⟨evs, hlog, houtputs⟩ := taken_run e₀ ops
  rw [← houtputs, hlog, outputs_append, handed_withStore h]

end OcppKit

/-! ### A run -/

namespace OcppKit.Reference

/-- A station connects and boots, and its driver takes one output. -/
def polledRun : List Op :=
  [.handle 1 (.connected .v2_0_1), .callWith 2 "BootNotification" RawValue.emptyObject {},
    .pollOutput]

theorem handed_run_polledRun :
    (taken (station .v2_0_1) polledRun).length = 1 ∧
    taken (station .v2_0_1) polledRun ++ (run (station .v2_0_1) polledRun).outputs =
      outputs (run (station .v2_0_1) polledRun).log :=
  ⟨by decide +kernel, handed_run (withStore_station .v2_0_1) polledRun⟩

end OcppKit.Reference
