import OcppKit.Engine.Basic

/-!
# The protocol engine

The functions of the engine, each under the source's name. An operation takes the
engine and gives back the engine it leaves; `&mut self` methods that return a
value give back the pair.

The two loops of `OcppKit.Engine.pump` become a recursion on the queue's length,
which every iteration shortens, and one conditional: the second loop runs at most
once, because its body fills the slot that its condition wants empty.
-/

namespace OcppKit

variable [Externals]

/-! ### Into the slot and back -/

/-- The record of an entry that has been written under this id. -/
def Pending.launched (entry : Pending) (id : MessageId) (deadline : Instant) : InFlight where
  id := id
  token := entry.token
  action := entry.action
  transactional := entry.transactional
  attempts := (entry.attempts + 1) % 2 ^ 32
  seq := entry.seq
  payload := entry.payload
  triggered := entry.triggered
  queueWhenOffline := entry.queueWhenOffline
  deadline := deadline

/-- The entry a lost call goes back into the queue as. -/
def InFlight.requeued (f : InFlight) (notBefore : Instant) : Pending where
  token := f.token
  action := f.action
  payload := f.payload
  kind := .call
  transactional := true
  attempts := f.attempts
  seq := f.seq
  notBefore := some notBefore
  triggered := f.triggered
  queueWhenOffline := f.queueWhenOffline

/-- The violation a parse failure is reported as. -/
def FrameError.violation : FrameError → ProtocolViolation
  | .unknownMessageType number => .unknownMessageType number
  | error => .malformedFrame error

namespace Engine

variable {S : Type} [MessageStore S]

/-! ### Emitting -/

/-- Adds a mark to the history. -/
def note (e : Engine S) (event : Event) : Engine S := { e with log := e.log ++ [event] }

/-- `outputs.push_back`: hands an output to the driver. -/
def emit (e : Engine S) (output : Output) : Engine S :=
  { e with outputs := e.outputs ++ [output], log := e.log ++ [.out output] }

/-- Reports a violation. -/
def violate (e : Engine S) (violation : ProtocolViolation) : Engine S :=
  e.emit (.violation violation)

/-- Moves the clock forward, never backwards. -/
def advance (e : Engine S) (now : Instant) : Engine S :=
  { e with now := if e.now < now then now else e.now }

/-- Issues the next handle. -/
def mintToken (e : Engine S) : CallToken × Engine S :=
  (e.nextToken, { e with nextToken := e.nextToken + 1 })

/-- `ids.next_id()`: takes the generator's next id. -/
def nextId (e : Engine S) : MessageId × Engine S :=
  (e.ids 0, { e with ids := fun n => e.ids (n + 1) })

/-- (Re-)arms the inactivity timer that triggers the next `Heartbeat`. -/
def armHeartbeat (e : Engine S) : Engine S :=
  if e.config.heartbeat ≠ .automatic ∨ e.config.role ≠ .chargingStation then e
  else
    match e.heartbeatInterval.filter (· ≠ 0) with
    | none => e
    | some interval =>
        let at_ := Instant.saturatingAdd e.now interval
        if e.heartbeatAt = some at_ then e
        else { e with heartbeatAt := some at_ }.emit (.setTimer .heartbeat at_)

/-- Writes a frame. -/
def transmit (e : Engine S) (frame : Frame) : Engine S :=
  match frame.toJson e.version with
  | .ok text => (e.emit (.transmit text)).armHeartbeat
  | .error error =>
      e.violate (.storeFailure ⟨"frame could not be serialized: " ++ error⟩)

/-- Acknowledges a message in the store, if it was persisted. -/
def ackStore (e : Engine S) : Option Seq → Engine S
  | none => e
  | some seq =>
      let result := MessageStore.ack e.store seq
      let e := { e with store := result.1 }
      match result.2 with
      | .ok () => e
      | .error error => e.violate (.storeFailure error)

/-- Records an attempt in the store, if the message was persisted. -/
def storeAttempts (e : Engine S) (seq : Option Seq) (attempts : ℕ) : Engine S :=
  match seq with
  | none => e
  | some seq =>
      let result := MessageStore.setAttempts e.store seq attempts
      let e := { e with store := result.1 }
      match result.2 with
      | .ok () => e
      | .error error => e.violate (.storeFailure error)

/-- Reports that a call failed. -/
def fail (e : Engine S) (token : CallToken) (id : Option MessageId) (action : String)
    (why : CallFailure) : Engine S :=
  e.emit (.outcome { token := token, id := id, action := action, result := .error why })

/-! ### Sending -/

/-- Where the oldest transaction-related message of the queue stands. -/
def oldestTransactional (e : Engine S) : Option ℕ :=
  e.queue.findIdx? fun other => other.transactional

/-- Whether the entry at `index` may go out right now. -/
def eligible (e : Engine S) (index : ℕ) : Bool :=
  match e.queue[index]? with
  | none => false
  | some entry =>
      if entry.notBefore.any (fun at_ => e.now < at_) then false
      else if entry.transactional && e.oldestTransactional ≠ some index then false
      else if !e.config.enforceBootGate || e.config.role ≠ .chargingStation then true
      else e.boot.allowsTraffic || entry.action = "BootNotification" || entry.triggered

/-- The first eligible entry of a kind. -/
def nextEligible (e : Engine S) (kind : MessageKind) : Option ℕ :=
  (List.range e.queue.length).find? fun index =>
    e.queue[index]?.any (fun entry => entry.kind = kind) && e.eligible index

/-- One `SEND` of the first loop of `pump`: it completes as soon as it is
written. -/
def sendUnconfirmed (e : Engine S) (index : ℕ) (entry : Pending) : Engine S :=
  let e := { e with queue := e.queue.eraseIdx index }
  let (id, e) := e.nextId
  let e := e.note (.sent id entry)
  let e := e.transmit (.send id entry.action entry.payload)
  let e := e.ackStore entry.seq
  e.emit (.outcome
    { token := entry.token, id := some id, action := entry.action, result := .ok .sent })

/-- One `CALL` of the second loop of `pump`: it occupies the slot. -/
def sendCall (e : Engine S) (index : ℕ) (entry : Pending) : Engine S :=
  let e := { e with queue := e.queue.eraseIdx index }
  let (id, e) := e.nextId
  let e := e.note (.sent id entry)
  let e := e.transmit (.call id entry.action entry.payload)
  let deadline := Instant.saturatingAdd e.now e.config.callTimeout
  let e := e.emit (.setTimer .callTimeout deadline)
  { e with inflight := some (entry.launched id deadline) }

/-- The first loop of `pump`, with a bound on its iterations. -/
def pumpSends : ℕ → Engine S → Engine S
  | 0, e => e
  | n + 1, e =>
      match e.nextEligible .send with
      | none => e
      | some index =>
          match e.queue[index]? with
          | none => e
          | some entry => pumpSends n (e.sendUnconfirmed index entry)

/-- The second loop of `pump`. -/
def pumpCall (e : Engine S) : Engine S :=
  if e.inflight.isSome then e
  else
    match e.nextEligible .call with
    | none => e
    | some index =>
        match e.queue[index]? with
        | none => e
        | some entry => e.sendCall index entry

/-- Sends what may be sent: every eligible `SEND`, then one `CALL` if none is
outstanding. -/
def pump (e : Engine S) : Engine S :=
  if e.connected then (pumpSends e.queue.length e).pumpCall else e

/-! ### Draining -/

/-- Whether nothing is queued and nothing is outstanding. -/
def drainComplete (e : Engine S) : Bool := e.inflight.isNone && e.queue.isEmpty

/-- Ends a graceful drain once there is nothing left to do. -/
def checkDrain (e : Engine S) : Engine S :=
  if e.draining.isSome && e.drainComplete then
    ({ e with draining := none }.emit (.clearTimer .drainDeadline)).emit (.close .drained)
  else e

/-! ### The application interface -/

/-- Remembers the follow-up calls a CSMS request licenses the station to make. -/
def rememberSolicited (e : Engine S) (action : String) (payload : RawValue) : Engine S :=
  let triggered : Finset String :=
    if action = "TriggerMessage" ∨ action = "ExtendedTriggerMessage" then
      match (Externals.readTriggerRequest payload).bind TriggerRequest.requestedMessage with
      | none => ∅
      | some requested =>
          if requested = "SignChargePointCertificate" then {requested, "SignCertificate"}
          else {requested}
    else ∅
  { e with
    solicited := e.solicited ∪ triggered ∪ (Actions.solicitedBy e.version action).toFinset }

/-- The tail of `call_with`: the message joins the queue and the queue is
pumped. -/
def enqueue (e : Engine S) (entry : Pending) : Engine S :=
  ({ e with queue := e.queue ++ [entry] }.note (.accepted entry)).pump

/-- Appends the message to the store, if it is to be persisted. -/
def persistCall (e : Engine S) (persist : Bool) (record : QueuedCall) :
    Except StoreError (Option Seq) × Engine S :=
  if persist then
    let result := MessageStore.push e.store record
    (result.2.map some, { e with store := result.1 })
  else (.ok none, e)

/-- Starts a call with per-call overrides. -/
def callWith (e : Engine S) (now : Instant) (action : String) (payload : RawValue)
    (options : CallOptions) : Except EngineError CallToken × Engine S :=
  let e := e.advance now
  if e.draining.isSome then (.error .shuttingDown, e)
  else
  match Actions.kind e.version action with
  | none => (.error (.unknownAction action), e)
  | some kind =>
  if allows ((Actions.origin e.version action).getD .both) e.config.role.sends = false then
    (.error (.wrongDirection action), e)
  else if kind = .send ∧ e.version.hasExtendedMessageTypes = false then
    (.error (.sendNotSupported action), e)
  else
  let transactional := Actions.isTransactionRelated e.version action
  let persist := options.persist.getD transactional
  let queueWhenOffline :=
    options.queueWhenOffline.getD (transactional || e.config.offline.queueAllMessages)
  let (token, e) := e.mintToken
  if !e.connected && !queueWhenOffline then
    (.ok token, e.fail token none action .disconnected)
  else if e.config.offline.maxQueued ≤ e.queue.length then
    (.ok token, e.fail token none action .queueFull)
  else
  match e.persistCall persist
      { action := action, payload := payload, kind := kind, attempts := 0
        transactional := transactional } with
  | (.error error, e) =>
      (.ok token, (e.violate (.storeFailure error)).fail token none action .queueFull)
  | (.ok seq, e) =>
      let e := if e.config.role = .csms then e.rememberSolicited action payload else e
      (.ok token, e.enqueue
        { token := token, action := action, payload := payload, kind := kind
          transactional := transactional, attempts := 0, seq := seq, notBefore := none
          triggered := options.triggered, queueWhenOffline := queueWhenOffline })

/-- Takes a request out of the table of those the peer waits on. -/
def takePeerRequest (e : Engine S) (id : MessageId) : Except EngineError Unit × Engine S :=
  if id ∈ e.peerInflight then (.ok (), { e with peerInflight := e.peerInflight.erase id })
  else (.error (.noSuchRequest id), e)

/-- The last step of reading a boot answer: the intervals it sets. -/
def applyBootInterval (e : Engine S) (state : BootState) (interval : Option Duration)
    (outgoing : Bool) : Engine S :=
  match state with
  | .accepted =>
      let e := { e with heartbeatInterval := interval.filter (· ≠ 0) }
      if outgoing then e else e.armHeartbeat.pump
  | .pending | .rejected =>
      if outgoing then e
      else
        let wait := (interval.filter (· ≠ 0)).getD e.config.bootRetryFallback
        let at_ := Instant.saturatingAdd e.now wait
        { e with bootRetryAt := some at_ }.emit (.setTimer .bootRetry at_)
  | .idle => e

/-- Reads `status`, `interval` and `currentTime` out of a
`BootNotificationResponse`. -/
def observeBootAnswer (e : Engine S) (payload : RawValue) (outgoing : Bool) : Engine S :=
  match Externals.readBootAnswer payload with
  | none => e
  | some answer =>
  match BootState.ofStatus answer.status with
  | none => e
  | some state =>
      let e := { e with boot := state }.emit (.bootState state)
      let e :=
        match answer.currentTime with
        | some time => if outgoing then e else e.emit (.clockSample ⟨time, e.now⟩)
        | none => e
      e.applyBootInterval state (answer.interval.map Duration.fromSecs) outgoing

/-- Answers an outstanding request with a `CALLRESULT`. -/
def respond (e : Engine S) (now : Instant) (id : MessageId) (payload : RawValue) :
    Except EngineError Unit × Engine S :=
  let e := e.advance now
  match e.takePeerRequest id with
  | (.error error, e) => (.error error, e)
  | (.ok (), e) =>
      let e := if e.config.role = .csms then e.observeBootAnswer payload true else e
      (.ok (), (e.note (.answered id payload)).transmit (.callResult id payload))

/-- Answers an outstanding request with a `CALLERROR`. -/
def respondError (e : Engine S) (now : Instant) (id : MessageId) (error : CallError) :
    Except EngineError Unit × Engine S :=
  let e := e.advance now
  match e.takePeerRequest id with
  | (.error error, e) => (.error error, e)
  | (.ok (), e) =>
      let e := e.note (.answeredError id error)
      (.ok (), e.transmit (.callError id error.toRef))

/-- Tells the peer that the `CALLRESULT` it sent could not be used. -/
def rejectResult (e : Engine S) (now : Instant) (id : MessageId) (error : CallError) :
    Except EngineError Unit × Engine S :=
  let e := e.advance now
  if e.version.hasExtendedMessageTypes then
    let e := e.note (.resultRejected id error)
    (.ok (), e.transmit (.callResultError id error.toRef))
  else (.error .callResultErrorNotSupported, e)

/-- Fails a queued entry: it is acknowledged and its outcome reported. -/
def abandon (e : Engine S) (entry : Pending) (why : CallFailure) : Engine S :=
  (e.ackStore entry.seq).emit (.outcome
    { token := entry.token, id := none, action := entry.action, result := .error why })

/-- Abandons a call that has not been transmitted yet. -/
def cancel (e : Engine S) (token : CallToken) : Bool × Engine S :=
  match e.queue.findIdx? (fun entry => entry.token = token) with
  | none => (false, e)
  | some index =>
      match e.queue[index]? with
      | none => (false, e)
      | some entry => (true, { e with queue := e.queue.eraseIdx index }.abandon entry .cancelled)

/-- Starts a graceful drain. -/
def shutdown (e : Engine S) (now deadline : Instant) : Engine S :=
  let e := e.advance now
  if e.draining.isSome then e
  else ({ e with draining := some deadline }.emit (.setTimer .drainDeadline deadline)).checkDrain

/-! ### Connecting and disconnecting -/

/-- Decides what happens to a call that lost its answer: a transaction message goes
back on the queue for its next scheduled attempt; anything else fails now. -/
def requeueOrFail (e : Engine S) (f : InFlight) (why : CallFailure) : Engine S :=
  if f.transactional && e.config.retry.mayRetry f.attempts then
    let notBefore := Instant.saturatingAdd e.now (e.config.retry.delayAfter f.attempts)
    let e := e.storeAttempts f.seq f.attempts
    { e with queue := f.requeued notBefore :: e.queue }.emit
      (.setTimer .transactionRetry notBefore)
  else
    let why := if f.transactional then .retriesExhausted else why
    (e.ackStore f.seq).emit (.outcome
      { token := f.token, id := some f.id, action := f.action, result := .error why })

/-- The loop of `on_disconnected` over the queue: `kept` is what survives. -/
def failOffline : List Pending → List Pending → Engine S → Engine S
  | [], kept, e => { e with queue := kept }
  | entry :: rest, kept, e =>
      if entry.queueWhenOffline then failOffline rest (kept ++ [entry]) e
      else failOffline rest kept (e.abandon entry .disconnected)

/-- The connection is up. -/
def onConnected (e : Engine S) (version : Version) : Engine S :=
  { e with version := version, connected := true, peerInflight := ∅ }.armHeartbeat.pump

/-- The outstanding call loses its connection. -/
def loseInflight (e : Engine S) : Engine S :=
  match e.inflight with
  | some f => { e with inflight := none }.requeueOrFail f .disconnected
  | none => e

/-- The connection went away. -/
def onDisconnected (e : Engine S) : Engine S :=
  let e := { e with connected := false, peerInflight := ∅ }
  let e := (e.emit (.clearTimer .callTimeout)).emit (.clearTimer .heartbeat)
  let e := { e with heartbeatAt := none }.loseInflight
  (failOffline e.queue [] { e with queue := [] }).checkDrain

/-! ### Timers -/

/-- The engine's own `Heartbeat`: an empty object in every version. -/
def sendHeartbeat (e : Engine S) : Engine S :=
  (e.callWith e.now "Heartbeat" RawValue.emptyObject { queueWhenOffline := some false }).2

/-- The message timeout. -/
def fireCallTimeout (e : Engine S) : Engine S :=
  match e.inflight with
  | some f =>
      if f.deadline ≤ e.now then
        ({ e with inflight := none }.emit (.clearTimer .callTimeout)).requeueOrFail f .timeout
      else e
  | none => e

/-- The inactivity timer. -/
def fireHeartbeat (e : Engine S) : Engine S :=
  match e.heartbeatAt with
  | some at_ =>
      if at_ ≤ e.now then
        let e := { e with heartbeatAt := none }
        let e := if e.connected && e.boot.allowsTraffic then e.sendHeartbeat else e
        e.armHeartbeat
      else e
  | none => e

/-- The boot retry timer. -/
def fireBootRetry (e : Engine S) : Engine S :=
  match e.bootRetryAt with
  | some at_ =>
      if at_ ≤ e.now then
        { e with bootRetryAt := none, boot := .idle }.emit (.bootState .idle)
      else e
  | none => e

/-- The drain deadline, and the end of `on_timeout`. -/
def fireDrain (e : Engine S) : Engine S :=
  if e.draining.any (fun deadline => deadline ≤ e.now) && !e.drainComplete then
    { e.emit (.close .drainTimedOut) with draining := none }
  else e.pump.checkDrain

/-- Nothing happened but time: every timer whose deadline has passed fires. -/
def onTimeout (e : Engine S) : Engine S :=
  e.fireCallTimeout.fireHeartbeat.fireBootRetry.fireDrain

/-! ### Inbound frames -/

/-- Answers a frame with a `CALLERROR`; a `SEND` is never answered. -/
def reject (e : Engine S) (id : MessageId) (kind : MessageKind) (error : CallError) : Engine S :=
  match kind with
  | .send => e
  | .call => (e.note (.rejected id error)).transmit (.callError id error.toRef)

/-- What a `CALL` is refused for once its action is known to be welcome: a
duplicate id, or too many calls at once. The source reports as it goes. -/
def admission (e : Engine S) (id : MessageId) : Option CallError × Engine S :=
  if id ∈ e.peerInflight then
    (some (.new .rpcFrameworkError
      "a CALL with this MessageId is already being handled (Part 4 §4.2.3)"),
      e.violate (.duplicateMessageId id))
  else if e.peerInflight = ∅ then (none, e)
  else
    let e := e.violate (.concurrentCall id)
    let overLimit : Bool := e.config.maxPeerRequests ≤ e.peerInflight.card
    let e := if overLimit then e.violate (.tooManyPeerRequests id) else e
    if overLimit || e.config.inboundConcurrency = .reject then
      (some (.new .protocolError
        "a CALL is already outstanding in this direction (Part 4 §4.1.1)"), e)
    else (none, e)

/-- Whether the boot gate refuses an unsolicited call of this action. -/
def gated (e : Engine S) (action : String) : Bool :=
  e.config.role = .csms && e.config.enforceBootGate && e.boot.blocksUnsolicitedTraffic &&
    action ≠ "BootNotification" && action ∉ e.solicited

/-- The end of `on_call`: the gate, and the delivery. -/
def deliver (e : Engine S) (id : MessageId) (action : String) (payload : RawValue)
    (received : MessageKind) : Engine S :=
  if e.gated action then
    e.reject id received (.security
      (action ++ " is not allowed while the charging station is " ++ e.boot.debug ++
        " (B02.FR.09)"))
  else
    let e := if e.config.role = .csms ∧ action = "BootNotification" then
      { e with boot := .idle } else e
    let e := if received = .call then
      { e with peerInflight := insert id e.peerInflight } else e
    e.emit (.request { id := id, action := action, payload := payload, kind := received })

/-- A `CALL` or a `SEND` arrived. -/
def onCall (e : Engine S) (id : MessageId) (action : String) (payload : RawValue)
    (received : MessageKind) : Engine S :=
  match Actions.kind e.version action with
  | none => e.reject id received (.notImplemented action)
  | some expected =>
  if expected ≠ received then
    (e.violate (.wrongMessageKind action received)).reject id received (.new .protocolError
      (action ++ " is a " ++ expected.debug ++ " message, not a " ++ received.debug ++
        " message"))
  else if allows ((Actions.origin e.version action).getD .both) e.config.role.receives = false then
    (e.violate (.wrongDirection action)).reject id received (.notSupported action)
  else if received = .call then
    match e.admission id with
    | (some error, e) => e.reject id received error
    | (none, e) => e.deliver id action payload received
  else e.deliver id action payload received

/-- Takes the outstanding call, if it has this id. -/
def takeInflight (e : Engine S) (id : MessageId) : Option InFlight × Engine S :=
  match e.inflight with
  | some f => if f.id = id then (some f, { e with inflight := none }) else (none, e)
  | none => (none, e)

/-- What the engine itself learns from the answer to one of its calls. -/
def observeAnswer (e : Engine S) (action : String) (payload : RawValue) : Engine S :=
  if action = "BootNotification" ∧ e.config.role = .chargingStation then
    e.observeBootAnswer payload false
  else if action = "Heartbeat" then
    match Externals.readHeartbeatAnswer payload with
    | some answer => e.emit (.clockSample ⟨answer.currentTime, e.now⟩)
    | none => e
  else e

/-- A `CALLRESULT` arrived. -/
def onCallResult (e : Engine S) (id : MessageId) (payload : RawValue) : Engine S :=
  match e.takeInflight id with
  | (none, e) => e.violate (.unexpectedResponse id)
  | (some f, e) =>
      let e := (e.ackStore f.seq).emit (.clearTimer .callTimeout)
      let e := e.observeAnswer f.action payload
      let e := e.emit (.outcome
        { token := f.token, id := some f.id, action := f.action, result := .ok (.result payload) })
      e.pump.checkDrain

/-- A `CALLERROR` arrived. -/
def onCallError (e : Engine S) (id : MessageId) (error : CallErrorRef) : Engine S :=
  match e.takeInflight id with
  | (none, e) => e.violate (.unexpectedResponse id)
  | (some f, e) =>
      let e := (e.ackStore f.seq).emit (.clearTimer .callTimeout)
      let e := e.emit (.outcome
        { token := f.token, id := some f.id, action := f.action
          result := .error (.rejected error.toCallError) })
      e.pump.checkDrain

/-- A frame that could not be parsed. -/
def onMalformed (e : Engine S) (error : FrameError) : Engine S :=
  let reply := error.reply e.version
  let e := e.violate error.violation
  match reply with
  | .ignore => e
  | .callError =>
      let answer := CallError.new error.errorCode "frame could not be processed"
      (e.note (.rejected error.replyId answer)).transmit
        (.callError error.replyId answer.toRef)
  | .callResultError =>
      let answer := CallError.new error.errorCode "result could not be processed"
      (e.note (.resultRejected error.replyId answer)).transmit
        (.callResultError error.replyId answer.toRef)

/-- Dispatches a frame that was parsed. -/
def onFrame (e : Engine S) (frame : Frame) : Engine S :=
  let e := if frame.id.isConforming then e else e.violate (.nonConformingMessageId frame.id)
  match frame with
  | .call id action payload => e.onCall id action payload .call
  | .send id action payload => e.onCall id action payload .send
  | .callResult id payload => e.onCallResult id payload
  | .callError id error => e.onCallError id error
  | .callResultError id error => e.emit (.resultRejected id error.toCallError)

/-- A text frame arrived. -/
def onReceived (e : Engine S) (text : String) : Engine S :=
  let e := e.armHeartbeat
  match Frame.parse text e.version with
  | .error error => e.onMalformed error
  | .ok frame => e.onFrame frame

/-! ### The driver interface -/

/-- Feeds one event into the state machine at time `now`. -/
def handle (e : Engine S) (now : Instant) (input : Input) : Engine S :=
  let e := (e.advance now).note (.input input)
  match input with
  | .connected version => e.onConnected version
  | .received text => e.onReceived text
  | .disconnected => e.onDisconnected
  | .timeout => e.onTimeout

/-- Takes the next thing the driver must do. -/
def pollOutput (e : Engine S) : Option Output × Engine S :=
  (e.outputs.head?, { e with outputs := e.outputs.tail })

/-- Takes everything the driver must do, in order. -/
def drain (e : Engine S) : List Output × Engine S := (e.outputs, { e with outputs := [] })

/-- Changes the message timeout. -/
def setCallTimeout (e : Engine S) (timeout : Duration) : Engine S :=
  { e with config := { e.config with callTimeout := timeout } }

/-- Replaces the id generator. -/
def setIdGenerator (e : Engine S) (ids : ℕ → MessageId) : Engine S := { e with ids := ids }

/-! ### Starting -/

/-- An engine that holds nothing yet. -/
def fresh (config : EngineConfig) (store : S) (ids : ℕ → MessageId) : Engine S where
  config := config
  store := store
  ids := ids
  outputs := []
  queue := []
  inflight := none
  peerInflight := ∅
  connected := false
  version := config.version
  now := 0
  nextToken := 0
  boot := .idle
  heartbeatInterval := none
  solicited := ∅
  draining := none
  bootRetryAt := none
  heartbeatAt := none
  log := []

/-- Loads one stored message into the queue. -/
def restore (e : Engine S) (record : Seq × QueuedCall) : Engine S :=
  let (token, e) := e.mintToken
  let entry : Pending :=
    { token := token
      action := record.2.action
      payload := record.2.payload
      kind := record.2.kind
      transactional := record.2.transactional
      attempts := record.2.attempts
      seq := some record.1
      notBefore := none
      triggered := false
      queueWhenOffline := true }
  { e with queue := e.queue ++ [entry] }.note (.accepted entry)

/-- An engine backed by a durable store: what the store still holds is loaded into
the queue. -/
def withStore (config : EngineConfig) (store : S) (ids : ℕ → MessageId) :
    Except StoreError (Engine S) :=
  (MessageStore.pending store).map fun records =>
    records.foldl restore (fresh config store ids)

end Engine

end OcppKit
