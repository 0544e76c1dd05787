import OcppKit.Actions
import OcppKit.Engine.Queue
import OcppKit.Rpc.Frame

/-!
# The state of the protocol engine

The types of the sans-I/O engine: its configuration, what the driver feeds it,
what it asks the driver to do, and the record `OcppKit.Engine` that holds
everything in between.

The record has one field the source does not have. `log` is a history variable:
it collects, in order, every output ever emitted, every input ever fed, and a mark
wherever the source does something that leaves no output of its own – accepting a
message, writing one of its own frames, answering a request. No function reads
it. It is what the statements about runs are stated over.

Left out are the reconnect back-off, which the engine keeps for its driver and
never reads, and the `Display` texts of the result types. Variants no function
constructs are kept.
-/

namespace OcppKit

/-! ### Configuration -/

/-- Which side of the connection this engine is. -/
inductive Role where
  /-- A Charging Station. -/
  | chargingStation
  /-- A CSMS. -/
  | csms
deriving DecidableEq, Repr

/-- The origin this engine is allowed to send. -/
def Role.sends : Role → Origin
  | .chargingStation => .chargingStation
  | .csms => .csms

/-- The origin this engine expects to receive. -/
def Role.receives : Role → Origin
  | .chargingStation => .csms
  | .csms => .chargingStation

/-- What to do when the peer breaks the one-outstanding-`CALL` rule. -/
inductive InboundConcurrency where
  /-- Answer the extra call normally. -/
  | serve
  /-- Answer the extra call with a `CALLERROR`. -/
  | reject
deriving DecidableEq, Repr

/-- Whether the engine sends `Heartbeat` on its own. -/
inductive HeartbeatPolicy where
  /-- The engine schedules and sends `Heartbeat` itself. -/
  | automatic
  /-- The application sends `Heartbeat` itself. -/
  | manual
deriving DecidableEq, Repr

/-- What happens to outgoing calls while the connection is down. -/
structure OfflinePolicy where
  /-- Queue every message, not just transaction-related ones. -/
  queueAllMessages : Bool
  /-- Upper bound on the queue. -/
  maxQueued : ℕ
deriving DecidableEq, Repr

/-- Engine configuration. -/
structure EngineConfig where
  /-- Which side this is. -/
  role : Role
  /-- The negotiated protocol version. -/
  version : Version
  /-- How long to wait for an answer. -/
  callTimeout : Duration
  /-- What to do about a peer that keeps two calls in flight. -/
  inboundConcurrency : InboundConcurrency
  /-- Whether the engine sends `Heartbeat` itself. -/
  heartbeat : HeartbeatPolicy
  /-- Retry schedule for transaction-related messages. -/
  retry : RetryPolicy
  /-- Offline queueing behaviour. -/
  offline : OfflinePolicy
  /-- Whether the boot state machine gates calls. -/
  enforceBootGate : Bool
  /-- How long to wait before booting again when the answer gave no interval. -/
  bootRetryFallback : Duration
  /-- Upper bound on the peer's simultaneously unanswered calls. -/
  maxPeerRequests : ℕ
deriving DecidableEq, Repr

/-- A configuration with the specification's defaults. -/
def EngineConfig.new (role : Role) (version : Version) : EngineConfig where
  role := role
  version := version
  callTimeout := Duration.fromSecs 30
  inboundConcurrency := .serve
  heartbeat := .automatic
  retry := RetryPolicy.default
  offline := { queueAllMessages := false, maxQueued := 1024 }
  enforceBootGate := true
  bootRetryFallback := Duration.fromSecs 30
  maxPeerRequests := 64

/-! ### The boot state machine -/

/-- The boot state machine. -/
inductive BootState where
  /-- No `BootNotification` has been answered yet. -/
  | idle
  /-- The CSMS answered `Pending`. -/
  | pending
  /-- The CSMS answered `Accepted`. -/
  | accepted
  /-- The CSMS answered `Rejected`. -/
  | rejected
deriving DecidableEq, Repr

/-- The `Debug` spelling of a boot state, as it appears in an error text. -/
def BootState.debug : BootState → String
  | .idle => "Idle"
  | .pending => "Pending"
  | .accepted => "Accepted"
  | .rejected => "Rejected"

/-- Whether ordinary, unsolicited calls may be sent. -/
def BootState.allowsTraffic : BootState → Bool
  | .accepted => true
  | _ => false

/-- Whether a CSMS must answer an unsolicited call with `SecurityError`. -/
def BootState.blocksUnsolicitedTraffic : BootState → Bool
  | .pending | .rejected => true
  | _ => false

/-- The state a `status` member stands for, if it is a registration status. -/
def BootState.ofStatus (status : String) : Option BootState :=
  if status = "Accepted" then some .accepted
  else if status = "Pending" then some .pending
  else if status = "Rejected" then some .rejected
  else none

variable [Externals]

/-- **The verdict a payload carries**, when it reads as the answer to a
`BootNotification`. -/
def bootVerdict (payload : RawValue) : Option BootState :=
  (Externals.readBootAnswer payload).bind fun answer => BootState.ofStatus answer.status

/-! ### Calls and their outcomes -/

/-- A handle to a call the application asked for. -/
abbrev CallToken := ℕ

/-- Per-call overrides. -/
structure CallOptions where
  /-- The peer asked for this message, so the boot gate does not apply. -/
  triggered : Bool := false
  /-- Override whether the message is queued durably. -/
  persist : Option Bool := none
  /-- Override whether the message survives a disconnection. -/
  queueWhenOffline : Option Bool := none
deriving DecidableEq, Repr

/-- Why a call did not succeed. -/
inductive CallFailure where
  /-- The peer answered `CALLERROR`. -/
  | rejected (error : CallError)
  /-- No answer arrived in time. -/
  | timeout
  /-- The connection went away and the message was not queued. -/
  | disconnected
  /-- A transaction message used up its attempts. -/
  | retriesExhausted
  /-- The offline queue is full. -/
  | queueFull
  /-- The application withdrew the call before it was transmitted. -/
  | cancelled
  /-- The engine is draining and refused a new call. -/
  | shuttingDown
deriving DecidableEq

/-- How a message ended, when it ended well. -/
inductive Answer where
  /-- The peer's `CALLRESULT` payload. -/
  | result (payload : RawValue)
  /-- A `SEND` reached the wire. -/
  | sent
deriving DecidableEq

/-- The final result of a call the application started. -/
structure CallOutcome where
  /-- The handle of the call. -/
  token : CallToken
  /-- The id it was sent with, if it ever reached the wire. -/
  id : Option MessageId
  /-- The action. -/
  action : String
  /-- How it ended. -/
  result : Except CallFailure Answer
deriving DecidableEq

/-! ### What the engine emits and is fed -/

/-- Something the peer did that the specification forbids, but which is not
fatal. -/
inductive ProtocolViolation where
  /-- An answer arrived for an id that is not outstanding. -/
  | unexpectedResponse (id : MessageId)
  /-- A message type number outside 2–6. -/
  | unknownMessageType (number : String)
  /-- The peer started a second `CALL` while one was outstanding. -/
  | concurrentCall (id : MessageId)
  /-- A `SEND` action arrived as a `CALL`, or the other way round. -/
  | wrongMessageKind (action : String) (received : MessageKind)
  /-- The peer sent an action it is not allowed to originate. -/
  | wrongDirection (action : String)
  /-- The peer used an over-long id. -/
  | nonConformingMessageId (id : MessageId)
  /-- The peer reused an id that is still unanswered. -/
  | duplicateMessageId (id : MessageId)
  /-- The peer has too many unanswered calls. -/
  | tooManyPeerRequests (id : MessageId)
  /-- The frame could not be parsed at all. -/
  | malformedFrame (error : FrameError)
  /-- The durable store failed, or a frame could not be serialized. -/
  | storeFailure (error : StoreError)
  /-- A frame this peer wanted to send could not be serialized. -/
  | unserializableFrame (reason : String)
deriving DecidableEq

/-- Why the engine wants the connection closed. -/
inductive CloseReason where
  /-- A graceful drain finished. -/
  | drained
  /-- The drain deadline passed with work still queued. -/
  | drainTimedOut
  /-- The application asked for it. -/
  | requested
deriving DecidableEq, Repr

/-- A request the peer sent that the application must handle. -/
structure IncomingRequest where
  /-- Correlation id. -/
  id : MessageId
  /-- The action name. -/
  action : String
  /-- The unparsed payload. -/
  payload : RawValue
  /-- `CALL` (answer it) or `SEND` (do not). -/
  kind : MessageKind
deriving DecidableEq

/-- An authoritative timestamp observed in an answer. -/
structure ClockSample where
  /-- The CSMS's clock. -/
  csmsTime : DateTime
  /-- When the answer was processed. -/
  at_ : Instant
deriving DecidableEq, Repr

/-- What the driver must do next. -/
inductive Output where
  /-- Write this text frame to the connection. -/
  | transmit (text : String)
  /-- The peer sent a request. -/
  | request (request : IncomingRequest)
  /-- One of our calls finished. -/
  | outcome (outcome : CallOutcome)
  /-- The peer rejected a `CALLRESULT` we sent. -/
  | resultRejected (id : MessageId) (error : CallError)
  /-- Arm a timer. -/
  | setTimer (timer : Timer) (at_ : Instant)
  /-- Disarm a timer. -/
  | clearTimer (timer : Timer)
  /-- The boot state changed, or was decided. -/
  | bootState (state : BootState)
  /-- A `currentTime` was observed. -/
  | clockSample (sample : ClockSample)
  /-- The peer misbehaved. -/
  | violation (violation : ProtocolViolation)
  /-- Close the connection. -/
  | close (reason : CloseReason)
deriving DecidableEq

/-- Events the driver feeds into the engine. -/
inductive Input where
  /-- The handshake completed with this negotiated version. -/
  | connected (version : Version)
  /-- One complete text frame arrived. -/
  | received (text : String)
  /-- The connection went away. -/
  | disconnected
  /-- Nothing happened but time. -/
  | timeout
deriving DecidableEq, Repr

/-- Why a command was refused. -/
inductive EngineError where
  /-- This version does not define the action. -/
  | unknownAction (action : String)
  /-- This peer is not allowed to originate the action. -/
  | wrongDirection (action : String)
  /-- A `SEND` was requested on a version that has none. -/
  | sendNotSupported (action : String)
  /-- The action was submitted with the wrong message kind. -/
  | wrongMessageKind (action : String)
  /-- No outstanding request has that id. -/
  | noSuchRequest (id : MessageId)
  /-- `CALLRESULTERROR` needs OCPP 2.1. -/
  | callResultErrorNotSupported
  /-- The engine is draining. -/
  | shuttingDown
deriving DecidableEq, Repr

/-! ### Internal state -/

/-- A message waiting in the queue. -/
structure Pending where
  /-- The handle the application holds. -/
  token : CallToken
  /-- The action. -/
  action : String
  /-- The payload. -/
  payload : RawValue
  /-- `CALL` or `SEND`. -/
  kind : MessageKind
  /-- Whether it is transaction-related. -/
  transactional : Bool
  /-- How many times it has been transmitted. -/
  attempts : ℕ
  /-- Its sequence number in the durable store, when persisted. -/
  seq : Option Seq
  /-- Not eligible for transmission before this instant. -/
  notBefore : Option Instant
  /-- Whether the peer asked for it. -/
  triggered : Bool
  /-- Whether it waits out a disconnection. -/
  queueWhenOffline : Bool
deriving DecidableEq

/-- The call that is outstanding. -/
structure InFlight where
  /-- The id of this attempt. -/
  id : MessageId
  /-- The handle the application holds. -/
  token : CallToken
  /-- The action. -/
  action : String
  /-- Whether it is transaction-related. -/
  transactional : Bool
  /-- How many times it has been transmitted, this attempt included. -/
  attempts : ℕ
  /-- Its sequence number in the durable store, when persisted. -/
  seq : Option Seq
  /-- The payload. -/
  payload : RawValue
  /-- Whether the peer asked for it. -/
  triggered : Bool
  /-- Whether it waits out a disconnection. -/
  queueWhenOffline : Bool
  /-- When it times out. -/
  deadline : Instant
deriving DecidableEq

/-- **One entry of the history.** -/
inductive Event where
  /-- The driver fed this input. -/
  | input (input : Input)
  /-- This was handed to the driver. -/
  | out (output : Output)
  /-- The message joined the queue. -/
  | accepted (entry : Pending)
  /-- A `CALL` or `SEND` frame was written under this id for the message. -/
  | sent (id : MessageId) (entry : Pending)
  /-- The application answered a pending request with a result. -/
  | answered (id : MessageId) (payload : RawValue)
  /-- The application answered a pending request with an error. -/
  | answeredError (id : MessageId) (error : CallError)
  /-- The engine itself answered a frame with an error. -/
  | rejected (id : MessageId) (error : CallError)
  /-- A result was rejected with a `CALLRESULTERROR`. -/
  | resultRejected (id : MessageId) (error : CallError)
deriving DecidableEq

/-- **The protocol engine.** -/
structure Engine (S : Type) where
  /-- The configuration. -/
  config : EngineConfig
  /-- The durable store. -/
  store : S
  /-- The ids the generator is going to produce, in order. -/
  ids : ℕ → MessageId
  /-- What the driver has not taken yet. -/
  outputs : List Output
  /-- The messages waiting to be sent. -/
  queue : List Pending
  /-- The outstanding call. -/
  inflight : Option InFlight
  /-- The ids of the calls the peer is waiting on. -/
  peerInflight : Finset MessageId
  /-- Whether the transport is up. -/
  connected : Bool
  /-- The negotiated version. -/
  version : Version
  /-- The engine's view of the driver's clock. -/
  now : Instant
  /-- The next handle to issue. -/
  nextToken : CallToken
  /-- The boot state machine's current state. -/
  boot : BootState
  /-- The heartbeat interval the CSMS asked for. -/
  heartbeatInterval : Option Duration
  /-- Actions the CSMS asked the station for. -/
  solicited : Finset String
  /-- The drain deadline, while draining. -/
  draining : Option Instant
  /-- When to boot again. -/
  bootRetryAt : Option Instant
  /-- When to send a `Heartbeat`. -/
  heartbeatAt : Option Instant
  /-- The history. -/
  log : List Event

end OcppKit
