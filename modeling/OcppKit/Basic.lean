import Mathlib

/-!
# The vocabulary of the toolkit

Versions, message kinds, origins, message ids and the driver's clock: the small
types every layer above shares, each with the functions the source gives it.

Counters and clocks are natural numbers. Where the source saturates – adding a
duration to an instant, multiplying a duration – the model saturates at the same
bound.
-/

namespace OcppKit

/-! ### Versions -/

/-- A supported OCPP version, oldest first. -/
inductive Version where
  /-- OCPP 1.6J. -/
  | v1_6
  /-- OCPP 2.0.1. -/
  | v2_0_1
  /-- OCPP 2.1. -/
  | v2_1
deriving DecidableEq, Repr

/-- Whether this version has `CALLRESULTERROR` (5) and `SEND` (6). -/
def Version.hasExtendedMessageTypes : Version → Bool
  | .v2_1 => true
  | _ => false

/-! ### Message kinds and origins -/

/-- Whether a message is a confirmed `CALL` or an unconfirmed `SEND`. -/
inductive MessageKind where
  /-- A `CALL`, answered by the peer. -/
  | call
  /-- A `SEND` (OCPP 2.1): never answered, exempt from the one-outstanding rule. -/
  | send
deriving DecidableEq, Repr

/-- The `Debug` spelling of a kind, as it appears in an error text. -/
def MessageKind.debug : MessageKind → String
  | .call => "Call"
  | .send => "Send"

/-- Which peer originates an action. -/
inductive Origin where
  /-- Charging Station to CSMS. -/
  | chargingStation
  /-- CSMS to Charging Station. -/
  | csms
  /-- Either peer. -/
  | both
deriving DecidableEq, Repr

/-- Whether a Charging Station may send this action. -/
def Origin.fromChargingStation : Origin → Bool
  | .chargingStation | .both => true
  | .csms => false

/-- Whether a CSMS may send this action. -/
def Origin.fromCsms : Origin → Bool
  | .csms | .both => true
  | .chargingStation => false

/-- Whether an action of this origin may come from the given side. -/
def allows (origin : Origin) : Origin → Bool
  | .chargingStation => origin.fromChargingStation
  | .csms => origin.fromCsms
  | .both => true

/-! ### Message ids -/

/-- The maximum length of a message id, in characters. -/
def messageIdMaxLen : ℕ := 36

/-- An OCPP-J message id: the string that correlates a `CALL` with its answer. -/
structure MessageId where
  /-- The id as text. -/
  asStr : String
deriving DecidableEq, Repr

/-- Whether the id respects the 36-character limit. -/
def MessageId.isConforming (id : MessageId) : Bool :=
  !id.asStr.isEmpty && id.asStr.toList.length ≤ messageIdMaxLen

/-- The id an answer carries when the incoming id could not be read. -/
def MessageId.unreadable : MessageId := ⟨"-1"⟩

/-! ### Instants and durations -/

/-- An OCPP `dateTime`: an instant, in nanoseconds since the Unix epoch. -/
structure DateTime where
  /-- Nanoseconds since the epoch. -/
  nanos : ℤ
deriving DecidableEq, Repr

/-- A point on the driver's monotonic clock, in milliseconds. -/
abbrev Instant := ℕ

/-- A span of time, in nanoseconds. -/
abbrev Duration := ℕ

/-- The greatest value of 32 bits. -/
def u32Max : ℕ := 2 ^ 32 - 1

/-- The greatest value of a 64-bit counter. -/
def u64Max : ℕ := 2 ^ 64 - 1

/-- The greatest duration: a 64-bit number of seconds and the last nanosecond. -/
def Duration.max : Duration := u64Max * 1000000000 + 999999999

/-- A duration of whole seconds. -/
def Duration.fromSecs (secs : ℕ) : Duration := secs * 1000000000

/-- The duration times a factor, saturating. -/
def Duration.saturatingMul (d : Duration) (k : ℕ) : Duration := min (d * k) Duration.max

/-- The instant advanced by a duration, saturating at the end of the clock. -/
def Instant.saturatingAdd (at_ : Instant) (d : Duration) : Instant :=
  min (at_ + min (d / 1000000) u64Max) u64Max

/-- The timers the engine asks its driver to run. -/
inductive Timer where
  /-- The outstanding `CALL` must be answered before this deadline. -/
  | callTimeout
  /-- Time to send a `Heartbeat`. -/
  | heartbeat
  /-- Time to send `BootNotification` again. -/
  | bootRetry
  /-- Time to retry the transaction message at the head of the queue. -/
  | transactionRetry
  /-- A graceful shutdown must complete by this deadline. -/
  | drainDeadline
deriving DecidableEq, Repr

end OcppKit
