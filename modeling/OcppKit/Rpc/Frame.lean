import OcppKit.Rpc.Error

/-!
# Frames

`OcppKit.Frame.parse` and `OcppKit.Frame.toJson`: OCPP-J text frames in and out.
Parsing splits the JSON array into elements and leaves the payload a raw value;
every way in which a frame can be malformed is a `OcppKit.FrameError`, and
`OcppKit.FrameError.reply` decides from it what the receiver must send back.
-/

namespace OcppKit

/-! ### Message types -/

/-- The OCPP-J message types. -/
inductive MessageTypeId where
  /-- `CALL`, a request. -/
  | call
  /-- `CALLRESULT`, a successful answer. -/
  | callResult
  /-- `CALLERROR`, a failed answer. -/
  | callError
  /-- `CALLRESULTERROR`: the answer itself was unusable (OCPP 2.1). -/
  | callResultError
  /-- `SEND`: an unconfirmed message (OCPP 2.1). -/
  | send
deriving DecidableEq, Repr

/-- Maps a message type number to its type, if it is one of the five. -/
def MessageTypeId.fromNumber : ℤ → Option MessageTypeId
  | 2 => some .call
  | 3 => some .callResult
  | 4 => some .callError
  | 5 => some .callResultError
  | 6 => some .send
  | _ => none

/-- The message type number. -/
def MessageTypeId.number : MessageTypeId → Fin 256
  | .call => 2
  | .callResult => 3
  | .callError => 4
  | .callResultError => 5
  | .send => 6

@[simp] theorem MessageTypeId.fromNumber_number (t : MessageTypeId) :
    MessageTypeId.fromNumber ((t.number : ℕ) : ℤ) = some t := by
  cases t <;> rfl

/-- Whether `version` defines this message type. -/
def MessageTypeId.isDefinedIn (version : Version) : MessageTypeId → Bool
  | .callResultError | .send => version.hasExtendedMessageTypes
  | _ => true

variable [Externals]

/-! ### Frames and their failures -/

/-- One OCPP-J frame. -/
inductive Frame where
  /-- `[2, id, action, payload]`. -/
  | call (id : MessageId) (action : String) (payload : RawValue)
  /-- `[3, id, payload]`. -/
  | callResult (id : MessageId) (payload : RawValue)
  /-- `[4, id, code, description, details]`. -/
  | callError (id : MessageId) (error : CallErrorRef)
  /-- `[5, id, code, description, details]`. -/
  | callResultError (id : MessageId) (error : CallErrorRef)
  /-- `[6, id, action, payload]`. -/
  | send (id : MessageId) (action : String) (payload : RawValue)
deriving DecidableEq

/-- The message type of a frame. -/
def Frame.messageType : Frame → MessageTypeId
  | .call .. => .call
  | .callResult .. => .callResult
  | .callError .. => .callError
  | .callResultError .. => .callResultError
  | .send .. => .send

/-- The correlation id. -/
def Frame.id : Frame → MessageId
  | .call id _ _ | .callResult id _ | .callError id _ | .callResultError id _ | .send id _ _ => id

/-- Why a text could not be turned into a frame. -/
inductive FrameError where
  /-- Not valid JSON, or not an array with a numeric message type first. -/
  | notAnArray
  /-- Fewer elements than the message type requires. -/
  | wrongArity (messageType : MessageTypeId) (found expected : ℕ)
  /-- A message type number outside 2–6. -/
  | unknownMessageType (number : String)
  /-- A message type the negotiated version does not have. -/
  | messageTypeNotInVersion (messageType : MessageTypeId) (version : Version)
  /-- The message id is missing, empty or not a string. -/
  | unreadableMessageId (messageType : MessageTypeId)
  /-- The action element is not a string. -/
  | unreadableAction (id : MessageId)
  /-- The error-code element is not a string. -/
  | unreadableErrorCode (id : MessageId)
deriving DecidableEq, Repr

/-! ### Parsing -/

/-- The element at an index, read as a string. -/
def stringAt (elements : List RawValue) (index : ℕ) : Option String :=
  elements[index]?.bind Externals.readString

/-- The raw text of the message type element. -/
def rawNumber (elements : List RawValue) : String :=
  match elements.head? with
  | some e => e.get
  | none => "?"

/-- The number of elements a message type has, and the least number accepted. -/
def arity : MessageTypeId → ℕ × ℕ
  | .call | .send => (4, 4)
  | .callResult => (3, 3)
  | .callError | .callResultError => (5, 3)

/-- The tail of parsing, once the message type and the id are known. The arity
check that comes before guarantees the payload elements. -/
def Frame.parseBody (messageType : MessageTypeId) (id : MessageId) (elements : List RawValue) :
    Except FrameError Frame :=
  match messageType with
  | .call | .send =>
      match stringAt elements 2 with
      | none => .error (.unreadableAction id)
      | some action =>
          let payload := elements[3]?.getD RawValue.emptyObject
          .ok (if messageType = .call then .call id action payload else .send id action payload)
  | .callResult => .ok (.callResult id (elements[2]?.getD RawValue.emptyObject))
  | .callError | .callResultError =>
      match stringAt elements 2 with
      | none => .error (.unreadableErrorCode id)
      | some code =>
          let error : CallErrorRef :=
            { code := ErrorCode.parse code
              description := (stringAt elements 3).getD ""
              -- a peer that left the details out meant `{}`
              details := elements[4]?.getD RawValue.emptyObject }
          .ok (if messageType = .callError then .callError id error
            else .callResultError id error)

/-- Parses one OCPP-J text frame. -/
def Frame.parse (text : String) (version : Version) : Except FrameError Frame :=
  match Externals.elements text with
  | none => .error .notAnArray
  | some elements =>
  match elements.head?.bind Externals.readI64 with
  | none => .error .notAnArray
  | some number =>
  match MessageTypeId.fromNumber number with
  | none => .error (.unknownMessageType (rawNumber elements))
  | some messageType =>
  if messageType.isDefinedIn version = false then
    .error (.messageTypeNotInVersion messageType version)
  else if elements.length < (arity messageType).2 then
    .error (.wrongArity messageType elements.length (arity messageType).1)
  else
  match stringAt elements 1 with
  | none => .error (.unreadableMessageId messageType)
  | some id =>
  if id.isEmpty then .error (.unreadableMessageId messageType)
  else Frame.parseBody messageType ⟨id⟩ elements

/-! ### Serialization -/

/-- The tuple a frame is written as. -/
def Frame.items (version : Version) : Frame → List Item
  | .call id action payload => [.u8 2, .str id.asStr, .str action, .raw payload]
  | .callResult id payload => [.u8 3, .str id.asStr, .raw payload]
  | .callError id error =>
      [.u8 4, .str id.asStr, .str (error.code.asWire version), .str error.description,
        .raw error.details]
  | .callResultError id error =>
      [.u8 5, .str id.asStr, .str (error.code.asWire version), .str error.description,
        .raw error.details]
  | .send id action payload => [.u8 6, .str id.asStr, .str action, .raw payload]

/-- Serializes the frame using `version`'s spelling of the error codes. -/
def Frame.toJson (frame : Frame) (version : Version) : Except String String :=
  Externals.writeTuple (frame.items version)

/-! ### Replies to a malformed frame -/

/-- How a frame that could not be parsed must be answered. -/
inductive FrameReply where
  /-- Say nothing. -/
  | ignore
  /-- Answer with a `CALLERROR`. -/
  | callError
  /-- Answer with a `CALLRESULTERROR`. -/
  | callResultError
deriving DecidableEq, Repr

/-- The message type of the frame that failed to parse, when it got far enough to
be read. -/
def FrameError.messageType : FrameError → Option MessageTypeId
  | .wrongArity t _ _ | .messageTypeNotInVersion t _ | .unreadableMessageId t => some t
  | _ => none

/-- Whether the specification says to ignore the frame rather than answer it. -/
def FrameError.isIgnorable (version : Version) : FrameError → Bool
  | .unknownMessageType _ | .messageTypeNotInVersion _ _ => version ≠ .v2_0_1
  | _ => false

/-- What the receiver must send back. -/
def FrameError.reply (version : Version) (error : FrameError) : FrameReply :=
  if error.isIgnorable version then .ignore
  else
    match error with
    | .messageTypeNotInVersion _ _ => .callError
    | _ =>
      match error.messageType with
      | some .callResult =>
          if version.hasExtendedMessageTypes then .callResultError else .ignore
      | some .send | some .callError | some .callResultError => .ignore
      | some .call | none => .callError

/-- The code to answer with. -/
def FrameError.errorCode : FrameError → ErrorCode
  | .unknownMessageType _ | .messageTypeNotInVersion _ _ => .messageTypeNotSupported
  | _ => .rpcFrameworkError

/-- The id to use in the answer: `"-1"` when the incoming one could not be
read. -/
def FrameError.replyId : FrameError → MessageId
  | .unreadableAction id | .unreadableErrorCode id => id
  | _ => MessageId.unreadable

end OcppKit
