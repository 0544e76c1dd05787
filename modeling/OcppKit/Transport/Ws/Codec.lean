import OcppKit.Library.Incremental
import OcppKit.Library.Utf8
import OcppKit.Transport.Ws.Frame

/-!
# The WebSocket codec

`OcppKit.Ws.Codec` without compression: `OcppKit.Ws.Codec.decode` takes messages off the
bytes that have arrived, frame by frame, and keeps the fragments of the message that is
not complete; `OcppKit.Ws.encode` writes a message as one frame.

One frame is one pass of the loop, `OcppKit.Ws.Codec.pass`. What a pass takes off is
something, and what it has decided stays decided when more arrives
(`OcppKit.Ws.Codec.reader`), so the codec is a reader of what arrives in pieces, and its
loop is `Incremental.Reader.decode`.
-/

namespace OcppKit.Ws

/-! ### Messages and rules -/

/-- Which side of the connection a codec is on. It decides who masks. -/
inductive Role where
  /-- A charging station, or a local controller talking upstream. -/
  | client
  /-- A CSMS, or a local controller talking downstream. -/
  | server
deriving DecidableEq, Repr

/-- One complete WebSocket message. -/
inductive Message where
  /-- A UTF-8 text message. -/
  | text (text : String)
  /-- A binary message. -/
  | binary (data : List UInt8)
  /-- A ping. -/
  | ping (data : List UInt8)
  /-- A pong. -/
  | pong (data : List UInt8)
  /-- The close handshake. -/
  | close (frame : Option CloseFrame)
deriving DecidableEq, Repr

/-- How many bytes the payload occupies. -/
def Message.len : Message → ℕ
  | .text string => string.utf8ByteSize
  | .binary data | .ping data | .pong data => data.length
  | .close frame => (frame.map fun frame => frame.reason.utf8ByteSize + 2).getD 0

/-- Whether it is a data message. -/
def Message.isData : Message → Bool
  | .text _ | .binary _ => true
  | _ => false

/-- How the codec is tuned. -/
structure Config where
  /-- The largest message that will be assembled, in bytes. -/
  maxMessageSize : ℕ
  /-- The largest single frame that will be accepted, in bytes. -/
  maxFrameSize : ℕ
deriving DecidableEq, Repr

/-- A rule that the peer broke. -/
inductive ProtocolError where
  /-- A reserved bit was set with no extension to give it meaning. -/
  | reservedBits
  /-- A reserved opcode. -/
  | reservedOpcode (bits : UInt8)
  /-- A client sent an unmasked frame. -/
  | unmaskedFrameFromClient
  /-- A server sent a masked frame. -/
  | maskedFrameFromServer
  /-- A control frame was fragmented. -/
  | fragmentedControlFrame
  /-- A control frame carried more than 125 bytes. -/
  | controlFrameTooBig
  /-- A continuation frame arrived with no message in progress. -/
  | unexpectedContinuation
  /-- A new data frame arrived while a message was still in progress. -/
  | expectedContinuation
  /-- A frame exceeded the largest accepted. -/
  | frameTooBig (length : ℕ)
  /-- A message exceeded the largest assembled. -/
  | messageTooBig
  /-- A length that is not encoded in its minimal form. -/
  | nonMinimalLength
  /-- A close frame whose payload is one byte, or whose code a peer may not send. -/
  | invalidCloseFrame
  /-- A close reason that is not UTF-8. -/
  | invalidCloseReason
  /-- A text message whose payload is not UTF-8. -/
  | invalidUtf8
  /-- `RSV1` was set without compression having been negotiated. -/
  | compressionNotNegotiated
deriving DecidableEq, Repr

/-- A message being assembled from fragments. -/
structure Fragment where
  /-- The opcode of the first frame, which is what the message is. -/
  opcode : OpCode
  /-- Whether the first frame set `RSV1`. -/
  compressed : Bool
  /-- What has been put together. -/
  payload : List UInt8
deriving DecidableEq, Repr

/-- The codec: what decoding keeps from one frame to the next. -/
structure Codec where
  /-- Which side it is on. -/
  role : Role
  /-- How it is tuned. -/
  config : Config
  /-- The message in progress. -/
  fragment : Option Fragment
deriving DecidableEq, Repr

/-- A codec for one side of a connection, without compression. -/
def Codec.new (role : Role) (config : Config) : Codec := ⟨role, config, none⟩

/-! ### Decoding -/

/-- Validates a header against the role, the configuration and the message in progress. -/
def Codec.check (codec : Codec) (header : Header) : Except ProtocolError Unit :=
  if header.rsv2 || header.rsv3 then .error .reservedBits
  -- nothing is compressed without having been negotiated
  else if header.rsv1 then .error .compressionNotNegotiated
  else
    match codec.role, header.mask.isSome with
    | .server, false => .error .unmaskedFrameFromClient
    | .client, true => .error .maskedFrameFromServer
    | _, _ =>
        if header.opcode.isControl then
          if !header.fin then .error .fragmentedControlFrame
          else if 125 < header.length then .error .controlFrameTooBig
          else .ok ()
        else if codec.config.maxFrameSize < header.length then .error (.frameTooBig header.length)
        else
          match header.opcode, codec.fragment.isSome with
          | .continuation, false => .error .unexpectedContinuation
          | .text, true | .binary, true => .error .expectedContinuation
          | _, _ => .ok ()

/-- Turns an assembled payload into a message. -/
def finish (opcode : OpCode) (compressed : Bool) (payload : List UInt8) :
    Except ProtocolError Message :=
  if compressed then .error .compressionNotNegotiated
  else
    match opcode with
    | .text =>
        match Utf8.decode payload with
        | some text => .ok (.text text)
        | none => .error .invalidUtf8
    | _ => .ok (.binary payload)

/-- Reads a close frame's body. A single byte cannot hold a code. -/
def closeFrame (payload : List UInt8) : Except ProtocolError (Option CloseFrame) :=
  match payload with
  | [] => .ok none
  | [_] => .error .invalidCloseFrame
  | a :: b :: rest =>
      let code : CloseCode := ⟨UInt16.ofNat (fromBeBytes [a, b])⟩
      if !code.isSendable then .error .invalidCloseFrame
      else
        match Utf8.decode rest with
        | some reason => .ok (some ⟨code, reason⟩)
        | none => .error .invalidCloseReason

/-- What came of one pass of the decoding loop. -/
abbrev Pass := Incremental.Pass Codec UInt8 Message ProtocolError

/-- A message, or an error. -/
def passOf (result : Except ProtocolError Message) (codec : Codec) (src : List UInt8) : Pass :=
  match result with
  | .ok message => .done message codec src
  | .error e => .fail e

/-- A control frame is a message of its own, and the one in progress stays as it is. -/
def Codec.control (codec : Codec) (opcode : OpCode) (payload src : List UInt8) : Pass :=
  match opcode with
  | .close => passOf ((closeFrame payload).map .close) codec src
  | .ping => .done (.ping payload) codec src
  | _ => .done (.pong payload) codec src

/-- A data frame starts or extends the message in progress. -/
def Codec.data (codec : Codec) (header : Header) (payload src : List UInt8) : Pass :=
  let fragment := codec.fragment.getD ⟨header.opcode, header.rsv1, []⟩
  if codec.config.maxMessageSize < fragment.payload.length + header.length then
    .fail .messageTooBig
  else
    let fragment := { fragment with payload := fragment.payload ++ payload }
    if header.fin then
      passOf (finish fragment.opcode fragment.compressed fragment.payload)
        { codec with fragment := none } src
    else .next { codec with fragment := some fragment } src

/-- The payload of a frame, without the mask. -/
def Header.payload (header : Header) (src : List UInt8) : List UInt8 :=
  let payload := (src.drop header.prefixLength).take header.length
  match header.mask with
  | some key => applyMask key payload
  | none => payload

/-- What follows a frame. -/
def Header.after (header : Header) (src : List UInt8) : List UInt8 :=
  src.drop (header.prefixLength + header.length)

/-- The rule a header breaks that could not be read. -/
def HeaderError.rule : HeaderError → ProtocolError
  | .reservedOpcode bits => .reservedOpcode bits
  | .nonMinimalLength => .nonMinimalLength
  | .lengthTooLarge => .frameTooBig (2 ^ 64 - 1)

/-- **One pass of the loop**: a frame is taken off what has arrived, if it is all there. -/
def Codec.pass (codec : Codec) (src : List UInt8) : Pass :=
  match readHeader src with
  | .ok none => .wait
  | .error e => .fail e.rule
  | .ok (some header) =>
      match codec.check header with
      | .error e => .fail e
      | .ok () =>
          if src.length < header.prefixLength + header.length then .wait
          else if header.opcode.isControl then
            codec.control header.opcode (header.payload src) (header.after src)
          else codec.data header (header.payload src) (header.after src)

/-! ### A reader of what arrives in pieces -/

theorem passOf_append (result : Except ProtocolError Message) (codec : Codec)
    (src more : List UInt8) :
    passOf result codec (src ++ more) = (passOf result codec src).append more := by
  cases result <;> rfl

theorem Codec.control_append (codec : Codec) (opcode : OpCode) (payload src more : List UInt8) :
    codec.control opcode payload (src ++ more) =
      (codec.control opcode payload src).append more := by
  cases opcode with
  | close => exact passOf_append _ codec src more
  | _ => rfl

theorem Codec.data_append (codec : Codec) (header : Header) (payload src more : List UInt8) :
    codec.data header payload (src ++ more) = (codec.data header payload src).append more := by
  rw [data, data]
  dsimp only
  split
  · rfl
  split
  · exact passOf_append _ _ src more
  · rfl

theorem rest_passOf {result : Except ProtocolError Message} {codec : Codec}
    {src rest : List UInt8} (h : rest ∈ (passOf result codec src).rest) : rest = src := by
  cases result with
  | ok message => exact (Option.some.inj h).symm
  | error e => exact absurd h (by simp [passOf, Incremental.Pass.rest])

theorem Codec.rest_control {codec : Codec} {opcode : OpCode} {payload src rest : List UInt8}
    (h : rest ∈ (codec.control opcode payload src).rest) : rest = src := by
  cases opcode with
  | close => exact rest_passOf h
  | _ => exact (Option.some.inj h).symm

theorem Codec.rest_data {codec : Codec} {header : Header} {payload src rest : List UInt8}
    (h : rest ∈ (codec.data header payload src).rest) : rest = src := by
  rw [data] at h
  dsimp only at h
  split at h
  · exact absurd h (by simp [Incremental.Pass.rest])
  split at h
  · exact rest_passOf h
  · exact (Option.some.inj h).symm

/-- What follows a frame that is all there, when more arrives. -/
theorem Header.after_append {header : Header} {src : List UInt8}
    (h : header.prefixLength + header.length ≤ src.length) (more : List UInt8) :
    header.after (src ++ more) = header.after src ++ more :=
  List.drop_append_of_le_length h

theorem Header.payload_append {header : Header} {src : List UInt8}
    (h : header.prefixLength + header.length ≤ src.length) (more : List UInt8) :
    header.payload (src ++ more) = header.payload src := by
  rw [payload, payload, take_drop_append h]

/-- **The codec is a reader of what arrives in pieces.** -/
def Codec.reader : Incremental.Reader Codec UInt8 Message ProtocolError where
  pass := Codec.pass
  shrinks codec src rest hrest := by
    rw [Codec.pass] at hrest
    split at hrest
    · exact absurd hrest (by simp [Incremental.Pass.rest])
    · exact absurd hrest (by simp [Incremental.Pass.rest])
    next header hheader =>
    obtain ⟨hlength, hle⟩ := prefixLength_of_readHeader hheader
    have hafter : (header.after src).length < src.length := by
      rw [Header.after, List.length_drop]
      omega
    split at hrest
    · exact absurd hrest (by simp [Incremental.Pass.rest])
    split at hrest
    · exact absurd hrest (by simp [Incremental.Pass.rest])
    split at hrest
    · rwa [Codec.rest_control hrest]
    · rwa [Codec.rest_data hrest]
  stable codec src more h := by
    rw [Codec.pass] at h ⊢
    have hheader : readHeader src ≠ .ok none := fun hnone => h (by rw [hnone])
    rw [Codec.pass, readHeader_append hheader]
    split
    next hnone => exact absurd hnone hheader
    · rfl
    next header hread =>
    simp only [hread] at h
    split
    · rfl
    next hcheck =>
    rw [hcheck] at h
    have hall : header.prefixLength + header.length ≤ src.length :=
      not_lt.mp fun hlt => h (if_pos hlt)
    rw [if_neg (not_lt.mpr hall), if_neg (by rw [List.length_append]; omega),
      Header.after_append hall, Header.payload_append hall]
    split
    · exact Codec.control_append codec _ _ _ more
    · exact Codec.data_append codec _ _ _ more

/-- **Takes a message off what has arrived**: goes from frame to frame until one is complete, or
the rest has not arrived yet. -/
def Codec.decode (codec : Codec) (src : List UInt8) :
    Except ProtocolError (Option Message × Codec × List UInt8) :=
  Codec.reader.decode codec src

/-! ### Encoding -/

/-- Steps back to a character boundary. -/
def floorFrom (text : String) : ℕ → ℕ
  | 0 => 0
  | index + 1 =>
      if (String.Pos.Raw.mk (index + 1)).isValid text then index + 1 else floorFrom text index

/-- The largest index at or below this one that is a character boundary. -/
def floorCharBoundary (text : String) (index : ℕ) : ℕ :=
  floorFrom text (min index text.utf8ByteSize)

/-- The body of a close frame. A control frame is short, so a long reason is cut. -/
def CloseFrame.body (frame : CloseFrame) : List UInt8 :=
  let room := min 123 frame.reason.utf8ByteSize
  toBeBytes 2 frame.code.value.toNat ++
    (Utf8.encode frame.reason).take (floorCharBoundary frame.reason room)

/-- The opcode and the payload a message is sent with. -/
def Message.content : Message → OpCode × List UInt8
  | .text string => (.text, Utf8.encode string)
  | .binary data => (.binary, data)
  | .ping data => (.ping, data)
  | .pong data => (.pong, data)
  | .close frame => (.close, (frame.map CloseFrame.body).getD [])

/-- Whether this side masks the frames it sends. -/
def Role.masks : Role → Bool
  | .client => true
  | .server => false

/-- **Writes a message** as one frame. A side that masks uses the key. -/
def encode (role : Role) (message : Message) (key : MaskKey) : List UInt8 :=
  let (opcode, payload) := message.content
  let mask := if role.masks then some key else none
  writeHeader true false opcode mask payload.length ++
    match mask with
    | some key => applyMask key payload
    | none => payload

end OcppKit.Ws
