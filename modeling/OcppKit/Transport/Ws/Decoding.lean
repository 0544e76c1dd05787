import OcppKit.Transport.Ws.Rules

/-!
# How bytes arrive does not matter

What a WebSocket stream means is a matter of its frames, not of the pieces it arrives in.
`OcppKit.Ws.frames` takes a whole stream apart by the layout of a frame, and
`OcppKit.Ws.judge` goes through the frames with the rules in hand: a header that breaks one ends the stream, also when its
payload has not arrived; a control frame is a message of its own; the pieces of a data
message are kept in order, and are one message when the last of them is there.

The codec does the same, whatever the reads are (`OcppKit.Ws.receive_eq_judge`): as a reader
it does not care (`Incremental.Reader.receive_eq_drain`), and on the whole stream it goes
through the frames as they come (`OcppKit.Ws.drain_eq_judge`). Nothing it delivers, and
nothing it keeps, is larger than it is told to assemble.
-/

namespace OcppKit.Ws

/-! ### The frames of a stream -/

/-- A frame of a stream, its payload without the mask. -/
structure WireFrame where
  /-- Its header. -/
  header : Header
  /-- Its payload. -/
  payload : List UInt8
deriving DecidableEq, Repr

/-- How a stream ends. -/
inductive Tail where
  /-- In a header, or between frames. -/
  | inHeader
  /-- With a header that cannot be read. -/
  | refused (e : ProtocolError)
  /-- In the payload of a frame. -/
  | inPayload (header : Header)
deriving DecidableEq, Repr

/-- **The frames of a whole stream**, and how it ends. -/
def frames (stream : List UInt8) : List WireFrame × Tail :=
  match h : frameHead stream with
  | none => ([], .inHeader)
  | some (.error e) => ([], .refused e)
  | some (.ok header) =>
      if hall : stream.length < header.prefixLength + header.length then ([], .inPayload header)
      else
        have : (stream.drop (header.prefixLength + header.length)).length < stream.length := by
          have := prefixLength_of_frameHead h
          rw [List.length_drop]
          omega
        let rest := frames (stream.drop (header.prefixLength + header.length))
        (⟨header, unmasked header stream⟩ :: rest.1, rest.2)
termination_by stream.length
decreasing_by exact this

theorem frames_eq (stream : List UInt8) : frames stream =
    match frameHead stream with
    | none => ([], .inHeader)
    | some (.error e) => ([], .refused e)
    | some (.ok header) =>
        if stream.length < header.prefixLength + header.length then ([], .inPayload header)
        else (⟨header, unmasked header stream⟩ ::
            (frames (stream.drop (header.prefixLength + header.length))).1,
          (frames (stream.drop (header.prefixLength + header.length))).2) := by
  rw [frames]
  split <;> simp_all

/-! ### The rules -/

/-- **The rules a header keeps**, in the order in which they are looked at: each with whether it
is broken. -/
def rules (role : Role) (config : Config) (inProgress : Bool) (header : Header) :
    List (Bool × ProtocolError) :=
  let control := header.opcode.isControl
  [(header.rsv2 || header.rsv3, .reservedBits),
    (header.rsv1, .compressionNotNegotiated),
    (role = .server && header.mask.isNone, .unmaskedFrameFromClient),
    (role = .client && header.mask.isSome, .maskedFrameFromServer),
    (control && !header.fin, .fragmentedControlFrame),
    (control && 125 < header.length, .controlFrameTooBig),
    (!control && config.maxFrameSize < header.length, .frameTooBig header.length),
    (header.opcode = .continuation && !inProgress, .unexpectedContinuation),
    ((header.opcode = .text || header.opcode = .binary) && inProgress, .expectedContinuation)]

/-- The first rule a header breaks. -/
def violation (role : Role) (config : Config) (inProgress : Bool) (header : Header) :
    Option ProtocolError :=
  ((rules role config inProgress header).find? Prod.fst).map Prod.snd

/-- **The codec looks at the rules in this order.** -/
theorem check_eq (codec : Codec) (header : Header) : codec.check header =
    match violation codec.role codec.config codec.fragment.isSome header with
    | some e => .error e
    | none => .ok () := by
  obtain ⟨fin, rsv1, rsv2, rsv3, opcode, mask, length, prefixLength⟩ := header
  obtain ⟨role, config, fragment⟩ := codec
  rw [Codec.check, violation, rules]
  dsimp only
  rcases hreserved : rsv2 || rsv3 with _ | _
  swap
  · rfl
  rcases rsv1 with _ | _
  swap
  · rfl
  have hmasked : mask.isNone = !mask.isSome := by cases mask <;> rfl
  rw [hmasked]
  generalize mask.isSome = masked
  generalize fragment.isSome = inProgress
  by_cases hcontrol : 125 < length <;> by_cases hframe : config.maxFrameSize < length <;>
    cases role <;> cases masked <;> cases opcode <;> cases fin <;> cases inProgress <;>
    simp [OpCode.isControl, hcontrol, hframe]

/-- The message in progress: what it is, and its pieces in order. -/
abbrev Pieces := Option (OpCode × List (List UInt8))

/-- What a control frame says. -/
def controlMessage (frame : WireFrame) : Except ProtocolError Message :=
  match frame.header.opcode with
  | .close => closeMessage frame.payload
  | .ping => .ok (.ping frame.payload)
  | _ => .ok (.pong frame.payload)

/-- What came of judging frames: messages, and then an error or the message in progress. -/
abbrev Verdict := List Message × Except ProtocolError Pieces

/-- One more message, or the error that stands in its place. -/
def Verdict.after (message : Except ProtocolError Message) (verdict : Verdict) : Verdict :=
  match message with
  | .ok message => (message :: verdict.1, verdict.2)
  | .error e => ([], .error e)

/-- What the end of a stream comes to. The rules are not waited with until the payload is
there. -/
def Tail.judge (role : Role) (config : Config) (pieces : Pieces) : Tail → Verdict
  | .inHeader => ([], .ok pieces)
  | .refused e => ([], .error e)
  | .inPayload header =>
      match violation role config pieces.isSome header with
      | some e => ([], .error e)
      | none => ([], .ok pieces)

/-- **Judges the frames of a stream by the rules**, one after another. -/
def judge (role : Role) (config : Config) : Pieces → List WireFrame → Tail → Verdict
  | pieces, [], tail => tail.judge role config pieces
  | pieces, frame :: rest, tail =>
      match violation role config pieces.isSome frame.header with
      | some e => ([], .error e)
      | none =>
          if frame.header.opcode.isControl then
            (judge role config pieces rest tail).after (controlMessage frame)
          else
            let opcode := (pieces.map Prod.fst).getD frame.header.opcode
            let parts := (pieces.map Prod.snd).getD [] ++ [frame.payload]
            if config.maxMessageSize < (parts.map List.length).sum then ([], .error .messageTooBig)
            else if frame.header.fin then
              (judge role config none rest tail).after (dataMessage opcode parts.flatten)
            else judge role config (some (opcode, parts)) rest tail

/-! ### The codec goes by the rules -/

/-- The fragments of the message in progress, put together. -/
def Pieces.fragment (pieces : Pieces) : Option Fragment :=
  pieces.map fun p => ⟨p.1, false, p.2.flatten⟩

/-- A verdict as the codec gives it. -/
def Verdict.outcome (role : Role) (config : Config) (verdict : Verdict) :
    List Message × Except ProtocolError Codec :=
  (verdict.1, verdict.2.map fun pieces => ⟨role, config, Pieces.fragment pieces⟩)

/-- What came of reading, without what is left. -/
def kept (o : Incremental.Outcome Codec UInt8 Message ProtocolError) :
    List Message × Except ProtocolError Codec :=
  (o.1, o.2.map Prod.fst)

/-- A message, or an error, and then what is left. -/
theorem kept_passOf (result : Except ProtocolError Message) (waiting : Codec) (xs : List UInt8)
    {codec : Codec} {src : List UInt8} {verdict : Verdict} {role : Role} {config : Config}
    (h : kept (Codec.reader.drain codec src) = verdict.outcome role config) :
    kept (Codec.reader.resume waiting xs (passOf result codec src)) =
      (verdict.after result).outcome role config := by
  cases result with
  | error e => rfl
  | ok message =>
      rw [kept, Prod.mk.injEq] at h
      exact Prod.ext (congrArg (message :: ·) h.1) h.2

/-- A control frame is what it says. -/
theorem Codec.control_eq (codec : Codec) (header : Header) (payload src : List UInt8) :
    codec.control header.opcode payload src =
      passOf (controlMessage ⟨header, payload⟩) codec src := by
  obtain ⟨fin, rsv1, rsv2, rsv3, opcode, mask, length, prefixLength⟩ := header
  cases opcode with
  | close => exact congrArg (passOf · codec src) (closeFrame_eq payload)
  | _ => rfl

/-- A frame that is all there has a payload of its length. -/
theorem Header.length_payload {header : Header} {src : List UInt8}
    (h : header.prefixLength + header.length ≤ src.length) :
    (header.payload src).length = header.length := by
  have hlength : ((src.drop header.prefixLength).take header.length).length = header.length := by
    rw [List.length_take, List.length_drop]
    omega
  rw [Header.payload]
  cases header.mask with
  | none => exact hlength
  | some key => rw [length_applyMask, hlength]

/-- No compressed frame keeps the rules. -/
theorem rsv1_of_violation {role : Role} {config : Config} {inProgress : Bool} {header : Header}
    (h : violation role config inProgress header = none) : header.rsv1 = false := by
  rw [violation, Option.map_eq_none_iff, List.find?_eq_none] at h
  simpa using h (header.rsv1, .compressionNotNegotiated) (by simp [rules])

/-- **A data frame is one more piece.** -/
theorem Codec.data_eq {role : Role} {config : Config} {pieces : Pieces} {header : Header}
    {payload : List UInt8} (hlength : payload.length = header.length)
    (hviolation : violation role config pieces.isSome header = none) (src : List UInt8) :
    Codec.data ⟨role, config, Pieces.fragment pieces⟩ header payload src =
      let opcode := (pieces.map Prod.fst).getD header.opcode
      let parts := (pieces.map Prod.snd).getD [] ++ [payload]
      if config.maxMessageSize < (parts.map List.length).sum then .fail .messageTooBig
      else if header.fin then
        passOf (dataMessage opcode parts.flatten) ⟨role, config, none⟩ src
      else .next ⟨role, config, Pieces.fragment (some (opcode, parts))⟩ src := by
  have hrsv1 := rsv1_of_violation hviolation
  rcases pieces with _ | ⟨opcode, parts⟩
  · simp [Codec.data, Pieces.fragment, hlength, hrsv1, ← finish_eq]
  · simp [Codec.data, Pieces.fragment, hlength, List.length_flatten, ← finish_eq]

/-- **On the whole stream, the codec does what the rules say.** -/
theorem drain_eq_judge (role : Role) (config : Config) (pieces : Pieces) (stream : List UInt8) :
    kept (Codec.reader.drain ⟨role, config, Pieces.fragment pieces⟩ stream) =
      (judge role config pieces (frames stream).1 (frames stream).2).outcome role config := by
  -- a frame that is all there leaves less of the stream, whatever is in progress then
  induction hn : stream.length using Nat.strongRecOn generalizing pieces stream with
  | _ n ih =>
    have hinProgress : (Pieces.fragment pieces).isSome = pieces.isSome := by
      rw [Pieces.fragment, Option.isSome_map]
    rw [Incremental.Reader.drain_eq, frames_eq, frameHead_eq,
      show Codec.reader.pass = Codec.pass from rfl, Codec.pass]
    rcases hheader : readHeader stream with e | _ | header
    · rfl
    · rfl
    dsimp only
    rw [check_eq, hinProgress, asFrameHead]
    simp only [← payload_eq_unmasked]
    rcases lt_or_ge stream.length (header.prefixLength + header.length) with hpart | hall
    · simp only [if_pos hpart, judge, Tail.judge]
      rcases violation role config pieces.isSome header with _ | e
      · rfl
      · rfl
    have hlt : (header.after stream).length < n := by
      have := prefixLength_of_readHeader hheader
      rw [Header.after, List.length_drop]
      omega
    have hih := fun pieces => ih _ hlt pieces (header.after stream) rfl
    simp only [if_neg (not_lt.mpr hall), judge]
    rcases hviolation : violation role config pieces.isSome header with _ | e
    swap
    · rfl
    by_cases hcontrol : header.opcode.isControl = true
    · simp only [if_pos hcontrol, Codec.control_eq]
      exact kept_passOf _ _ _ (hih pieces)
    · simp only [if_neg hcontrol, Codec.data_eq (Header.length_payload hall) hviolation]
      split_ifs
      · rfl
      · exact kept_passOf _ _ _ (hih none)
      · exact hih _

/-! ### Nothing is too large -/

/-- How many bytes the pieces are. -/
def Pieces.size (pieces : Pieces) : ℕ := (pieces.map fun p => (p.2.map List.length).sum).getD 0

/-- A message that is made of a payload is no larger. -/
theorem len_of_dataMessage {opcode : OpCode} {payload : List UInt8} {message : Message}
    (h : dataMessage opcode payload = .ok message) : message.len = payload.length := by
  rw [dataMessage] at h
  split at h
  · rcases htext : Utf8.decode payload with _ | text
    · rw [htext] at h
      exact absurd h (by simp)
    · rw [htext] at h
      obtain rfl := Except.ok.inj h
      rw [Message.len, ← Utf8.length_encode, Utf8.encode_of_decode htext]
  · obtain rfl := Except.ok.inj h
    rfl

/-- What a control frame says is not data. -/
theorem isData_of_controlMessage {frame : WireFrame} {message : Message}
    (h : controlMessage frame = .ok message) : message.isData = false := by
  rw [controlMessage] at h
  split at h
  · rw [← closeFrame_eq] at h
    rcases hclose : closeFrame frame.payload with e | body
    · rw [hclose] at h
      exact absurd h (by simp [Except.map])
    · rw [hclose] at h
      obtain rfl := Except.ok.inj h
      rfl
  · obtain rfl := Except.ok.inj h
    rfl
  · obtain rfl := Except.ok.inj h
    rfl

/-- What a verdict holds is not too large. -/
def Verdict.Bounded (limit : ℕ) (verdict : Verdict) : Prop :=
  (∀ message ∈ verdict.1, message.isData = true → message.len ≤ limit) ∧
    ∀ pieces : Pieces, verdict.2 = .ok pieces → pieces.size ≤ limit

theorem Verdict.bounded_after {limit : ℕ} {verdict : Verdict}
    {message : Except ProtocolError Message} (h : verdict.Bounded limit)
    (hmessage : ∀ m, message = .ok m → m.isData = true → m.len ≤ limit) :
    (verdict.after message).Bounded limit := by
  cases message with
  | error e => exact ⟨by simp [after], by simp [after]⟩
  | ok m =>
      refine ⟨?_, h.2⟩
      rintro m' hm'
      rcases List.mem_cons.mp hm' with rfl | hm'
      · exact hmessage m' rfl
      · exact h.1 m' hm'

/-- **Nothing that is delivered, and nothing that is kept, is too large.** -/
theorem judge_bounded (role : Role) (config : Config) {pieces : Pieces}
    (h : pieces.size ≤ config.maxMessageSize) (stream : List WireFrame) (tail : Tail) :
    (judge role config pieces stream tail).Bounded config.maxMessageSize := by
  have herror : ∀ e, Verdict.Bounded config.maxMessageSize ([], .error e) :=
    fun e => ⟨by simp, by simp⟩
  have hkept : ∀ {pieces : Pieces}, pieces.size ≤ config.maxMessageSize →
      Verdict.Bounded config.maxMessageSize ([], .ok pieces) := by
    intro pieces h
    refine ⟨by simp, fun pieces' hok => ?_⟩
    obtain rfl := Except.ok.inj hok
    exact h
  induction stream generalizing pieces with
  | nil =>
      rw [judge]
      cases tail with
      | inHeader => exact hkept h
      | refused e => exact herror e
      | inPayload header =>
          rw [Tail.judge]
          split
          next e _ => exact herror e
          next => exact hkept h
  | cons frame stream ih =>
      rw [judge]
      split
      next e _ => exact herror e
      split
      · -- a control frame is no data, and leaves what is in progress
        refine Verdict.bounded_after (ih h) fun m hm hdata => ?_
        rw [isData_of_controlMessage hm] at hdata
        exact absurd hdata (by simp)
      dsimp only
      split
      · exact herror _
      next hsize =>
      split
      · refine Verdict.bounded_after (ih (Nat.zero_le _)) fun m hm _ => ?_
        rw [len_of_dataMessage hm, List.length_flatten]
        exact not_lt.mp hsize
      · exact ih (not_lt.mp hsize)

/-- **Decoding is independent of how the bytes arrive**: whatever the reads are, the messages and
the first error are those of the whole stream, judged frame by frame. Neither a data message
that is delivered nor the one in progress is larger than what is to be assembled. -/
theorem receive_eq_judge (role : Role) (config : Config) (reads : List (List UInt8)) :
    let received := Codec.reader.receive (Codec.new role config) [] reads
    let stream := frames reads.flatten
    kept received = (judge role config none stream.1 stream.2).outcome role config ∧
      (∀ message ∈ received.1, message.isData = true → message.len ≤ config.maxMessageSize) ∧
      ∀ codec rest, received.2 = .ok (codec, rest) →
        ∀ fragment ∈ codec.fragment, fragment.payload.length ≤ config.maxMessageSize := by
  have hwait : Codec.reader.pass (Codec.new role config) [] = .wait := rfl
  have hkept : kept (Codec.reader.receive (Codec.new role config) [] reads) =
      (judge role config none (frames reads.flatten).1 (frames reads.flatten).2).outcome role
        config := by
    rw [Codec.reader.receive_eq_drain hwait, List.nil_append]
    exact drain_eq_judge role config none reads.flatten
  obtain ⟨hmessages, hpieces⟩ := @judge_bounded role config none (Nat.zero_le _)
    (frames reads.flatten).1 (frames reads.flatten).2
  obtain ⟨hitems, hstate⟩ := Prod.mk.inj hkept
  refine ⟨hkept, fun message hmessage => hmessages message (hitems ▸ hmessage), ?_⟩
  intro codec rest hok fragment hfragment
  rw [hok] at hstate
  rcases hjudge : (judge role config none (frames reads.flatten).1 (frames reads.flatten).2).2 with
    e | pieces
  · rw [hjudge] at hstate
    exact absurd hstate (by simp [Except.map])
  · rw [hjudge] at hstate
    obtain rfl := Except.ok.inj hstate
    obtain ⟨p, rfl, rfl⟩ := Option.map_eq_some_iff.mp hfragment
    have := hpieces _ hjudge
    rwa [Pieces.size, Option.map_some, Option.getD_some, ← List.length_flatten] at this

end OcppKit.Ws
