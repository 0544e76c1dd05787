import OcppKit.Transport.Ws.Codec

/-!
# WebSocket messages there and back

What one side writes, the other reads: every message as it was sent, except that a close
reason of more than 123 bytes is cut where a character ends (`OcppKit.Ws.Message.Arrives`).
A message is written as one frame, which is one pass of the reader, whatever follows it
(`OcppKit.Ws.pass_encode`); so messages that are written one after another are read one
after another, to the last byte, in whatever pieces they arrive
(`OcppKit.Ws.encode_roundTrips`).
-/

namespace OcppKit.Ws

/-! ### What arrives -/

/-- The other side. -/
def Role.opposite : Role → Role
  | .client => .server
  | .server => .client

/-- **A text cut to a limit**: as much of its beginning as ends where a character does. -/
structure IsCut (limit : ℕ) (text cut : String) : Prop where
  /-- It is the beginning of the text. -/
  beginning : ∃ rest, text = cut ++ rest
  /-- It is no longer than the limit. -/
  fits : cut.utf8ByteSize ≤ limit
  /-- No beginning that fits is longer. -/
  longest : ∀ first rest, text = first ++ rest → first.utf8ByteSize ≤ limit →
    first.utf8ByteSize ≤ cut.utf8ByteSize

/-- A text that fits is not cut. -/
theorem IsCut.eq_of_le {limit : ℕ} {text cut : String} (h : IsCut limit text cut)
    (hle : text.utf8ByteSize ≤ limit) : cut = text := by
  obtain ⟨rest, rfl⟩ := h.beginning
  have := h.longest (cut ++ rest) "" (by simp) hle
  rw [String.utf8ByteSize_append] at this
  have hrest : rest = "" := String.utf8ByteSize_eq_zero_iff.mp (by omega)
  rw [hrest, String.append_empty]

/-- There is one way to cut a text. -/
theorem IsCut.unique {limit : ℕ} {text cut cut' : String} (h : IsCut limit text cut)
    (h' : IsCut limit text cut') : cut = cut' := by
  obtain ⟨rest, hrest⟩ := h.beginning
  obtain ⟨rest', hrest'⟩ := h'.beginning
  have hsize : cut.utf8ByteSize = cut'.utf8ByteSize :=
    (h'.longest cut rest hrest h.fits).antisymm (h.longest cut' rest' hrest' h'.fits)
  have hencode : Utf8.encode cut ++ Utf8.encode rest = Utf8.encode cut' ++ Utf8.encode rest' := by
    rw [← Utf8.encode_append, ← Utf8.encode_append, ← hrest, ← hrest']
  exact Utf8.encode_injective (List.append_inj_left hencode (by simpa using hsize))

/-- Whether a message is a close with a body. -/
def Message.hasReason : Message → Bool
  | .close frame => frame.isSome
  | _ => false

/-- **A message arrives** as it was sent, but for a close reason, which is cut to 123 bytes. -/
inductive Message.Arrives : Message → Message → Prop
  /-- Data, a ping, a pong, a close without a body. -/
  | same {message : Message} (h : message.hasReason = false) : Message.Arrives message message
  /-- A close with a body. -/
  | close {code : CloseCode} {reason cut : String} (h : IsCut 123 reason cut) :
      Message.Arrives (.close (some ⟨code, reason⟩)) (.close (some ⟨code, cut⟩))

/-- **A message that may be sent** to a side tuned like this: within its limits, a control
payload short, a close code sendable. No payload has 2⁶³ bytes. -/
def Message.Fits (config : Config) : Message → Prop
  | .text string => string.utf8ByteSize ≤ config.maxFrameSize ∧
      string.utf8ByteSize ≤ config.maxMessageSize ∧ string.utf8ByteSize < 2 ^ 63
  | .binary data => data.length ≤ config.maxFrameSize ∧
      data.length ≤ config.maxMessageSize ∧ data.length < 2 ^ 63
  | .ping data | .pong data => data.length ≤ 125
  | .close frame => ∀ f ∈ frame, f.code.isSendable = true

/-! ### A reason is cut at a boundary -/

theorem floorFrom_spec (text : String) (index : ℕ) :
    floorFrom text index ≤ index ∧ (String.Pos.Raw.mk (floorFrom text index)).IsValid text ∧
      ∀ k ≤ index, (String.Pos.Raw.mk k).IsValid text → k ≤ floorFrom text index := by
  induction index with
  | zero =>
      refine ⟨le_rfl, ?_, fun k hk _ => hk⟩
      have h := Utf8.isValid_of_append "" text
      rwa [String.empty_append] at h
  | succ index ih =>
      rw [floorFrom]
      split
      next hvalid =>
        exact ⟨le_rfl, String.Pos.Raw.isValid_eq_true_iff.mp hvalid, fun k hk _ => hk⟩
      next hinvalid =>
        obtain ⟨hle, hvalid, hlargest⟩ := ih
        refine ⟨hle.trans (Nat.le_succ index), hvalid, fun k hk hk' => ?_⟩
        rcases hk.lt_or_eq with hlt | rfl
        · exact hlargest k (Nat.lt_succ_iff.mp hlt) hk'
        · exact absurd (String.Pos.Raw.isValid_eq_true_iff.mpr hk') hinvalid

/-- **The reason that is sent is the reason, cut.** -/
theorem exists_isCut (reason : String) : ∃ cut, IsCut 123 reason cut ∧
    (Utf8.encode reason).take (floorCharBoundary reason (min 123 reason.utf8ByteSize)) =
      Utf8.encode cut := by
  obtain ⟨hle, hvalid, hlargest⟩ :=
    floorFrom_spec reason (min (min 123 reason.utf8ByteSize) reason.utf8ByteSize)
  obtain ⟨cut, rest, hreason, hsize, htake⟩ := Utf8.exists_take_encode hvalid
  refine ⟨cut, ⟨⟨rest, hreason⟩, by omega, fun first rest' hfirst hfits => ?_⟩, htake⟩
  rw [hsize]
  refine hlargest _ ?_ (hfirst ▸ Utf8.isValid_of_append first rest')
  have := congrArg String.utf8ByteSize hfirst
  rw [String.utf8ByteSize_append] at this
  omega

/-- A close body is read as it was written, the reason cut. -/
theorem closeFrame_body {code : CloseCode} (hcode : code.isSendable = true) (reason : String) :
    ∃ cut, IsCut 123 reason cut ∧
      closeFrame (CloseFrame.body ⟨code, reason⟩) = .ok (some ⟨code, cut⟩) ∧
      (CloseFrame.body ⟨code, reason⟩).length ≤ 125 := by
  obtain ⟨cut, hcut, htake⟩ := exists_isCut reason
  have hread : fromBeBytes (toBeBytes 2 code.value.toNat) = code.value.toNat :=
    fromBeBytes_toBeBytes code.value.toNat_lt
  obtain ⟨a, b, hab⟩ := List.length_eq_two.mp (length_toBeBytes 2 code.value.toNat)
  rw [hab] at hread
  refine ⟨cut, hcut, ?_, ?_⟩
  · have hvalue : (⟨UInt16.ofNat (fromBeBytes [a, b])⟩ : CloseCode) = code := by
      rw [hread, UInt16.ofNat_toNat]
    rw [CloseFrame.body]
    dsimp only
    rw [htake, hab, List.cons_append, List.cons_append, List.nil_append, closeFrame]
    simp only [hvalue, hcode, Bool.not_true, Bool.false_eq_true, if_false, Utf8.decode_encode]
  · rw [CloseFrame.body]
    dsimp only
    rw [htake, List.length_append, length_toBeBytes, Utf8.length_encode]
    have := hcut.fits
    omega

/-! ### One message -/

/-- The length of the payload, and the mask, that a message is sent with. -/
theorem encode_eq (role : Role) (message : Message) (key : MaskKey) :
    ∃ mask payload, mask.isSome = role.masks ∧ payload.length = message.content.2.length ∧
      encode role message key =
        writeHeader true false message.content.1 mask message.content.2.length ++ payload ∧
      (match mask with | some key => applyMask key payload | none => payload) =
        message.content.2 := by
  cases role with
  | client =>
      exact ⟨some key, applyMask key message.content.2, rfl, length_applyMask _ _, rfl,
        applyMask_applyMask _ _⟩
  | server => exact ⟨none, message.content.2, rfl, rfl, rfl, rfl⟩

/-- What a message that may be sent keeps to, as far as the header shows. -/
theorem content_of_fits {config : Config} {message : Message} (h : message.Fits config) :
    message.content.2.length < 2 ^ 63 ∧ message.content.1 ≠ .continuation ∧
      (message.content.1.isControl = true → message.content.2.length ≤ 125) ∧
      (message.content.1.isControl = false →
        message.content.2.length ≤ config.maxFrameSize) := by
  cases message with
  | text string =>
      obtain ⟨hframe, -, hlt⟩ := h
      rw [Message.content, Utf8.length_encode]
      exact ⟨hlt, by simp, by simp [OpCode.isControl], fun _ => hframe⟩
  | binary data =>
      obtain ⟨hframe, -, hlt⟩ := h
      exact ⟨hlt, by simp [Message.content], by simp [Message.content, OpCode.isControl],
        fun _ => hframe⟩
  | ping data =>
      have hle : data.length ≤ 125 := h
      exact ⟨hle.trans_lt (by norm_num), by simp [Message.content], fun _ => hle,
        by simp [Message.content, OpCode.isControl]⟩
  | pong data =>
      have hle : data.length ≤ 125 := h
      exact ⟨hle.trans_lt (by norm_num), by simp [Message.content], fun _ => hle,
        by simp [Message.content, OpCode.isControl]⟩
  | close frame =>
      have hle : ((frame.map CloseFrame.body).getD []).length ≤ 125 := by
        rcases frame with _ | ⟨code, reason⟩
        · exact Nat.zero_le _
        · obtain ⟨-, -, -, hle⟩ := closeFrame_body (h ⟨code, reason⟩ rfl) reason
          exact hle
      exact ⟨hle.trans_lt (by norm_num), by simp [Message.content], fun _ => hle,
        by simp [Message.content, OpCode.isControl]⟩

/-- The header of a message that may be sent keeps the rules of the other side. -/
theorem check_of_fits {role : Role} {config : Config} {message : Message}
    (h : message.Fits config) {mask : Option MaskKey} (hmask : mask.isSome = role.masks)
    (prefixLength : ℕ) : (Codec.new role.opposite config).check
      ⟨true, false, false, false, message.content.1, mask, message.content.2.length,
        prefixLength⟩ = .ok () := by
  obtain ⟨-, hopcode, hcontrol, hdata⟩ := content_of_fits h
  generalize message.content.1 = opcode at *
  generalize message.content.2.length = length at *
  rw [Codec.check]
  dsimp only
  rw [hmask]
  cases hkind : opcode.isControl with
  | true =>
      have hle := not_lt.mpr (hcontrol hkind)
      cases role <;> simp [Codec.new, Role.opposite, Role.masks, hle]
  | false =>
      have hle := not_lt.mpr (hdata hkind)
      cases opcode with
      | continuation => exact absurd rfl hopcode
      | text => cases role <;> simp [Codec.new, Role.opposite, Role.masks, hle]
      | binary => cases role <;> simp [Codec.new, Role.opposite, Role.masks, hle]
      | _ => exact absurd hkind (by simp [OpCode.isControl])

/-- **A message is read as it arrives**, from a frame that is followed by anything. -/
theorem pass_encode {role : Role} {config : Config} {message : Message} (h : message.Fits config)
    (key : MaskKey) (rest : List UInt8) : ∃ arrived, message.Arrives arrived ∧
      (Codec.new role.opposite config).pass (encode role message key ++ rest) =
        .done arrived (Codec.new role.opposite config) rest := by
  obtain ⟨mask, payload, hmask, hlength, hencode, hpayload⟩ := encode_eq role message key
  obtain ⟨hlt, -⟩ := content_of_fits h
  have hheader := readHeader_writeHeader true false message.content.1 mask hlt (payload ++ rest)
  have hcheck := check_of_fits h hmask
    (writeHeader true false message.content.1 mask message.content.2.length).length
  generalize writeHeader true false message.content.1 mask message.content.2.length = front
    at hencode hheader hcheck
  have hbytes : Header.payload ⟨true, false, false, false, message.content.1, mask,
      message.content.2.length, front.length⟩ (front ++ (payload ++ rest)) =
        message.content.2 := by
    rw [Header.payload]
    dsimp only
    rw [List.drop_left, ← hlength, List.take_left]
    exact hpayload
  have hafter : Header.after ⟨true, false, false, false, message.content.1, mask,
      message.content.2.length, front.length⟩ (front ++ (payload ++ rest)) = rest := by
    rw [Header.after]
    dsimp only
    rw [← hlength, ← List.append_assoc, ← List.length_append, List.drop_left]
  rw [hencode, List.append_assoc, Codec.pass, hheader]
  simp only [hcheck, hbytes, hafter]
  rw [if_neg (by rw [List.length_append, List.length_append, hlength]; omega)]
  -- the frame is all there; what is left is what its payload says
  cases message with
  | text string =>
      obtain ⟨-, hmessage, -⟩ := h
      refine ⟨_, .same rfl, ?_⟩
      simp [Message.content, OpCode.isControl, Codec.data, Codec.new, not_lt.mpr hmessage, finish,
        passOf]
  | binary data =>
      obtain ⟨-, hmessage, -⟩ := h
      refine ⟨_, .same rfl, ?_⟩
      simp [Message.content, OpCode.isControl, Codec.data, Codec.new, not_lt.mpr hmessage, finish,
        passOf]
  | ping data => exact ⟨_, .same rfl, rfl⟩
  | pong data => exact ⟨_, .same rfl, rfl⟩
  | close frame =>
      rcases frame with _ | ⟨code, reason⟩
      · exact ⟨_, .same rfl, rfl⟩
      · obtain ⟨cut, hcut, hclose, -⟩ := closeFrame_body (h ⟨code, reason⟩ rfl) reason
        refine ⟨_, .close hcut, ?_⟩
        simp [Message.content, OpCode.isControl, Codec.control, hclose, passOf, Except.map]

/-! ### Messages one after another -/

/-- The bytes of messages, each with its key. -/
def encodeAll (role : Role) (sent : List (Message × MaskKey)) : List UInt8 :=
  sent.flatMap fun p => encode role p.1 p.2

/-- **Messages there and back**: what is written one after another is read one after another, to
the last byte, in whatever pieces it arrives. -/
theorem encode_roundTrips {role : Role} {config : Config} {sent : List (Message × MaskKey)}
    (h : ∀ p ∈ sent, p.1.Fits config) : ∃ arrived,
      List.Forall₂ Message.Arrives (sent.map Prod.fst) arrived ∧
        ∀ reads, reads.flatten = encodeAll role sent →
          Codec.reader.receive (Codec.new role.opposite config) [] reads =
            (arrived, .ok (Codec.new role.opposite config, [])) := by
  have hdrain : ∃ arrived, List.Forall₂ Message.Arrives (sent.map Prod.fst) arrived ∧
      Codec.reader.drain (Codec.new role.opposite config) (encodeAll role sent) =
        (arrived, .ok (Codec.new role.opposite config, [])) := by
    induction sent with
    | nil => exact ⟨[], List.Forall₂.nil, Codec.reader.drain_of_wait rfl⟩
    | cons p sent ih =>
        obtain ⟨arrived, harrived, hrest⟩ := ih fun q hq => h q (List.mem_cons_of_mem _ hq)
        obtain ⟨first, hfirst, hpass⟩ :=
          @pass_encode role config p.1 (h p List.mem_cons_self) p.2 (encodeAll role sent)
        refine ⟨first :: arrived, List.Forall₂.cons hfirst harrived, ?_⟩
        rw [encodeAll, List.flatMap_cons, Incremental.Reader.drain_eq,
          show Codec.reader.pass = Codec.pass from rfl]
        rw [encodeAll] at hpass hrest
        rw [hpass, Incremental.Reader.resume, hrest]
        rfl
  obtain ⟨arrived, harrived, hdrain⟩ := hdrain
  refine ⟨arrived, harrived, fun reads hreads => ?_⟩
  rw [Codec.reader.receive_eq_drain rfl, List.nil_append, hreads, hdrain]

end OcppKit.Ws

namespace OcppKit.Reference

/-! ### A goodbye -/

/-- A mebibyte. -/
def mebibyte : Ws.Config := ⟨2 ^ 20, 2 ^ 20⟩

/-- A reason of so many characters of two bytes. -/
def reasonOf (n : ℕ) : String := String.ofList (List.replicate n 'ü')

/-- A text, a ping, and two closes: with a reason of 6 bytes, and with one of 200. -/
def goodbye : List (Ws.Message × Ws.MaskKey) :=
  [(.text "[2,\"1\",\"Grüße\",[]]", ⟨1, 2, 3, 4⟩), (.ping [7], ⟨0, 0, 0, 0⟩),
    (.close (some ⟨⟨1000⟩, reasonOf 3⟩), ⟨9, 9, 9, 9⟩),
    (.close (some ⟨⟨1000⟩, reasonOf 100⟩), ⟨9, 9, 9, 9⟩)]

theorem goodbye_fits : ∀ p ∈ goodbye, p.1.Fits mebibyte := by
  have htext : ("[2,\"1\",\"Grüße\",[]]" : String).utf8ByteSize = 20 := by decide +kernel
  intro p hp
  simp only [goodbye, List.mem_cons, List.not_mem_nil, or_false] at hp
  rcases hp with rfl | rfl | rfl | rfl
  · rw [Ws.Message.Fits, htext]
    decide
  · exact (by decide : 1 ≤ 125)
  all_goals
    intro frame hframe
    obtain rfl := Option.some.inj hframe
    decide

/-- The 123rd byte is in the middle of a character. -/
theorem isCut_reasonOf : Ws.IsCut 123 (reasonOf 100) (reasonOf 61) := by
  obtain ⟨cut, hcut, htake⟩ := Ws.exists_isCut (reasonOf 100)
  have hencode : (Utf8.encode (reasonOf 100)).take
      (Ws.floorCharBoundary (reasonOf 100) (min 123 (reasonOf 100).utf8ByteSize)) =
        Utf8.encode (reasonOf 61) := by decide +kernel
  rwa [Utf8.encode_injective (htake.symm.trans hencode)] at hcut

/-- It arrives as it was sent, but the long reason is cut to 122 bytes. -/
theorem encode_roundTrips_goodbye : Ws.Codec.reader.receive (Ws.Codec.new .server mebibyte) []
    [Ws.encodeAll .client goodbye] =
      ([.text "[2,\"1\",\"Grüße\",[]]", .ping [7], .close (some ⟨⟨1000⟩, reasonOf 3⟩),
          .close (some ⟨⟨1000⟩, reasonOf 61⟩)],
        .ok (Ws.Codec.new .server mebibyte, [])) := by
  obtain ⟨arrived, harrived, hreceive⟩ :=
    @Ws.encode_roundTrips .client mebibyte goodbye goodbye_fits
  refine (hreceive _ List.flatten_singleton).trans (Prod.ext ?_ rfl)
  rcases harrived with _ | ⟨htext, _ | ⟨hping, _ | ⟨hshort, _ | ⟨hlong, _ | _⟩⟩⟩⟩
  cases htext
  cases hping
  rcases hshort with hreason | hshort
  · exact absurd hreason (by simp [Ws.Message.hasReason])
  rcases hlong with hreason | hlong
  · exact absurd hreason (by simp [Ws.Message.hasReason])
  rw [hshort.eq_of_le (by decide +kernel), hlong.unique isCut_reasonOf]

end OcppKit.Reference
