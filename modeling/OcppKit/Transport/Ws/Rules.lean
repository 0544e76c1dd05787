import OcppKit.Transport.Ws.Codec

/-!
# What the bytes of a frame mean

The layout of a frame and the rules for what it says, stated for themselves: bits by their
place, lengths and close codes by their digits, a mask byte by byte. The codec and these
rules have the names of things in common (opcodes, headers, messages, errors), and no
function but the reading of UTF-8.

Each function of the codec is then one of the rules: a header is read as the layout has it
(`OcppKit.Ws.frameHead_eq`), a payload is what lies under the mask
(`OcppKit.Ws.payload_eq_unmasked`), and what an assembled payload and the body of a close
frame say is `OcppKit.Ws.finish_eq` and `OcppKit.Ws.closeFrame_eq`.
-/

namespace OcppKit.Ws

/-! ### The layout of a frame -/

/-- The number that bytes spell, the highest first. -/
def spelled (bytes : List UInt8) : ℕ := Nat.ofDigits 256 (bytes.reverse.map UInt8.toNat)

/-- The frame types by their numbers. -/
def opcodes : List (ℕ × OpCode) :=
  [(0, .continuation), (1, .text), (2, .binary), (8, .close), (9, .ping), (10, .pong)]

/-- How many bytes of its own a length has, by the seven bits of the second byte. -/
def lengthWidth (short : ℕ) : ℕ := if short = 126 then 2 else if short = 127 then 8 else 0

/-- The length, by these bits and the bytes that follow them. -/
def lengthOf (short : ℕ) (rest : List UInt8) : ℕ :=
  if lengthWidth short = 0 then short else spelled (rest.take (lengthWidth short))

/-- The least number that takes so many bytes. -/
def leastLength (width : ℕ) : ℕ := if width = 2 then 126 else if width = 8 then 2 ^ 16 else 0

/-- **The head of a frame at the front of a stream**, or the rule it breaks; nothing while it
is not all there. -/
def frameHead : List UInt8 → Option (Except ProtocolError Header)
  | first :: second :: rest =>
      match opcodes.lookup (first.toNat % 16) with
      | none => some (.error (.reservedOpcode (UInt8.ofNat (first.toNat % 16))))
      | some opcode =>
          let width := lengthWidth (second.toNat % 128)
          let length := lengthOf (second.toNat % 128) rest
          let masked := second.toNat.testBit 7
          let keyed := if masked then 4 else 0
          if rest.length < width then none
          else if 2 ^ 63 ≤ length then some (.error (.frameTooBig (2 ^ 64 - 1)))
          else if length < leastLength width then some (.error .nonMinimalLength)
          else if rest.length < width + keyed then none
          else some (.ok {
            fin := first.toNat.testBit 7
            rsv1 := first.toNat.testBit 6
            rsv2 := first.toNat.testBit 5
            rsv3 := first.toNat.testBit 4
            opcode, length
            mask := if masked then some ⟨rest.getD width 0, rest.getD (width + 1) 0,
              rest.getD (width + 2) 0, rest.getD (width + 3) 0⟩ else none
            prefixLength := 2 + width + keyed })
  | _ => none

/-- **The payload under the mask**: each byte is masked by one of the four of the key. -/
def unmasked (header : Header) (stream : List UInt8) : List UInt8 :=
  ((stream.drop header.prefixLength).take header.length).mapIdx fun i b =>
    match header.mask with
    | none => b
    | some key => b ^^^ [key.a, key.b, key.c, key.d].getD (i % 4) 0

/-! ### What a frame says -/

/-- **What the payload of a data message says**: a text is UTF-8. -/
def dataMessage (opcode : OpCode) (payload : List UInt8) : Except ProtocolError Message :=
  if opcode = .text then
    ((Utf8.decode payload).map Message.text).elim (.error .invalidUtf8) .ok
  else .ok (.binary payload)

/-- The codes a peer may send, from and to. -/
def sendableCodes : List (ℕ × ℕ) := [(1000, 1003), (1007, 1011), (3000, 4999)]

/-- **What the body of a close frame says**: nothing, or a code of two bytes that may be sent
and a reason, which is UTF-8. -/
def closeMessage (body : List UInt8) : Except ProtocolError Message :=
  let code := spelled (body.take 2)
  if body.length = 0 then .ok (.close none)
  else if body.length = 1 then .error .invalidCloseFrame
  else if sendableCodes.any fun codes => codes.1 ≤ code && code ≤ codes.2 then
    (Utf8.decode (body.drop 2)).elim (.error .invalidCloseReason) fun reason =>
      .ok (.close (some ⟨⟨UInt16.ofNat code⟩, reason⟩))
  else .error .invalidCloseFrame

/-! ### A header is read by the layout -/

/-- The number of some bytes, digit by digit. -/
theorem fromBeBytes_eq_spelled (bytes : List UInt8) : fromBeBytes bytes = spelled bytes := by
  induction bytes using List.reverseRecOn with
  | nil => rfl
  | append_singleton bytes b ih =>
      rw [fromBeBytes, List.foldl_append, ← fromBeBytes, ih]
      change spelled bytes * 256 + b.toNat = spelled (bytes ++ [b])
      have hreverse : (bytes ++ [b]).reverse.map UInt8.toNat =
          b.toNat :: bytes.reverse.map UInt8.toNat := by simp
      rw [spelled, spelled, hreverse, Nat.ofDigits_cons, Nat.mul_comm, Nat.add_comm]

/-- A number of so many bytes is below the first that has more. -/
theorem spelled_lt (bytes : List UInt8) : spelled bytes < 256 ^ bytes.length := by
  have h := Nat.ofDigits_lt_base_pow_length (b := 256) (l := bytes.reverse.map UInt8.toNat)
    (by decide) (fun n hn => by
      obtain ⟨b, -, rfl⟩ := List.mem_map.mp hn
      exact b.toNat_lt)
  rwa [List.length_map, List.length_reverse] at h

/-- The bits of the first byte, by their places. -/
theorem first_bits (b : UInt8) :
    OpCode.fromBits (b &&& 0x0F) = opcodes.lookup (b.toNat % 16) ∧
      b &&& 0x0F = UInt8.ofNat (b.toNat % 16) ∧
      (b &&& 0x80 != 0) = b.toNat.testBit 7 ∧ (b &&& 0x40 != 0) = b.toNat.testBit 6 ∧
      (b &&& 0x20 != 0) = b.toNat.testBit 5 ∧ (b &&& 0x10 != 0) = b.toNat.testBit 4 ∧
      (b &&& 0x7F).toNat = b.toNat % 128 := by
  -- there are 256 bytes
  obtain ⟨n, hn, rfl⟩ : ∃ n < 256, UInt8.ofNat n = b := ⟨b.toNat, b.toNat_lt, UInt8.ofNat_toNat⟩
  revert n
  decide +kernel

/-- A length is read as it is laid out. -/
theorem readLength_eq (first second : UInt8) (rest : List UInt8) {short : UInt8}
    (hshort : short.toNat < 128) :
    readLength (first :: second :: rest) short =
      if rest.length < lengthWidth short.toNat then .ok none
      else if 2 ^ 63 ≤ lengthOf short.toNat rest then .error .lengthTooLarge
      else if lengthOf short.toNat rest < leastLength (lengthWidth short.toNat) then
        .error .nonMinimalLength
      else .ok (some (lengthOf short.toNat rest, 2 + lengthWidth short.toNat)) := by
  have hlength : ∀ n, (first :: second :: rest).length < n + 2 ↔ rest.length < n := fun n => by
    rw [List.length_cons, List.length_cons]
    omega
  rcases em (short = 126) with rfl | h126
  · -- two bytes are no more than 2 ^ 16 - 1
    have hlt : lengthOf 126 rest < 2 ^ 63 := by
      have h := spelled_lt (rest.take 2)
      have hpow : 256 ^ (rest.take 2).length ≤ 256 ^ 2 :=
        Nat.pow_le_pow_right (by decide) (List.length_take_le 2 rest)
      change spelled (rest.take 2) < 2 ^ 63
      omega
    rw [readLength, if_pos rfl, fromBeBytes_eq_spelled]
    simp only [show (126 : UInt8).toNat = 126 from rfl, if_neg (not_le.mpr hlt)]
    exact if_congr (hlength 2) rfl rfl
  rcases em (short = 127) with rfl | h127
  · rw [readLength, if_neg h126, if_pos rfl, fromBeBytes_eq_spelled]
    exact if_congr (hlength 8) rfl rfl
  · have hwidth : lengthWidth short.toNat = 0 := by
      have h126' : short.toNat ≠ 126 := fun h => h126 (UInt8.toNat_inj.mp h)
      have h127' : short.toNat ≠ 127 := fun h => h127 (UInt8.toNat_inj.mp h)
      rw [lengthWidth, if_neg h126', if_neg h127']
    have hshort' : lengthOf short.toNat rest = short.toNat := if_pos hwidth
    rw [readLength, if_neg h126, if_neg h127, hwidth, hshort', if_neg (Nat.not_lt_zero _),
      if_neg (by omega), show leastLength 0 = 0 from rfl, if_neg (Nat.not_lt_zero _)]

/-- What was read of a header, as the rules have it. -/
def asFrameHead : Except HeaderError (Option Header) → Option (Except ProtocolError Header)
  | .ok none => none
  | .ok (some header) => some (.ok header)
  | .error e => some (.error e.rule)

/-- A key is the next four bytes. -/
theorem ofBytes_take_drop (first second : UInt8) (rest : List UInt8) (width : ℕ) :
    MaskKey.ofBytes (((first :: second :: rest).drop (2 + width)).take 4) =
      ⟨rest.getD width 0, rest.getD (width + 1) 0, rest.getD (width + 2) 0,
        rest.getD (width + 3) 0⟩ := by
  rw [Nat.add_comm 2 width, List.drop_succ_cons, List.drop_succ_cons]
  simp [MaskKey.ofBytes, List.getD_eq_getElem?_getD, List.getElem?_drop]

/-- **A header is read as the layout has it.** -/
theorem frameHead_eq (stream : List UInt8) : frameHead stream = asFrameHead (readHeader stream) := by
  rcases stream with _ | ⟨first, _ | ⟨second, rest⟩⟩
  · rfl
  · rfl
  obtain ⟨hopcode, hbits, hfin, hrsv1, hrsv2, hrsv3, -⟩ := first_bits first
  obtain ⟨-, -, hmasked, -, -, -, hshort⟩ := first_bits second
  rw [readHeader, frameHead, hopcode, hbits, hfin, hrsv1, hrsv2, hrsv3, hmasked,
    readLength_eq first second rest (by rw [hshort]; omega), hshort]
  rcases opcodes.lookup (first.toNat % 16) with _ | opcode
  · rfl
  dsimp only
  generalize lengthWidth (second.toNat % 128) = width
  generalize lengthOf (second.toNat % 128) rest = length
  -- a length is judged as soon as it is there, before the key is
  by_cases hpart : rest.length < width
  · rw [if_pos hpart, if_pos hpart]
    rfl
  by_cases hlarge : 2 ^ 63 ≤ length
  · rw [if_neg hpart, if_neg hpart, if_pos hlarge, if_pos hlarge]
    rfl
  by_cases hleast : length < leastLength width
  · rw [if_neg hpart, if_neg hpart, if_neg hlarge, if_neg hlarge, if_pos hleast, if_pos hleast]
    rfl
  rw [if_neg hpart, if_neg hpart, if_neg hlarge, if_neg hlarge, if_neg hleast, if_neg hleast]
  dsimp only
  cases second.toNat.testBit 7 with
  | false =>
      simp only [Bool.false_eq_true, if_false, Nat.add_zero, if_neg hpart]
      rfl
  | true =>
      rw [readMask, if_pos rfl, if_pos rfl]
      have hlength : (first :: second :: rest).length < 2 + width + 4 ↔
          rest.length < width + 4 := by
        rw [List.length_cons, List.length_cons]
        omega
      by_cases hkey : rest.length < width + 4
      · rw [if_pos hkey, if_pos (hlength.mpr hkey)]
        rfl
      · rw [if_neg hkey, if_neg (mt hlength.mp hkey), ofBytes_take_drop]
        rfl

/-- **The head of a frame is there**, and is not nothing. -/
theorem prefixLength_of_frameHead {stream : List UInt8} {header : Header}
    (h : frameHead stream = some (.ok header)) :
    2 ≤ header.prefixLength ∧ header.prefixLength ≤ stream.length := by
  rw [frameHead_eq] at h
  rcases hread : readHeader stream with e | _ | header'
  · exact absurd h (by simp [hread, asFrameHead])
  · exact absurd h (by simp [hread, asFrameHead])
  · rw [hread, asFrameHead] at h
    obtain rfl := Except.ok.inj (Option.some.inj h)
    exact prefixLength_of_readHeader hread

/-! ### A frame says what the rules say -/

/-- **The payload is what lies under the mask.** -/
theorem payload_eq_unmasked (header : Header) (stream : List UInt8) :
    header.payload stream = unmasked header stream := by
  rw [Header.payload, unmasked]
  rcases header.mask with _ | key
  · exact (List.ext_getElem (by simp) (by simp)).symm
  · exact applyMask_eq_mapIdx key _

/-- **An assembled payload says what the rules say.** -/
theorem finish_eq (opcode : OpCode) (payload : List UInt8) :
    finish opcode false payload = dataMessage opcode payload := by
  cases opcode with
  | text =>
      rw [finish, dataMessage, if_neg Bool.false_ne_true, if_pos rfl]
      rcases Utf8.decode payload with _ | text <;> rfl
  | _ => rfl

/-- The codes that may be sent, by their numbers. -/
theorem isSendable_eq (n : ℕ) (h : n < 2 ^ 16) : CloseCode.isSendable ⟨UInt16.ofNat n⟩ =
    sendableCodes.any fun codes => codes.1 ≤ n && n ≤ codes.2 := by
  have hn : (UInt16.ofNat n).toNat = n := UInt16.toNat_ofNat_of_lt' h
  simp [CloseCode.isSendable, sendableCodes, UInt16.le_iff_toNat_le, hn, Bool.or_assoc]

/-- **The body of a close frame says what the rules say.** -/
theorem closeFrame_eq (body : List UInt8) :
    (closeFrame body).map Message.close = closeMessage body := by
  rcases body with _ | ⟨a, _ | ⟨b, rest⟩⟩
  · rfl
  · rfl
  have hlt : spelled [a, b] < 2 ^ 16 := (spelled_lt [a, b]).trans_eq (by norm_num)
  have hempty : ¬(a :: b :: rest).length = 0 := by simp
  have hone : ¬(a :: b :: rest).length = 1 := by simp
  have htake : (a :: b :: rest).take 2 = [a, b] := rfl
  have hdrop : (a :: b :: rest).drop 2 = rest := rfl
  rw [closeFrame, closeMessage, fromBeBytes_eq_spelled, isSendable_eq _ hlt, if_neg hempty,
    if_neg hone, htake, hdrop]
  rcases sendableCodes.any fun codes => codes.1 ≤ spelled [a, b] && spelled [a, b] ≤ codes.2 with
    _ | _
  · rfl
  · rcases Utf8.decode rest with _ | reason <;> rfl

end OcppKit.Ws
