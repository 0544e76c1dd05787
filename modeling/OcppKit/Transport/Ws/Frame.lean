import Mathlib

/-!
# WebSocket frame headers

What a frame begins with: two bytes of flags, and a length and a masking key that take as
many more as they need. `OcppKit.Ws.readHeader` reads a header off the front of what has
arrived, or waits for the rest of it; `OcppKit.Ws.writeHeader` writes one, with the least
length that does.

What is written is read (`OcppKit.Ws.readHeader_writeHeader`), what was read or refused
stays so when more arrives (`OcppKit.Ws.readHeader_append`), and nothing else is read: a header
has one form on the wire (`OcppKit.Ws.header_canonical`). A word is masked as its bytes are
(`OcppKit.Ws.applyMask_bytewise`), and masking twice is not masking at all.
-/

namespace OcppKit.Ws

/-! ### Opcodes -/

/-- The frame types. -/
inductive OpCode where
  /-- A continuation of the previous data frame. -/
  | continuation
  /-- A UTF-8 text payload. -/
  | text
  /-- A binary payload. -/
  | binary
  /-- The close handshake. -/
  | close
  /-- A ping. -/
  | ping
  /-- A pong. -/
  | pong
deriving DecidableEq, Repr

/-- Maps a 4-bit opcode. Reserved values are not ignored. -/
def OpCode.fromBits (bits : UInt8) : Option OpCode :=
  if bits = 0x0 then some .continuation
  else if bits = 0x1 then some .text
  else if bits = 0x2 then some .binary
  else if bits = 0x8 then some .close
  else if bits = 0x9 then some .ping
  else if bits = 0xA then some .pong
  else none

/-- The four bits. -/
def OpCode.bits : OpCode → UInt8
  | .continuation => 0x0
  | .text => 0x1
  | .binary => 0x2
  | .close => 0x8
  | .ping => 0x9
  | .pong => 0xA

/-- Control frames must be unfragmented and short. -/
def OpCode.isControl : OpCode → Bool
  | .close | .ping | .pong => true
  | _ => false

/-! ### Bytes of a number, and of a key -/

/-- A number, its highest byte first. -/
def toBeBytes : ℕ → ℕ → List UInt8
  | 0, _ => []
  | width + 1, n => toBeBytes width (n / 256) ++ [UInt8.ofNat (n % 256)]

/-- The number some bytes are, the highest first. -/
def fromBeBytes (bytes : List UInt8) : ℕ := bytes.foldl (fun n b => n * 256 + b.toNat) 0

@[simp] theorem length_toBeBytes (width n : ℕ) : (toBeBytes width n).length = width := by
  induction width generalizing n with
  | zero => rfl
  | succ width ih => rw [toBeBytes, List.length_append, ih, List.length_singleton]

theorem fromBeBytes_toBeBytes {width n : ℕ} (h : n < 256 ^ width) :
    fromBeBytes (toBeBytes width n) = n := by
  induction width generalizing n with
  | zero =>
      obtain rfl : n = 0 := by simpa using h
      rfl
  | succ width ih =>
      have hrest : fromBeBytes (toBeBytes width (n / 256)) = n / 256 :=
        ih (Nat.div_lt_of_lt_mul (by rwa [Nat.pow_succ, Nat.mul_comm] at h))
      rw [fromBeBytes] at hrest
      rw [toBeBytes, fromBeBytes, List.foldl_append, hrest, List.foldl_cons, List.foldl_nil,
        UInt8.toNat_ofNat', Nat.mod_mod]
      omega

/-- A masking key. -/
structure MaskKey where
  /-- Its first byte. -/
  a : UInt8
  /-- Its second byte. -/
  b : UInt8
  /-- Its third byte. -/
  c : UInt8
  /-- Its fourth byte. -/
  d : UInt8
deriving DecidableEq, Repr

/-- Its bytes. -/
def MaskKey.bytes (key : MaskKey) : List UInt8 := [key.a, key.b, key.c, key.d]

/-- The key that four bytes are. -/
def MaskKey.ofBytes (bytes : List UInt8) : MaskKey :=
  ⟨bytes.getD 0 0, bytes.getD 1 0, bytes.getD 2 0, bytes.getD 3 0⟩

/-! ### Headers -/

/-- A parsed frame header. -/
structure Header where
  /-- The last frame of a message. -/
  fin : Bool
  /-- Set on the first frame of a compressed message. -/
  rsv1 : Bool
  /-- Reserved. -/
  rsv2 : Bool
  /-- Reserved. -/
  rsv3 : Bool
  /-- What the frame is. -/
  opcode : OpCode
  /-- The masking key, if there is one. -/
  mask : Option MaskKey
  /-- The length of the payload. -/
  length : ℕ
  /-- How many bytes the header itself occupies. -/
  prefixLength : ℕ
deriving DecidableEq, Repr

/-- Why a frame header could not be read. -/
inductive HeaderError where
  /-- A reserved opcode. -/
  | reservedOpcode (bits : UInt8)
  /-- A length that would have fitted in fewer bytes. -/
  | nonMinimalLength
  /-- The 64-bit length has its top bit set. -/
  | lengthTooLarge
deriving DecidableEq, Repr

/-- Reads the length, of which the second byte gives seven bits, and where it ends. -/
def readLength (buffer : List UInt8) (short : UInt8) : Except HeaderError (Option (ℕ × ℕ)) :=
  if short = 126 then
    if buffer.length < 4 then .ok none
    else
      let length := fromBeBytes ((buffer.drop 2).take 2)
      if length < 126 then .error .nonMinimalLength else .ok (some (length, 4))
  else if short = 127 then
    if buffer.length < 10 then .ok none
    else
      let length := fromBeBytes ((buffer.drop 2).take 8)
      if 2 ^ 63 ≤ length then .error .lengthTooLarge
      else if length < 65536 then .error .nonMinimalLength
      else .ok (some (length, 10))
  else .ok (some (short.toNat, 2))

/-- Reads the masking key, if there is to be one, and where it ends. -/
def readMask (buffer : List UInt8) (masked : Bool) (offset : ℕ) : Option (Option MaskKey × ℕ) :=
  if masked then
    if buffer.length < offset + 4 then none
    else some (some (.ofBytes ((buffer.drop offset).take 4)), offset + 4)
  else some (none, offset)

/-- **Reads a header from the front of the buffer**, or nothing while it is not complete. -/
def readHeader (buffer : List UInt8) : Except HeaderError (Option Header) :=
  match buffer with
  | first :: second :: _ =>
      match OpCode.fromBits (first &&& 0x0F) with
      | none => .error (.reservedOpcode (first &&& 0x0F))
      | some opcode =>
          match readLength buffer (second &&& 0x7F) with
          | .error e => .error e
          | .ok none => .ok none
          | .ok (some (length, offset)) =>
              match readMask buffer (second &&& 0x80 != 0) offset with
              | none => .ok none
              | some (mask, prefixLength) =>
                  .ok (some {
                    fin := first &&& 0x80 != 0
                    rsv1 := first &&& 0x40 != 0
                    rsv2 := first &&& 0x20 != 0
                    rsv3 := first &&& 0x10 != 0
                    opcode, mask, length, prefixLength })
  | _ => .ok none

/-- The first byte of a header that is written. -/
def firstByte (fin rsv1 : Bool) (opcode : OpCode) : UInt8 :=
  let first := opcode.bits
  let first := if fin then first ||| 0x80 else first
  if rsv1 then first ||| 0x40 else first

/-- **Writes a header**, with the minimal length. -/
def writeHeader (fin rsv1 : Bool) (opcode : OpCode) (mask : Option MaskKey) (length : ℕ) :
    List UInt8 :=
  let maskBit : UInt8 := if mask.isSome then 0x80 else 0
  let lengthBytes :=
    if length < 126 then [maskBit ||| UInt8.ofNat length]
    else if length < 65536 then (maskBit ||| 0x7E) :: toBeBytes 2 length
    else (maskBit ||| 0x7F) :: toBeBytes 8 length
  firstByte fin rsv1 opcode :: (lengthBytes ++ (mask.map MaskKey.bytes).getD [])

/-! ### What is read stays read -/

theorem take_drop_append {buffer : List UInt8} {offset n : ℕ} (h : offset + n ≤ buffer.length)
    (more : List UInt8) :
    ((buffer ++ more).drop offset).take n = (buffer.drop offset).take n := by
  rw [List.drop_append_of_le_length (by omega), List.take_append_of_le_length]
  rw [List.length_drop]
  omega

/-- A length that was read, or refused. -/
theorem readLength_append {buffer : List UInt8} {short : UInt8}
    (h : readLength buffer short ≠ .ok none) (more : List UInt8) :
    readLength (buffer ++ more) short = readLength buffer short := by
  rcases em (short = 126) with rfl | h126
  · have hlen : ¬buffer.length < 4 := fun hlt =>
      h (by rw [readLength, if_pos rfl, if_pos hlt])
    rw [readLength, readLength, if_pos rfl, if_pos rfl, if_neg hlen, List.length_append,
      if_neg (by omega), take_drop_append (by omega)]
  rcases em (short = 127) with rfl | h127
  · have hlen : ¬buffer.length < 10 := fun hlt =>
      h (by rw [readLength, if_neg h126, if_pos rfl, if_pos hlt])
    rw [readLength, readLength, if_neg h126, if_neg h126, if_pos rfl, if_pos rfl, if_neg hlen,
      List.length_append, if_neg (by omega), take_drop_append (by omega)]
  · rw [readLength, readLength, if_neg h126, if_neg h126, if_neg h127, if_neg h127]

/-- A key that was read. -/
theorem readMask_append {buffer : List UInt8} {masked : Bool} {offset : ℕ}
    (h : readMask buffer masked offset ≠ none) (more : List UInt8) :
    readMask (buffer ++ more) masked offset = readMask buffer masked offset := by
  cases masked with
  | false => rfl
  | true =>
      have hlen : ¬buffer.length < offset + 4 := fun hlt =>
        h (by rw [readMask, if_pos rfl, if_pos hlt])
      rw [readMask, readMask, if_pos rfl, if_pos rfl, if_neg hlen, List.length_append,
        if_neg (by omega), take_drop_append (by omega)]

/-- **A header that was read stays as it is** when more arrives, and so does one that was
refused. -/
theorem readHeader_append {buffer : List UInt8} (h : readHeader buffer ≠ .ok none)
    (more : List UInt8) : readHeader (buffer ++ more) = readHeader buffer := by
  rcases buffer with _ | ⟨first, _ | ⟨second, rest⟩⟩
  · exact absurd rfl h
  · exact absurd rfl h
  rw [readHeader] at h ⊢
  rw [List.cons_append, List.cons_append, readHeader, ← List.cons_append, ← List.cons_append]
  rcases hopcode : OpCode.fromBits (first &&& 0x0F) with _ | opcode
  · rfl
  simp only [hopcode] at h ⊢
  have hlength : readLength (first :: second :: rest) (second &&& 0x7F) ≠ .ok none :=
    fun hnone => h (by rw [hnone])
  rw [readLength_append hlength]
  rcases hread : readLength (first :: second :: rest) (second &&& 0x7F) with
    e | _ | ⟨length, offset⟩
  · rfl
  · rfl
  simp only [hread] at h ⊢
  rw [readMask_append fun hnone => h (by rw [hnone])]

theorem offset_of_readLength {buffer : List UInt8} {short : UInt8} {length offset : ℕ}
    (hbuffer : 2 ≤ buffer.length) (h : readLength buffer short = .ok (some (length, offset))) :
    2 ≤ offset ∧ offset ≤ buffer.length := by
  rw [readLength] at h
  dsimp only at h
  split_ifs at h <;> simp at h <;> omega

theorem offset_of_readMask {buffer : List UInt8} {masked : Bool} {mask : Option MaskKey}
    {offset prefixLength : ℕ} (hoffset : 2 ≤ offset ∧ offset ≤ buffer.length)
    (h : readMask buffer masked offset = some (mask, prefixLength)) :
    2 ≤ prefixLength ∧ prefixLength ≤ buffer.length := by
  rw [readMask] at h
  split_ifs at h <;> simp at h <;> omega

/-- **A header that was read is there**, and is not nothing. -/
theorem prefixLength_of_readHeader {buffer : List UInt8} {header : Header}
    (h : readHeader buffer = .ok (some header)) :
    2 ≤ header.prefixLength ∧ header.prefixLength ≤ buffer.length := by
  rcases buffer with _ | ⟨first, _ | ⟨second, rest⟩⟩
  · exact absurd h (by simp [readHeader])
  · exact absurd h (by simp [readHeader])
  rw [readHeader] at h
  split at h
  · exact absurd h (by simp)
  split at h
  · exact absurd h (by simp)
  · exact absurd h (by simp)
  next length offset hlength =>
  split at h
  · exact absurd h (by simp)
  next mask prefixLength hmask =>
  obtain rfl := Option.some.inj (Except.ok.inj h)
  exact offset_of_readMask (offset_of_readLength (by simp) hlength) hmask

/-! ### What is written is read -/

theorem firstByte_bits (fin rsv1 : Bool) (opcode : OpCode) :
    OpCode.fromBits (firstByte fin rsv1 opcode &&& 0x0F) = some opcode ∧
      (firstByte fin rsv1 opcode &&& 0x80 != 0) = fin ∧
      (firstByte fin rsv1 opcode &&& 0x40 != 0) = rsv1 ∧
      (firstByte fin rsv1 opcode &&& 0x20 != 0) = false ∧
      (firstByte fin rsv1 opcode &&& 0x10 != 0) = false := by
  cases fin <;> cases rsv1 <;> cases opcode <;> decide

/-- The seven bits of a length and the bit for the mask do not touch. -/
theorem secondByte_bits : ∀ masked : Bool, ∀ short < 128,
    ((if masked then 0x80 else 0) ||| UInt8.ofNat short) &&& 0x7F = UInt8.ofNat short ∧
      (((if masked then 0x80 else 0) ||| UInt8.ofNat short) &&& 0x80 != 0) = masked := by
  decide

/-- The second byte of a header, without the bit for the mask. -/
def shortLength (length : ℕ) : ℕ :=
  if length < 126 then length else if length < 65536 then 126 else 127

/-- The length where it does not fit into the second byte. -/
def longLength (length : ℕ) : List UInt8 :=
  if length < 126 then [] else if length < 65536 then toBeBytes 2 length else toBeBytes 8 length

theorem writeHeader_eq (fin rsv1 : Bool) (opcode : OpCode) (mask : Option MaskKey) (length : ℕ) :
    writeHeader fin rsv1 opcode mask length = firstByte fin rsv1 opcode ::
      ((if mask.isSome then 0x80 else 0) ||| UInt8.ofNat (shortLength length)) ::
        (longLength length ++ (mask.map MaskKey.bytes).getD []) := by
  rw [writeHeader, shortLength, longLength]
  split_ifs <;> rfl

theorem readLength_longLength {length : ℕ} (h : length < 2 ^ 63) (first second : UInt8)
    (rest : List UInt8) : readLength (first :: second :: (longLength length ++ rest))
      (UInt8.ofNat (shortLength length)) =
        .ok (some (length, 2 + (longLength length).length)) := by
  rcases lt_or_ge length 126 with hshort | hlong
  · rw [shortLength, longLength, if_pos hshort, if_pos hshort, readLength, if_neg, if_neg,
      UInt8.toNat_ofNat', Nat.mod_eq_of_lt (by omega)]
    · rfl
    all_goals
      intro heq
      have := congrArg UInt8.toNat heq
      rw [UInt8.toNat_ofNat', Nat.mod_eq_of_lt (by omega)] at this
      simp at this
      omega
  rcases lt_or_ge length 65536 with hmedium | hlarge
  · have hread : fromBeBytes (toBeBytes 2 length) = length := fromBeBytes_toBeBytes hmedium
    have htake : (toBeBytes 2 length ++ rest).take 2 = toBeBytes 2 length := by
      rw [List.take_append_of_le_length (by simp), List.take_of_length_le (by simp)]
    have hshort : shortLength length = 126 := by
      rw [shortLength, if_neg (by omega), if_pos hmedium]
    have hbytes : longLength length = toBeBytes 2 length := by
      rw [longLength, if_neg (by omega), if_pos hmedium]
    rw [hshort, hbytes, show UInt8.ofNat 126 = 126 from rfl, readLength, if_pos rfl,
      if_neg (by simp)]
    simp only [List.drop_succ_cons, List.drop_zero, htake, hread, length_toBeBytes]
    rw [if_neg (by omega)]
  · have hread : fromBeBytes (toBeBytes 8 length) = length :=
      fromBeBytes_toBeBytes (h.trans (by norm_num))
    have htake : (toBeBytes 8 length ++ rest).take 8 = toBeBytes 8 length := by
      rw [List.take_append_of_le_length (by simp), List.take_of_length_le (by simp)]
    have hshort : shortLength length = 127 := by
      rw [shortLength, if_neg (by omega), if_neg (by omega)]
    have hbytes : longLength length = toBeBytes 8 length := by
      rw [longLength, if_neg (by omega), if_neg (by omega)]
    rw [hshort, hbytes, show UInt8.ofNat 127 = 127 from rfl, readLength, if_neg (by decide),
      if_pos rfl, if_neg (by simp)]
    simp only [List.drop_succ_cons, List.drop_zero, htake, hread, length_toBeBytes]
    rw [if_neg (by omega), if_neg (by omega)]

/-- The key is read where it stands. -/
theorem readMask_bytes (front : List UInt8) (mask : Option MaskKey) (rest : List UInt8) :
    readMask (front ++ ((mask.map MaskKey.bytes).getD [] ++ rest)) mask.isSome front.length =
      some (mask, front.length + ((mask.map MaskKey.bytes).getD []).length) := by
  cases mask with
  | none => rfl
  | some key =>
      rw [Option.isSome_some, readMask, if_pos rfl, List.drop_left, if_neg]
      · rfl
      · simp [MaskKey.bytes]

/-- **A header that was written is read**, whatever follows it. -/
theorem readHeader_writeHeader (fin rsv1 : Bool) (opcode : OpCode) (mask : Option MaskKey)
    {length : ℕ} (h : length < 2 ^ 63) (rest : List UInt8) :
    readHeader (writeHeader fin rsv1 opcode mask length ++ rest) = .ok (some {
      fin, rsv1, opcode, mask, length
      rsv2 := false
      rsv3 := false
      prefixLength := (writeHeader fin rsv1 opcode mask length).length }) := by
  obtain ⟨hopcode, hfin, hrsv1, hrsv2, hrsv3⟩ := firstByte_bits fin rsv1 opcode
  have hshort : shortLength length < 128 := by
    rw [shortLength]
    split_ifs <;> omega
  obtain ⟨hseven, hmasked⟩ := secondByte_bits mask.isSome (shortLength length) hshort
  rw [writeHeader_eq, List.cons_append, List.cons_append, readHeader, hopcode]
  simp only [hseven, hmasked, hfin, hrsv1, hrsv2, hrsv3, List.append_assoc,
    readLength_longLength h]
  have hmask := readMask_bytes (firstByte fin rsv1 opcode ::
    ((if mask.isSome then 0x80 else 0) ||| UInt8.ofNat (shortLength length)) ::
      longLength length) mask rest
  rw [List.cons_append, List.cons_append, List.length_cons, List.length_cons,
    show (longLength length).length + 1 + 1 = 2 + (longLength length).length by omega] at hmask
  simp only [hmask, List.length_cons, List.length_append]
  rw [show 2 + (longLength length).length + ((mask.map MaskKey.bytes).getD []).length =
    (longLength length).length + ((mask.map MaskKey.bytes).getD []).length + 1 + 1 by omega]

/-! ### What is read is written -/

theorem fromBeBytes_concat (bytes : List UInt8) (b : UInt8) :
    fromBeBytes (bytes ++ [b]) = fromBeBytes bytes * 256 + b.toNat := by
  rw [fromBeBytes, List.foldl_append]
  rfl

theorem fromBeBytes_lt (bytes : List UInt8) : fromBeBytes bytes < 256 ^ bytes.length := by
  induction bytes using List.reverseRecOn with
  | nil => exact Nat.one_pos
  | append_singleton bytes b ih =>
      have hb := b.toNat_lt
      rw [fromBeBytes_concat, List.length_append, List.length_singleton, Nat.pow_succ]
      omega

/-- **Bytes are those of the number they are**, at their own width. -/
theorem toBeBytes_fromBeBytes (bytes : List UInt8) :
    toBeBytes bytes.length (fromBeBytes bytes) = bytes := by
  induction bytes using List.reverseRecOn with
  | nil => rfl
  | append_singleton bytes b ih =>
      have hb := b.toNat_lt
      have hdiv : (fromBeBytes bytes * 256 + b.toNat) / 256 = fromBeBytes bytes := by omega
      have hmod : (fromBeBytes bytes * 256 + b.toNat) % 256 = b.toNat := by omega
      rw [fromBeBytes_concat, List.length_append, List.length_singleton, toBeBytes, hdiv, hmod, ih,
        UInt8.ofNat_toNat]

/-- A byte is its two halves. -/
theorem ofNat_halves (b : UInt8) :
    b.toNat / 16 < 16 ∧ b.toNat % 16 < 16 ∧
      UInt8.ofNat (16 * (b.toNat / 16) + b.toNat % 16) = b := by
  have hb := b.toNat_lt
  refine ⟨by omega, by omega, ?_⟩
  rw [Nat.div_add_mod, UInt8.ofNat_toNat]

/-- The flags and the opcode are all there is to a first byte. -/
theorem firstByte_fromBits {first : UInt8} {opcode : OpCode}
    (hopcode : OpCode.fromBits (first &&& 0x0F) = some opcode)
    (hrsv2 : (first &&& 0x20 != 0) = false) (hrsv3 : (first &&& 0x10 != 0) = false) :
    firstByte (first &&& 0x80 != 0) (first &&& 0x40 != 0) opcode = first := by
  have hall : ∀ high < 16, ∀ low < 16,
      ((UInt8.ofNat (16 * high + low) &&& 0x20 != 0) = false) →
      ((UInt8.ofNat (16 * high + low) &&& 0x10 != 0) = false) →
      (OpCode.fromBits (UInt8.ofNat (16 * high + low) &&& 0x0F)).all (fun opcode =>
        firstByte (UInt8.ofNat (16 * high + low) &&& 0x80 != 0)
          (UInt8.ofNat (16 * high + low) &&& 0x40 != 0) opcode = UInt8.ofNat (16 * high + low)) =
        true := by
    decide
  obtain ⟨hhigh, hlow, hbyte⟩ := ofNat_halves first
  have := hall _ hhigh _ hlow
  rw [hbyte] at this
  simpa only [hopcode, Option.all_some, decide_eq_true_eq] using this hrsv2 hrsv3

/-- The bit for the mask and the seven of the length are all there is to a second one. -/
theorem secondByte_split (second : UInt8) : (second &&& 0x7F).toNat < 128 ∧
    ((if second &&& 0x80 != 0 then 0x80 else 0) ||| (second &&& 0x7F)) = second := by
  have hall : ∀ high < 16, ∀ low < 16, (UInt8.ofNat (16 * high + low) &&& 0x7F).toNat < 128 ∧
      ((if UInt8.ofNat (16 * high + low) &&& 0x80 != 0 then 0x80 else 0) |||
        (UInt8.ofNat (16 * high + low) &&& 0x7F)) = UInt8.ofNat (16 * high + low) := by
    decide
  obtain ⟨hhigh, hlow, hbyte⟩ := ofNat_halves second
  have := hall _ hhigh _ hlow
  rwa [hbyte] at this

/-- **A length that was read is the least way to write it.** -/
theorem longLength_of_readLength {first second short : UInt8} {rest : List UInt8}
    {length offset : ℕ} (hshort : short.toNat < 128)
    (h : readLength (first :: second :: rest) short = .ok (some (length, offset))) :
    length < 2 ^ 63 ∧ UInt8.ofNat (shortLength length) = short ∧
      offset = 2 + (longLength length).length ∧
      rest.take (longLength length).length = longLength length := by
  rcases em (short = 126) with rfl | h126
  · have hlen : ¬rest.length + 1 + 1 < 4 := fun hlt => by
      rw [readLength, if_pos rfl, List.length_cons, List.length_cons, if_pos hlt] at h
      exact absurd h (by simp)
    rw [readLength, if_pos rfl, List.length_cons, List.length_cons, if_neg hlen] at h
    simp only [List.drop_succ_cons, List.drop_zero] at h
    split_ifs at h with hmin
    have hbytes : (rest.take 2).length = 2 := by
      rw [List.length_take]
      omega
    have hlt := fromBeBytes_lt (rest.take 2)
    have hsame := toBeBytes_fromBeBytes (rest.take 2)
    obtain ⟨rfl, rfl⟩ := Prod.mk.inj (Option.some.inj (Except.ok.inj h))
    rw [hbytes] at hlt hsame
    generalize fromBeBytes (rest.take 2) = length at *
    have hlt' : length < 65536 := hlt
    rw [shortLength, longLength, if_neg hmin, if_neg hmin, if_pos hlt', if_pos hlt',
      length_toBeBytes]
    exact ⟨by omega, rfl, rfl, hsame.symm⟩
  rcases em (short = 127) with rfl | h127
  · have hlen : ¬rest.length + 1 + 1 < 10 := fun hlt => by
      rw [readLength, if_neg h126, if_pos rfl, List.length_cons, List.length_cons,
        if_pos hlt] at h
      exact absurd h (by simp)
    rw [readLength, if_neg h126, if_pos rfl, List.length_cons, List.length_cons,
      if_neg hlen] at h
    simp only [List.drop_succ_cons, List.drop_zero] at h
    split_ifs at h with hmax hmin
    have hbytes : (rest.take 8).length = 8 := by
      rw [List.length_take]
      omega
    have hsame := toBeBytes_fromBeBytes (rest.take 8)
    obtain ⟨rfl, rfl⟩ := Prod.mk.inj (Option.some.inj (Except.ok.inj h))
    rw [hbytes] at hsame
    generalize fromBeBytes (rest.take 8) = length at *
    have hlong : ¬length < 126 := by omega
    rw [shortLength, longLength, if_neg hlong, if_neg hlong, if_neg hmin, if_neg hmin,
      length_toBeBytes]
    exact ⟨by omega, rfl, rfl, hsame.symm⟩
  · rw [readLength, if_neg h126, if_neg h127] at h
    obtain ⟨rfl, rfl⟩ := Prod.mk.inj (Option.some.inj (Except.ok.inj h))
    have hne : short.toNat ≠ 126 := fun heq => h126 (UInt8.toNat_inj.mp heq)
    have hne' : short.toNat ≠ 127 := fun heq => h127 (UInt8.toNat_inj.mp heq)
    rw [shortLength, longLength, if_pos (by omega), if_pos (by omega), UInt8.ofNat_toNat]
    exact ⟨by omega, rfl, rfl, rfl⟩

theorem bytes_of_readMask {buffer : List UInt8} {masked : Bool} {mask : Option MaskKey}
    {offset prefixLength : ℕ} (h : readMask buffer masked offset = some (mask, prefixLength)) :
    mask.isSome = masked ∧ prefixLength = offset + ((mask.map MaskKey.bytes).getD []).length ∧
      (buffer.drop offset).take ((mask.map MaskKey.bytes).getD []).length =
        (mask.map MaskKey.bytes).getD [] := by
  rw [readMask] at h
  split_ifs at h with hmasked hlen
  · obtain ⟨rfl, rfl⟩ := Prod.mk.inj (Option.some.inj h)
    refine ⟨hmasked.symm, rfl, ?_⟩
    obtain ⟨a, b, c, d, rest, hdrop⟩ : ∃ a b c d rest,
        buffer.drop offset = a :: b :: c :: d :: rest := by
      have hlength : 4 ≤ (buffer.drop offset).length := by
        rw [List.length_drop]
        omega
      generalize buffer.drop offset = bytes at hlength
      match bytes, hlength with
      | a :: b :: c :: d :: rest, _ => exact ⟨a, b, c, d, rest, rfl⟩
    rw [hdrop]
    rfl
  · obtain ⟨rfl, rfl⟩ := Prod.mk.inj (Option.some.inj h)
    exact ⟨(Bool.not_eq_true _ ▸ hmasked).symm, rfl, rfl⟩

/-- A header as it is written. -/
def Header.write (header : Header) : List UInt8 :=
  writeHeader header.fin header.rsv1 header.opcode header.mask header.length

/-- **A header that was read is written as it was read**, reserved flags apart. -/
theorem write_of_readHeader {buffer : List UInt8} {header : Header} (hrsv2 : header.rsv2 = false)
    (hrsv3 : header.rsv3 = false) (h : readHeader buffer = .ok (some header)) :
    header.length < 2 ^ 63 ∧ header.write = buffer.take header.prefixLength := by
  rcases buffer with _ | ⟨first, _ | ⟨second, rest⟩⟩
  · exact absurd h (by simp [readHeader])
  · exact absurd h (by simp [readHeader])
  rw [readHeader] at h
  split at h
  · exact absurd h (by simp)
  next opcode hopcode =>
  split at h
  · exact absurd h (by simp)
  · exact absurd h (by simp)
  next length offset hlength =>
  split at h
  · exact absurd h (by simp)
  next mask prefixLength hmask =>
  obtain rfl := Option.some.inj (Except.ok.inj h)
  have hsecond := secondByte_split second
  obtain ⟨hlt, hshort, hoffset, hlong⟩ := longLength_of_readLength hsecond.1 hlength
  obtain ⟨hisSome, hfirst, hkey⟩ := bytes_of_readMask hmask
  refine ⟨hlt, ?_⟩
  rw [Header.write, writeHeader_eq]
  dsimp only at hrsv2 hrsv3 ⊢
  rw [firstByte_fromBits hopcode hrsv2 hrsv3, hisSome, hshort, hsecond.2, hfirst, hoffset]
  rw [hoffset, show 2 + (longLength length).length = (longLength length).length + 1 + 1 by omega,
    List.drop_succ_cons, List.drop_succ_cons] at hkey
  rw [show 2 + (longLength length).length + ((mask.map MaskKey.bytes).getD []).length =
      (longLength length).length + ((mask.map MaskKey.bytes).getD []).length + 1 + 1 by omega,
    List.take_succ_cons, List.take_succ_cons, List.take_add, hlong, hkey]

/-- **A header has one form on the wire**: what it is written as, is read as it, whatever
follows; less than that is no header yet; and nothing else is read as it. -/
theorem header_canonical (header : Header) (hrsv2 : header.rsv2 = false)
    (hrsv3 : header.rsv3 = false) :
    (header.length < 2 ^ 63 → header.prefixLength = header.write.length →
      (∀ rest, readHeader (header.write ++ rest) = .ok (some header)) ∧
        ∀ front, front <+: header.write → front ≠ header.write →
          readHeader front = .ok none) ∧
      ∀ buffer, readHeader buffer = .ok (some header) →
        header.length < 2 ^ 63 ∧ header.write = buffer.take header.prefixLength := by
  refine ⟨fun hlength hfirst => ?_, fun buffer h => write_of_readHeader hrsv2 hrsv3 h⟩
  have hread : ∀ rest, readHeader (header.write ++ rest) = .ok (some header) := by
    intro rest
    cases header
    dsimp only [Header.write] at hrsv2 hrsv3 hlength hfirst ⊢
    subst hrsv2 hrsv3 hfirst
    exact readHeader_writeHeader _ _ _ _ hlength rest
  refine ⟨hread, fun front hfront hne => ?_⟩
  by_contra hsome
  obtain ⟨more, hmore⟩ := hfront
  -- what was read of the front would be read of the whole, and be longer than the front
  have hwhole := hread []
  rw [List.append_nil, ← hmore, readHeader_append hsome more] at hwhole
  obtain ⟨-, hle⟩ := prefixLength_of_readHeader hwhole
  have hmore' : more ≠ [] := by
    rintro rfl
    exact hne (by rwa [List.append_nil] at hmore)
  have := List.length_pos_iff.mpr hmore'
  rw [hfirst, ← hmore, List.length_append] at hle
  omega

/-! ### Masking -/

/-- Four bytes as a word, the first the lowest. -/
def wordOf (a b c d : UInt8) : BitVec 32 :=
  d.toBitVec ++ c.toBitVec ++ b.toBitVec ++ a.toBitVec

/-- The bytes of a word, the lowest first. -/
def bytesOf (w : BitVec 32) : List UInt8 :=
  [⟨w.extractLsb' 0 8⟩, ⟨w.extractLsb' 8 8⟩, ⟨w.extractLsb' 16 8⟩, ⟨w.extractLsb' 24 8⟩]

/-- **Applies the masking key**, a word at a time, and byte by byte to what is left. -/
def applyMask (key : MaskKey) : List UInt8 → List UInt8
  | a :: b :: c :: d :: rest =>
      bytesOf (wordOf a b c d ^^^ wordOf key.a key.b key.c key.d) ++ applyMask key rest
  | rest => List.zipWith (· ^^^ ·) rest key.bytes

/-- The bytes of a word are those it is made of. -/
theorem extract_wordOf (a b c d : UInt8) :
    (wordOf a b c d).extractLsb' 0 8 = a.toBitVec ∧
      (wordOf a b c d).extractLsb' 8 8 = b.toBitVec ∧
      (wordOf a b c d).extractLsb' 16 8 = c.toBitVec ∧
      (wordOf a b c d).extractLsb' 24 8 = d.toBitVec := by
  rw [wordOf]
  refine ⟨?_, ?_, ?_, ?_⟩ <;> ext i hi <;>
    simp only [BitVec.getElem_extractLsb', BitVec.getLsbD_append] <;> split_ifs <;>
    first
    | omega
    | (rw [← BitVec.getLsbD_eq_getElem]
       exact congrArg _ (by omega))

theorem bytesOf_xor (a b c d : UInt8) (key : MaskKey) :
    bytesOf (wordOf a b c d ^^^ wordOf key.a key.b key.c key.d) =
      [a ^^^ key.a, b ^^^ key.b, c ^^^ key.c, d ^^^ key.d] := by
  obtain ⟨ha, hb, hc, hd⟩ := extract_wordOf a b c d
  obtain ⟨hka, hkb, hkc, hkd⟩ := extract_wordOf key.a key.b key.c key.d
  simp only [bytesOf, BitVec.extractLsb'_xor, ha, hb, hc, hd, hka, hkb, hkc, hkd]
  rfl

@[simp] theorem length_applyMask (key : MaskKey) (payload : List UInt8) :
    (applyMask key payload).length = payload.length := by
  fun_induction applyMask key payload with
  | case1 a b c d rest ih =>
      rw [List.length_append, ih]
      simp [bytesOf]
      omega
  | case2 rest hshort =>
      rcases rest with _ | ⟨a, _ | ⟨b, _ | ⟨c, _ | ⟨d, rest⟩⟩⟩⟩
      · rfl
      · rfl
      · rfl
      · rfl
      · exact absurd rfl (hshort a b c d rest)

/-- **Masking is its own inverse.** -/
theorem applyMask_applyMask (key : MaskKey) (payload : List UInt8) :
    applyMask key (applyMask key payload) = payload := by
  have hxor : ∀ x y : UInt8, x ^^^ y ^^^ y = x := fun x y => by
    rw [UInt8.xor_assoc, UInt8.xor_self, UInt8.xor_zero]
  fun_induction applyMask key payload with
  | case1 a b c d rest ih =>
      rw [bytesOf_xor]
      simp only [List.cons_append, List.nil_append, applyMask, bytesOf_xor, ih, hxor]
  | case2 rest hshort =>
      rcases rest with _ | ⟨a, _ | ⟨b, _ | ⟨c, _ | ⟨d, rest⟩⟩⟩⟩
      · rfl
      · simp [applyMask, MaskKey.bytes, hxor]
      · simp [applyMask, MaskKey.bytes, hxor]
      · simp [applyMask, MaskKey.bytes, hxor]
      · exact absurd rfl (hshort a b c d rest)

/-- The order in which a machine stores the bytes of a word. -/
inductive ByteOrder where
  /-- The lowest first. -/
  | little
  /-- The highest first. -/
  | big
deriving DecidableEq, Repr

namespace ByteOrder

/-- `u32::from_ne_bytes`. -/
def fromNeBytes (order : ByteOrder) (a b c d : UInt8) : BitVec 32 :=
  match order with
  | little => wordOf a b c d
  | big => wordOf d c b a

/-- `u32::to_ne_bytes`. -/
def toNeBytes (order : ByteOrder) (w : BitVec 32) : List UInt8 :=
  match order with
  | little => bytesOf w
  | big => (bytesOf w).reverse

/-- What `OcppKit.Ws.applyMask` does on a machine of this order. -/
def applyMask (order : ByteOrder) (key : MaskKey) : List UInt8 → List UInt8
  | a :: b :: c :: d :: rest =>
      order.toNeBytes
          (order.fromNeBytes a b c d ^^^ order.fromNeBytes key.a key.b key.c key.d) ++
        order.applyMask key rest
  | rest => List.zipWith (· ^^^ ·) rest key.bytes

/-- A word is masked byte by byte, whatever the order. -/
theorem toNeBytes_xor (order : ByteOrder) (a b c d : UInt8) (key : MaskKey) :
    order.toNeBytes (order.fromNeBytes a b c d ^^^ order.fromNeBytes key.a key.b key.c key.d) =
      [a ^^^ key.a, b ^^^ key.b, c ^^^ key.c, d ^^^ key.d] := by
  cases order with
  | little => exact bytesOf_xor a b c d key
  | big =>
      have h := bytesOf_xor d c b a ⟨key.d, key.c, key.b, key.a⟩
      exact congrArg List.reverse h

/-- Both orders mask alike. -/
theorem applyMask_eq (order : ByteOrder) (key : MaskKey) (payload : List UInt8) :
    order.applyMask key payload = Ws.applyMask key payload := by
  fun_induction Ws.applyMask key payload with
  | case1 a b c d rest ih => rw [applyMask, ih, toNeBytes_xor, bytesOf_xor]
  | case2 rest hshort => exact applyMask.eq_2 order key rest hshort

end ByteOrder

/-- The byte of the key that masks a place. -/
def MaskKey.byteAt (key : MaskKey) (i : ℕ) : UInt8 := key.bytes.getD (i % 4) 0

/-- **The byte at a place is masked with the byte of the key there**: the rest starts on a
multiple of four, so the key starts anew with it. -/
theorem applyMask_eq_mapIdx (key : MaskKey) (payload : List UInt8) :
    applyMask key payload = payload.mapIdx fun i b => b ^^^ key.byteAt i := by
  fun_induction applyMask key payload with
  | case1 a b c d rest ih =>
      have hshift : ∀ i, key.byteAt (i + 1 + 1 + 1 + 1) = key.byteAt i := fun i =>
        congrArg (key.bytes.getD · 0) (Nat.add_mod_right i 4)
      rw [bytesOf_xor, ih]
      simp only [List.mapIdx_cons, hshift]
      rfl
  | case2 rest hshort =>
      rcases rest with _ | ⟨a, _ | ⟨b, _ | ⟨c, _ | ⟨d, rest⟩⟩⟩⟩
      · rfl
      · rfl
      · rfl
      · rfl
      · exact absurd rfl (hshort a b c d rest)

/-- **Masking a word at a time is masking byte by byte**, on a machine of either order, and is its
own inverse. -/
theorem applyMask_bytewise (order : ByteOrder) (key : MaskKey) (payload : List UInt8) :
    order.applyMask key payload = payload.mapIdx (fun i b => b ^^^ key.byteAt i) ∧
      order.applyMask key (order.applyMask key payload) = payload := by
  refine ⟨(order.applyMask_eq key payload).trans (applyMask_eq_mapIdx key payload), ?_⟩
  rw [order.applyMask_eq, order.applyMask_eq]
  exact applyMask_applyMask key payload

/-! ### Close frames -/

/-- A close code. -/
structure CloseCode where
  /-- The number. -/
  value : UInt16
deriving DecidableEq, Repr

/-- Whether a peer may send this code on the wire: one it can know. -/
def CloseCode.isSendable (code : CloseCode) : Bool :=
  (1000 ≤ code.value && code.value ≤ 1003) || (1007 ≤ code.value && code.value ≤ 1011) ||
    (3000 ≤ code.value && code.value ≤ 4999)

/-- The body of a close frame. -/
structure CloseFrame where
  /-- Why the connection is closing. -/
  code : CloseCode
  /-- A human-readable reason. -/
  reason : String
deriving DecidableEq, Repr

end OcppKit.Ws

namespace OcppKit.Reference

/-! ### A long frame -/

/-- A masked text frame of 70000 bytes. -/
def longFrame : Ws.Header := ⟨true, false, false, false, .text, some ⟨1, 2, 3, 4⟩, 70000, 14⟩

/-- Its header takes fourteen bytes, of which thirteen are not enough. -/
theorem header_canonical_long :
    Ws.readHeader [0x81, 0xFF, 0, 0, 0, 0, 0, 1, 0x11, 0x70, 1, 2, 3, 4, 9] =
        .ok (some longFrame) ∧
      Ws.readHeader [0x81, 0xFF, 0, 0, 0, 0, 0, 1, 0x11, 0x70, 1, 2, 3] = .ok none := by
  obtain ⟨hwritten, -⟩ := Ws.header_canonical longFrame rfl rfl
  obtain ⟨hread, hshort⟩ := hwritten (by decide) (by decide)
  exact ⟨hread [9], hshort _ ⟨[4], by decide⟩ (by decide)⟩

end OcppKit.Reference
