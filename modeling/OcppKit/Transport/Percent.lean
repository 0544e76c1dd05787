import OcppKit.Library.Utf8

/-!
# Percent-encoding

An identity is one segment of a path: every byte of it that is not unreserved is written as
`%XX` (`OcppKit.percentEncode`), and what reads a segment takes the escapes back
(`OcppKit.percentDecode`). The reader is lenient: what is no escape is left as it is, and
what is no text is replaced. That does not matter for what was encoded, which is read as it
was (`OcppKit.percentDecode_percentEncode`).
-/

namespace OcppKit

/-! ### Encoding -/

/-- The bytes that stand for themselves. -/
def isUnreserved (b : UInt8) : Bool :=
  (0x41 ≤ b && b ≤ 0x5A) || (0x61 ≤ b && b ≤ 0x7A) || (0x30 ≤ b && b ≤ 0x39) ||
    b = 0x2D || b = 0x2E || b = 0x5F || b = 0x7E

/-- An upper-case hexadecimal digit. -/
def upperHex (n : ℕ) : Char := Char.ofNat (if n < 10 then 0x30 + n else 0x37 + n)

/-- One byte as it stands in a path. -/
def percentByte (b : UInt8) : List Char :=
  if isUnreserved b then [Char.ofNat b.toNat]
  else ['%', upperHex (b.toNat / 16), upperHex (b.toNat % 16)]

/-- **Percent-encodes** everything that is not unreserved. -/
def percentEncode (text : String) : String :=
  String.ofList ((Utf8.encode text).flatMap percentByte)

/-! ### Decoding -/

/-- The value of a hexadecimal digit. -/
def radix16 (b : UInt8) : Option ℕ :=
  if 0x30 ≤ b && b ≤ 0x39 then some (b.toNat - 0x30)
  else if 0x61 ≤ b && b ≤ 0x66 then some (b.toNat - 0x57)
  else if 0x41 ≤ b && b ≤ 0x46 then some (b.toNat - 0x37)
  else none

/-- `u8::from_str_radix` on two bytes: two digits, or one after a plus sign. -/
def fromStrRadix16 (high low : UInt8) : Option UInt8 :=
  if high = 0x2B then (radix16 low).map UInt8.ofNat
  else (radix16 high).bind fun h => (radix16 low).map fun l => UInt8.ofNat (h * 16 + l)

/-- Takes the escapes back; what is none is left alone. -/
def percentDecodeBytes : List UInt8 → List UInt8
  | b :: high :: low :: rest =>
      if b = 0x25 then
        match fromStrRadix16 high low with
        | some byte => byte :: percentDecodeBytes rest
        | none => b :: percentDecodeBytes (high :: low :: rest)
      else b :: percentDecodeBytes (high :: low :: rest)
  -- too short for an escape
  | rest => rest

/-- **Percent-decodes** a text. -/
def percentDecode (text : String) : String :=
  Utf8.decodeLossy (percentDecodeBytes (Utf8.encode text))

/-! ### There and back -/

/-- What is not an escape is left alone. -/
theorem percentDecodeBytes_cons {b : UInt8} (h : b ≠ 0x25) (rest : List UInt8) :
    percentDecodeBytes (b :: rest) = b :: percentDecodeBytes rest := by
  rcases rest with _ | ⟨high, _ | ⟨low, rest⟩⟩
  · rfl
  · rfl
  · rw [percentDecodeBytes, if_neg h]

/-- A character a segment is written with: one that is seen, and ends none. -/
def IsSegmentChar (c : Char) : Prop :=
  (0x20 < c.toNat ∧ c.toNat < 0x7F) ∧ c ≠ '/' ∧ c ≠ '?' ∧ c ≠ '#'

instance (c : Char) : Decidable (IsSegmentChar c) :=
  inferInstanceAs (Decidable ((0x20 < c.toNat ∧ c.toNat < 0x7F) ∧ c ≠ '/' ∧ c ≠ '?' ∧ c ≠ '#'))

theorem isUnreserved_spec : ∀ n < 256, isUnreserved (UInt8.ofNat n) = true →
    n ≠ 0x25 ∧ (Char.ofNat n).toNat = n ∧ IsSegmentChar (Char.ofNat n) := by
  decide +kernel

theorem upperHex_spec : ∀ n < 16, IsSegmentChar (upperHex n) := by decide

theorem fromStrRadix16_upperHex : ∀ n < 256,
    fromStrRadix16 (UInt8.ofNat (upperHex (n / 16)).toNat)
      (UInt8.ofNat (upperHex (n % 16)).toNat) = some (UInt8.ofNat n) := by
  decide +kernel

/-- The characters a byte is written with are those of a segment. -/
theorem isSegmentChar_of_mem {b : UInt8} {c : Char} (h : c ∈ percentByte b) :
    IsSegmentChar c := by
  have hb := b.toNat_lt
  rw [percentByte] at h
  split at h
  next hunreserved =>
    obtain rfl := List.mem_singleton.mp h
    exact (isUnreserved_spec b.toNat hb (by rwa [UInt8.ofNat_toNat])).2.2
  next hreserved =>
    simp only [List.mem_cons, List.not_mem_nil, or_false] at h
    rcases h with rfl | rfl | rfl
    · decide
    · exact upperHex_spec _ (by omega)
    · exact upperHex_spec _ (by omega)

/-- **One byte is read as it was**, whatever follows it. -/
theorem percentDecodeBytes_percentByte (b : UInt8) (rest : List UInt8) :
    percentDecodeBytes ((percentByte b).map (fun c => UInt8.ofNat c.toNat) ++ rest) =
      b :: percentDecodeBytes rest := by
  have hb := b.toNat_lt
  have hself : UInt8.ofNat b.toNat = b := UInt8.ofNat_toNat
  rw [percentByte]
  split
  next hunreserved =>
    obtain ⟨hne, hchar, -⟩ := isUnreserved_spec b.toNat hb (by rwa [hself])
    rw [List.map_singleton, hchar, hself, List.singleton_append, percentDecodeBytes_cons]
    rintro rfl
    exact hne rfl
  next hreserved =>
    have hradix := fromStrRadix16_upperHex b.toNat hb
    simp only [List.map_cons, List.map_nil, List.cons_append, List.nil_append, percentDecodeBytes,
      hradix, hself]
    rfl

theorem percentDecodeBytes_flatMap (bytes : List UInt8) :
    percentDecodeBytes ((bytes.flatMap percentByte).map fun c => UInt8.ofNat c.toNat) = bytes := by
  induction bytes with
  | nil => rfl
  | cons b bytes ih =>
      rw [List.flatMap_cons, List.map_append, percentDecodeBytes_percentByte, ih]

/-- What was encoded is a segment. -/
theorem percentEncode_chars {text : String} {c : Char} (h : c ∈ (percentEncode text).toList) :
    IsSegmentChar c := by
  rw [percentEncode, String.toList_ofList, List.mem_flatMap] at h
  obtain ⟨b, -, hb⟩ := h
  exact isSegmentChar_of_mem hb

/-- **What was encoded is decoded**, every text. -/
@[simp] theorem percentDecode_percentEncode (text : String) :
    percentDecode (percentEncode text) = text := by
  have hascii : ∀ c ∈ (Utf8.encode text).flatMap percentByte, c.toNat < 128 := by
    intro c hc
    have hchar := (percentEncode_chars (c := c) (by rwa [percentEncode, String.toList_ofList])).1
    omega
  rw [percentDecode, percentEncode, Utf8.encode_ofList_ascii hascii, percentDecodeBytes_flatMap,
    Utf8.decodeLossy_encode]

/-- Different texts are encoded differently. -/
theorem percentEncode_injective : Function.Injective percentEncode := by
  intro text text' h
  have hdecode := congrArg percentDecode h
  rwa [percentDecode_percentEncode, percentDecode_percentEncode] at hdecode

end OcppKit
