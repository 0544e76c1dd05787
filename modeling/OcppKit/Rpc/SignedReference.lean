import OcppKit.Rpc.Signed
import OcppKit.Reference

/-!
# A reference for signed messages

One value of the parameter `OcppKit.SignedExternals`, for closed statements to be evaluated
with: base64url as its RFC has it, without padding and with no bits left over, and the JSON of
the structures as `serde_json` reads and writes it. An array in the place of a JWS is not read.
-/

namespace OcppKit.Reference

/-! ### base64url -/

/-- The alphabet. -/
def alphabet : List Char :=
  "ABCDEFGHIJKLMNOPQRSTUVWXYZabcdefghijklmnopqrstuvwxyz0123456789-_".toList

/-- The six bits a character stands for. -/
def sextet (c : Char) : Option ℕ := if c ∈ alphabet then some (alphabet.idxOf c) else none

/-- The character that stands for six bits. -/
def letter (n : ℕ) : Char := alphabet.getD n 'A'

/-- Three bytes for four characters; what is left over must be zero. -/
def fromSextets : List ℕ → Option (List UInt8)
  | [] => some []
  | [_] => none
  | [a, b] => if b % 16 = 0 then some [.ofNat (a * 4 + b / 16)] else none
  | [a, b, c] =>
      if c % 4 = 0 then some [.ofNat (a * 4 + b / 16), .ofNat (b % 16 * 16 + c / 4)] else none
  | a :: b :: c :: d :: rest =>
      (fromSextets rest).map fun bytes =>
        .ofNat (a * 4 + b / 16) :: .ofNat (b % 16 * 16 + c / 4) :: .ofNat (c % 4 * 64 + d) :: bytes

/-- Four characters for three bytes. -/
def toSextets : List UInt8 → List ℕ
  | [] => []
  | [x] => [x.toNat / 4, x.toNat % 4 * 16]
  | [x, y] => [x.toNat / 4, x.toNat % 4 * 16 + y.toNat / 16, y.toNat % 16 * 4]
  | x :: y :: z :: rest =>
      x.toNat / 4 :: (x.toNat % 4 * 16 + y.toNat / 16) :: (y.toNat % 16 * 4 + z.toNat / 64) ::
        z.toNat % 64 :: toSextets rest

/-- Decodes a text. -/
def fromBase64 (text : String) : Option ByteArray :=
  ((text.toList.mapM sextet).bind fromSextets).map fun bytes => ⟨bytes.toArray⟩

/-- Encodes bytes. -/
def toBase64 (bytes : ByteArray) : String :=
  String.ofList ((toSextets bytes.data.toList).map letter)

/-! ### Texts and objects -/

/-- The text without the white space around it. -/
def trim (cs : List Char) : List Char :=
  ((cs.dropWhile Json.isSpace).reverse.dropWhile Json.isSpace).reverse

/-- A text is itself trimmed, and white space. -/
theorem exists_eq_trim (cs : List Char) : ∃ before after : List Char,
    (∀ c ∈ before, Json.isSpace c = true) ∧ (∀ c ∈ after, Json.isSpace c = true) ∧
      cs = before ++ trim cs ++ after := by
  let rest := cs.dropWhile Json.isSpace
  refine ⟨cs.takeWhile Json.isSpace, (rest.reverse.takeWhile Json.isSpace).reverse, ?_, ?_, ?_⟩
  · exact fun c hc => List.mem_takeWhile_imp hc
  · exact fun c hc => List.mem_takeWhile_imp (List.mem_reverse.mp hc)
  · have htrim : trim cs ++ (rest.reverse.takeWhile Json.isSpace).reverse = rest := by
      rw [trim, ← List.reverse_append, List.takeWhile_append_dropWhile, List.reverse_reverse]
    rw [List.append_assoc, htrim, List.takeWhile_append_dropWhile]

/-- A text as a string. -/
def string (cs : List Char) : Option String := (Json.unquote cs).map String.ofList

/-- The members of an object by name, the last of a name first. -/
def members (cs : List Char) : Option (List (String × RawValue)) := do
  let ms ← Json.objectMembers cs
  let named ← ms.mapM fun m => do
    let name ← string m.1
    let value ← rawOf m.2
    return (name, value)
  return named.reverse

/-- `from_str::<Jws>`. -/
def jwsOf (r : RawValue) : Option Jws := do
  let protected_ ← (membersNamed "protected" r).bind (required string)
  let payload ← (membersNamed "payload" r).bind (required string)
  let signature ← (membersNamed "signature" r).bind (required string)
  let header ← (membersNamed "header" r).bind (optional members)
  return ⟨protected_, payload, signature, header⟩

/-- The names of the members of a header that have a field. -/
def headerNames : List String := ["alg", "OCPPAction", "OCPPMessageTypedId", "x5t#S256"]

/-- A byte. -/
def byte (cs : List Char) : Option (Fin 256) :=
  (Json.readNat cs).bind fun n => if h : n < 256 then some ⟨n, h⟩ else none

/-- `from_slice::<ProtectedHeader>`. -/
def headerOf (bytes : ByteArray) : Option ProtectedHeader := do
  let r ← (String.fromUTF8? bytes).bind fun text => rawOf (trim text.toList)
  let alg ← (membersNamed "alg" r).bind (required string)
  let ocppAction ← (membersNamed "OCPPAction" r).bind (required string)
  let ocppMessageTypedId ← (membersNamed "OCPPMessageTypedId" r).bind (required byte)
  let x5tS256 ← (membersNamed "x5t#S256" r).bind (optional string)
  let all ← members r.get.toList
  return ⟨alg, ocppAction, ocppMessageTypedId, x5tS256, all.filter (·.1 ∉ headerNames)⟩

/-- An object with these members. -/
def object (ms : List (String × List Char)) : List Char :=
  let parts := ms.map fun m => Json.quote m.1.toList ++ ':' :: m.2
  '\x7b' :: ((parts.intersperse [',']).flatten ++ ['\x7d'])

/-- The text of a header. -/
def headerText (header : ProtectedHeader) : List Char :=
  object ([("alg", Json.quote header.alg.toList),
      ("OCPPAction", Json.quote header.ocppAction.toList),
      ("OCPPMessageTypedId", Json.digits header.ocppMessageTypedId)] ++
    (header.x5tS256.map fun hash => ("x5t#S256", Json.quote hash.toList)).toList ++
    header.extra.map fun m => (m.1, m.2.get.toList))

/-- The text of a JWS. -/
def jwsText (jws : Jws) : List Char :=
  object ([("protected", Json.quote jws.protected_.toList),
      ("payload", Json.quote jws.payload.toList),
      ("signature", Json.quote jws.signature.toList)] ++
    (jws.header.map fun ms => ("header", object (ms.map fun m => (m.1, m.2.get.toList)))).toList)

/-- **The reference.** -/
scoped instance instSignedExternals : SignedExternals where
  encode := toBase64
  decode := fromBase64
  writeHeader header := some (String.ofList (headerText header)).toUTF8
  readHeader := headerOf
  writeJws jws := rawOf (jwsText jws)
  readJws := jwsOf
  rawFromString text := rawOf (trim text.toList)
  asArray v := (Json.arrayElements v.get.toList).bind fun vs => vs.mapM rawOf
  asStr v := string v.get.toList
  valueText v := v.get

scoped instance instLawfulRawFromString : LawfulRawFromString where
  rawFromString_eq text value h := by
    obtain ⟨before, after, hbefore, hafter, heq⟩ := exists_eq_trim text.toList
    refine ⟨String.ofList before, String.ofList after, ?_, ?_, ?_⟩
    · rw [IsWhitespace, String.toList_ofList]
      exact hbefore
    · rw [IsWhitespace, String.toList_ofList]
      exact hafter
    · have hget : value.get = String.ofList (trim text.toList) := by
        change rawOf (trim text.toList) = some value at h
        rw [rawOf] at h
        split at h
        · rw [← Option.some.inj h]
        · exact absurd h (by simp)
      rw [hget, ← String.ofList_append, ← String.ofList_append, ← heq, String.ofList_toList]

/-! ### A heartbeat -/

/-- The header of a signed heartbeat: `ES256`, `Heartbeat`, 2. -/
def heartbeatHeader : String :=
  "eyJhbGciOiJFUzI1NiIsIk9DUFBBY3Rpb24iOiJIZWFydGJlYXQiLCJPQ1BQTWVzc2FnZVR5cGVkSWQiOjJ9"

/-- A JWS for the empty object. -/
def signedHeartbeat : RawValue :=
  raw (String.ofList (jwsText ⟨heartbeatHeader, "e30", "", none⟩))

/-- A JWS for the empty object after a space. -/
def spacedHeartbeat : RawValue :=
  raw (String.ofList (jwsText ⟨heartbeatHeader, "IHt9", "", none⟩))

/-- What either is verified to be. -/
def plainHeartbeat : Frame := .call ⟨"1"⟩ "Heartbeat" .emptyObject

theorem eq_ok_of_toOption {x : Except SignatureError Frame} {frame : Frame}
    (h : x.toOption = some frame) : x = .ok frame := by
  rcases x with error | frame'
  · exact absurd h (by simp [Except.toOption])
  · exact congrArg Except.ok (Option.some.inj h)

theorem verifyFrame_required_heartbeat : ∃ jws value,
    SignedExternals.readJws signedHeartbeat = some jws ∧ plainHeartbeat.payload = some value ∧
      Vouches jws "Heartbeat" .call acceptAnySignature value := by
  have hverified : verifyFrame (.call ⟨"1"⟩ "Heartbeat-Signed" signedHeartbeat)
      acceptAnySignature none .required = .ok plainHeartbeat :=
    eq_ok_of_toOption (by decide +kernel)
  obtain ⟨carried, jws, action, value, hcarried, hjws, hvalue, haction, hvouches, -, -⟩ :=
    verifyFrame_required hverified (Or.inl rfl)
  obtain rfl := Option.some.inj hcarried
  obtain rfl := Option.some.inj haction
  exact ⟨jws, value, hjws, hvalue, hvouches⟩

/-- **The payload is not handed on byte for byte**: the space before it is left out. -/
theorem not_byteForByte : ¬∀ (frame verified : Frame) (verifier : Verifier)
    (requestAction : Option String),
    verifyFrame frame verifier requestAction .required = .ok verified →
    (frame.messageType = .call ∨ frame.messageType = .send ∨
      frame.messageType = .callResult) →
    ∃ carried jws value, frame.payload = some carried ∧
      SignedExternals.readJws carried = some jws ∧ verified.payload = some value ∧
      SignedExternals.decode jws.payload = some value.get.toUTF8 := by
  intro h
  have hverified : verifyFrame (.call ⟨"1"⟩ "Heartbeat-Signed" spacedHeartbeat)
      acceptAnySignature none .required = .ok plainHeartbeat :=
    eq_ok_of_toOption (by decide +kernel)
  obtain ⟨carried, jws, value, hcarried, hjws, hvalue, hdecode⟩ :=
    h _ _ _ _ hverified (Or.inl rfl)
  obtain rfl := Option.some.inj hcarried
  obtain rfl := Option.some.inj hvalue
  have hspaced : (SignedExternals.readJws spacedHeartbeat).bind
      (fun jws => SignedExternals.decode jws.payload) = some " {}".toUTF8 := by
    decide +kernel
  rw [hjws, Option.bind_some, hdecode] at hspaced
  exact absurd (Option.some.inj hspaced) (by decide +kernel)

end OcppKit.Reference
