import OcppKit.Rpc.Frame
import OcppKit.Library.Json

/-!
# Signed messages

A signed frame carries, in the place of its payload, the payload and a signature over it: a
flattened JWS (`OcppKit.Jws`) whose protected header names the algorithm, the action and the
message type. `OcppKit.verifyFrame` takes it apart again, and what it accepts unsigned is a
matter of the policy.

`OcppKit.verifyFrame_required`: under the policy that requires signatures, a frame that is
accepted was signed – the verifier accepted a signature over the text that was transmitted, the
header is the frame's own, and the payload that is handed on is the one that was signed, less
the white space around it.

The keys are the application's (`OcppKit.Verifier`), and base64 and the JSON of the structures
are taken from outside (`OcppKit.SignedExternals`).
-/

namespace OcppKit

/-! ### Algorithms and headers -/

/-- The suffix a signed action's name carries. -/
def signedSuffix : String := "-Signed"

/-- The signature algorithms OCPP permits. -/
inductive Algorithm where
  /-- ECDSA using P-256 and SHA-256. -/
  | es256
  /-- RSASSA-PKCS1-v1_5 using SHA-256. -/
  | rs256
  /-- RSASSA-PKCS1-v1_5 using SHA-384. -/
  | rs384
deriving DecidableEq

/-- The `alg` value. -/
def Algorithm.asStr : Algorithm → String
  | .es256 => "ES256"
  | .rs256 => "RS256"
  | .rs384 => "RS384"

/-- Parses an `alg` value, rejecting anything OCPP does not allow. -/
def Algorithm.fromWire (value : String) : Option Algorithm :=
  if value = "ES256" then some .es256
  else if value = "RS256" then some .rs256
  else if value = "RS384" then some .rs384
  else none

/-- The JWS protected header, with OCPP's two extra fields. -/
structure ProtectedHeader [Externals] where
  /-- The signature algorithm. -/
  alg : String
  /-- The action the payload belongs to, without the suffix. -/
  ocppAction : String
  /-- The message type number. -/
  ocppMessageTypedId : Fin 256
  /-- The hash of the signing certificate. -/
  x5tS256 : Option String
  /-- Anything else the header carried, name by name. -/
  extra : List (String × Externals.Value)

/-- A signature in flattened JWS JSON serialization. Its members stay encoded. -/
structure Jws [Externals] where
  /-- base64url of the protected header's JSON. -/
  protected_ : String
  /-- base64url of the payload. -/
  payload : String
  /-- base64url of the signature. -/
  signature : String
  /-- The unprotected header. -/
  header : Option (List (String × Externals.Value))

/-- Why a signed message could not be produced or accepted. -/
inductive SignatureError where
  /-- The JWS, its base64url or its header is not well formed. -/
  | malformed
  /-- The algorithm is not one OCPP permits. -/
  | unsupportedAlgorithm (alg : String)
  /-- The signature did not verify. -/
  | invalid
  /-- The signing key is unavailable, or signing failed. -/
  | keyUnavailable (why : String)
  /-- The header disagrees with the frame that carried it. -/
  | headerMismatch (expected found : String)
  /-- This frame type cannot be signed. -/
  | notSignable (messageType : MessageTypeId)
  /-- The frame carried no signature, and one is required. -/
  | unsigned
  /-- The header marks something critical that is not understood. -/
  | unsupportedCriticalHeader (name : String)
deriving DecidableEq

/-- Whether a frame is required to carry a signature. -/
inductive SignaturePolicy where
  /-- Every frame must carry a valid signature. -/
  | required
  /-- A signature is verified when there is one. -/
  | optional
deriving DecidableEq

/-! ### What is taken from outside -/

/-- **The functions of base64 and `serde_json` that signing needs.** -/
class SignedExternals extends Externals where
  /-- `B64.encode`: base64url without padding. -/
  encode : ByteArray → String
  /-- `B64.decode`. -/
  decode : String → Option ByteArray
  /-- `to_vec` of a protected header. -/
  writeHeader : ProtectedHeader → Option ByteArray
  /-- `from_slice::<ProtectedHeader>`. -/
  readHeader : ByteArray → Option ProtectedHeader
  /-- `to_raw_value` of a JWS. -/
  writeJws : Jws → Option RawValue
  /-- `from_str::<Jws>`. -/
  readJws : RawValue → Option Jws
  /-- `RawValue::from_string`. -/
  rawFromString : String → Option RawValue
  /-- `Value::as_array`. -/
  asArray : Externals.Value → Option (List Externals.Value)
  /-- `Value::as_str`. -/
  asStr : Externals.Value → Option String
  /-- `Value::to_string`. -/
  valueText : Externals.Value → String

/-- The text is white space, as JSON has it. -/
def IsWhitespace (text : String) : Prop := ∀ c ∈ text.toList, Json.isSpace c = true

/-- **What the code relies on**: a raw value is the text it was read from, less the white space
around it. -/
class LawfulRawFromString [SignedExternals] : Prop where
  /-- The text is the raw value and white space. -/
  rawFromString_eq : ∀ (text : String) (value : RawValue),
    SignedExternals.rawFromString text = some value →
      ∃ before after, IsWhitespace before ∧ IsWhitespace after ∧
        text = before ++ value.get ++ after

variable [SignedExternals]

/-- Produces signatures. -/
structure Signer where
  /-- Which algorithm the key uses. -/
  algorithm : Algorithm
  /-- What identifies the signing certificate, if it is known. -/
  thumbprint : Option String
  /-- Signs the signing input. -/
  sign : ByteArray → Except SignatureError ByteArray

/-- Checks signatures. -/
structure Verifier where
  /-- Verifies one signature: the header, the signing input, the signature. -/
  verify : ProtectedHeader → ByteArray → ByteArray → Except SignatureError Unit

/-- A verifier that accepts everything. -/
def acceptAnySignature : Verifier := ⟨fun _ _ _ => .ok ()⟩

/-- The value, or the error that says the JWS is malformed. -/
def orMalformed {α : Type} : Option α → Except SignatureError α
  | some a => .ok a
  | none => .error .malformed

/-- Nothing, or the error if the condition is not met. -/
def ensure (condition : Prop) [Decidable condition] (error : SignatureError) :
    Except SignatureError Unit :=
  if condition then .ok () else .error error

namespace ProtectedHeader

/-- A header for one message. -/
def new (algorithm : Algorithm) (action : String) (messageType : MessageTypeId) :
    ProtectedHeader where
  alg := algorithm.asStr
  ocppAction := action
  ocppMessageTypedId := messageType.number
  x5tS256 := none
  extra := []

/-- The algorithm, if it is one OCPP allows. -/
def algorithm (header : ProtectedHeader) : Option Algorithm := Algorithm.fromWire header.alg

/-- Rejects whatever the header marks critical: OCPP has nothing that could be. -/
def checkCritical (header : ProtectedHeader) : Except SignatureError Unit :=
  match header.extra.lookup "crit" with
  | none => .ok ()
  | some crit =>
      match SignedExternals.asArray crit with
      | none => .error (.unsupportedCriticalHeader (SignedExternals.valueText crit))
      | some names =>
          match names.head? with
          | some name =>
              .error (.unsupportedCriticalHeader ((SignedExternals.asStr name).getD "?"))
          | none => .ok ()

/-- Nothing is marked critical. -/
def NoneCritical (header : ProtectedHeader) : Prop :=
  ∀ crit, header.extra.lookup "crit" = some crit → SignedExternals.asArray crit = some []

theorem checkCritical_eq_ok_iff {header : ProtectedHeader} :
    header.checkCritical = .ok () ↔ header.NoneCritical := by
  rw [checkCritical, NoneCritical]
  rcases header.extra.lookup "crit" with _ | crit
  · simp
  · rcases hnames : SignedExternals.asArray crit with _ | _ | ⟨name, names⟩
    · simp [hnames]
    · simp [hnames]
    · simp [hnames]

end ProtectedHeader

namespace Jws

/-- What a signature is computed over. -/
def signingInput (jws : Jws) : String := jws.protected_ ++ "." ++ jws.payload

/-- Decodes the protected header. -/
def decodeHeader (jws : Jws) : Except SignatureError ProtectedHeader := do
  let bytes ← orMalformed (SignedExternals.decode jws.protected_)
  orMalformed (SignedExternals.readHeader bytes)

/-- Decodes the payload. -/
def payloadJson (jws : Jws) : Except SignatureError RawValue := do
  let bytes ← orMalformed (SignedExternals.decode jws.payload)
  let text ← orMalformed (String.fromUTF8? bytes)
  orMalformed (SignedExternals.rawFromString text)

/-- Decodes the signature. -/
def signatureBytes (jws : Jws) : Except SignatureError ByteArray :=
  orMalformed (SignedExternals.decode jws.signature)

/-- Serializes to the form that goes in the payload slot. -/
def toJson (jws : Jws) : Except SignatureError RawValue :=
  orMalformed (SignedExternals.writeJws jws)

/-- Parses that form. -/
def parse (json : RawValue) : Except SignatureError Jws :=
  orMalformed (SignedExternals.readJws json)

end Jws

/-! ### Signing and verifying -/

/-- Builds the JWS for one payload. -/
def signPayload (payload : RawValue) (action : String) (messageType : MessageTypeId)
    (signer : Signer) : Except SignatureError Jws := do
  let header := { ProtectedHeader.new signer.algorithm action messageType with
    x5tS256 := signer.thumbprint }
  let headerJson ← orMalformed (SignedExternals.writeHeader header)
  let jws : Jws := ⟨SignedExternals.encode headerJson,
    SignedExternals.encode payload.get.toUTF8, "", none⟩
  let signature ← signer.sign jws.signingInput.toUTF8
  return { jws with signature := SignedExternals.encode signature }

/-- **Verifies a JWS** and returns the payload it protects. The action and the message type are
those of the frame that carried it. -/
def verifyPayload (jws : Jws) (action : String) (messageType : MessageTypeId)
    (verifier : Verifier) : Except SignatureError RawValue := do
  let header ← jws.decodeHeader
  ensure (header.algorithm ≠ none) (.unsupportedAlgorithm header.alg)
  header.checkCritical
  ensure (header.ocppAction = action) (.headerMismatch action header.ocppAction)
  ensure (header.ocppMessageTypedId = messageType.number)
    (.headerMismatch (toString (messageType.number : ℕ)) (toString (header.ocppMessageTypedId : ℕ)))
  let signature ← jws.signatureBytes
  verifier.verify header jws.signingInput.toUTF8 signature
  jws.payloadJson

/-- The action a signed name wraps, or `none` when the name is not a signed one. -/
def unsignedAction (action : String) : Option String :=
  (action.toList.dropSuffix? signedSuffix.toList).map String.ofList

/-- Wraps a frame in its signed equivalent. The answer to a call is signed for the action of
the call. -/
def signFrame (frame : Frame) (signer : Signer) (requestAction : Option String) :
    Except SignatureError Frame :=
  match frame with
  | .call id action payload => do
      let jws ← signPayload payload action .call signer
      return .call id (action ++ signedSuffix) (← jws.toJson)
  | .send id action payload => do
      let jws ← signPayload payload action .send signer
      return .send id (action ++ signedSuffix) (← jws.toJson)
  | .callResult id payload =>
      match requestAction with
      | none => .error (.keyUnavailable
          "signing a CALLRESULT needs the action of the CALL it answers")
      | some action => do
          let jws ← signPayload payload action .callResult signer
          return .callResult id (← jws.toJson)
  | .callError .. => .error (.notSignable .callError)
  | .callResultError .. => .error (.notSignable .callResultError)

/-- What an unsigned frame means, under the policy. -/
def unsigned (frame : Frame) : SignaturePolicy → Except SignatureError Frame
  | .required => .error .unsigned
  | .optional => .ok frame

/-- **Unwraps a signed frame**, verifying the signature on the way. -/
def verifyFrame (frame : Frame) (verifier : Verifier) (requestAction : Option String)
    (policy : SignaturePolicy) : Except SignatureError Frame :=
  match frame with
  | .call id action payload =>
      match unsignedAction action with
      | none => unsigned frame policy
      | some action => do
          let jws ← Jws.parse payload
          let payload ← verifyPayload jws action .call verifier
          return .call id action payload
  | .send id action payload =>
      match unsignedAction action with
      | none => unsigned frame policy
      | some action => do
          let jws ← Jws.parse payload
          let payload ← verifyPayload jws action .send verifier
          return .send id action payload
  | .callResult id payload =>
      match requestAction with
      | none => unsigned frame policy
      | some action =>
          match Jws.parse payload with
          | .error _ => unsigned frame policy
          | .ok jws => do
              let payload ← verifyPayload jws action .callResult verifier
              return .callResult id payload
  -- an error has no signed form, so there is nothing to require
  | .callError .. | .callResultError .. => .ok frame

/-! ### What is accepted was signed -/

/-- The action of a frame, if it has one. -/
def Frame.action : Frame → Option String
  | .call _ action _ | .send _ action _ => some action
  | _ => none

/-- The payload of a frame, if it has one. -/
def Frame.payload : Frame → Option RawValue
  | .call _ _ payload | .send _ _ payload | .callResult _ payload => some payload
  | _ => none

/-- **The JWS vouches for the payload**, as that of a message of this action and type: the
verifier accepted its signature over the text that was transmitted, under a header that is the
message's own. -/
structure Vouches (jws : Jws) (action : String) (messageType : MessageTypeId)
    (verifier : Verifier) (value : RawValue) : Prop where
  /-- The verifier accepted the signature. -/
  accepted : ∃ headerJson header signature,
    SignedExternals.decode jws.protected_ = some headerJson ∧
    SignedExternals.readHeader headerJson = some header ∧
    SignedExternals.decode jws.signature = some signature ∧
    verifier.verify header (jws.protected_ ++ "." ++ jws.payload).toUTF8 signature = .ok () ∧
    (∃ algorithm, Algorithm.fromWire header.alg = some algorithm) ∧
    header.NoneCritical ∧
    header.ocppAction = action ∧
    header.ocppMessageTypedId = messageType.number
  /-- The payload is what was signed, less the white space around it. -/
  payload : ∃ before after, IsWhitespace before ∧ IsWhitespace after ∧
    SignedExternals.decode jws.payload = some (before ++ value.get ++ after).toUTF8

omit [SignedExternals] in
theorem orMalformed_eq_ok_iff {α : Type} {o : Option α} {a : α} :
    orMalformed o = .ok a ↔ o = some a := by
  rcases o with _ | b
  · simp [orMalformed]
  · simp [orMalformed]

omit [SignedExternals] in
theorem ensure_eq_ok_iff {condition : Prop} [Decidable condition] {error : SignatureError} :
    ensure condition error = .ok () ↔ condition := by
  rw [ensure]
  split
  next h => exact iff_of_true rfl h
  next h => exact iff_of_false (by simp) h

omit [SignedExternals] in
theorem bind_eq_ok_iff {α β : Type} {x : Except SignatureError α}
    {f : α → Except SignatureError β} {b : β} :
    (x >>= f) = .ok b ↔ ∃ a, x = .ok a ∧ f a = .ok b := by
  rcases x with e | a
  · exact iff_of_false (by rintro ⟨⟩) (by rintro ⟨_, ⟨⟩, _⟩)
  · exact ⟨fun h => ⟨a, rfl, h⟩, by rintro ⟨_, ⟨⟩, h⟩; exact h⟩

/-- The payload that is decoded is the text of the bytes. -/
theorem Jws.payloadJson_eq_ok [LawfulRawFromString] {jws : Jws} {value : RawValue}
    (h : jws.payloadJson = .ok value) : ∃ before after, IsWhitespace before ∧
      IsWhitespace after ∧
      SignedExternals.decode jws.payload = some (before ++ value.get ++ after).toUTF8 := by
  obtain ⟨bytes, hbytes, h⟩ := bind_eq_ok_iff.mp h
  obtain ⟨text, htext, h⟩ := bind_eq_ok_iff.mp h
  rw [orMalformed_eq_ok_iff] at hbytes htext h
  obtain ⟨before, after, hbefore, hafter, rfl⟩ := LawfulRawFromString.rawFromString_eq text value h
  refine ⟨before, after, hbefore, hafter, ?_⟩
  rw [String.fromUTF8?] at htext
  split at htext
  · rw [hbytes, ← Option.some.inj htext]
    rfl
  · exact absurd htext (by simp)

/-- **A payload that is verified was signed.** -/
theorem vouches_of_verifyPayload [LawfulRawFromString] {jws : Jws} {action : String}
    {messageType : MessageTypeId} {verifier : Verifier} {value : RawValue}
    (h : verifyPayload jws action messageType verifier = .ok value) :
    Vouches jws action messageType verifier value := by
  rw [verifyPayload] at h
  obtain ⟨header, hheader, h⟩ := bind_eq_ok_iff.mp h
  obtain ⟨⟨⟩, halgorithm, h⟩ := bind_eq_ok_iff.mp h
  obtain ⟨⟨⟩, hcritical, h⟩ := bind_eq_ok_iff.mp h
  obtain ⟨⟨⟩, haction, h⟩ := bind_eq_ok_iff.mp h
  obtain ⟨⟨⟩, hmessageType, h⟩ := bind_eq_ok_iff.mp h
  obtain ⟨signature, hsignature, h⟩ := bind_eq_ok_iff.mp h
  obtain ⟨⟨⟩, hverify, h⟩ := bind_eq_ok_iff.mp h
  refine ⟨?_, jws.payloadJson_eq_ok h⟩
  obtain ⟨headerJson, hdecode, hread⟩ := bind_eq_ok_iff.mp hheader
  exact ⟨headerJson, header, signature, orMalformed_eq_ok_iff.mp hdecode,
    orMalformed_eq_ok_iff.mp hread, orMalformed_eq_ok_iff.mp hsignature, hverify,
    Option.ne_none_iff_exists'.mp (ensure_eq_ok_iff.mp halgorithm),
    ProtectedHeader.checkCritical_eq_ok_iff.mp hcritical, ensure_eq_ok_iff.mp haction,
    ensure_eq_ok_iff.mp hmessageType⟩

/-- **Required signatures cannot be bypassed.** Under the policy that requires them, a call, an
unconfirmed message or an answer that is accepted carried a JWS that vouches for the payload
that is handed on: as that of a message of its type, and of its action – an answer has none,
and is held to the action of the call. The frame keeps its type and its id. -/
theorem verifyFrame_required [LawfulRawFromString] {frame verified : Frame}
    {verifier : Verifier} {requestAction : Option String}
    (h : verifyFrame frame verifier requestAction .required = .ok verified)
    (hsignable : frame.messageType = .call ∨ frame.messageType = .send ∨
      frame.messageType = .callResult) :
    ∃ carried jws action value, frame.payload = some carried ∧
      SignedExternals.readJws carried = some jws ∧ verified.payload = some value ∧
      (verified.action.or requestAction) = some action ∧
      Vouches jws action frame.messageType verifier value ∧
      verified.messageType = frame.messageType ∧ verified.id = frame.id := by
  cases frame with
  | call id signed carried =>
      rw [verifyFrame] at h
      split at h
      next => exact absurd h (by simp [unsigned])
      next action _ =>
        obtain ⟨jws, hjws, h⟩ := bind_eq_ok_iff.mp h
        obtain ⟨value, hvalue, h⟩ := bind_eq_ok_iff.mp h
        obtain rfl := Except.ok.inj h
        exact ⟨carried, jws, action, value, rfl, orMalformed_eq_ok_iff.mp hjws, rfl, rfl,
          vouches_of_verifyPayload hvalue, rfl, rfl⟩
  | send id signed carried =>
      rw [verifyFrame] at h
      split at h
      next => exact absurd h (by simp [unsigned])
      next action _ =>
        obtain ⟨jws, hjws, h⟩ := bind_eq_ok_iff.mp h
        obtain ⟨value, hvalue, h⟩ := bind_eq_ok_iff.mp h
        obtain rfl := Except.ok.inj h
        exact ⟨carried, jws, action, value, rfl, orMalformed_eq_ok_iff.mp hjws, rfl, rfl,
          vouches_of_verifyPayload hvalue, rfl, rfl⟩
  | callResult id carried =>
      rcases requestAction with _ | action
      · exact absurd h (by simp [verifyFrame, unsigned])
      · rcases hjws : Jws.parse carried with error | jws
        · exact absurd h (by simp [verifyFrame, hjws, unsigned])
        · simp only [verifyFrame, hjws] at h
          obtain ⟨value, hvalue, h⟩ := bind_eq_ok_iff.mp h
          obtain rfl := Except.ok.inj h
          exact ⟨carried, jws, action, value, rfl, orMalformed_eq_ok_iff.mp hjws, rfl, rfl,
            vouches_of_verifyPayload hvalue, rfl, rfl⟩
  | callError id error => exact absurd hsignable (by simp [Frame.messageType])
  | callResultError id error => exact absurd hsignable (by simp [Frame.messageType])

end OcppKit
