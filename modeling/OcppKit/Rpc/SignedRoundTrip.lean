import OcppKit.Library.JsonObject
import OcppKit.Library.Utf8
import OcppKit.Rpc.Canonical
import OcppKit.Rpc.SignedReference

/-!
# Signed and verified

What `OcppKit.signFrame` wraps, `OcppKit.verifyFrame` unwraps: the action loses the suffix it
was given and no other, the header is read as it was written, and the payload comes back byte
for byte (`OcppKit.signing_roundTrips`). In between, the signed frame is a frame like any other
and survives the wire – if it has an id, for a text with an empty one is not accepted.

What base64 and `serde_json` must do for that is `OcppKit.LawfulSignedExternals`; what the keys
must do, `OcppKit.Verifier.Accepts`.
-/

namespace OcppKit

/-- **What the code relies on**: what was encoded is decoded, what was written is read, and a
raw value is read from its own text. -/
class LawfulSignedExternals [SignedExternals] : Prop where
  /-- Bytes are decoded as what was encoded. -/
  decode_encode : ∀ bytes : ByteArray,
    SignedExternals.decode (SignedExternals.encode bytes) = some bytes
  /-- A header with nothing else in it is read as it was written. -/
  readHeader_writeHeader : ∀ header : ProtectedHeader, header.extra = [] →
    ∃ bytes, SignedExternals.writeHeader header = some bytes ∧
      SignedExternals.readHeader bytes = some header
  /-- A JWS without an unprotected header is read as it was written. -/
  readJws_writeJws : ∀ jws : Jws, jws.header = none →
    ∃ value, SignedExternals.writeJws jws = some value ∧
      SignedExternals.readJws value = some jws
  /-- A raw value is the one its text is. -/
  rawFromString_get : ∀ value : RawValue, SignedExternals.rawFromString value.get = some value

variable [SignedExternals]

/-- **The verifier accepts what the signer produces**, for the same signing input and under a
header that names the signer's algorithm and certificate. -/
def Verifier.Accepts (verifier : Verifier) (signer : Signer) : Prop :=
  ∀ (header : ProtectedHeader) (input : ByteArray), header.alg = signer.algorithm.asStr →
    header.x5tS256 = signer.thumbprint → ∃ signature, signer.sign input = .ok signature ∧
      verifier.verify header input signature = .ok ()

/-- A frame that can be signed: a call, an unconfirmed message, or an answer to a call whose
action is known. -/
def Frame.Signable (frame : Frame) (requestAction : Option String) : Prop :=
  frame.messageType = .call ∨ frame.messageType = .send ∨
    (frame.messageType = .callResult ∧ ∃ action, requestAction = some action)

omit [SignedExternals] in
@[simp] theorem Algorithm.fromWire_asStr (algorithm : Algorithm) :
    Algorithm.fromWire algorithm.asStr = some algorithm := by
  cases algorithm <;> rfl

omit [SignedExternals] in
/-- **The suffix that was appended is taken off**, and no other. -/
theorem unsignedAction_append (action : String) :
    unsignedAction (action ++ signedSuffix) = some action := by
  have hdrop : (action.toList ++ signedSuffix.toList).dropSuffix? signedSuffix.toList =
      some action.toList := List.dropSuffix?_eq_some_iff.mpr ⟨_, rfl, beq_self_eq_true _⟩
  rw [unsignedAction, String.toList_append, hdrop, Option.map_some, String.ofList_toList]

/-- A frame that carries no error reads as itself. -/
theorem Frame.canonical_of_signable {frame : Frame} {requestAction : Option String}
    (h : frame.Signable requestAction) (version : Version) : frame.canonical version = frame := by
  cases frame with
  | callError id error => exact absurd h (by simp [Frame.Signable, Frame.messageType])
  | callResultError id error => exact absurd h (by simp [Frame.Signable, Frame.messageType])
  | _ => rfl

variable [LawfulSignedExternals]

/-- **A payload that is signed is verified to be that payload.** -/
theorem verifyPayload_signPayload {signer : Signer} {verifier : Verifier}
    (haccepts : verifier.Accepts signer) (payload : RawValue) (action : String)
    (messageType : MessageTypeId) : ∃ jws value,
      signPayload payload action messageType signer = .ok jws ∧ jws.toJson = .ok value ∧
      Jws.parse value = .ok jws ∧ verifyPayload jws action messageType verifier = .ok payload := by
  have hdecode := LawfulSignedExternals.decode_encode
  let header := { ProtectedHeader.new signer.algorithm action messageType with
    x5tS256 := signer.thumbprint }
  obtain ⟨headerJson, hwrite, hread⟩ :=
    LawfulSignedExternals.readHeader_writeHeader header rfl
  let unsigned : Jws := ⟨SignedExternals.encode headerJson,
    SignedExternals.encode payload.get.toUTF8, "", none⟩
  obtain ⟨signature, hsign, hverify⟩ := haccepts header unsigned.signingInput.toUTF8 rfl rfl
  let jws := { unsigned with signature := SignedExternals.encode signature }
  obtain ⟨value, hvalue, hjws⟩ := LawfulSignedExternals.readJws_writeJws jws rfl
  refine ⟨jws, value, ?_, by rw [Jws.toJson, hvalue]; rfl, by rw [Jws.parse, hjws]; rfl, ?_⟩
  · exact bind_eq_ok_iff.mpr ⟨headerJson, orMalformed_eq_ok_iff.mpr hwrite,
      bind_eq_ok_iff.mpr ⟨signature, hsign, rfl⟩⟩
  · have hheader : jws.decodeHeader = .ok header := bind_eq_ok_iff.mpr
      ⟨headerJson, orMalformed_eq_ok_iff.mpr (hdecode _), orMalformed_eq_ok_iff.mpr hread⟩
    have halgorithm : header.algorithm ≠ none := by
      rw [show header.algorithm = some signer.algorithm from Algorithm.fromWire_asStr _]
      exact Option.some_ne_none _
    have hcritical : header.checkCritical = .ok () :=
      ProtectedHeader.checkCritical_eq_ok_iff.mpr fun crit hcrit => absurd hcrit (by simp [header,
        ProtectedHeader.new])
    have hpayload : jws.payloadJson = .ok payload := bind_eq_ok_iff.mpr
      ⟨payload.get.toUTF8, orMalformed_eq_ok_iff.mpr (hdecode _), bind_eq_ok_iff.mpr
        ⟨payload.get, orMalformed_eq_ok_iff.mpr (Utf8.fromUTF8?_toByteArray _),
          orMalformed_eq_ok_iff.mpr (LawfulSignedExternals.rawFromString_get payload)⟩⟩
    refine bind_eq_ok_iff.mpr ⟨header, hheader, ?_⟩
    refine bind_eq_ok_iff.mpr ⟨(), ensure_eq_ok_iff.mpr halgorithm, ?_⟩
    refine bind_eq_ok_iff.mpr ⟨(), hcritical, ?_⟩
    refine bind_eq_ok_iff.mpr ⟨(), ensure_eq_ok_iff.mpr rfl, ?_⟩
    refine bind_eq_ok_iff.mpr ⟨(), ensure_eq_ok_iff.mpr rfl, ?_⟩
    refine bind_eq_ok_iff.mpr ⟨signature, orMalformed_eq_ok_iff.mpr (hdecode _), ?_⟩
    exact bind_eq_ok_iff.mpr ⟨(), hverify, hpayload⟩

/-- **A frame that is signed is verified to be that frame**, under either policy. It keeps its
type and its id. -/
theorem verifyFrame_signFrame {frame : Frame} {signer : Signer} {verifier : Verifier}
    {requestAction : Option String} (haccepts : verifier.Accepts signer)
    (hsignable : frame.Signable requestAction) :
    ∃ signed, signFrame frame signer requestAction = .ok signed ∧
      (∀ policy, verifyFrame signed verifier requestAction policy = .ok frame) ∧
      signed.messageType = frame.messageType ∧ signed.id = frame.id := by
  have hround := verifyPayload_signPayload haccepts
  cases frame with
  | call id action payload =>
      obtain ⟨jws, value, hsign, hvalue, hjws, hverify⟩ := hround payload action .call
      refine ⟨.call id (action ++ signedSuffix) value, ?_, fun policy => ?_, rfl, rfl⟩
      · exact bind_eq_ok_iff.mpr ⟨jws, hsign, bind_eq_ok_iff.mpr ⟨value, hvalue, rfl⟩⟩
      · simp only [verifyFrame, unsignedAction_append]
        exact bind_eq_ok_iff.mpr ⟨jws, hjws, bind_eq_ok_iff.mpr ⟨payload, hverify, rfl⟩⟩
  | send id action payload =>
      obtain ⟨jws, value, hsign, hvalue, hjws, hverify⟩ := hround payload action .send
      refine ⟨.send id (action ++ signedSuffix) value, ?_, fun policy => ?_, rfl, rfl⟩
      · exact bind_eq_ok_iff.mpr ⟨jws, hsign, bind_eq_ok_iff.mpr ⟨value, hvalue, rfl⟩⟩
      · simp only [verifyFrame, unsignedAction_append]
        exact bind_eq_ok_iff.mpr ⟨jws, hjws, bind_eq_ok_iff.mpr ⟨payload, hverify, rfl⟩⟩
  | callResult id payload =>
      obtain ⟨action, rfl⟩ : ∃ action, requestAction = some action := by
        rcases hsignable with h | h | ⟨-, h⟩
        · exact absurd h (by simp [Frame.messageType])
        · exact absurd h (by simp [Frame.messageType])
        · exact h
      obtain ⟨jws, value, hsign, hvalue, hjws, hverify⟩ := hround payload action .callResult
      refine ⟨.callResult id value, ?_, fun policy => ?_, rfl, rfl⟩
      · exact bind_eq_ok_iff.mpr ⟨jws, hsign, bind_eq_ok_iff.mpr ⟨value, hvalue, rfl⟩⟩
      · simp only [verifyFrame, hjws]
        exact bind_eq_ok_iff.mpr ⟨payload, hverify, rfl⟩
  | callError id error => exact absurd hsignable (by simp [Frame.Signable, Frame.messageType])
  | callResultError id error => exact absurd hsignable (by simp [Frame.Signable, Frame.messageType])

/-- **Signing and verifying are inverse, and the wire is between them.** A frame that can be
signed is signed; what is verified of it, under either policy, is the frame, its payload byte
for byte; and the signed frame is read as it was written, if it has an id. -/
theorem signing_roundTrips [LawfulExternals] {frame : Frame} {signer : Signer}
    {verifier : Verifier} {requestAction : Option String} (haccepts : verifier.Accepts signer)
    (hsignable : frame.Signable requestAction) :
    ∃ signed text, signFrame frame signer requestAction = .ok signed ∧
      signed.toJson .v2_1 = .ok text ∧
      (∀ policy, verifyFrame signed verifier requestAction policy = .ok frame) ∧
      (frame.id.asStr.isEmpty = false → Frame.parse text .v2_1 = .ok signed) := by
  obtain ⟨signed, hsign, hverify, htype, hid⟩ := verifyFrame_signFrame haccepts hsignable
  obtain ⟨text, htext⟩ := LawfulExternals.writeTuple_ok (signed.items .v2_1)
  refine ⟨signed, text, hsign, htext, hverify, fun hne => ?_⟩
  have hsigned : signed.Signable requestAction := by rwa [Frame.Signable, htype]
  have hdefined : signed.messageType.isDefinedIn .v2_1 = true := by
    cases signed.messageType <;> rfl
  rw [Frame.parse_toJson htext, if_neg (by simp [hdefined]), if_neg (by simp [hid, hne]),
    Frame.overTheWire_eq_canonical, Frame.canonical_of_signable hsigned]

end OcppKit

namespace OcppKit.Reference

/-! ### The reference is lawful -/

theorem sextet_letter : ∀ n < 64, sextet (letter n) = some n := by decide

theorem toSextets_lt (bytes : List UInt8) : ∀ n ∈ toSextets bytes, n < 64 := by
  fun_induction toSextets bytes with
  | case1 => simp
  | case2 x =>
      have := x.toNat_lt
      simp only [List.mem_cons, List.not_mem_nil, or_false]
      omega
  | case3 x y =>
      have := x.toNat_lt
      have := y.toNat_lt
      simp only [List.mem_cons, List.not_mem_nil, or_false]
      omega
  | case4 x y z rest ih =>
      have := x.toNat_lt
      have := y.toNat_lt
      have := z.toNat_lt
      simp only [List.mem_cons]
      rintro n (rfl | rfl | rfl | rfl | hn)
      · omega
      · omega
      · omega
      · omega
      · exact ih n hn

/-- A byte is the number it stands for. -/
theorem ofNat_eq {x : UInt8} {n : ℕ} (h : n = x.toNat) : UInt8.ofNat n = x := by
  rw [h, UInt8.ofNat_toNat]

theorem fromSextets_toSextets (bytes : List UInt8) :
    fromSextets (toSextets bytes) = some bytes := by
  fun_induction toSextets bytes with
  | case1 => rfl
  | case2 x =>
      rw [fromSextets, if_pos (by omega), ofNat_eq (x := x) (by omega)]
  | case3 x y =>
      have := y.toNat_lt
      rw [fromSextets, if_pos (by omega), ofNat_eq (x := x) (by omega),
        ofNat_eq (x := y) (by omega)]
  | case4 x y z rest ih =>
      have := y.toNat_lt
      have := z.toNat_lt
      rw [fromSextets, ih, Option.map_some, ofNat_eq (x := x) (by omega),
        ofNat_eq (x := y) (by omega), ofNat_eq (x := z) (by omega)]

/-- **What is encoded is decoded.** -/
theorem fromBase64_toBase64 (bytes : ByteArray) : fromBase64 (toBase64 bytes) = some bytes := by
  have hletters : ∀ ns : List ℕ, (∀ n ∈ ns, n < 64) → (ns.map letter).mapM sextet = some ns := by
    intro ns hns
    induction ns with
    | nil => rfl
    | cons n ns ih =>
        rw [List.map_cons, List.mapM_cons, sextet_letter n (hns n List.mem_cons_self),
          ih fun m hm => hns m (List.mem_cons_of_mem _ hm)]
        rfl
  rw [fromBase64, toBase64, String.toList_ofList, hletters _ (toSextets_lt _), Option.bind_some,
    fromSextets_toSextets]
  rfl

/-- A value has no white space around it. -/
theorem trim_of_isValue {cs : List Char} (h : Json.isValue cs = true) : trim cs = cs := by
  have hfront : cs.dropWhile Json.isSpace = cs := by
    simpa [Json.skipSpace] using Json.skipSpace_value h []
  rw [trim, hfront]
  rcases cs.eq_nil_or_concat with rfl | ⟨cs, c, rfl⟩
  · rfl
  · have hc := Json.not_isSpace_of_isValue_concat (by simpa using h)
    rw [List.concat_eq_append, List.reverse_append, List.reverse_singleton, List.singleton_append,
      List.dropWhile_cons_of_neg (by simp [hc])]
    simp

/-- A value is the raw value of its text. -/
theorem rawOf_get (value : RawValue) : rawOf value.get.toList = some value := by
  obtain ⟨r, hr, hget⟩ :=
    rawOf_of_value (show Json.isValue value.get.toList = true from value.valid)
  obtain ⟨get, valid⟩ := r
  obtain rfl : get = value.get := hget.trans (String.ofList_toList)
  exact hr

/-! ### Objects -/

theorem object_eq_brace (ms : List (String × List Char)) :
    object ms = Json.brace (ms.map fun m => (Json.quote m.1.toList, m.2)) := by
  rw [object, Json.brace, List.map_map]
  rfl

theorem members_quoted {ms : List (String × List Char)} (h : ∀ m ∈ ms, Json.isValue m.2 = true) :
    Json.Members (ms.map fun m => (Json.quote m.1.toList, m.2)) := by
  intro m hm
  obtain ⟨member, hmember, rfl⟩ := List.mem_map.mp hm
  exact ⟨⟨member.1.toList, rfl⟩, h member hmember⟩

theorem string_quote (text : String) : string (Json.quote text.toList) = some text := by
  rw [string, Json.unquote_quote, Option.map_some, String.ofList_toList]

/-- **An object is a raw value that has its members**, and no others. -/
theorem rawOf_object {ms : List (String × List Char)} (h : ∀ m ∈ ms, Json.isValue m.2 = true) :
    ∃ r, rawOf (object ms) = some r ∧ r.get = String.ofList (object ms) ∧
      (∀ name, membersNamed name r = some ((ms.filter fun m => m.1 = name).map Prod.snd)) ∧
      ∃ named, members r.get.toList = some named ∧ ∀ m ∈ named, m.1 ∈ ms.map Prod.fst := by
  have hmembers := members_quoted h
  obtain ⟨r, hr, hget⟩ := @rawOf_of_value (object ms) (by
    rw [object_eq_brace]
    exact Json.isValue_brace hmembers)
  have hsplit : Json.objectMembers r.get.toList =
      some (ms.map fun m => (Json.quote m.1.toList, m.2)) := by
    rw [hget, String.toList_ofList, object_eq_brace, Json.objectMembers_brace hmembers]
  refine ⟨r, hr, hget, fun name => ?_, ?_⟩
  · have hname : ∀ m : String × List Char, decide (Json.unquote (Json.quote m.1.toList) =
        some name.toList) = decide (m.1 = name) := by
      intro m
      rw [Json.unquote_quote, decide_eq_decide, Option.some_inj, String.toList_inj]
    rw [membersNamed, hsplit, Option.map_some, List.filter_map, List.map_map]
    simp only [Function.comp_def, hname]
  · have hnamed : ∀ ms : List (String × List Char), (∀ m ∈ ms, Json.isValue m.2 = true) →
        ∃ named, (ms.map fun m => (Json.quote m.1.toList, m.2)).mapM (fun m => do
          let name ← string m.1
          let value ← rawOf m.2
          return (name, value)) = some named ∧ named.map Prod.fst = ms.map Prod.fst := by
      intro ms hms
      induction ms with
      | nil => exact ⟨[], rfl, rfl⟩
      | cons m ms ih =>
          obtain ⟨named, hnamed, hnames⟩ := ih fun m hm => hms m (List.mem_cons_of_mem _ hm)
          obtain ⟨value, hvalue, -⟩ := rawOf_of_value (hms m List.mem_cons_self)
          refine ⟨(m.1, value) :: named, ?_, by rw [List.map_cons, hnames, List.map_cons]⟩
          rw [List.map_cons, List.mapM_cons, hnamed]
          simp only [string_quote, hvalue]
          rfl
    obtain ⟨named, hread, hnames⟩ := hnamed ms h
    refine ⟨named.reverse, ?_, fun m hm => ?_⟩
    · rw [members, hsplit, Option.bind_eq_bind, Option.bind_some, hread]
      rfl
    · rw [← hnames]
      exact List.mem_map_of_mem (List.mem_reverse.mp hm)

/-- A byte is read as it was written. -/
theorem byte_digits : ∀ n : Fin 256, byte (Json.digits n) = some n := by decide +kernel

/-- **A header with nothing else in it is read as it was written.** -/
theorem headerOf_headerText {header : ProtectedHeader} (h : header.extra = []) :
    headerOf (String.ofList (headerText header)).toUTF8 = some header := by
  obtain ⟨alg, action, type, hash, extra⟩ := header
  obtain rfl : extra = [] := h
  let ms := [("alg", Json.quote alg.toList), ("OCPPAction", Json.quote action.toList),
    ("OCPPMessageTypedId", Json.digits type)] ++
      (hash.map fun hash => ("x5t#S256", Json.quote hash.toList)).toList
  have htext : headerText ⟨alg, action, type, hash, []⟩ = object ms := by
    rw [headerText, List.map_nil, List.append_nil]
  have hvalues : ∀ m ∈ ms, Json.isValue m.2 = true := by
    have hnumber := (Json.digits_byte type).1
    cases hash <;> simp [ms, Json.isValue_quote, hnumber]
  have hnames : ∀ name ∈ ms.map Prod.fst, name ∈ headerNames := by
    cases hash <;> simp [ms, headerNames]
  obtain ⟨r, hr, hget, hnamed, named, hall, hothers⟩ := rawOf_object hvalues
  have hextra : ∀ m ∈ named, m.1 ∈ headerNames := fun m hm => hnames _ (hothers m hm)
  have hnull : ∀ text : String, Json.quote text.toList ≠ ['n', 'u', 'l', 'l'] :=
    fun text => by simp [Json.quote]
  have htrim : trim (object ms) = object ms := trim_of_isValue (by
    have := r.valid
    rw [hget, isValue_ofList] at this
    exact this)
  rw [headerOf, show String.fromUTF8? (String.ofList (headerText _)).toUTF8 = some _ from
    Utf8.fromUTF8?_toByteArray _, Option.bind_some, String.toList_ofList, htext, htrim, hr]
  cases hash with
  | none =>
      simp [hnamed, hall, ms, required, optional, string_quote, byte_digits]
      exact fun name value => hextra (name, value)
  | some hash =>
      simp [hnamed, hall, ms, required, optional, string_quote, byte_digits, hnull]
      exact fun name value => hextra (name, value)

/-- **A JWS without an unprotected header is read as it was written.** -/
theorem jwsOf_jwsText {jws : Jws} (h : jws.header = none) :
    ∃ value, rawOf (jwsText jws) = some value ∧ jwsOf value = some jws := by
  obtain ⟨protected_, payload, signature, header⟩ := jws
  obtain rfl : header = none := h
  obtain ⟨r, hr, -, hnamed, -⟩ := @rawOf_object [("protected", Json.quote protected_.toList),
    ("payload", Json.quote payload.toList), ("signature", Json.quote signature.toList)]
    (by simp [Json.isValue_quote])
  refine ⟨r, by simpa [jwsText] using hr, ?_⟩
  simp [jwsOf, hnamed, required, optional, string_quote]

scoped instance instLawfulSignedExternals : LawfulSignedExternals where
  decode_encode := fromBase64_toBase64
  readHeader_writeHeader _ h := ⟨_, rfl, headerOf_headerText h⟩
  readJws_writeJws _ h := jwsOf_jwsText h
  rawFromString_get value := by
    change rawOf (trim value.get.toList) = some value
    rw [trim_of_isValue value.valid, rawOf_get]

/-! ### A call that was signed before -/

/-- A signer whose signature is a byte. -/
def oneByteSigner : Signer := ⟨.rs256, some "a-certificate", fun _ => .ok ⟨#[7]⟩⟩

/-- A verifier that expects that byte. -/
def oneByteVerifier : Verifier := ⟨fun _ _ signature =>
  if signature = ⟨#[7]⟩ then .ok () else .error .invalid⟩

theorem oneByteVerifier_accepts : oneByteVerifier.Accepts oneByteSigner :=
  fun _ _ _ _ => ⟨⟨#[7]⟩, rfl, rfl⟩

/-- A call whose action ends in the suffix already. -/
def signedBefore : Frame := .call ⟨"1"⟩ "Heartbeat-Signed" (raw "[ \"a\", 1.50 ]")

/-- It keeps the one it has. -/
theorem signing_roundTrips_signedBefore : ∃ signed text,
    signFrame signedBefore oneByteSigner none = .ok signed ∧ signed.toJson .v2_1 = .ok text ∧
      (∀ policy, verifyFrame signed oneByteVerifier none policy = .ok signedBefore) ∧
      Frame.parse text .v2_1 = .ok signed := by
  obtain ⟨signed, text, hsign, htext, hverify, hparse⟩ :=
    signing_roundTrips oneByteVerifier_accepts
      (show signedBefore.Signable none from Or.inl rfl)
  exact ⟨signed, text, hsign, htext, hverify, hparse rfl⟩

/-- **A frame without an id does not survive the wire**, signed or not. -/
theorem empty_id_lost : ¬∀ (frame : Frame) (signer : Signer) (verifier : Verifier)
    (requestAction : Option String), verifier.Accepts signer → frame.Signable requestAction →
    ∃ signed text, signFrame frame signer requestAction = .ok signed ∧
      signed.toJson .v2_1 = .ok text ∧
      (∀ policy, verifyFrame signed verifier requestAction policy = .ok frame) ∧
      Frame.parse text .v2_1 = .ok signed := by
  intro h
  obtain ⟨signed, text, hsign, -, -, hparse⟩ :=
    h (.call ⟨""⟩ "Heartbeat" .emptyObject) oneByteSigner oneByteVerifier none
      oneByteVerifier_accepts (Or.inl rfl)
  have hid := (wellFormed_of_parse hparse).2
  obtain ⟨signed', hsign', -, -, hid'⟩ := verifyFrame_signFrame oneByteVerifier_accepts
    (show (Frame.call ⟨""⟩ "Heartbeat" .emptyObject).Signable none from Or.inl rfl)
  obtain rfl := Except.ok.inj (hsign.symm.trans hsign')
  rw [hid'] at hid
  exact absurd hid (by decide)

end OcppKit.Reference
