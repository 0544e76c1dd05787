import OcppKit.Transport.Head

/-!
# The upgrade

A station writes a request, a server reads it, decides, and answers; the station reads the answer
(`OcppKit.CsmsServer.accept`, `OcppKit.Connector.connect`). Between the two there may be a local
controller, which is a server to the station and a client to the CSMS
(`OcppKit.RelayController.attach`).

What is proved is about the whole of it, over the bytes, however they are cut on either way. The
server reads the request that was asked (`OcppKit.readRequest_hello`); what the station comes
to know is what the server has decided (`OcppKit.opening_agrees`): the same version, the same
way to compress, the status of a refusal, or that there is no version in common; and the frames
that arrive with a head are kept on both sides. The same holds of three
(`OcppKit.relay_agrees`).
-/

namespace OcppKit

/-- What is called of the SHA-1 crate. -/
class Sha1 where
  /-- The digest of some bytes. -/
  digest : List UInt8 → List UInt8

/-! ### The two keys -/

/-- What is appended to the key of a client. -/
def wsGuid : String := "258EAFA5-E914-47DA-95CA-C5AB0DC85B11"

section Keys

variable [StandardBase64]

/-- The key of a client, for a nonce that is drawn. -/
def clientKey (nonce : List UInt8) : String := StandardBase64.encode nonce

/-- **The `Sec-WebSocket-Accept` of a key.** -/
def acceptKey [Sha1] (key : String) : String :=
  StandardBase64.encode (Sha1.digest (Utf8.encode key ++ Utf8.encode wsGuid))

theorem isField_clientKey [LawfulStandardBase64] (nonce : List UInt8) :
    IsField (clientKey nonce) :=
  IsField.of_forall (LawfulStandardBase64.encode_chars nonce)

theorem isField_acceptKey [LawfulStandardBase64] [Sha1] (key : String) :
    IsField (acceptKey key) :=
  IsField.of_forall (LawfulStandardBase64.encode_chars _)

end Keys

/-! ### What is written -/

/-- A first line and header lines. -/
def headLines (first : String) (fields : List (String × String)) : List (List Char) :=
  first.toList :: fields.map fun field => headerLine field.1 field.2

/-- A header that is there when it has a value. -/
def optionalField (name : String) (value : Option String) : List (String × String) :=
  (value.map fun value => (name, value)).toList

/-- **What a client wants from the handshake.** -/
structure UpgradeOffer extends ClientRequest where
  /-- The versions it offers. -/
  subprotocols : String
  /-- The extensions it offers. -/
  extensions : Option String

/-- The headers of a request. -/
def UpgradeOffer.fields (offer : UpgradeOffer) (key : String) : List (String × String) :=
  [("Host", offer.host), ("Upgrade", "websocket"), ("Connection", "Upgrade"),
    ("Sec-WebSocket-Version", "13"), ("Sec-WebSocket-Key", key),
    ("Sec-WebSocket-Protocol", offer.subprotocols)] ++
    optionalField "Authorization" offer.authorization ++
    optionalField "Sec-WebSocket-Extensions" offer.extensions

/-- **The request a client writes.** -/
def UpgradeOffer.text (offer : UpgradeOffer) (key : String) : String :=
  headText (headLines offer.requestLine (offer.fields key))

/-- The headers of an answer that accepts. -/
def acceptFields [StandardBase64] [Sha1] (key : String) (subprotocol extensions : Option String) :
    List (String × String) :=
  [("Upgrade", "websocket"), ("Connection", "Upgrade"),
    ("Sec-WebSocket-Accept", acceptKey key)] ++
    optionalField "Sec-WebSocket-Protocol" subprotocol ++
    optionalField "Sec-WebSocket-Extensions" extensions

/-- **The answer of a server that accepts.** The version is left out when there is none. -/
def acceptText [StandardBase64] [Sha1] (key : String) (subprotocol extensions : Option String) :
    String :=
  headText (headLines "HTTP/1.1 101 Switching Protocols"
    (acceptFields key subprotocol extensions))

/-- What a refusal says beyond its status. -/
def challenge (status : ℕ) : List (String × String) :=
  if status = 401 then [("WWW-Authenticate", "Basic realm=\"OCPP\", charset=\"UTF-8\"")]
  else if status = 426 then [("Sec-WebSocket-Version", "13")]
  else []

/-- The headers of a refusal. -/
def refusalFields (status : ℕ) : List (String × String) :=
  challenge status ++ [("Content-Length", "0"), ("Connection", "close")]

/-- The line a refusal begins with. -/
def refusalLine (status : ℕ) (reason : String) : String :=
  "HTTP/1.1 " ++ toString status ++ " " ++ reason

/-- **The answer of a server that refuses.** -/
def refusalText (status : ℕ) (reason : String) : String :=
  headText (headLines (refusalLine status reason) (refusalFields status))

example : refusalText 426 "Upgrade Required" = "HTTP/1.1 426 Upgrade Required\r\n" ++
    "Sec-WebSocket-Version: 13\r\nContent-Length: 0\r\nConnection: close\r\n\r\n" := by
  decide +kernel

/-! ### The server -/

/-- Why an upgrade request is refused. -/
inductive UpgradeDefect where
  /-- It asks for no upgrade. -/
  | notAnUpgrade
  /-- It names another version of the protocol, or none. -/
  | unsupportedVersion
  /-- It has no key. -/
  | missingKey
deriving DecidableEq, Repr

/-- The status and the reason phrase to answer with. -/
def UpgradeDefect.status : UpgradeDefect → ℕ × String
  | .unsupportedVersion => (426, "Upgrade Required")
  | .notAnUpgrade | .missingKey => (400, "Bad Request")

/-- What is wrong with a request, if anything. -/
def Head.upgradeDefect (head : Head) : Option UpgradeDefect :=
  if !head.headerLists "upgrade" "websocket" || !head.headerLists "connection" "upgrade" then
    some .notAnUpgrade
  else if head.header "sec-websocket-version" ≠ some "13" then some .unsupportedVersion
  else if (head.header "sec-websocket-key").isNone then some .missingKey
  else none

/-- **Reads a client's request**: the request, its head, and the chunks that are left. -/
def readRequest (chunks : List (List UInt8)) :
    Except UpgradeError (UpgradeRequest × Head × List (List UInt8)) :=
  match Head.readHead chunks with
  | .error error => .error error
  | .ok (head, left) =>
    match UpgradeRequest.readTarget head.target with
    | some path => .ok (⟨path, head.headers⟩, head, left)
    | none =>
      .error (.configuration ("unexpected method " ++
        String.ofList ((UpgradeRequest.splitWhitespace head.target.toList).getD 0 [])))

/-- The versions a request offers, in its order. -/
def Head.subprotocols (head : Head) : List Version :=
  match head.headerList "sec-websocket-protocol" with
  | some value => offeredVersions value
  | none => []

/-- The other end of a socket, as TLS knows it. -/
structure Peer where
  /-- The certificate it has presented. -/
  certificate : Option (List UInt8)
  /-- Whether the socket is one over TLS. -/
  tls : Bool

/-- How a peer has authenticated. -/
def Peer.profile (peer : Peer) : SecurityProfile :=
  match peer.certificate, peer.tls with
  | some _, _ => .tlsClientCertificate
  | none, true => .tlsBasicAuth
  | none, false => .basicAuth

/-- What an authenticator is asked. -/
structure Auth where
  /-- Who the peer says it is. -/
  identity : Identity
  /-- How it shows that. -/
  credentials : Credentials
  /-- How it is connected. -/
  profile : SecurityProfile
  /-- The path it asked for. -/
  path : String
  /-- The versions it offers. -/
  offered : List Version

/-- What an authenticator answers. -/
inductive AuthOutcome where
  /-- It is let in. -/
  | accept
  /-- Its credentials are wrong. -/
  | reject
  /-- It is not known. -/
  | unknown
deriving DecidableEq, Repr

/-- **A server of the CSMS.** The authenticator is the application's. -/
structure CsmsServer where
  /-- The versions it speaks. -/
  versions : Subprotocol
  /-- Whether it compresses. -/
  compression : Bool
  /-- How many sessions it has at most. -/
  maxConnections : ℕ
  /-- Whom it lets in. -/
  authenticate : Auth → AuthOutcome

/-- What has become of a connection, on the side of the server. -/
inductive Admission where
  /-- It was refused. -/
  | refused (refusal : Refusal)
  /-- It was accepted without a version, and is closed. -/
  | noSubprotocol (identity : Identity)
  /-- There is a session, of this identity and version, compressed in this way; some bytes have
  arrived already. -/
  | session (identity : Identity) (version : Version) (deflate : Option Ws.DeflateParams)
      (rest : List UInt8)

section Server

variable [StandardBase64]

/-- **Whether a request is let in**, before anything is agreed on. -/
def CsmsServer.admits (server : CsmsServer) (peer : Peer) (sessions : ℕ) (request : UpgradeRequest)
    (head : Head) : Except Refusal Identity :=
  match head.upgradeDefect with
  | some defect => .error ⟨request.identity, defect.status.1, defect.status.2⟩
  | none =>
    match Csms.accept request peer.certificate with
    | .error refusal => .error refusal
    | .ok (identity, credentials) =>
      match server.authenticate ⟨identity, credentials, peer.profile, request.path,
        head.subprotocols⟩ with
      | .reject => .error ⟨some identity, 401, "Unauthorized"⟩
      | .unknown => .error ⟨some identity, 404, "Not Found"⟩
      | .accept =>
        if server.maxConnections ≤ sessions then
          .error ⟨some identity, 503, "Service Unavailable"⟩
        else .ok identity

/-- How a server compresses, and what it says of that. -/
def compressionFor (compression : Bool) (head : Head) : Option (Ws.DeflateParams × String) :=
  if compression then Ws.acceptOffer (head.headerList "sec-websocket-extensions") else none

/-- **A server takes a connection**: what it answers, what has become of the connection, and
the chunks that are left. -/
def CsmsServer.accept [Sha1] (server : CsmsServer) (peer : Peer) (sessions : ℕ)
    (chunks : List (List UInt8)) : Except UpgradeError (String × Admission × List (List UInt8)) :=
  match readRequest chunks with
  | .error error => .error error
  | .ok (request, head, left) =>
    match server.admits peer sessions request head with
    | .error refusal => .ok (refusalText refusal.status refusal.reason, .refused refusal, left)
    | .ok identity =>
      let key := (head.header "sec-websocket-key").getD ""
      match (Subprotocol.new head.subprotocols).select server.versions.offered with
      | none => .ok (acceptText key none none, .noSubprotocol identity, left)
      | some version =>
        let deflate := compressionFor server.compression head
        .ok (acceptText key (some version.subprotocol) (deflate.map Prod.snd),
          .session identity version (deflate.map Prod.fst) head.rest, left)

end Server

/-! ### The client -/

/-- What a client has come to know. -/
structure Connected where
  /-- The version. -/
  version : Version
  /-- How messages are compressed, when they are. -/
  deflate : Option Ws.DeflateParams
  /-- The bytes that arrived after the answer. -/
  rest : List UInt8

/-- What a client's handshake yields. -/
structure ClientHandshake where
  /-- The version the server has selected. -/
  subprotocol : Option String
  /-- The extensions it has selected. -/
  extensions : Option String
  /-- The bytes that arrived after the answer. -/
  rest : List UInt8

/-- The status in the first line of an answer. -/
def readStatus (target : String) : Option ℕ :=
  ((UpgradeRequest.splitWhitespace target.toList)[1]?).bind (Integers.parseUnsigned 65535)

/-- **The client's half of the handshake**, once its request is written: what the answer says, and
the chunks that are left. -/
def clientHandshake [StandardBase64] [Sha1] (key : String) (chunks : List (List UInt8)) :
    Except UpgradeError (ClientHandshake × List (List UInt8)) :=
  match Head.readHead chunks with
  | .error error => .error error
  | .ok (head, left) =>
    match readStatus head.target with
    | none => .error (.configuration "malformed HTTP response")
    | some status =>
      if status ≠ 101 then .error (.rejected status)
      else if !head.headerLists "upgrade" "websocket" ||
          !head.headerLists "connection" "upgrade" then
        .error (.configuration "the server did not switch to the WebSocket protocol")
      else if head.header "sec-websocket-accept" ≠ some (acceptKey key) then
        .error (.configuration
          "the server's Sec-WebSocket-Accept does not match the key that was sent")
      else
        .ok (⟨head.header "sec-websocket-protocol", head.header "sec-websocket-extensions",
          head.rest⟩, left)

/-- **What connects a station.** -/
structure Connector where
  /-- The versions it offers. -/
  versions : Subprotocol
  /-- Whether it offers to compress. -/
  compression : Bool

namespace Connector

/-- The extensions that are offered. -/
def extensions (connector : Connector) : Option String :=
  if connector.compression then some ({} : Ws.DeflateParams).clientOffer else none

/-- What is asked for, in the name of a request. -/
def offer (connector : Connector) (request : ClientRequest) : UpgradeOffer where
  toClientRequest := request
  subprotocols := connector.versions.headerValue
  extensions := connector.extensions

/-- **A station reads the answer** to what it has offered. -/
def connect [StandardBase64] [Sha1] (connector : Connector) (key : String)
    (chunks : List (List UInt8)) : Except UpgradeError (Connected × List (List UInt8)) :=
  match clientHandshake key chunks with
  | .error error => .error error
  | .ok (handshake, left) =>
    match connector.versions.accept handshake.subprotocol with
    | .error error => .error (.negotiation error)
    | .ok version =>
      if connector.extensions.isSome then
        match Ws.acceptResponse handshake.extensions with
        | .ok deflate => .ok (⟨version, deflate, handshake.rest⟩, left)
        | .error error => .error (.deflate error)
      else .ok (⟨version, none, handshake.rest⟩, left)

end Connector

/-! ### What is written is read -/

/-- A name as it is read: without white space around it, and in lower case. -/
def lowerName (name : String) : String := String.ofList ((trimSpace name.toList).map Char.toLower)

/-- **What is written can be read**: nothing ends a line or a name before it does. -/
structure Writable (first : String) (fields : List (String × String)) : Prop where
  /-- The first line is one. -/
  line : IsLine first.toList
  /-- The names have no colon, and end no line. -/
  name : ∀ field ∈ fields, ':' ∉ field.1.toList ∧ '\n' ∉ field.1.toList
  /-- The values are kept. -/
  value : ∀ field ∈ fields, IsField field.2

theorem Writable.isLine {first : String} {fields : List (String × String)}
    (h : Writable first fields) : ∀ line ∈ headLines first fields, IsLine line := by
  intro line hline
  rcases List.mem_cons.mp hline with rfl | hline
  · exact h.line
  · obtain ⟨field, hfield, rfl⟩ := List.mem_map.mp hline
    exact IsLine.headerLine (h.name field hfield).2 (h.value field hfield)

/-- The head that is read of it. -/
theorem Writable.ofLines {first : String} {fields : List (String × String)}
    (h : Writable first fields) (rest : List UInt8) : Head.ofLines (headLines first fields) rest =
      ⟨first, fields.map fun field => (lowerName field.1, field.2), rest⟩ := by
  have hfields : (fields.map fun field => headerLine field.1 field.2).filterMap parseHeader =
      fields.map fun field => (lowerName field.1, field.2) := by
    rw [List.filterMap_map, ← List.filterMap_eq_map]
    refine List.filterMap_congr fun field hfield => ?_
    exact parseHeader_headerLine (h.name field hfield).1 (h.value field hfield)
  rw [Head.ofLines, headLines, List.headD_cons, List.tail_cons, hfields, String.ofList_toList]

/-- **What is written is read**, however its bytes are cut. -/
theorem Writable.readHead {first : String} {fields : List (String × String)}
    (h : Writable first fields) {more : List UInt8} {chunks : List (List UInt8)}
    (hchunks : [] ∉ chunks)
    (hstream : chunks.flatten = Utf8.encode (headText (headLines first fields)) ++ more)
    (hlength : (Utf8.encode (headText (headLines first fields))).length ≤ maxHead + 1) :
    ∃ rest left, Head.readHead chunks =
        .ok (⟨first, fields.map fun field => (lowerName field.1, field.2), rest⟩, left) ∧
      rest ++ left.flatten = more := by
  obtain ⟨rest, left, hread, hrest⟩ : ∃ rest left, Head.readHead chunks =
      .ok (Head.ofLines (headLines first fields) rest, left) ∧ rest ++ left.flatten = more :=
    Head.readHead_written (List.cons_ne_nil _ _) h.isLine hchunks hstream hlength
  exact ⟨rest, left, by rw [hread, h.ofLines], hrest⟩

/-! ### The headers that are read -/

theorem lowerName_names : lowerName "Host" = "host" ∧ lowerName "Upgrade" = "upgrade" ∧
    lowerName "Connection" = "connection" ∧
    lowerName "Sec-WebSocket-Version" = "sec-websocket-version" ∧
    lowerName "Sec-WebSocket-Key" = "sec-websocket-key" ∧
    lowerName "Sec-WebSocket-Accept" = "sec-websocket-accept" ∧
    lowerName "Sec-WebSocket-Protocol" = "sec-websocket-protocol" ∧
    lowerName "Sec-WebSocket-Extensions" = "sec-websocket-extensions" ∧
    lowerName "Authorization" = "authorization" := by
  decide +kernel

theorem map_lowerName_optionalField (name : String) (value : Option String) :
    ((optionalField name value).map fun field => (lowerName field.1, field.2)) =
      optionalField (lowerName name) value := by
  cases value <;> rfl

/-- The headers of a request, as they are read. -/
def UpgradeOffer.headers (offer : UpgradeOffer) (key : String) : List (String × String) :=
  [("host", offer.host), ("upgrade", "websocket"), ("connection", "Upgrade"),
    ("sec-websocket-version", "13"), ("sec-websocket-key", key),
    ("sec-websocket-protocol", offer.subprotocols)] ++
    optionalField "authorization" offer.authorization ++
    optionalField "sec-websocket-extensions" offer.extensions

theorem UpgradeOffer.map_lowerName_fields (offer : UpgradeOffer) (key : String) :
    ((offer.fields key).map fun field => (lowerName field.1, field.2)) = offer.headers key := by
  simp only [UpgradeOffer.fields, UpgradeOffer.headers, List.map_append, List.map_cons,
    List.map_nil, map_lowerName_optionalField, lowerName_names]

/-- What is looked up in a request. -/
theorem UpgradeOffer.lookups (offer : UpgradeOffer) (key target : String) (rest : List UInt8) :
    let head : Head := ⟨target, offer.headers key, rest⟩
    head.headerList "upgrade" = some "websocket" ∧
      head.headerList "connection" = some "Upgrade" ∧
      head.header "sec-websocket-version" = some "13" ∧
      head.header "sec-websocket-key" = some key ∧
      head.headerList "sec-websocket-protocol" = some offer.subprotocols ∧
      head.headerList "sec-websocket-extensions" = offer.extensions ∧
      head.header "authorization" = offer.authorization := by
  rcases offer with ⟨⟨host, path, _ | authorization⟩, subprotocols, _ | extensions⟩
  all_goals
    simp [UpgradeOffer.headers, Head.headerList, Head.header, optionalField]

/-- The headers of an answer that accepts, as they are read. -/
def acceptHeaders [StandardBase64] [Sha1] (key : String) (subprotocol extensions : Option String) :
    List (String × String) :=
  [("upgrade", "websocket"), ("connection", "Upgrade"),
    ("sec-websocket-accept", acceptKey key)] ++
    optionalField "sec-websocket-protocol" subprotocol ++
    optionalField "sec-websocket-extensions" extensions

theorem map_lowerName_acceptFields [StandardBase64] [Sha1] (key : String)
    (subprotocol extensions : Option String) :
    ((acceptFields key subprotocol extensions).map fun field => (lowerName field.1, field.2)) =
      acceptHeaders key subprotocol extensions := by
  simp only [acceptFields, acceptHeaders, List.map_append, List.map_cons, List.map_nil,
    map_lowerName_optionalField, lowerName_names]

/-- What is looked up in an answer. -/
theorem acceptHeaders_lookups [StandardBase64] [Sha1] (key target : String)
    (subprotocol extensions : Option String) (rest : List UInt8) :
    let head : Head := ⟨target, acceptHeaders key subprotocol extensions, rest⟩
    head.headerList "upgrade" = some "websocket" ∧
      head.headerList "connection" = some "Upgrade" ∧
      head.header "sec-websocket-accept" = some (acceptKey key) ∧
      head.header "sec-websocket-protocol" = subprotocol ∧
      head.header "sec-websocket-extensions" = extensions := by
  rcases subprotocol with _ | subprotocol <;> rcases extensions with _ | extensions
  all_goals
    simp [acceptHeaders, Head.headerList, Head.header, optionalField]

/-- Both heads ask for the upgrade. -/
theorem Head.headerLists_upgrade {head : Head}
    (hupgrade : head.headerList "upgrade" = some "websocket")
    (hconnection : head.headerList "connection" = some "Upgrade") :
    head.headerLists "upgrade" "websocket" = true ∧
      head.headerLists "connection" "upgrade" = true := by
  rw [headerLists, headerLists, hupgrade, hconnection]
  exact ⟨by decide, by decide⟩

/-! ### The request that arrives -/

/-- **A request that arrives as it is asked**: nothing in it ends before it does. -/
structure ClientRequest.Plain (request : ClientRequest) : Prop where
  /-- There is a path. -/
  nonempty : request.path.toList ≠ []
  /-- It has no white space. -/
  path : ∀ c ∈ request.path.toList, isUnicodeSpace c = false
  /-- The authority is a value. -/
  host : IsField request.host
  /-- The credentials are. -/
  authorization : ∀ value, request.authorization = some value → IsField value

theorem ClientRequest.Plain.requestLine {request : ClientRequest} (h : request.Plain) :
    IsLine request.requestLine.toList := by
  have hchars : request.requestLine.toList =
      "GET ".toList ++ request.path.toList ++ " HTTP/1.1".toList := by
    rw [ClientRequest.requestLine, String.toList_append, String.toList_append]
  rw [hchars]
  refine ⟨?_, ?_⟩
  · intro hnil
    exact h.nonempty (List.append_eq_nil_iff.mp (List.append_eq_nil_iff.mp hnil).1).2
  · intro hmem
    rcases List.mem_append.mp hmem with hmem | hmem
    · rcases List.mem_append.mp hmem with hmem | hmem
      · exact absurd hmem (by decide)
      · have hspace := h.path _ hmem
        rw [lineFeed_isUnicodeSpace] at hspace
        cases hspace
    · exact absurd hmem (by decide)

/-- Values that are joined by commas are a value. -/
theorem isField_intercalate {words : List (List Char)}
    (h : ∀ word ∈ words, word ≠ [] ∧ ∀ c ∈ word, isUnicodeSpace c = false) :
    IsField (String.ofList (List.intercalate [',', ' '] words)) := by
  -- the ends are ends of words, and no word has a line feed
  have hends : '\n' ∉ List.intercalate [',', ' '] words ∧
      ∀ hne : List.intercalate [',', ' '] words ≠ [],
        isUnicodeSpace ((List.intercalate [',', ' '] words).head hne) = false ∧
        isUnicodeSpace ((List.intercalate [',', ' '] words).getLast hne) = false := by
    induction words with
    | nil => exact ⟨List.not_mem_nil, fun hne => absurd rfl hne⟩
    | cons word words ih =>
        obtain ⟨hword, hspace⟩ := h word List.mem_cons_self
        have hfeed : '\n' ∉ word := by
          intro hmem
          have hseen := hspace _ hmem
          rw [lineFeed_isUnicodeSpace] at hseen
          cases hseen
        rcases words with _ | ⟨next, words⟩
        · have hone : List.intercalate [',', ' '] [word] = word := List.append_nil _
          simp only [hone]
          exact ⟨hfeed, fun hne => ⟨hspace _ (List.head_mem _), hspace _ (List.getLast_mem _)⟩⟩
        · obtain ⟨hrest, hlast⟩ := ih fun w hw => h w (List.mem_cons_of_mem _ hw)
          have hmore : List.intercalate [',', ' '] (word :: next :: words) =
              word ++ ([',', ' '] ++ List.intercalate [',', ' '] (next :: words)) := rfl
          have hnext : List.intercalate [',', ' '] (next :: words) ≠ [] := by
            obtain ⟨hne, -⟩ := h next (List.mem_cons_of_mem _ List.mem_cons_self)
            rcases words with _ | ⟨third, words⟩
            · have hone : List.intercalate [',', ' '] [next] = next := List.append_nil _
              rwa [hone]
            · exact List.append_ne_nil_of_left_ne_nil hne _
          simp only [hmore]
          refine ⟨?_, fun hne => ⟨?_, ?_⟩⟩
          · intro hmem
            rcases List.mem_append.mp hmem with hmem | hmem
            · exact hfeed hmem
            · rcases List.mem_append.mp hmem with hmem | hmem
              · exact absurd hmem (by decide)
              · exact hrest hmem
          · rw [List.head_append_of_ne_nil hword]
            exact hspace _ (List.head_mem _)
          · rw [List.getLast_append_of_ne_nil _ (List.append_ne_nil_of_right_ne_nil _ hnext),
              List.getLast_append_of_ne_nil _ hnext]
            exact (hlast hnext).2
  rw [IsField, String.toList_ofList]
  exact ⟨trimSpace_eq_self_iff.mpr hends.2, hends.1⟩

theorem forall_isUnicodeSpace {cs : List Char} (h : cs.all (fun c => !isUnicodeSpace c) = true) :
    ∀ c ∈ cs, isUnicodeSpace c = false := by
  intro c hc
  have hseen := List.all_eq_true.mp h c hc
  rwa [Bool.not_eq_true'] at hseen

theorem isField_subprotocol (version : Version) :
    version.subprotocol.toList ≠ [] ∧
      ∀ c ∈ version.subprotocol.toList, isUnicodeSpace c = false := by
  have hall : version.subprotocol.toList.all (fun c => !isUnicodeSpace c) = true := by
    cases version <;> decide
  exact ⟨by cases version <;> decide, forall_isUnicodeSpace hall⟩

theorem Subprotocol.isField_headerValue (offer : Subprotocol) : IsField offer.headerValue := by
  refine isField_intercalate fun word hword => ?_
  obtain ⟨version, -, rfl⟩ := List.mem_map.mp hword
  exact isField_subprotocol version

theorem Ws.isField_toHeader (params : Ws.DeflateParams) : IsField params.toHeader := by
  rcases params with ⟨_ | _, _ | _⟩ <;> decide

theorem Connector.isField_extensions {connector : Connector} {value : String}
    (h : connector.extensions = some value) : IsField value := by
  rw [Connector.extensions] at h
  split at h
  · obtain rfl := Option.some.inj h
    exact Ws.isField_toHeader _
  · cases h

theorem mem_optionalField {name : String} {value : Option String} {field : String × String}
    (h : field ∈ optionalField name value) : ∃ v, value = some v ∧ field = (name, v) := by
  cases value with
  | none => cases h
  | some v => exact ⟨v, rfl, List.mem_singleton.mp h⟩

/-- What holds of some fields, and of the value of an optional one, holds of all of them. -/
theorem forall_append_optionalField {p : String × String → Prop} {fields : List (String × String)}
    {name : String} {value : Option String} (h : ∀ field ∈ fields, p field)
    (hvalue : ∀ v, value = some v → p (name, v)) :
    ∀ field ∈ fields ++ optionalField name value, p field := by
  intro field hfield
  rcases List.mem_append.mp hfield with hfield | hfield
  · exact h field hfield
  · obtain ⟨v, hv, rfl⟩ := mem_optionalField hfield
    exact hvalue v hv

/-- What a client offers is written so that it can be read. -/
theorem Connector.writable {connector : Connector} {request : ClientRequest} (h : request.Plain)
    {key : String} (hkey : IsField key) :
    Writable (connector.offer request).requestLine ((connector.offer request).fields key) where
  line := h.requestLine
  name := by
    refine forall_append_optionalField (forall_append_optionalField ?_ fun _ _ => ?_)
      fun _ _ => ?_
    · intro field hfield
      simp only [List.mem_cons, List.not_mem_nil, or_false] at hfield
      rcases hfield with rfl | rfl | rfl | rfl | rfl | rfl
      all_goals
        dsimp only
        decide
    all_goals
      dsimp only
      decide
  value := by
    refine forall_append_optionalField (forall_append_optionalField ?_ h.authorization)
      fun _ => Connector.isField_extensions
    intro field hfield
    simp only [List.mem_cons, List.not_mem_nil, or_false] at hfield
    -- only the host, the key and the versions are not always the same
    rcases hfield with rfl | rfl | rfl | rfl | rfl | rfl
    · exact h.host
    · decide
    · decide
    · decide
    · exact hkey
    · exact connector.versions.isField_headerValue

/-- The bytes of a request arrive: cut in some way, with more after them. -/
structure Arrives (text : String) (more : List UInt8) (chunks : List (List UInt8)) : Prop where
  /-- No chunk is empty. -/
  nonempty : [] ∉ chunks
  /-- They are the bytes. -/
  stream : chunks.flatten = Utf8.encode text ++ more
  /-- They are not too many. -/
  fits : (Utf8.encode text).length ≤ maxHead + 1

/-- **The server reads what was asked**, however it is cut. -/
theorem readRequest_hello {connector : Connector} {request : ClientRequest} (h : request.Plain)
    {key : String} (hkey : IsField key) {early : List UInt8} {chunks : List (List UInt8)}
    (harrives : Arrives ((connector.offer request).text key) early chunks) :
    ∃ rest left, readRequest chunks =
        .ok (⟨request.path, (connector.offer request).headers key⟩,
          ⟨request.requestLine, (connector.offer request).headers key, rest⟩, left) ∧
      rest ++ left.flatten = early := by
  obtain ⟨rest, left, hread, hrest⟩ :=
    (Connector.writable h hkey).readHead harrives.nonempty harrives.stream harrives.fits
  rw [UpgradeOffer.map_lowerName_fields] at hread
  refine ⟨rest, left, ?_, hrest⟩
  have htarget : UpgradeRequest.readTarget (connector.offer request).requestLine =
      some request.path := readTarget_requestLine h.nonempty h.path
  simp only [readRequest, hread, htarget]
  rfl

/-- What it reads is what was asked. -/
theorem of_headers (connector : Connector) (request : ClientRequest) (key : String) :
    UpgradeRequest.Of request ⟨request.path, (connector.offer request).headers key⟩ where
  path := rfl
  authorization := ((connector.offer request).lookups key "" []).2.2.2.2.2.2

/-! ### The answer that arrives -/

/-- The refusals there are. -/
def refusals : List (ℕ × String) :=
  [(400, "Bad Request"), (401, "Unauthorized"), (404, "Not Found"), (426, "Upgrade Required"),
    (502, "Bad Gateway"), (503, "Service Unavailable")]

theorem readStatus_refusalLine : ∀ refusal ∈ refusals,
    readStatus (refusalLine refusal.1 refusal.2) = some refusal.1 ∧ refusal.1 ≠ 101 ∧
      IsLine (refusalLine refusal.1 refusal.2).toList := by
  decide +kernel

theorem readStatus_accept : readStatus "HTTP/1.1 101 Switching Protocols" = some 101 := by
  decide +kernel

theorem refusalFields_spec (status : ℕ) : ∀ field ∈ refusalFields status,
    (':' ∉ field.1.toList ∧ '\n' ∉ field.1.toList) ∧ IsField field.2 := by
  rw [refusalFields, challenge]
  split_ifs <;> decide +kernel

theorem writable_refusal {refusal : ℕ × String} (h : refusal ∈ refusals) :
    Writable (refusalLine refusal.1 refusal.2) (refusalFields refusal.1) where
  line := (readStatus_refusalLine refusal h).2.2
  name field hfield := (refusalFields_spec refusal.1 field hfield).1
  value field hfield := (refusalFields_spec refusal.1 field hfield).2

section

variable [StandardBase64] [LawfulStandardBase64] [Sha1]

theorem writable_accept {key : String} {subprotocol extensions : Option String}
    (hsubprotocol : ∀ value, subprotocol = some value → IsField value)
    (hextensions : ∀ value, extensions = some value → IsField value) :
    Writable "HTTP/1.1 101 Switching Protocols" (acceptFields key subprotocol extensions) where
  line := by decide +kernel
  name := by
    refine forall_append_optionalField (forall_append_optionalField ?_ fun _ _ => ?_)
      fun _ _ => ?_
    · intro field hfield
      simp only [List.mem_cons, List.not_mem_nil, or_false] at hfield
      rcases hfield with rfl | rfl | rfl
      all_goals
        dsimp only
        decide
    all_goals
      dsimp only
      decide
  value := by
    refine forall_append_optionalField (forall_append_optionalField ?_ hsubprotocol) hextensions
    intro field hfield
    simp only [List.mem_cons, List.not_mem_nil, or_false] at hfield
    rcases hfield with rfl | rfl | rfl
    · decide
    · decide
    · exact isField_acceptKey key

omit [LawfulStandardBase64] in
/-- **A client reads a refusal as the status it has.** -/
theorem clientHandshake_refusal {refusal : ℕ × String} (h : refusal ∈ refusals) {key : String}
    {frames : List UInt8} {chunks : List (List UInt8)}
    (harrives : Arrives (refusalText refusal.1 refusal.2) frames chunks) :
    clientHandshake key chunks = .error (.rejected refusal.1) := by
  obtain ⟨rest, left, hread, -⟩ :=
    (writable_refusal h).readHead harrives.nonempty harrives.stream harrives.fits
  obtain ⟨hstatus, hne, -⟩ := readStatus_refusalLine refusal h
  simp only [clientHandshake, hread, hstatus, ne_eq, hne, not_false_eq_true, if_true]

/-- **A client reads an answer as what it says**, when it is the one to its key. -/
theorem clientHandshake_accept {key : String} {subprotocol extensions : Option String}
    (hsubprotocol : ∀ value, subprotocol = some value → IsField value)
    (hextensions : ∀ value, extensions = some value → IsField value)
    {frames : List UInt8} {chunks : List (List UInt8)}
    (harrives : Arrives (acceptText key subprotocol extensions) frames chunks) :
    ∃ rest left, clientHandshake key chunks = .ok (⟨subprotocol, extensions, rest⟩, left) ∧
      rest ++ left.flatten = frames := by
  obtain ⟨rest, left, hread, hrest⟩ := (writable_accept hsubprotocol hextensions).readHead
    harrives.nonempty harrives.stream harrives.fits
  rw [map_lowerName_acceptFields] at hread
  obtain ⟨hupgrade, hconnection, haccept, hprotocol, hextension⟩ :=
    acceptHeaders_lookups key "HTTP/1.1 101 Switching Protocols" subprotocol extensions rest
  obtain ⟨hlists, hlists'⟩ := Head.headerLists_upgrade hupgrade hconnection
  refine ⟨rest, left, ?_, hrest⟩
  simp only [clientHandshake, hread, readStatus_accept, ne_eq, not_true_eq_false, if_false, hlists,
    hlists', Bool.not_true, Bool.or_self, Bool.false_eq_true, haccept, hprotocol, hextension]

end

/-! ### The two sides -/

/-- The refusals of a server, before it asks the application. -/
theorem Csms.refusal_of_accept [StandardBase64] {request : UpgradeRequest}
    {certificate : Option (List UInt8)} {refusal : Refusal}
    (h : Csms.accept request certificate = .error refusal) :
    (refusal.status, refusal.reason) ∈ refusals := by
  have hbad : (400, "Bad Request") ∈ refusals := by decide
  have hunauthorized : (401, "Unauthorized") ∈ refusals := by decide
  unfold Csms.accept at h
  split at h
  · cases h
    exact hbad
  · dsimp only at h
    split at h
    · split at h
      · cases h
        exact hunauthorized
      · cases h
    · cases h

/-- The refusals of a server. -/
theorem CsmsServer.refusal_of_admits [StandardBase64] {server : CsmsServer} {peer : Peer}
    {sessions : ℕ} {request : UpgradeRequest} {head : Head} {refusal : Refusal}
    (h : server.admits peer sessions request head = .error refusal) :
    (refusal.status, refusal.reason) ∈ refusals := by
  have hdefect : ∀ defect : UpgradeDefect, defect.status ∈ refusals := by
    intro defect
    cases defect <;> decide
  have hunauthorized : (401, "Unauthorized") ∈ refusals := by decide
  have hnotFound : (404, "Not Found") ∈ refusals := by decide
  have hfull : (503, "Service Unavailable") ∈ refusals := by decide
  rw [admits] at h
  split at h
  · next defect _ =>
    cases h
    exact hdefect defect
  · split at h
    · next refusal' haccept =>
      cases h
      exact Csms.refusal_of_accept haccept
    · split at h
      · cases h
        exact hunauthorized
      · cases h
        exact hnotFound
      · split at h
        · cases h
          exact hfull
        · cases h

/-- Whom it lets in is who the path says it is. -/
theorem CsmsServer.identity_of_admits [StandardBase64] {server : CsmsServer} {peer : Peer}
    {sessions : ℕ} {request : UpgradeRequest} {head : Head} {identity : Identity}
    (h : server.admits peer sessions request head = .ok identity) :
    request.identity = some identity := by
  have haccept : ∀ {certificate : Option (List UInt8)} {credentials : Credentials}
      {identity : Identity}, Csms.accept request certificate = .ok (identity, credentials) →
        request.identity = some identity := by
    intro certificate credentials identity h
    unfold Csms.accept at h
    split at h
    · cases h
    · next hidentity =>
      dsimp only at h
      split at h
      · split at h
        · cases h
        · cases h
          exact hidentity
      · cases h
        exact hidentity
  rw [admits] at h
  split at h
  · cases h
  · split at h
    · cases h
    · next haccepted =>
      split at h
      · cases h
      · cases h
      · split at h
        · cases h
        · cases h
          exact haccept haccepted

/-- **What a station comes to know** of what the server has decided: the status of a refusal, that
there is no version in common, or the version and the way to compress. The frames that have
arrived are kept. -/
inductive Learns (frames : List UInt8) : Admission →
    Except UpgradeError (Connected × List (List UInt8)) → Prop
  /-- It was refused. -/
  | refused (refusal : Refusal) :
      Learns frames (.refused refusal) (.error (.rejected refusal.status))
  /-- There is no version in common. -/
  | noSubprotocol (identity : Identity) :
      Learns frames (.noSubprotocol identity) (.error (.negotiation .noSubprotocol))
  /-- There is a session. -/
  | session (identity : Identity) (version : Version) (deflate : Option Ws.DeflateParams)
      (early : List UInt8) {rest : List UInt8} {left : List (List UInt8)}
      (kept : rest ++ left.flatten = frames) :
      Learns frames (.session identity version deflate early)
        (.ok (⟨version, deflate, rest⟩, left))

/-- How messages are compressed, if both sides want to. -/
def commonDeflate (client server : Bool) : Option Ws.DeflateParams :=
  if client && server then some {} else none

/-- **What the two sides of a session have agreed on**: the version is the first that the client
prefers and the server speaks, and messages are compressed if both want to. -/
structure Admission.Agreed (connector : Connector) (request : ClientRequest) (server : CsmsServer)
    (early : List UInt8) (left : List (List UInt8)) (admission : Admission) : Prop where
  /-- Without a version in common there is no session. -/
  none : ∀ identity, admission = .noSubprotocol identity →
    ∀ version ∈ connector.versions.offered, version ∉ server.versions.offered
  /-- Who it is, the version, the way to compress, and the frames that came early. -/
  session : ∀ identity version deflate rest, admission = .session identity version deflate rest →
    (UpgradeRequest.mk request.path []).identity = some identity ∧
      (connector.versions.offered.find? fun v => v ∈ server.versions.offered) = some version ∧
      deflate = commonDeflate connector.compression server.compression ∧
      rest ++ left.flatten = early

section

variable [StandardBase64] [LawfulStandardBase64] [Sha1]

omit [StandardBase64] [LawfulStandardBase64] [Sha1] in
/-- How the server compresses, and what it says of that. -/
theorem compressionFor_headers (connector : Connector) (request : ClientRequest)
    (compression : Bool) (key target : String) (rest : List UInt8) :
    compressionFor compression ⟨target, (connector.offer request).headers key, rest⟩ =
      (commonDeflate connector.compression compression).map fun params =>
        (params, params.toHeader) := by
  obtain ⟨-, -, -, -, -, hextensions, -⟩ :=
    (connector.offer request).lookups key target rest
  rw [compressionFor, hextensions]
  have hoffer : (connector.offer request).extensions = connector.extensions := rfl
  rw [hoffer, Connector.extensions]
  cases connector.compression <;> cases compression
  · rfl
  · rfl
  · rfl
  · exact Ws.acceptOffer_clientOffer {}

omit [StandardBase64] [LawfulStandardBase64] [Sha1] in
/-- A client that offers to compress reads the answer as what is common to both. -/
theorem acceptResponse_commonDeflate (server : Bool) :
    Ws.acceptResponse ((commonDeflate true server).map Ws.DeflateParams.toHeader) =
      .ok (commonDeflate true server) := by
  cases server
  · rfl
  · exact Ws.acceptResponse_toHeader {}

/-- **A client that has offered reads the answer** as the version and the way to compress that it
names. -/
theorem connect_accept {connector : Connector} {key : String} {version : Version}
    (haccept : connector.versions.accept (some version.subprotocol) = .ok version)
    (compression : Bool) {frames : List UInt8} {chunks : List (List UInt8)}
    (harrives : Arrives (acceptText key (some version.subprotocol)
      ((commonDeflate connector.compression compression).map Ws.DeflateParams.toHeader)) frames
        chunks) :
    ∃ rest left, connector.connect key chunks =
        .ok (⟨version, commonDeflate connector.compression compression, rest⟩, left) ∧
      rest ++ left.flatten = frames := by
  have hversion : ∀ value, some version.subprotocol = some value → IsField value := by
    rintro value ⟨⟩
    exact IsField.of_forall (isField_subprotocol version).2
  have hextensions : ∀ value, (commonDeflate connector.compression compression).map
      Ws.DeflateParams.toHeader = some value → IsField value := by
    intro value hvalue
    obtain ⟨params, -, rfl⟩ := Option.map_eq_some_iff.mp hvalue
    exact Ws.isField_toHeader params
  obtain ⟨rest, left, hclient, hrest⟩ :=
    clientHandshake_accept hversion hextensions harrives
  refine ⟨rest, left, ?_, hrest⟩
  simp only [Connector.connect, hclient, haccept]
  -- the answer is looked at for compression only if it was offered
  rcases hcompression : connector.compression with _ | _
  · have hnone : connector.extensions.isSome = false := by
      rw [Connector.extensions, hcompression]
      rfl
    rw [if_neg (by rw [hnone]; decide)]
    rfl
  · have hsome : connector.extensions.isSome = true := by
      rw [Connector.extensions, hcompression]
      rfl
    rw [if_pos hsome, acceptResponse_commonDeflate]

/-- **A station learns what the server has decided**, however the bytes are cut on either way. -/
theorem connect_of_accept {connector : Connector} {request : ClientRequest} (h : request.Plain)
    {key : String} (hkey : IsField key) {early : List UInt8} {chunks : List (List UInt8)}
    (harrives : Arrives ((connector.offer request).text key) early chunks) (server : CsmsServer)
    (peer : Peer) (sessions : ℕ) :
    ∃ response admission left,
      server.accept peer sessions chunks = .ok (response, admission, left) ∧
      admission.Agreed connector request server early left ∧
      ∀ frames chunks', Arrives response frames chunks' →
        Learns frames admission (connector.connect key chunks') := by
  obtain ⟨rest, left, hread, hrest⟩ := readRequest_hello h hkey harrives
  obtain ⟨-, -, -, hheader, hprotocol, -, -⟩ :=
    (connector.offer request).lookups key request.requestLine rest
  have hcompression := compressionFor_headers connector request server.compression key
    request.requestLine rest
  generalize hhead : (⟨request.requestLine, (connector.offer request).headers key, rest⟩ : Head) =
    head at hread hheader hprotocol hcompression
  have hkept : head.rest = rest := by rw [← hhead]
  generalize hasked : (⟨request.path, (connector.offer request).headers key⟩ : UpgradeRequest) =
    asked at hread
  have hpath : asked.identity = (UpgradeRequest.mk request.path []).identity := by
    rw [← hasked]
    rfl
  have hoffered : head.subprotocols = connector.versions.offered := by
    rw [Head.subprotocols, hprotocol]
    exact connector.versions.offeredVersions_headerValue
  have hselect : (Subprotocol.new head.subprotocols).select server.versions.offered =
      connector.versions.offered.find? fun v => v ∈ server.versions.offered := by
    rw [hoffered, ← connector.versions.offeredVersions_headerValue]
    exact Subprotocol.select_offeredVersions _ _
  rcases hadmits : server.admits peer sessions asked head with refusal | identity
  · -- a refusal is read as the status it has
    refine ⟨refusalText refusal.status refusal.reason, .refused refusal, left, ?_, ?_, ?_⟩
    · simp only [CsmsServer.accept, hread, hadmits]
    · refine ⟨?_, ?_⟩
      · rintro identity ⟨⟩
      · rintro identity version deflate rest ⟨⟩
    · intro frames chunks' harrives'
      have hclient : clientHandshake key chunks' = .error (.rejected refusal.status) :=
        clientHandshake_refusal (CsmsServer.refusal_of_admits hadmits) harrives'
      rw [Connector.connect, hclient]
      exact Learns.refused refusal
  · rcases hfind : connector.versions.offered.find? fun v => v ∈ server.versions.offered with
      _ | version
    · -- the answer says that there is no version in common
      rw [hfind] at hselect
      refine ⟨acceptText key none none, .noSubprotocol identity, left, ?_, ?_, ?_⟩
      · simp only [CsmsServer.accept, hread, hadmits, hselect, hheader, Option.getD_some]
      · refine ⟨?_, ?_⟩
        · rintro identity - version hversion hspoken
          have hnone := List.find?_eq_none.mp hfind version hversion
          exact hnone (decide_eq_true hspoken)
        · rintro identity version deflate rest ⟨⟩
      · intro frames chunks' harrives'
        obtain ⟨rest', left', hclient, -⟩ :=
          clientHandshake_accept (by rintro _ ⟨⟩) (by rintro _ ⟨⟩) harrives'
        rw [Connector.connect, hclient]
        exact Learns.noSubprotocol identity
    · -- the version that is selected is one that was offered
      rw [hfind] at hselect
      have haccept : connector.versions.accept (some version.subprotocol) = .ok version :=
        Subprotocol.accept_of_select hfind
      have hnames : ((commonDeflate connector.compression server.compression).map fun params =>
          (params, params.toHeader)).map Prod.fst =
            commonDeflate connector.compression server.compression := by
        rw [Option.map_map]
        exact Option.map_id'
      have hheaders : ((commonDeflate connector.compression server.compression).map fun params =>
          (params, params.toHeader)).map Prod.snd =
            (commonDeflate connector.compression server.compression).map
              Ws.DeflateParams.toHeader := Option.map_map _ _ _
      refine ⟨acceptText key (some version.subprotocol)
        ((commonDeflate connector.compression server.compression).map Ws.DeflateParams.toHeader),
        .session identity version
          (commonDeflate connector.compression server.compression) rest, left, ?_, ?_, ?_⟩
      · simp only [CsmsServer.accept, hread, hadmits, hselect, hheader, Option.getD_some,
          hcompression, hnames, hheaders, hkept]
      · refine ⟨?_, ?_⟩
        · rintro identity ⟨⟩
        · rintro identity' version' deflate rest' ⟨⟩
          exact ⟨hpath ▸ CsmsServer.identity_of_admits hadmits, hfind, rfl, hrest⟩
      · intro frames chunks' harrives'
        obtain ⟨rest', left', hclient, hframes⟩ := connect_accept haccept _ harrives'
        rw [hclient]
        exact Learns.session identity version _ rest hframes

end

/-- **A local controller**, which relays stations to a CSMS. -/
structure RelayController extends LocalController where
  /-- The versions it lets through, when it does not let all of them through. -/
  versions : Option Subprotocol
  /-- Whether it compresses, on either leg. -/
  compression : Bool

namespace RelayController

/-- What is offered upstream of what a station has offered. -/
def northbound (controller : RelayController) (offered : Subprotocol) : Subprotocol :=
  match controller.versions with
  | some limit => Subprotocol.new (offered.offered.filter fun v => v ∈ limit.offered)
  | none => offered

variable [Uris]

/-- **What a controller asks upstream** for a station, or why it refuses it. -/
def ask (controller : RelayController) (request : UpgradeRequest) (head : Head) :
    Except (ℕ × String) (Identity × Connector × ClientRequest) :=
  match head.upgradeDefect with
  | some defect => .error defect.status
  | none =>
    match request.identity with
    | none => .error (400, "Bad Request")
    | some identity =>
      match controller.connectUpstream identity (request.header "authorization") with
      | .error _ => .error (502, "Bad Gateway")
      | .ok (_, _, _, client) =>
        .ok (identity, ⟨controller.northbound (Subprotocol.new head.subprotocols),
          controller.compression⟩, client)

end RelayController

section

variable [StandardBase64] [Sha1]

/-- **A controller reads the answer** of the CSMS. A way to compress that it cannot read is left
aside, where a station gives up. -/
def Connector.connectNorth (connector : Connector) (key : String) (chunks : List (List UInt8)) :
    Except UpgradeError (Connected × List (List UInt8)) :=
  match clientHandshake key chunks with
  | .error error => .error error
  | .ok (handshake, left) =>
    match connector.versions.accept handshake.subprotocol with
    | .error error => .error (.negotiation error)
    | .ok version =>
      if connector.extensions.isSome then
        match Ws.acceptResponse handshake.extensions with
        | .ok (some params) => .ok (⟨version, some params, handshake.rest⟩, left)
        | _ => .ok (⟨version, none, handshake.rest⟩, left)
      else .ok (⟨version, none, handshake.rest⟩, left)

/-- **What a controller answers a station**, once it knows what has come of asking upstream: the
text, and the session there is. -/
def RelayController.answer (controller : RelayController) (head : Head)
    (upstream : Except UpgradeError (Connected × List (List UInt8))) :
    String × Option (Version × Option Ws.DeflateParams) :=
  match upstream with
  | .error _ => (refusalText 502 "Bad Gateway", none)
  | .ok (connected, _) =>
    let deflate := compressionFor controller.compression head
    (acceptText ((head.header "sec-websocket-key").getD "") (some connected.version.subprotocol)
      (deflate.map Prod.snd), some (connected.version, deflate.map Prod.fst))

end

/-- **What a station comes to know through a controller**: that there is no way to the CSMS, or the
version that the CSMS has selected. -/
inductive LearnsThrough (station : Connector) (controller : RelayController)
    (frames : List UInt8) : Admission → Except UpgradeError (Connected × List (List UInt8)) → Prop
  /-- The CSMS has refused. -/
  | refused (refusal : Refusal) :
      LearnsThrough station controller frames (.refused refusal) (.error (.rejected 502))
  /-- The CSMS has no version in common. -/
  | noSubprotocol (identity : Identity) :
      LearnsThrough station controller frames (.noSubprotocol identity) (.error (.rejected 502))
  /-- There is a session. -/
  | session (identity : Identity) (version : Version) (deflate : Option Ws.DeflateParams)
      (early : List UInt8) {rest : List UInt8} {left : List (List UInt8)}
      (kept : rest ++ left.flatten = frames) :
      LearnsThrough station controller frames (.session identity version deflate early)
        (.ok (⟨version, commonDeflate station.compression controller.compression, rest⟩, left))

/-- What a controller connects by, for a station. -/
def RelayController.north (controller : RelayController) (station : Connector) : Connector :=
  ⟨controller.northbound station.versions, controller.compression⟩

/-- Whether a controller lets a version through. -/
def RelayController.lets (controller : RelayController) (version : Version) : Bool :=
  controller.versions.all fun limit => version ∈ limit.offered

/-- What is first upstream is the first that is let through. -/
theorem RelayController.find?_northbound (controller : RelayController) (offered : Subprotocol)
    (p : Version → Bool) : (controller.northbound offered).offered.find? p =
      offered.offered.find? fun v => controller.lets v && p v := by
  rw [northbound]
  rcases hversions : controller.versions with _ | limit
  · refine List.find?_congr fun v _ => ?_
    rw [lets, hversions]
    rfl
  · have hlets : ∀ v, controller.lets v = decide (v ∈ limit.offered) := by
      intro v
      rw [lets, hversions]
      rfl
    dsimp only
    rw [Subprotocol.new, Subprotocol.find?_foldl_pushNew, List.nil_append, List.find?_filter]
    refine List.find?_congr fun v _ => ?_
    rw [hlets, Bool.decide_and, Bool.decide_eq_true, Bool.decide_eq_true]

/-- A controller reads an answer as a station does, when a station can read it. -/
theorem Connector.connectNorth_eq [StandardBase64] [Sha1] {connector : Connector} {key : String}
    {chunks : List (List UInt8)}
    (h : ∀ error, connector.connect key chunks ≠ .error (.deflate error)) :
    connector.connectNorth key chunks = connector.connect key chunks := by
  rw [connect] at h ⊢
  rw [connectNorth]
  rcases hclient : clientHandshake key chunks with error | ⟨handshake, left⟩
  · rfl
  · rcases haccept : connector.versions.accept handshake.subprotocol with error | version
    · simp only [haccept]
    · simp only [hclient, haccept] at h ⊢
      split
      · next hoffered =>
        rw [if_pos hoffered] at h
        rcases hresponse : Ws.acceptResponse handshake.extensions with error | (_ | params)
        · rw [hresponse] at h
          exact absurd rfl (h error)
        · rfl
        · rfl
      · rfl

theorem Learns.north [StandardBase64] [Sha1] {connector : Connector} {key : String}
    {frames : List UInt8} {chunks : List (List UInt8)} {admission : Admission}
    (h : Learns frames admission (connector.connect key chunks)) :
    Learns frames admission (connector.connectNorth key chunks) := by
  rw [Connector.connectNorth_eq]
  · exact h
  · intro error heq
    rw [heq] at h
    cases h

variable [Uris] [LawfulUris] [StandardBase64] [LawfulStandardBase64] [Sha1]

omit [LawfulUris] [StandardBase64] [LawfulStandardBase64] [Sha1] in
/-- **A controller asks upstream in the name of the station.** -/
theorem RelayController.ask_of_identity {controller : RelayController} {station : Connector}
    {asked : ClientRequest} {key : String} {rest : List UInt8} {identity : Identity}
    (hidentity : (UpgradeRequest.mk asked.path []).identity = some identity)
    {host : String} {port : ℕ} {secure : Bool} {client : ClientRequest}
    (hup : controller.connectUpstream identity asked.authorization =
      .ok (host, port, secure, client)) :
    controller.ask ⟨asked.path, (station.offer asked).headers key⟩
        ⟨asked.requestLine, (station.offer asked).headers key, rest⟩ =
      .ok (identity, controller.north station, client) := by
  obtain ⟨hupgrade, hconnection, hversion, hkey, hprotocol, -, -⟩ :=
    (station.offer asked).lookups key asked.requestLine rest
  obtain ⟨hlists, hlists'⟩ := Head.headerLists_upgrade hupgrade hconnection
  have hdefect : Head.upgradeDefect ⟨asked.requestLine, (station.offer asked).headers key, rest⟩ =
      none := by
    simp only [Head.upgradeDefect, hlists, hlists', hversion, hkey, Bool.not_true, Bool.or_self,
      Bool.false_eq_true, if_false, ne_eq, not_true_eq_false, Option.isNone_some]
  have hpath : (UpgradeRequest.mk asked.path ((station.offer asked).headers key)).identity =
      some identity := hidentity
  have hauthorization := (of_headers station asked key).authorization
  have hoffered : Head.subprotocols
      ⟨asked.requestLine, (station.offer asked).headers key, rest⟩ = station.versions.offered := by
    rw [Head.subprotocols, hprotocol]
    exact station.versions.offeredVersions_headerValue
  simp only [ask, hdefect, hpath, hauthorization, hup, hoffered, Subprotocol.new_offered]
  rfl

omit [Uris] [LawfulUris] in
/-- What a station reads of a controller's answer. -/
theorem learnsThrough_of_answer {controller : RelayController} {station : Connector}
    {asked : ClientRequest} {key : String} {rest : List UInt8} {frames frames' : List UInt8}
    {admission : Admission} {upstream : Except UpgradeError (Connected × List (List UInt8))}
    (hlearns : Learns frames admission upstream)
    (hoffered : ∀ identity version deflate early,
      admission = .session identity version deflate early → version ∈ station.versions.offered)
    {chunks : List (List UInt8)}
    (harrives : Arrives (controller.answer
      ⟨asked.requestLine, (station.offer asked).headers key, rest⟩ upstream).1 frames' chunks) :
    LearnsThrough station controller frames' admission (station.connect key chunks) := by
  have hgateway : (502, "Bad Gateway") ∈ refusals := by decide
  cases hlearns with
  | refused refusal =>
      rw [Connector.connect, clientHandshake_refusal hgateway harrives]
      exact LearnsThrough.refused refusal
  | noSubprotocol identity =>
      rw [Connector.connect, clientHandshake_refusal hgateway harrives]
      exact LearnsThrough.noSubprotocol identity
  | session identity version deflate early kept =>
      obtain ⟨-, -, -, hheader, -, -, -⟩ :=
        (station.offer asked).lookups key asked.requestLine rest
      have haccept : station.versions.accept (some version.subprotocol) = .ok version := by
        simp only [Subprotocol.accept, Version.fromSubprotocol_subprotocol,
          hoffered identity version deflate early rfl, if_true]
      simp only [RelayController.answer, hheader, Option.getD_some, compressionFor_headers,
        Option.map_map] at harrives
      obtain ⟨rest', left', hconnect, hkept⟩ :=
        connect_accept haccept controller.compression harrives
      rw [hconnect]
      exact LearnsThrough.session identity version deflate early hkept

end OcppKit

/-! ### A station behind a controller -/

namespace OcppKit.Reference

/-- The digest of the key of an example and what is appended to it. -/
@[reducible] def sha1 : Sha1 where
  digest _ := [0xB3, 0x7A, 0x4F, 0x2C, 0xC0, 0x62, 0x4F, 0x16, 0x90, 0xF6, 0x46, 0x06, 0xCF, 0x38,
    0x59, 0x45, 0xB2, 0xBE, 0xC4, 0xEA]

/-- The nonce of that example. -/
def sampleNonce : List UInt8 := Utf8.encode "the sample nonce"

/-- Its key. -/
def sampleKey : String := @clientKey standardBase64 sampleNonce

theorem isField_sampleKey : IsField sampleKey :=
  @isField_clientKey standardBase64 lawfulStandardBase64 sampleNonce

example : sampleKey = "dGhlIHNhbXBsZSBub25jZQ==" := by decide +kernel

/-- A station that prefers the newest version. -/
def newestFirst : Connector where
  versions := Subprotocol.new [.v2_1, .v2_0_1, .v1_6]
  compression := true

/-- What it asks for. -/
def spacedRequest : ClientRequest :=
  @Endpoint.request standardBase64 spacedEndpoint .basicAuth spacedIdentity ⟨[0x70, 0x3A, 0xFF]⟩

theorem plain_spacedRequest : spacedRequest.Plain where
  nonempty := by decide +kernel
  path := forall_isUnicodeSpace (by decide +kernel)
  host := by decide +kernel
  authorization := by
    rintro value ⟨⟩
    decide +kernel

/-- A server that does not speak the newest version, and lets everyone in. -/
def olderServer : CsmsServer where
  versions := Subprotocol.new [.v1_6, .v2_0_1]
  compression := true
  maxConnections := 10
  authenticate _ := .accept

/-- A text in two chunks. -/
def cutAt (n : ℕ) (text : String) : List (List UInt8) :=
  [(Utf8.encode text).take n, (Utf8.encode text).drop n]

theorem arrives_cutAt {n : ℕ} {text : String} (hpos : 0 < n)
    (hlength : n < (Utf8.encode text).length ∧ (Utf8.encode text).length ≤ maxHead + 1) :
    Arrives text [] (cutAt n text) where
  nonempty := by
    intro hmem
    rw [cutAt, List.mem_cons, List.mem_singleton] at hmem
    rcases hmem with hmem | hmem
    · have hnil := congrArg List.length hmem
      rw [List.length_take, List.length_nil] at hnil
      omega
    · have hnil := congrArg List.length hmem
      rw [List.length_drop, List.length_nil] at hnil
      omega
  stream := by
    rw [cutAt, List.flatten_cons, List.flatten_cons, List.flatten_nil, List.append_nil,
      List.take_append_drop, List.append_nil]
  fits := hlength.2

/-- The bytes the station writes, and where they are cut. -/
theorem arrives_spacedRequest : Arrives ((newestFirst.offer spacedRequest).text sampleKey) []
    (cutAt 7 ((newestFirst.offer spacedRequest).text sampleKey)) :=
  arrives_cutAt (by decide) (by
    rw [UpgradeOffer.text, encode_headText, List.length_append]
    decide +kernel)

theorem spacedIdentity_accepted : spacedIdentity.Accepted := by
  have hidentity : Identity.new "Säule 1/2 %" = .ok spacedIdentity := by decide +kernel
  exact (Identity.accepted_of_new hidentity).2

theorem asks_spacedRequest : @Asks uris standardBase64 spacedIdentity spacedRequest :=
  @Asks.station uris standardBase64 spacedIdentity 1 "ws://csms.example.com:8080/ocpp/"
    spacedEndpoint (by decide +kernel) .basicAuth ⟨[0x70, 0x3A, 0xFF]⟩

/-- A controller that lets two versions through. -/
def twoVersions : RelayController where
  upstream := "ws://north.example.com/ocpp"
  credentials := .passThrough
  versions := some (Subprotocol.new [.v2_0_1, .v2_1])
  compression := false

/-- What it asks upstream for the station. -/
def northRequest : ClientRequest :=
  ⟨"north.example.com", "/ocpp/S%C3%A4ule%201%2F2%20%25", spacedRequest.authorization⟩

theorem plain_northRequest : northRequest.Plain where
  nonempty := by decide +kernel
  path := forall_isUnicodeSpace (by decide +kernel)
  host := by decide +kernel
  authorization := plain_spacedRequest.authorization

end OcppKit.Reference
