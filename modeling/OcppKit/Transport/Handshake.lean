import OcppKit.Transport.Percent
import OcppKit.Transport.Security
import OcppKit.Rpc.SignedRoundTrip

/-!
# The handshake

A station asks for an upgrade under a path whose last segment is its identity, and a local
controller does the same upstream in its name (`OcppKit.Endpoint.parse`,
`OcppKit.LocalController.connectUpstream`). The server takes the identity from the path
(`OcppKit.UpgradeRequest.identity`), the credentials from the header, and refuses a user that is
not the identity (`OcppKit.Csms.accept`).

Whatever the base of the path is, the segment that is read is the one that was appended, since
no byte that is percent-encoded ends a segment
(`OcppKit.UpgradeRequest.identity_of_segmentPath`): a station is known by its identity and by no
other, on either way (`OcppKit.handshake_keeps_identity`).

URLs are parsed by a crate of its own: `OcppKit.Uris` is what is called of it. The sockets, and
the other headers of the request, are left out.
-/

namespace OcppKit

/-! ### URLs -/

/-- The parts of a parsed URL that are asked for. -/
structure Uri where
  /-- The scheme, when there is one. -/
  schemeStr : Option String
  /-- The host, when there is one. -/
  host : Option String
  /-- The port, when it is given. -/
  port : Option ℕ
  /-- The path, without query and fragment. -/
  path : String
deriving DecidableEq

/-- What is called of the URL crate. -/
class Uris where
  /-- Parses a URL. -/
  parse : String → Option Uri

/-- **What is relied on of URLs**: a path ends where a query or a fragment begins. -/
class LawfulUris [Uris] : Prop where
  /-- No path has a character that ends it. -/
  path_chars (text : String) (uri : Uri) :
    Uris.parse text = some uri → ∀ c ∈ uri.path.toList, c ≠ '?' ∧ c ≠ '#'

/-- Why no connection is made. -/
inductive TransportError where
  /-- The URL cannot be used. -/
  | url (text : String)
deriving DecidableEq

/-! ### The path -/

/-- A text without the slashes it ends in. -/
def trimEndSlashes (text : String) : String :=
  String.ofList ((text.toList.reverse.dropWhile (· = '/')).reverse)

/-- The path of a URL with an identity as its last segment. -/
def segmentPath (uri : Uri) (identity : Identity) : String :=
  trimEndSlashes uri.path ++ "/" ++ percentEncode identity.asStr

/-- The authority of a URL, as a `Host` header has it. -/
def authorityOf (uri : Uri) (host : String) : String :=
  match uri.port with
  | some port => host ++ ":" ++ toString port
  | none => host

/-! ### The station -/

/-- Where a station connects to. -/
structure Endpoint where
  /-- The slot of the configuration. -/
  slot : ℤ
  /-- The host. -/
  host : String
  /-- The port. -/
  port : ℕ
  /-- Whether the transport is TLS. -/
  secure : Bool
  /-- What the `Host` header says. -/
  authority : String
  /-- The path that is requested. -/
  path : String
  /-- All of it as one URL. -/
  url : String
deriving DecidableEq

variable [Uris]

/-- Whether a scheme is one over TLS, when it is one that is spoken. -/
def secureScheme (scheme : String) : Option Bool :=
  if scheme = "ws" ∨ scheme = "http" then some false
  else if scheme = "wss" ∨ scheme = "https" then some true
  else none

/-- **Splits a base URL and appends the identity.** -/
def Endpoint.parse (slot : ℤ) (base : String) (identity : Identity) :
    Except TransportError Endpoint :=
  match Uris.parse base with
  | none => .error (.url base)
  | some uri =>
    match secureScheme (uri.schemeStr.getD "ws") with
    | none => .error (.url base)
    | some secure =>
      match uri.host with
      | none => .error (.url base)
      | some host =>
        let path := segmentPath uri identity
        let authority := authorityOf uri host
        .ok {
          slot := slot
          host := host
          port := uri.port.getD (if secure then 443 else 80)
          secure := secure
          authority := authority
          path := path
          url := (if secure then "wss" else "ws") ++ "://" ++ authority ++ path }

/-- What a client asks of the server. -/
structure ClientRequest where
  /-- The authority. -/
  host : String
  /-- The path. -/
  path : String
  /-- The `Authorization` header, when one is sent. -/
  authorization : Option String
deriving DecidableEq

/-- How a station authenticates. -/
inductive SecurityProfile where
  /-- HTTP Basic over an unsecured transport. -/
  | basicAuth
  /-- HTTP Basic over TLS. -/
  | tlsBasicAuth
  /-- A TLS client certificate. -/
  | tlsClientCertificate
deriving DecidableEq

/-- Whether HTTP Basic credentials are sent. -/
def SecurityProfile.usesBasicAuth : SecurityProfile → Bool
  | .basicAuth | .tlsBasicAuth => true
  | .tlsClientCertificate => false

variable [StandardBase64]

/-- **What a station asks** of the server it connects to. -/
def Endpoint.request (endpoint : Endpoint) (security : SecurityProfile) (identity : Identity)
    (password : BasicAuthPassword) : ClientRequest where
  host := endpoint.authority
  path := endpoint.path
  authorization :=
    if security.usesBasicAuth then some (basicAuthHeader identity password) else none

/-! ### The local controller -/

/-- How a local controller authenticates upstream. -/
inductive UpstreamCredentials where
  /-- The station's own header is forwarded. -/
  | passThrough
  /-- Nothing is sent. -/
  | none
deriving DecidableEq

/-- What a local controller knows of its upstream. -/
structure LocalController where
  /-- The URL of the server. -/
  upstream : String
  /-- How it authenticates. -/
  credentials : UpstreamCredentials

omit [StandardBase64] in
/-- **What a local controller asks upstream** in the name of a station: where it connects to,
whether over TLS, and the request. -/
def LocalController.connectUpstream (controller : LocalController) (identity : Identity)
    (authorization : Option String) :
    Except TransportError (String × ℕ × Bool × ClientRequest) :=
  match Uris.parse controller.upstream with
  | none => .error (.url controller.upstream)
  | some uri =>
    -- here any scheme that is not one over TLS is taken for one that is not
    let secure := decide (uri.schemeStr = some "wss" ∨ uri.schemeStr = some "https")
    match uri.host with
    | none => .error (.url controller.upstream)
    | some host =>
      .ok (host, uri.port.getD (if secure then 443 else 80), secure, {
        host := authorityOf uri host
        path := segmentPath uri identity
        authorization :=
          match controller.credentials with
          | .passThrough => authorization
          | .none => none })

/-! ### The server -/

/-- A request as the server has read it. -/
structure UpgradeRequest where
  /-- The path. -/
  path : String
  /-- The headers, their names in lower case. -/
  headers : List (String × String)

namespace UpgradeRequest

/-- The first header of a name. -/
def header (request : UpgradeRequest) (name : String) : Option String :=
  (request.headers.find? fun header => header.1 = name).map Prod.snd

/-- The words of a line. -/
def splitWhitespace (cs : List Char) : List (List Char) :=
  (cs.splitOnP isUnicodeSpace).filter fun word => word ≠ []

/-- **The path of a request line**, when it is one of a `GET`. -/
def readTarget (target : String) : Option String :=
  let parts := splitWhitespace target.toList
  let method := parts.getD 0 []
  let path := parts.getD 1 []
  if method.map Char.toLower = "get".toList then some (String.ofList path) else none

/-- **The identity of a station**: the last path segment, percent-decoded. -/
def identity (request : UpgradeRequest) : Option Identity := do
  let path := request.path.toList.takeWhile fun c => c ≠ '?' ∧ c ≠ '#'
  let segment ← (path.splitOn '/').reverse.find? fun segment => segment ≠ []
  (Identity.new (percentDecode (String.ofList segment))).toOption

/-- **A request is what a client asked**: the server reads its path and its credentials. -/
structure Of (client : ClientRequest) (request : UpgradeRequest) : Prop where
  /-- The path is the one that was asked for. -/
  path : request.path = client.path
  /-- The credentials are the ones that were sent. -/
  authorization : request.header "authorization" = client.authorization

end UpgradeRequest

/-- The line a request begins with. -/
def ClientRequest.requestLine (client : ClientRequest) : String :=
  "GET " ++ client.path ++ " HTTP/1.1"

/-- Why a station is refused. -/
structure Refusal where
  /-- Who it said it was. -/
  identity : Option Identity
  /-- The HTTP status. -/
  status : ℕ
  /-- The reason phrase. -/
  reason : String
deriving DecidableEq

/-- **Whom the server takes a request to be of**, and by which credentials: this is what
`accept` does between the check of the upgrade and the authenticator. -/
def Csms.accept (request : UpgradeRequest) (peerCertificate : Option (List UInt8)) :
    Except Refusal (Identity × Credentials) :=
  match request.identity with
  | none => .error ⟨none, 400, "Bad Request"⟩
  | some identity =>
    let credentials : Credentials := match peerCertificate with
      | some der => .clientCertificate der
      | none => ((request.header "authorization").map
          Credentials.fromAuthorizationHeader).getD .none
    match credentials with
    | .basic user password =>
      -- the user is the identity from the path, or the peer borrows another's name
      if user ≠ identity.asStr then .error ⟨some identity, 401, "Unauthorized"⟩
      else .ok (identity, .basic user password)
    | credentials => .ok (identity, credentials)

/-! ### The segment that is read -/

omit [Uris] [StandardBase64] in
theorem mem_trimEndSlashes {text : String} {c : Char} (h : c ∈ (trimEndSlashes text).toList) :
    c ∈ text.toList := by
  rw [trimEndSlashes, String.toList_ofList, List.mem_reverse] at h
  exact List.mem_reverse.mp ((List.dropWhile_sublist _).mem h)

omit [StandardBase64] in
/-- No character of the path ends it. -/
theorem segmentPath_chars [LawfulUris] {text : String} {uri : Uri}
    (huri : Uris.parse text = some uri) (identity : Identity) :
    ∀ c ∈ (segmentPath uri identity).toList, c ≠ '?' ∧ c ≠ '#' := by
  intro c hc
  simp only [segmentPath, String.toList_append, List.mem_append] at hc
  rcases hc with (hc | hc) | hc
  · exact LawfulUris.path_chars text uri huri c (mem_trimEndSlashes hc)
  · rw [show "/".toList = ['/'] from rfl, List.mem_singleton] at hc
    subst hc
    decide
  · have hsegment := percentEncode_chars hc
    exact ⟨hsegment.2.2.1, hsegment.2.2.2⟩

omit [Uris] [StandardBase64] in
/-- The last segment is the identity as it is encoded. -/
theorem splitOn_segmentPath (uri : Uri) (identity : Identity) :
    ((segmentPath uri identity).toList.splitOn '/').reverse =
      (percentEncode identity.asStr).toList ::
        ((trimEndSlashes uri.path).toList.splitOn '/').reverse := by
  have hslash : '/' ∉ (percentEncode identity.asStr).toList := fun hmem =>
    (percentEncode_chars hmem).2.1 rfl
  have hchars : (segmentPath uri identity).toList =
      (trimEndSlashes uri.path).toList ++ '/' :: (percentEncode identity.asStr).toList := by
    rw [segmentPath, String.toList_append, String.toList_append, List.append_assoc]
    rfl
  rw [hchars, List.splitOn_append_cons_self, List.splitOn_eq_singleton hslash,
    List.reverse_append, List.reverse_singleton, List.singleton_append]

omit [Uris] [StandardBase64] in
/-- Something is written of an identity. -/
theorem percentEncode_ne_nil {text : String} (h : text ≠ "") :
    (percentEncode text).toList ≠ [] := by
  intro hempty
  refine h (percentEncode_injective ?_)
  rw [String.toList_eq_nil_iff.mp hempty]
  rfl

namespace UpgradeRequest

omit [StandardBase64] in
/-- **The identity that is read of a path is the one that was appended to it.** -/
theorem identity_of_segmentPath [LawfulUris] {text : String} {uri : Uri}
    (huri : Uris.parse text = some uri) {identity : Identity} (h : identity.Accepted)
    {request : UpgradeRequest} (hpath : request.path = segmentPath uri identity) :
    request.identity = some identity := by
  have hwhole : (segmentPath uri identity).toList.takeWhile
      (fun c => c ≠ '?' ∧ c ≠ '#') = (segmentPath uri identity).toList := by
    rw [List.takeWhile_eq_self_iff]
    intro c hc
    exact decide_eq_true (segmentPath_chars huri identity c hc)
  have hne := percentEncode_ne_nil h.nonempty
  rw [UpgradeRequest.identity, hpath, hwhole, splitOn_segmentPath]
  simp only [List.find?_cons, ne_eq, hne, not_false_eq_true, decide_true, Option.bind_eq_bind,
    Option.bind_some, String.ofList_toList, percentDecode_percentEncode, h.new]
  rfl

end UpgradeRequest

/-! ### The request line

The path is a word of the line. A base path that has white space, such as a URL may have beyond
ASCII, is cut there; one that has none is read as it is.
-/

omit [Uris] [StandardBase64] in
/-- Nothing that is percent-encoded has white space. -/
theorem percentEncode_isUnicodeSpace {text : String} {c : Char}
    (h : c ∈ (percentEncode text).toList) : isUnicodeSpace c = false := by
  exact isUnicodeSpace_of_seen (percentEncode_chars h).1

omit [Uris] [StandardBase64] in
/-- A path has white space only where its base has. -/
theorem segmentPath_isUnicodeSpace {uri : Uri} (identity : Identity)
    (h : ∀ c ∈ uri.path.toList, isUnicodeSpace c = false) :
    ∀ c ∈ (segmentPath uri identity).toList, isUnicodeSpace c = false := by
  intro c hc
  simp only [segmentPath, String.toList_append, List.mem_append] at hc
  rcases hc with (hc | hc) | hc
  · exact h c (mem_trimEndSlashes hc)
  · rw [show "/".toList = ['/'] from rfl, List.mem_singleton] at hc
    subst hc
    decide
  · exact percentEncode_isUnicodeSpace hc

omit [Uris] [StandardBase64] in
/-- **A path without white space is the one that is read.** -/
theorem readTarget_requestLine {client : ClientRequest} (hne : client.path.toList ≠ [])
    (h : ∀ c ∈ client.path.toList, isUnicodeSpace c = false) :
    UpgradeRequest.readTarget client.requestLine = some client.path := by
  -- the three words of the line
  let get : List Char := ['G', 'E', 'T']
  let version : List Char := ['H', 'T', 'T', 'P', '/', '1', '.', '1']
  have hseen : (get ++ version).all (fun c => !isUnicodeSpace c) = true := by decide
  have hwords : ∀ c ∈ get ++ version, isUnicodeSpace c = false := by
    intro c hc
    have hc := List.all_eq_true.mp hseen c hc
    rwa [Bool.not_eq_true'] at hc
  have hget : ∀ c ∈ get, isUnicodeSpace c = false := fun c hc =>
    hwords c (List.mem_append_left _ hc)
  have hversion : ∀ c ∈ version, isUnicodeSpace c = false := fun c hc =>
    hwords c (List.mem_append_right _ hc)
  have hspace : isUnicodeSpace ' ' = true := by decide
  have hline : client.requestLine.toList =
      get ++ ' ' :: (client.path.toList ++ ' ' :: version) := by
    rw [ClientRequest.requestLine, String.toList_append, String.toList_append, List.append_assoc]
    rfl
  have hsplit : client.requestLine.toList.splitOnP isUnicodeSpace =
      [get, client.path.toList, version] := by
    rw [hline, List.splitOnP_append_cons_of_forall_mem hget _ hspace,
      List.splitOnP_append_cons_of_forall_mem h _ hspace, List.splitOnP_eq_singleton hversion]
  have hwords : UpgradeRequest.splitWhitespace client.requestLine.toList =
      [get, client.path.toList, version] := by
    rw [UpgradeRequest.splitWhitespace, hsplit, List.filter_eq_self]
    intro word hword
    simp only [List.mem_cons, List.not_mem_nil, or_false] at hword
    rcases hword with rfl | rfl | rfl
    · rfl
    · exact decide_eq_true hne
    · rfl
  rw [UpgradeRequest.readTarget, hwords]
  simp only [List.getD_cons_zero, List.getD_cons_succ, String.ofList_toList]
  rfl

omit [Uris] [StandardBase64] in
/-- So is a request under a base that has none. -/
theorem readTarget_segmentPath {uri : Uri} {identity : Identity} {client : ClientRequest}
    (hpath : client.path = segmentPath uri identity)
    (h : ∀ c ∈ uri.path.toList, isUnicodeSpace c = false) :
    UpgradeRequest.readTarget client.requestLine = some client.path := by
  refine readTarget_requestLine ?_ ?_
  · rw [hpath, segmentPath, String.toList_append, String.toList_append]
    intro hempty
    exact absurd (List.append_eq_nil_iff.mp (List.append_eq_nil_iff.mp hempty).1).2 nofun
  · rw [hpath]
    exact segmentPath_isUnicodeSpace identity h

/-! ### What is asked for an identity -/

/-- **A client asks for an identity**: it is a station that has it, or a local controller that
one of that name is connected to. -/
inductive Asks (identity : Identity) : ClientRequest → Prop
  /-- A station, whatever it is configured to connect to and to authenticate by. -/
  | station {slot : ℤ} {base : String} {endpoint : Endpoint}
      (parsed : Endpoint.parse slot base identity = .ok endpoint) (security : SecurityProfile)
      (password : BasicAuthPassword) : Asks identity (endpoint.request security identity password)
  /-- A local controller, whatever it was sent by the station. -/
  | upstream {controller : LocalController} {authorization : Option String}
      {host : String} {port : ℕ} {secure : Bool} {client : ClientRequest}
      (connected : controller.connectUpstream identity authorization =
        .ok (host, port, secure, client)) : Asks identity client

omit [StandardBase64] in
/-- An endpoint's path is that of its base with the identity appended. -/
theorem Endpoint.parse_spec {slot : ℤ} {base : String} {identity : Identity}
    {endpoint : Endpoint} (h : Endpoint.parse slot base identity = .ok endpoint) :
    ∃ uri, Uris.parse base = some uri ∧ endpoint.path = segmentPath uri identity := by
  rw [Endpoint.parse] at h
  split at h
  · exact absurd h nofun
  · next uri huri =>
    split at h
    · exact absurd h nofun
    · split at h
      · exact absurd h nofun
      · injection h with h
        subst h
        exact ⟨uri, huri, rfl⟩

omit [StandardBase64] in
/-- And so is the path of an upstream request. -/
theorem LocalController.connectUpstream_spec {controller : LocalController}
    {identity : Identity} {authorization : Option String} {host : String} {port : ℕ}
    {secure : Bool} {client : ClientRequest}
    (h : controller.connectUpstream identity authorization = .ok (host, port, secure, client)) :
    ∃ uri, Uris.parse controller.upstream = some uri ∧
      client.path = segmentPath uri identity := by
  rw [connectUpstream] at h
  split at h
  · exact absurd h nofun
  · next uri huri =>
    split at h
    · exact absurd h nofun
    · injection h with h
      injection h with _ h
      injection h with _ h
      injection h with _ h
      subst h
      exact ⟨uri, huri, rfl⟩

/-- Either way the path is that of some URL with the identity appended. -/
theorem Asks.path_spec {identity : Identity} {client : ClientRequest}
    (h : Asks identity client) :
    ∃ text uri, Uris.parse text = some uri ∧ client.path = segmentPath uri identity := by
  cases h with
  | station parsed security password => exact ⟨_, Endpoint.parse_spec parsed⟩
  | upstream connected =>
      obtain ⟨uri, huri, hpath⟩ := LocalController.connectUpstream_spec connected
      exact ⟨_, uri, huri, hpath⟩

/-- The identity that is read of the path is the one that asks. -/
theorem Asks.identity [LawfulUris] {identity : Identity} (h : identity.Accepted)
    {client : ClientRequest} (hasks : Asks identity client) {request : UpgradeRequest}
    (hpath : request.path = client.path) : request.identity = some identity := by
  obtain ⟨text, uri, huri, hsegment⟩ := hasks.path_spec
  exact UpgradeRequest.identity_of_segmentPath huri h (hpath.trans hsegment)

omit [Uris] in
/-- **The server's check lets a station in** that sends its own credentials, or none. -/
theorem Csms.accept_of_identity [LawfulStandardBase64] {identity : Identity}
    (h : identity.Accepted) {request : UpgradeRequest}
    (hidentity : request.identity = some identity) {password : BasicAuthPassword}
    (hheader : request.header "authorization" = none ∨
      request.header "authorization" = some (basicAuthHeader identity password))
    (peerCertificate : Option (List UInt8)) :
    ∃ credentials, Csms.accept request peerCertificate = .ok (identity, credentials) ∧
      (peerCertificate = none → request.header "authorization" ≠ none →
        credentials = .basic identity.asStr password.asBytes) := by
  cases peerCertificate with
  | some der =>
      refine ⟨.clientCertificate der, ?_, nofun⟩
      simp only [Csms.accept, hidentity]
  | none =>
      rcases hheader with hheader | hheader
      · refine ⟨.none, ?_, fun _ hne => absurd hheader hne⟩
        simp only [Csms.accept, hidentity, hheader, Option.map_none, Option.getD_none]
      · refine ⟨.basic identity.asStr password.asBytes, ?_, fun _ _ => rfl⟩
        simp only [Csms.accept, hidentity, hheader, Option.map_some, Option.getD_some,
          Credentials.fromAuthorizationHeader_basicAuthHeader h, ne_eq, not_true_eq_false,
          if_false]

/-- **Identity and credentials survive the handshake.** The server reads of a station's path,
and of a local controller's, the identity they ask for, so that no two identities ever ask for
one path; percent-decoding takes back what percent-encoding wrote of any text; the header of an
identity and a password is read as just these; and the check that the user is the identity
refuses no one who sends its own credentials, or none. -/
theorem handshake_keeps_identity [LawfulUris] [LawfulStandardBase64] {value : String}
    {identity : Identity} (h : Identity.new value = .ok identity) :
    identity.asStr = value ∧
      (∀ client, Asks identity client → ∀ request : UpgradeRequest,
        request.path = client.path → request.identity = some identity) ∧
      (∀ text, percentDecode (percentEncode text) = text) ∧
      (∀ value' other, Identity.new value' = .ok other → other ≠ identity →
        ∀ client client', Asks identity client → Asks other client' →
          client.path ≠ client'.path) ∧
      (∀ password : BasicAuthPassword,
        Credentials.fromAuthorizationHeader (basicAuthHeader identity password) =
          .basic identity.asStr password.asBytes) ∧
      ∀ client password request peerCertificate, Asks identity client →
        (client.authorization = none ∨
          client.authorization = some (basicAuthHeader identity password)) →
        UpgradeRequest.Of client request →
        ∃ credentials, Csms.accept request peerCertificate = .ok (identity, credentials) ∧
          (peerCertificate = none → client.authorization ≠ none →
            credentials = .basic identity.asStr password.asBytes) := by
  obtain ⟨hvalue, haccepted⟩ := Identity.accepted_of_new h
  refine ⟨hvalue, ?_, percentDecode_percentEncode, ?_, ?_, ?_⟩
  · intro client hasks request hpath
    exact hasks.identity haccepted hpath
  · intro value' other hother hne client client' hasks hasks' hsame
    -- one path is read as both
    have hread : (UpgradeRequest.mk client.path []).identity = some identity :=
      hasks.identity haccepted rfl
    have hread' : (UpgradeRequest.mk client.path []).identity = some other :=
      hasks'.identity (Identity.accepted_of_new hother).2 hsame
    exact hne (Option.some.inj (hread'.symm.trans hread))
  · exact Credentials.fromAuthorizationHeader_basicAuthHeader haccepted
  · intro client password request peerCertificate hasks hheader hof
    rw [← hof.authorization] at hheader ⊢
    exact Csms.accept_of_identity haccepted (hasks.identity haccepted hof.path) hheader
      peerCertificate

end OcppKit

namespace OcppKit.Reference

/-! ### A parser of URLs, and base64

One value of each parameter: URLs without user and without an address in brackets, and the
alphabet of base64 that is not for URLs, padded.
-/

/-- A port, when there are digits. -/
def readPort (digits : List Char) : Option ℕ :=
  if digits ≠ [] ∧ digits.all Char.isDigit then
    some (digits.foldl (fun n c => n * 10 + (c.toNat - 0x30)) 0)
  else none

/-- The parts of an authority. -/
def splitAuthority (authority : List Char) : String × Option ℕ :=
  (String.ofList (authority.takeWhile fun c => c ≠ ':'),
    readPort ((authority.dropWhile fun c => c ≠ ':').drop 1))

/-- Parses a URL that has a scheme. -/
def parseUri (text : String) : Option Uri :=
  match text.toList.splitOnP (· = ':') with
  | scheme :: _ =>
    match text.toList.drop scheme.length with
    | ':' :: '/' :: '/' :: rest =>
      let (host, port) := splitAuthority (rest.takeWhile fun c => c ≠ '/' ∧ c ≠ '?' ∧ c ≠ '#')
      let path := (rest.dropWhile fun c => c ≠ '/' ∧ c ≠ '?' ∧ c ≠ '#').takeWhile
        fun c => c ≠ '?' ∧ c ≠ '#'
      if host = "" then none
      else some ⟨some (String.ofList scheme), some host, port, String.ofList path⟩
    | _ => none
  | [] => none

/-- The alphabet that is not for URLs. -/
def standardLetter (c : Char) : Char := if c = '-' then '+' else if c = '_' then '/' else c

/-- The alphabet that is for URLs. -/
def urlLetter (c : Char) : Char := if c = '+' then '-' else if c = '/' then '_' else c

/-- Encodes bytes, padded to whole groups of four characters. -/
def encodeStandard (bytes : List UInt8) : String :=
  let letters := (toBase64 ⟨bytes.toArray⟩).toList.map standardLetter
  String.ofList (letters ++ List.replicate ((4 - letters.length % 4) % 4) '=')

/-- Decodes a text that is what its bytes are encoded as. -/
def decodeStandard (text : String) : Option (List UInt8) :=
  let letters := text.toList.takeWhile (· ≠ '=')
  match fromBase64 (String.ofList (letters.map urlLetter)) with
  | some bytes =>
    if encodeStandard bytes.data.toList = text then some bytes.data.toList else none
  | none => none

/-- **Parsing URLs**, for closed statements. -/
@[reducible] def uris : Uris where
  parse := parseUri

/-- **base64**, for closed statements. -/
@[reducible] def standardBase64 : StandardBase64 where
  encode := encodeStandard
  decode := decodeStandard

/-! ### They are lawful -/

theorem parseUri_path {text : String} {uri : Uri} (h : parseUri text = some uri) :
    ∀ c ∈ uri.path.toList, c ≠ '?' ∧ c ≠ '#' := by
  rw [parseUri] at h
  split at h
  · split at h
    · simp only at h
      split at h
      · exact absurd h nofun
      · injection h with h
        rw [← h]
        intro c hc
        rw [String.toList_ofList] at hc
        exact of_decide_eq_true
          (@List.mem_takeWhile_imp _ (fun c => decide (c ≠ '?' ∧ c ≠ '#')) _ _ hc)
    · exact absurd h nofun
  · exact absurd h nofun

theorem lawfulUris : @LawfulUris uris :=
  @LawfulUris.mk uris fun _ _ h => parseUri_path h

/-- A letter is seen, is no padding, and is one of the other alphabet. -/
theorem standardLetter_spec : ∀ n < 64,
    (0x20 < (standardLetter (letter n)).toNat ∧ (standardLetter (letter n)).toNat < 0x7F) ∧
      standardLetter (letter n) ≠ '=' ∧ urlLetter (standardLetter (letter n)) = letter n := by
  decide +kernel

/-- What is written is letters and padding. -/
theorem exists_encodeStandard (bytes : List UInt8) :
    ∃ padding, (encodeStandard bytes).toList =
      (toSextets bytes).map (fun n => standardLetter (letter n)) ++
        List.replicate padding '=' := by
  refine ⟨(4 - ((toBase64 ⟨bytes.toArray⟩).toList.map standardLetter).length % 4) % 4, ?_⟩
  rw [encodeStandard, String.toList_ofList, toBase64, String.toList_ofList, List.map_map]
  rfl

theorem decodeStandard_encodeStandard (bytes : List UInt8) :
    decodeStandard (encodeStandard bytes) = some bytes := by
  obtain ⟨padding, hchars⟩ := exists_encodeStandard bytes
  have hletters : ∀ c ∈ (toSextets bytes).map (fun n => standardLetter (letter n)),
      decide (c ≠ '=') = true := by
    intro c hc
    obtain ⟨n, hn, rfl⟩ := List.mem_map.mp hc
    exact decide_eq_true (standardLetter_spec n (toSextets_lt bytes n hn)).2.1
  have hpadding : (List.replicate padding '=').takeWhile (· ≠ '=') = [] := by
    cases padding <;> rfl
  have htake : (encodeStandard bytes).toList.takeWhile (· ≠ '=') =
      (toSextets bytes).map (fun n => standardLetter (letter n)) := by
    rw [hchars, List.takeWhile_append_of_pos hletters, hpadding, List.append_nil]
  have hback : ((toSextets bytes).map (fun n => standardLetter (letter n))).map urlLetter =
      (toSextets bytes).map letter := by
    rw [List.map_map]
    refine List.map_congr_left fun n hn => ?_
    exact (standardLetter_spec n (toSextets_lt bytes n hn)).2.2
  have hread : fromBase64 (String.ofList ((toSextets bytes).map letter)) =
      some ⟨bytes.toArray⟩ := fromBase64_toBase64 ⟨bytes.toArray⟩
  rw [decodeStandard, htake, hback, hread]
  exact if_pos rfl

theorem lawfulStandardBase64 : @LawfulStandardBase64 standardBase64 := by
  refine @LawfulStandardBase64.mk standardBase64 decodeStandard_encodeStandard ?_
  intro bytes c hc
  obtain ⟨padding, hchars⟩ := exists_encodeStandard bytes
  change c ∈ (encodeStandard bytes).toList at hc
  rw [hchars, List.mem_append] at hc
  rcases hc with hc | hc
  · obtain ⟨n, hn, rfl⟩ := List.mem_map.mp hc
    exact isUnicodeSpace_of_seen (standardLetter_spec n (toSextets_lt bytes n hn)).1
  · rw [List.eq_of_mem_replicate hc]
    decide

/-! ### A station with a name to encode -/

/-- The station's name. -/
def spacedIdentity : Identity := ⟨"Säule 1/2 %"⟩

/-- Where it connects to. -/
def spacedEndpoint : Endpoint where
  slot := 1
  host := "csms.example.com"
  port := 8080
  secure := false
  authority := "csms.example.com:8080"
  path := "/ocpp/S%C3%A4ule%201%2F2%20%25"
  url := "ws://csms.example.com:8080/ocpp/S%C3%A4ule%201%2F2%20%25"

/-- **Its name and its password arrive**, although the name has a slash and the password a
colon. -/
theorem handshake_keeps_identity_spaced :
    @Endpoint.parse uris 1 "ws://csms.example.com:8080/ocpp/" spacedIdentity =
        .ok spacedEndpoint ∧
      (UpgradeRequest.mk "/ocpp/S%C3%A4ule%201%2F2%20%25" []).identity = some spacedIdentity ∧
      @Credentials.fromAuthorizationHeader standardBase64
          (@basicAuthHeader standardBase64 spacedIdentity ⟨[0x70, 0x3A, 0xFF]⟩) =
        .basic "Säule 1/2 %" [0x70, 0x3A, 0xFF] := by
  have hnew : Identity.new "Säule 1/2 %" = .ok spacedIdentity := by decide +kernel
  have hparse : @Endpoint.parse uris 1 "ws://csms.example.com:8080/ocpp/" spacedIdentity =
      .ok spacedEndpoint := by decide +kernel
  obtain ⟨-, hidentity, -, -, hheader, -⟩ := @handshake_keeps_identity uris standardBase64
    lawfulUris lawfulStandardBase64 "Säule 1/2 %" spacedIdentity hnew
  refine ⟨hparse, ?_, hheader _⟩
  exact hidentity _ (@Asks.station uris standardBase64 _ _ _ _ hparse .basicAuth ⟨[]⟩) _ rfl

end OcppKit.Reference
