import OcppKit.Library.Integers
import OcppKit.Transport.Security
import OcppKit.Transport.Ws.Compressing

/-!
# Negotiation

What the two sides of an upgrade agree on: the version of the protocol, and whether and how
messages are compressed.

A client offers versions in the order it prefers them (`OcppKit.Subprotocol`), and the server
takes the first that it speaks too (`OcppKit.Subprotocol.select`); the client checks that it is
one of its own (`OcppKit.Subprotocol.accept`). Whatever the header says between the commas, the
version is the first of those it names that the server speaks
(`OcppKit.Subprotocol.select_offeredVersions`).

A client may list several ways to compress, and the server answers the first that it can honour
(`OcppKit.Ws.acceptOffer`). Whatever was offered, its answer is read by a client as just the
parameters it has taken, and the two ends then reset what they compress and inflate with at the
same messages (`OcppKit.Ws.deflate_agrees`).
-/

namespace OcppKit

/-! ### Versions and their tokens -/

/-- The WebSocket subprotocol token of a version. -/
def Version.subprotocol : Version → String
  | .v1_6 => "ocpp1.6"
  | .v2_0_1 => "ocpp2.0.1"
  | .v2_1 => "ocpp2.1"

/-- The version of a token, whatever white space it stands in. -/
def Version.fromSubprotocol (token : List Char) : Option Version :=
  if trimSpace token = Version.v1_6.subprotocol.toList then some .v1_6
  else if trimSpace token = Version.v2_0_1.subprotocol.toList then some .v2_0_1
  else if trimSpace token = Version.v2_1.subprotocol.toList then some .v2_1
  else none

@[simp] theorem Version.fromSubprotocol_subprotocol (version : Version) :
    Version.fromSubprotocol version.subprotocol.toList = some version := by
  cases version <;> decide

/-- White space around a token makes no difference. -/
@[simp] theorem Version.fromSubprotocol_trimSpace (token : List Char) :
    Version.fromSubprotocol (trimSpace token) = Version.fromSubprotocol token := by
  simp only [Version.fromSubprotocol, trimSpace_trimSpace]

/-! ### What is offered -/

/-- Appends a version, unless it is there. -/
def pushNew (offered : List Version) (version : Version) : List Version :=
  if version ∈ offered then offered else offered ++ [version]

theorem nodup_pushNew {offered : List Version} (h : offered.Nodup) (version : Version) :
    (pushNew offered version).Nodup := by
  rw [pushNew]
  split
  · exact h
  · next hnew =>
    rw [List.nodup_append]
    refine ⟨h, List.nodup_singleton _, ?_⟩
    rintro a ha b hb rfl
    exact hnew (List.mem_singleton.mp hb ▸ ha)

theorem nodup_foldl_pushNew (versions : List Version) {offered : List Version}
    (h : offered.Nodup) : (versions.foldl pushNew offered).Nodup := by
  induction versions generalizing offered with
  | nil => exact h
  | cons version versions ih => exact ih (nodup_pushNew h version)

/-- **What a client offers**, most preferred first, and nothing twice. -/
structure Subprotocol where
  /-- The versions. -/
  offered : List Version
  /-- None is there twice. -/
  nodup : offered.Nodup

/-- Why no version is agreed on. -/
inductive NegotiationError where
  /-- The server did not select one. -/
  | noSubprotocol
  /-- What it selected is not a version. -/
  | unsupportedSubprotocol
  /-- What it selected was not offered. -/
  | notOffered (version : Version)
deriving DecidableEq

namespace Subprotocol

/-- Offers versions, without those that have come before. -/
def new (versions : List Version) : Subprotocol :=
  ⟨versions.foldl pushNew [], nodup_foldl_pushNew versions List.nodup_nil⟩

/-- What is offered once is offered as it is. -/
theorem foldl_pushNew_of_nodup {versions offered : List Version}
    (h : (offered ++ versions).Nodup) : versions.foldl pushNew offered = offered ++ versions := by
  induction versions generalizing offered with
  | nil => exact (List.append_nil offered).symm
  | cons version versions ih =>
      have hnew : version ∉ offered := fun hmem =>
        (List.nodup_append.mp h).2.2 version hmem version List.mem_cons_self rfl
      have hpush : pushNew offered version = offered ++ [version] := if_neg hnew
      rw [List.append_cons] at h
      rw [List.foldl_cons, hpush, ih h, ← List.append_cons]

/-- An offer is made of its own versions. -/
@[simp] theorem new_offered (offer : Subprotocol) : new offer.offered = offer := by
  rcases offer with ⟨offered, nodup⟩
  rw [new, mk.injEq]
  exact foldl_pushNew_of_nodup nodup

/-- The value of the `Sec-WebSocket-Protocol` header. -/
def headerValue (offer : Subprotocol) : String :=
  String.ofList (List.intercalate [',', ' '] (offer.offered.map fun v => v.subprotocol.toList))

/-- **What a server selects**: the first the client prefers that it supports. -/
def select (offer : Subprotocol) (supported : List Version) : Option Version :=
  offer.offered.find? fun version => version ∈ supported

/-- **Validates a server's selection** against what was offered. -/
def accept (offer : Subprotocol) (selected : Option String) : Except NegotiationError Version :=
  match selected with
  | none => .error .noSubprotocol
  | some token =>
    match Version.fromSubprotocol token.toList with
    | none => .error .unsupportedSubprotocol
    | some version =>
      if version ∈ offer.offered then .ok version else .error (.notOffered version)

end Subprotocol

/-- The version between two commas, if it is one. -/
def offeredToken (token : List Char) : Option Version := Version.fromSubprotocol (trimSpace token)

/-- The versions a header offers, in its order. -/
def offeredVersions (value : String) : List Version :=
  (value.toList.splitOn ',').filterMap offeredToken

/-! ### The version that is agreed on -/

namespace Subprotocol

theorem find?_pushNew (p : Version → Bool) (offered : List Version) (version : Version) :
    (pushNew offered version).find? p = (offered ++ [version]).find? p := by
  rw [pushNew]
  split
  · next hmem =>
    rw [List.find?_append]
    rcases hfind : offered.find? p with _ | found
    · have hp := List.find?_eq_none.mp hfind version hmem
      rw [List.find?_cons_of_neg hp]
      rfl
    · rfl
  · rfl

/-- What is offered twice is found where it is offered first. -/
theorem find?_foldl_pushNew (p : Version → Bool) (versions offered : List Version) :
    (versions.foldl pushNew offered).find? p = (offered ++ versions).find? p := by
  induction versions generalizing offered with
  | nil => rw [List.append_nil]; rfl
  | cons version versions ih =>
      rw [List.foldl_cons, ih, List.find?_append, find?_pushNew, ← List.find?_append,
        List.append_assoc, List.singleton_append]

/-- **The version a server selects** is the first that the header names and it supports,
whatever else the header has. -/
theorem select_offeredVersions (value : String) (supported : List Version) :
    (new (offeredVersions value)).select supported =
      (offeredVersions value).find? fun version => version ∈ supported := by
  rw [select, new, find?_foldl_pushNew, List.nil_append]

theorem comma_notMem_subprotocol (version : Version) : ',' ∉ version.subprotocol.toList := by
  cases version <;> decide

theorem offeredToken_space (version : Version) :
    offeredToken (' ' :: version.subprotocol.toList) = some version := by
  cases version <;> decide

/-- What is joined by commas is split at them. -/
theorem filterMap_splitOn_intercalate (versions : List Version) :
    ((List.intercalate [',', ' '] (versions.map fun v => v.subprotocol.toList)).splitOn
      ',').filterMap offeredToken = versions ∧
    ((' ' :: List.intercalate [',', ' '] (versions.map fun v => v.subprotocol.toList)).splitOn
      ',').filterMap offeredToken = versions := by
  induction versions with
  | nil => exact ⟨by decide, by decide⟩
  | cons version versions ih =>
      have hnone := comma_notMem_subprotocol version
      have hspace : ',' ∉ ' ' :: version.subprotocol.toList := by
        rw [List.mem_cons, not_or]
        exact ⟨by decide, hnone⟩
      have hplain : offeredToken version.subprotocol.toList = some version := by
        rw [offeredToken, Version.fromSubprotocol_trimSpace, Version.fromSubprotocol_subprotocol]
      rcases versions with _ | ⟨next, versions⟩
      · have hone : List.intercalate [',', ' '] ([version].map fun v => v.subprotocol.toList) =
            version.subprotocol.toList := List.append_nil _
        rw [hone, List.splitOn_eq_singleton hnone, List.splitOn_eq_singleton hspace]
        exact ⟨List.filterMap_cons_some hplain,
          List.filterMap_cons_some (offeredToken_space version)⟩
      · have hmore : List.intercalate [',', ' ']
            ((version :: next :: versions).map fun v => v.subprotocol.toList) =
            version.subprotocol.toList ++ ',' :: ' ' :: List.intercalate [',', ' ']
              ((next :: versions).map fun v => v.subprotocol.toList) := rfl
        rw [hmore, ← List.cons_append, List.splitOn_append_cons_self,
          List.splitOn_append_cons_self, List.splitOn_eq_singleton hnone,
          List.splitOn_eq_singleton hspace, List.singleton_append, List.singleton_append,
          List.filterMap_cons_some hplain,
          List.filterMap_cons_some (offeredToken_space version), ih.2]
        exact ⟨rfl, rfl⟩

/-- **What is offered is what is read of the header.** -/
theorem offeredVersions_headerValue (offer : Subprotocol) :
    offeredVersions offer.headerValue = offer.offered := by
  rw [offeredVersions, headerValue, String.toList_ofList]
  exact (filterMap_splitOn_intercalate offer.offered).1

/-- A client takes what a server has selected of its offer. -/
theorem accept_of_select {offer : Subprotocol} {supported : List Version} {version : Version}
    (h : offer.select supported = some version) :
    offer.accept (some version.subprotocol) = .ok version := by
  have hmem : version ∈ offer.offered := List.mem_of_find?_eq_some h
  simp only [accept, Version.fromSubprotocol_subprotocol, hmem, if_true]

end Subprotocol

/-! ### Compression -/

namespace Ws

/-- The widest window, which is the only one that is compressed with. -/
def maxWindowBits : ℕ := 15

/-- The narrowest window a raw stream can have. -/
def minWindowBits : ℕ := 9

/-- The parameters as a `Sec-WebSocket-Extensions` value. -/
def DeflateParams.toHeader (params : DeflateParams) : String :=
  "permessage-deflate" ++
    (if params.serverNoContextTakeover then "; server_no_context_takeover" else "") ++
    (if params.clientNoContextTakeover then "; client_no_context_takeover" else "")

/-- The offer a station makes. -/
def DeflateParams.clientOffer (params : DeflateParams) : String := params.toHeader

/-- How a window of the client appears: not at all, without a value, or with one. -/
inductive ClientWindow where
  /-- It does not appear. -/
  | absent
  /-- It appears without a value. -/
  | announced
  /-- It appears with one. -/
  | bound (bits : ℕ)
deriving DecidableEq, Repr

/-- One offer. -/
structure Offer where
  /-- Whether the server is to reset its compressor. -/
  serverNoContextTakeover : Bool := false
  /-- Whether the client is. -/
  clientNoContextTakeover : Bool := false
  /-- The window the server is to keep to. -/
  serverMaxWindowBits : Option ℕ := none
  /-- The window of the client. -/
  clientMaxWindowBits : ClientWindow := .absent
deriving DecidableEq, Repr

/-- Why an offer could not be accepted. -/
inductive NegotiationError where
  /-- A parameter appears twice. -/
  | duplicate (name : String)
  /-- A value is no window size. -/
  | badWindowBits (value : String)
  /-- A parameter that is not defined. -/
  | unknown (name : String)
  /-- The server answered with an extension that was not offered. -/
  | notOffered
deriving DecidableEq, Repr

/-- The window a value spells. -/
def windowBits (value : List Char) : Except NegotiationError ℕ :=
  match Integers.parseUnsigned 255 value with
  | none => .error (.badWindowBits (String.ofList value))
  | some bits =>
    if bits < 8 ∨ maxWindowBits < bits then .error (.badWindowBits (String.ofList value))
    else .ok (max bits minWindowBits)

/-- A text without the quotes at its ends. -/
def trimQuotes (cs : List Char) : List Char :=
  ((cs.dropWhile (· = '"')).reverse.dropWhile (· = '"')).reverse

/-- The name of a parameter, and its value when it has one. -/
def splitParameter (part : List Char) : List Char × Option (List Char) :=
  if '=' ∈ part then
    (trimSpace (part.takeWhile (· ≠ '=')),
      some (trimQuotes (trimSpace ((part.dropWhile (· ≠ '=')).drop 1))))
  else (part, none)

/-- An offer with one more parameter. -/
def Offer.parameter (offer : Offer) (part : List Char) : Except NegotiationError Offer :=
  let name := String.ofList (splitParameter part).1
  let value := (splitParameter part).2
  if name = "server_no_context_takeover" then
    if offer.serverNoContextTakeover then .error (.duplicate name)
    else .ok { offer with serverNoContextTakeover := true }
  else if name = "client_no_context_takeover" then
    if offer.clientNoContextTakeover then .error (.duplicate name)
    else .ok { offer with clientNoContextTakeover := true }
  else if name = "server_max_window_bits" then
    if offer.serverMaxWindowBits.isSome then .error (.duplicate name)
    else
      match value with
      | none => .error (.badWindowBits "")
      | some value =>
        (windowBits value).map fun bits => { offer with serverMaxWindowBits := some bits }
  else if name = "client_max_window_bits" then
    if offer.clientMaxWindowBits ≠ .absent then .error (.duplicate name)
    else
      match value with
      | none => .ok { offer with clientMaxWindowBits := .announced }
      | some value =>
        (windowBits value).map fun bits => { offer with clientMaxWindowBits := .bound bits }
  else .error (.unknown name)

/-- The parameters of an offer, one after the other. -/
def Offer.parameters (offer : Offer) : List (List Char) → Except NegotiationError Offer
  | [] => .ok offer
  | part :: parts =>
    if part = [] then offer.parameters parts
    else
      match offer.parameter part with
      | .error error => .error error
      | .ok offer => offer.parameters parts

/-- **Parses one offer**, if it is one of this extension. -/
def parseOffer (element : List Char) : Except NegotiationError (Option Offer) :=
  match (element.splitOn ';').map trimSpace with
  | [] => .ok none
  | name :: parts =>
    if name = "permessage-deflate".toList then (({} : Offer).parameters parts).map some
    else .ok none

/-- The parameters a server takes an offer with, if it can honour it: it declines to narrow its
window. -/
def Offer.honoured (offer : Offer) : Option DeflateParams :=
  if offer.serverMaxWindowBits.any (· < maxWindowBits) then none
  else some ⟨offer.serverNoContextTakeover, offer.clientNoContextTakeover⟩

/-- What a server makes of one element of the header. -/
def acceptElement (element : List Char) : Option DeflateParams :=
  match parseOffer element with
  | .ok (some offer) => offer.honoured
  | _ => none

/-- **The server's side**: the first offer it can accept, and its answer. -/
def acceptOffer (header : Option String) : Option (DeflateParams × String) :=
  header.bind fun value => ((value.toList.splitOn ',').findSome? acceptElement).map
    fun params => (params, params.toHeader)

/-- **The client's side**: reads the server's answer. -/
def acceptResponse (header : Option String) : Except NegotiationError (Option DeflateParams) :=
  match header with
  | none => .ok none
  | some value =>
    match parseOffer ((value.toList.splitOn ',').headD []) with
    | .error error => .error error
    | .ok none => .error .notOffered
    | .ok (some offer) =>
      match offer.clientMaxWindowBits with
      | .bound bits =>
        if bits < maxWindowBits then .error (.badWindowBits (toString bits))
        else .ok (some ⟨offer.serverNoContextTakeover, offer.clientNoContextTakeover⟩)
      | _ => .ok (some ⟨offer.serverNoContextTakeover, offer.clientNoContextTakeover⟩)

/-! ### The parameters that are agreed on -/

/-- A header of parameters is one element. -/
theorem splitOn_toHeader (params : DeflateParams) :
    params.toHeader.toList.splitOn ',' = [params.toHeader.toList] := by
  refine List.splitOn_eq_singleton ?_
  rcases params with ⟨_ | _, _ | _⟩ <;> decide

/-- It is read as the parameters it was written for. -/
theorem parseOffer_toHeader (params : DeflateParams) : parseOffer params.toHeader.toList =
    .ok (some { serverNoContextTakeover := params.serverNoContextTakeover,
                clientNoContextTakeover := params.clientNoContextTakeover }) := by
  rcases params with ⟨_ | _, _ | _⟩ <;> decide

/-- **What a client asks for is what it gets**, and what it reads of the answer. -/
theorem acceptOffer_clientOffer (params : DeflateParams) :
    acceptOffer (some params.clientOffer) = some (params, params.toHeader) := by
  have helement : acceptElement params.toHeader.toList = some params := by
    rw [acceptElement, parseOffer_toHeader]
    rfl
  rw [acceptOffer, DeflateParams.clientOffer, Option.bind_some, splitOn_toHeader,
    List.findSome?_cons, helement]
  rfl

theorem acceptResponse_toHeader (params : DeflateParams) :
    acceptResponse (some params.toHeader) = .ok (some params) := by
  rw [acceptResponse, splitOn_toHeader, List.headD_cons, parseOffer_toHeader]

/-- A window that is read is one that a raw stream can have. -/
theorem windowBits_spec {value : List Char} {bits : ℕ} (h : windowBits value = .ok bits) :
    minWindowBits ≤ bits ∧ bits ≤ maxWindowBits := by
  rw [windowBits] at h
  split at h
  · cases h
  · next read _ =>
    split at h
    · cases h
    · next hrange =>
      cases h
      rw [not_or, Nat.not_lt, Nat.not_lt] at hrange
      exact ⟨le_max_right _ _, max_le hrange.2 (by decide)⟩

/-- Whether the windows of an offer are ones that a raw stream can have. -/
def Offer.Windows (offer : Offer) : Prop :=
  (∀ bits, offer.serverMaxWindowBits = some bits → minWindowBits ≤ bits ∧ bits ≤ maxWindowBits) ∧
    ∀ bits, offer.clientMaxWindowBits = .bound bits → minWindowBits ≤ bits ∧ bits ≤ maxWindowBits

/-- One more parameter keeps to them. -/
theorem Offer.windows_parameter {offer offer' : Offer} {part : List Char} (h : offer.Windows)
    (hparameter : offer.parameter part = .ok offer') : offer'.Windows := by
  rw [parameter] at hparameter
  split at hparameter
  · split at hparameter
    · cases hparameter
    · cases hparameter
      exact h
  · split at hparameter
    · split at hparameter
      · cases hparameter
      · cases hparameter
        exact h
    · split at hparameter
      · split at hparameter
        · cases hparameter
        · split at hparameter
          · cases hparameter
          · next value _ =>
            rcases hbits : windowBits value with error | bits
            · rw [hbits] at hparameter
              cases hparameter
            · rw [hbits] at hparameter
              cases hparameter
              refine ⟨?_, h.2⟩
              rintro _ ⟨⟩
              exact windowBits_spec hbits
      · split at hparameter
        · split at hparameter
          · cases hparameter
          · split at hparameter
            · cases hparameter
              exact ⟨h.1, by rintro _ ⟨⟩⟩
            · next value _ =>
              rcases hbits : windowBits value with error | bits
              · rw [hbits] at hparameter
                cases hparameter
              · rw [hbits] at hparameter
                cases hparameter
                refine ⟨h.1, ?_⟩
                rintro _ ⟨⟩
                exact windowBits_spec hbits
        · cases hparameter

theorem Offer.windows_parameters {offer offer' : Offer} {parts : List (List Char)}
    (h : offer.Windows) (hparameters : offer.parameters parts = .ok offer') : offer'.Windows := by
  induction parts generalizing offer with
  | nil =>
      cases hparameters
      exact h
  | cons part parts ih =>
      rw [parameters] at hparameters
      split at hparameters
      · exact ih h hparameters
      · split at hparameters
        · cases hparameters
        · next hparameter => exact ih (windows_parameter h hparameter) hparameters

/-- **What is parsed has windows that a raw stream can have.** -/
theorem windows_parseOffer {element : List Char} {offer : Offer}
    (h : parseOffer element = .ok (some offer)) : offer.Windows := by
  rw [parseOffer] at h
  split at h
  · cases h
  · next name parts _ =>
    split at h
    · rcases hparameters : ({} : Offer).parameters parts with error | read
      · rw [hparameters] at h
        cases h
      · rw [hparameters] at h
        cases h
        exact Offer.windows_parameters ⟨by rintro _ ⟨⟩, by rintro _ ⟨⟩⟩ hparameters
    · cases h

/-- What is accepted of an element is what it offers, and does not narrow the window. -/
theorem acceptElement_spec {element : List Char} {params : DeflateParams}
    (h : acceptElement element = some params) :
    ∃ offer, parseOffer element = .ok (some offer) ∧
      params = ⟨offer.serverNoContextTakeover, offer.clientNoContextTakeover⟩ ∧
      ∀ bits, offer.serverMaxWindowBits = some bits → bits = maxWindowBits := by
  rw [acceptElement] at h
  split at h
  · next offer hparse =>
    rw [Offer.honoured] at h
    split at h
    · cases h
    · next hwide =>
      cases h
      refine ⟨offer, hparse, rfl, fun bits hbits => ?_⟩
      have hwindow := (windows_parseOffer hparse).1 bits hbits
      rw [hbits, Option.any_some, decide_eq_true_eq, Nat.not_lt] at hwide
      exact le_antisymm hwindow.2 hwide
  · cases h

/-- **Two ends of one connection are in step**: one resets what it inflates with where the other
resets what it compresses with. -/
structure InStep {D I : Type} (client server : Deflate D I) : Prop where
  /-- What the server sends. -/
  down : client.resetDecompressor = server.resetCompressor
  /-- What the client sends. -/
  up : server.resetDecompressor = client.resetCompressor

theorem Deflate.new_inStep {D I : Type} [Flate D] [Flate I] (params : DeflateParams) :
    InStep (Deflate.new params .client : Deflate D I) (Deflate.new params .server) where
  down := rfl
  up := rfl

/-- **Whatever a client offers, the two ends come to the same terms.** What a server accepts is the
first offer of the header that it can honour, just as it was offered and without a narrower
window; a client reads its answer as the same parameters; and what the two then compress and
inflate with is in step. -/
theorem deflate_agrees {D I : Type} [Flate D] [Flate I] {value : String} {params : DeflateParams}
    {response : String} (h : acceptOffer (some value) = some (params, response)) :
    (∃ declined element others offer,
      value.toList.splitOn ',' = declined ++ element :: others ∧
      (∀ e ∈ declined, acceptElement e = none) ∧
      parseOffer element = .ok (some offer) ∧
      params = ⟨offer.serverNoContextTakeover, offer.clientNoContextTakeover⟩ ∧
      ∀ bits, offer.serverMaxWindowBits = some bits → bits = maxWindowBits) ∧
    acceptResponse (some response) = .ok (some params) ∧
    InStep (Deflate.new params .client : Deflate D I) (Deflate.new params .server) := by
  rw [acceptOffer, Option.bind_some, Option.map_eq_some_iff] at h
  obtain ⟨found, hfound, heq⟩ := h
  cases heq
  refine ⟨?_, acceptResponse_toHeader params, Deflate.new_inStep params⟩
  obtain ⟨declined, element, others, hsplit, haccept, hdeclined⟩ :=
    List.findSome?_eq_some_iff.mp hfound
  obtain ⟨offer, hparse, hparams, hwide⟩ := acceptElement_spec haccept
  exact ⟨declined, element, others, offer, hsplit, hdeclined, hparse, hparams, hwide⟩

end Ws

end OcppKit

/-! ### A client that lists several offers -/

namespace OcppKit.Reference

/-- An offer that cannot be honoured, and two that can. -/
def threeOffers : String := "permessage-deflate; server_max_window_bits=10, " ++
  "permessage-deflate; client_max_window_bits; server_no_context_takeover, permessage-deflate"

theorem deflate_agrees_threeOffers :
    Ws.acceptOffer (some threeOffers) = some (⟨true, false⟩,
      "permessage-deflate; server_no_context_takeover") ∧
    Ws.acceptResponse (some "permessage-deflate; server_no_context_takeover") =
      .ok (some ⟨true, false⟩) := by
  have haccept : Ws.acceptOffer (some threeOffers) = some (⟨true, false⟩,
      "permessage-deflate; server_no_context_takeover") := by
    decide +kernel
  exact ⟨haccept,
    (@Ws.deflate_agrees StoredDeflater StoredDeflater _ _ _ _ _ haccept).2.1⟩

end OcppKit.Reference
