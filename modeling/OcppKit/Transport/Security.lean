import Mathlib.Data.List.DropRight
import OcppKit.Csms.Ledger
import OcppKit.Library.Utf8

/-!
# Identities and credentials

A station says who it is twice: as the last segment of the path, and as the user name of its
HTTP Basic credentials. The header it sends (`OcppKit.basicAuthHeader`) is the identity, a
colon, and the octets of the password, in base64; what reads it
(`OcppKit.Credentials.fromAuthorizationHeader`) splits it at the first colon. No identity has
one (`OcppKit.Identity.new`), so both come out as they went in
(`OcppKit.Credentials.fromAuthorizationHeader_basicAuthHeader`).

base64 is a crate of its own: `OcppKit.StandardBase64` is what is called of it, and
`OcppKit.LawfulStandardBase64` what is relied on.
-/

namespace OcppKit

/-! ### White space -/

/-- White space as Unicode has it. -/
def isUnicodeSpace (c : Char) : Bool :=
  (0x09 ≤ c.toNat && c.toNat ≤ 0x0D) || c.toNat = 0x20 || c.toNat = 0x85 || c.toNat = 0xA0 ||
    c.toNat = 0x1680 || (0x2000 ≤ c.toNat && c.toNat ≤ 0x200A) || c.toNat = 0x2028 ||
    c.toNat = 0x2029 || c.toNat = 0x202F || c.toNat = 0x205F || c.toNat = 0x3000

/-- No character that is seen is white space. -/
theorem isUnicodeSpace_of_seen {c : Char} (h : 0x20 < c.toNat ∧ c.toNat < 0x7F) :
    isUnicodeSpace c = false := by
  simp only [isUnicodeSpace, Bool.or_eq_false_iff, Bool.and_eq_false_iff, decide_eq_false_iff_not]
  omega

/-- A text without the white space at its ends. -/
def trimSpace (cs : List Char) : List Char :=
  ((cs.dropWhile isUnicodeSpace).reverse.dropWhile isUnicodeSpace).reverse

/-- Where nothing is dropped from the front, the list is as it was. -/
theorem dropWhile_isUnicodeSpace {cs : List Char} (h : ∀ c ∈ cs, isUnicodeSpace c = false) :
    cs.dropWhile isUnicodeSpace = cs := by
  cases cs with
  | nil => rfl
  | cons c rest =>
      rw [List.dropWhile_cons_of_neg]
      rw [h c List.mem_cons_self]
      decide

theorem trimSpace_of_forall {cs : List Char} (h : ∀ c ∈ cs, isUnicodeSpace c = false) :
    trimSpace cs = cs := by
  have hreverse : ∀ c ∈ cs.reverse, isUnicodeSpace c = false := fun c hc =>
    h c (List.mem_reverse.mp hc)
  rw [trimSpace, dropWhile_isUnicodeSpace h, dropWhile_isUnicodeSpace hreverse,
    List.reverse_reverse]

theorem trimSpace_trimSpace (text : List Char) : trimSpace (trimSpace text) = trimSpace text := by
  have hfront : (trimSpace text).dropWhile isUnicodeSpace = trimSpace text := by
    have hprefix : trimSpace text <+: text.dropWhile isUnicodeSpace :=
      List.rdropWhile_prefix isUnicodeSpace _
    rcases htext : trimSpace text with _ | ⟨c, rest⟩
    · rfl
    rw [htext] at hprefix
    obtain ⟨tail, heq⟩ := hprefix
    have hagain := List.dropWhile_idempotent isUnicodeSpace text
    rw [← heq, List.cons_append] at hagain
    rcases hc : isUnicodeSpace c with _ | _
    · exact List.dropWhile_cons_of_neg (by simp [hc])
    · rw [List.dropWhile_cons_of_pos hc] at hagain
      have hlength := (List.dropWhile_sublist (l := rest ++ tail) isUnicodeSpace).length_le
      rw [hagain, List.length_cons] at hlength
      omega
  rw [trimSpace, hfront]
  exact List.rdropWhile_idempotent isUnicodeSpace _

/-- What is trimmed has no white space at its ends. -/
theorem trimSpace_eq_self_iff {text : List Char} : trimSpace text = text ↔
    ∀ h : text ≠ [], isUnicodeSpace (text.head h) = false ∧
      isUnicodeSpace (text.getLast h) = false := by
  constructor
  · intro htrim hne
    have hfront : text.dropWhile isUnicodeSpace = text := by
      refine (List.dropWhile_sublist isUnicodeSpace).antisymm ?_
      conv => lhs; rw [← htrim]
      exact (List.rdropWhile_prefix isUnicodeSpace _).sublist
    rw [trimSpace, hfront] at htrim
    have hback := List.rdropWhile_eq_self_iff.mp htrim hne
    have hhead := List.head_dropWhile_not isUnicodeSpace (by rwa [hfront])
    simp only [hfront] at hhead
    exact ⟨hhead, by simpa using hback⟩
  · intro h
    have hfront : text.dropWhile isUnicodeSpace = text :=
      List.dropWhile_eq_self_iff.mpr fun hlt => by
        rw [← List.head_eq_getElem (List.ne_nil_of_length_pos hlt), (h _).1]
        decide
    rw [trimSpace, hfront]
    exact List.rdropWhile_eq_self_iff.mpr fun hne => by
      rw [(h hne).2]
      decide

/-! ### Identities -/

/-- Why a text is no identity. -/
inductive IdentityError where
  /-- It is empty. -/
  | empty
  /-- It is longer than an identity may be. -/
  | tooLong (len : ℕ)
  /-- It has a colon, which Basic credentials have no way to write. -/
  | colon
  /-- It has a control character. -/
  | control
deriving DecidableEq, Repr

/-- How many characters an identity may have. -/
def identityMaxLen : ℕ := 48

/-- A control character. -/
def isControl (c : Char) : Bool := c.toNat < 0x20 || (0x7F ≤ c.toNat && c.toNat ≤ 0x9F)

/-- **Validates an identity.** -/
def Identity.new (value : String) : Except IdentityError Identity :=
  if value.toList = [] then .error .empty
  else if identityMaxLen < value.toList.length then .error (.tooLong value.toList.length)
  else if ':' ∈ value.toList then .error .colon
  else if value.toList.any isControl then .error .control
  else .ok ⟨value⟩

/-- **An identity that is accepted**: it is the text it was made of, has something in it, and
has no colon. -/
structure Identity.Accepted (identity : Identity) : Prop where
  /-- It is made anew of its text. -/
  new : Identity.new identity.asStr = .ok identity
  /-- It is not empty. -/
  nonempty : identity.asStr ≠ ""
  /-- It has no colon. -/
  colon : ':' ∉ identity.asStr.toList

theorem Identity.accepted_of_new {value : String} {identity : Identity}
    (h : Identity.new value = .ok identity) : identity.asStr = value ∧ identity.Accepted := by
  have hnew := h
  rw [Identity.new] at h
  split at h
  · exact absurd h nofun
  · next hempty =>
    split at h
    · exact absurd h nofun
    · split at h
      · exact absurd h nofun
      · next hcolon =>
        split at h
        · exact absurd h nofun
        · obtain rfl : Identity.mk value = identity := by injection h
          refine ⟨rfl, hnew, ?_, hcolon⟩
          rintro rfl
          exact hempty rfl

/-! ### Basic credentials -/

/-- What is called of the base64 crate: the standard alphabet, with padding. -/
class StandardBase64 where
  /-- Encodes bytes. -/
  encode : List UInt8 → String
  /-- Decodes a text. -/
  decode : String → Option (List UInt8)

/-- **What is relied on of base64**: it round-trips, and writes no white space. -/
class LawfulStandardBase64 [StandardBase64] : Prop where
  /-- What was encoded is decoded. -/
  decode_encode (bytes : List UInt8) :
    StandardBase64.decode (StandardBase64.encode bytes) = some bytes
  /-- No character of the alphabet is white space. -/
  encode_chars (bytes : List UInt8) (c : Char) :
    c ∈ (StandardBase64.encode bytes).toList → isUnicodeSpace c = false

/-- The octets of a password. -/
structure BasicAuthPassword where
  /-- The octets. -/
  asBytes : List UInt8
deriving DecidableEq

/-- The octet of a colon. -/
def colonByte : UInt8 := 0x3A

/-- No byte of an identity is a colon. -/
theorem Identity.Accepted.colonByte_notMem {identity : Identity} (h : identity.Accepted) :
    colonByte ∉ Utf8.encode identity.asStr := by
  intro hmem
  exact h.colon (Utf8.mem_toList_of_mem_encode (by decide) hmem)

/-- The first colon after bytes that have none is at their end. -/
theorem idxOf?_append_cons {before : List UInt8} (h : colonByte ∉ before) (rest : List UInt8) :
    (before ++ colonByte :: rest).idxOf? colonByte = some before.length := by
  induction before with
  | nil => rfl
  | cons b before ih =>
      rw [List.mem_cons, not_or] at h
      rw [List.cons_append, List.idxOf?_cons, ih h.2, if_neg, Option.map_some, List.length_cons]
      rw [beq_iff_eq]
      exact Ne.symm h.1

/-- What stands after the name of a scheme. -/
def stripScheme (scheme : String) (value : String) : Option (List Char) :=
  if scheme.toList <+: value.toList then some (value.toList.drop scheme.toList.length)
  else Option.none

@[simp] theorem stripScheme_append (scheme text : String) :
    stripScheme scheme (scheme ++ text) = some text.toList := by
  rw [stripScheme, String.toList_append, if_pos (List.prefix_append _ _), List.drop_left]

variable [StandardBase64]

/-- **Encodes HTTP Basic credentials** for an identity. -/
def basicAuthHeader (identity : Identity) (password : BasicAuthPassword) : String :=
  "Basic " ++
    StandardBase64.encode (Utf8.encode identity.asStr ++ colonByte :: password.asBytes)

/-- The credentials a client presented. -/
inductive Credentials where
  /-- None that could be read. -/
  | none
  /-- HTTP Basic credentials. -/
  | basic (user : String) (password : List UInt8)
  /-- The certificate of a TLS client. -/
  | clientCertificate (der : List UInt8)
deriving DecidableEq

/-- **Parses an `Authorization` header value.** -/
def Credentials.fromAuthorizationHeader (value : String) : Credentials :=
  match (stripScheme "Basic " value).or (stripScheme "basic " value) with
  | Option.none => .none
  | some encoded =>
    match StandardBase64.decode (String.ofList (trimSpace encoded)) with
    | Option.none => .none
    | some decoded =>
      -- the first colon splits it
      match decoded.idxOf? colonByte with
      | some index =>
        match Utf8.decode (decoded.take index) with
        | some user => .basic user ((decoded.drop index).drop 1)
        | Option.none => .none
      | Option.none => .none

/-! ### There and back -/

/-- **The header of an identity and a password is read as they were.** -/
theorem Credentials.fromAuthorizationHeader_basicAuthHeader [LawfulStandardBase64]
    {identity : Identity} (h : identity.Accepted) (password : BasicAuthPassword) :
    fromAuthorizationHeader (basicAuthHeader identity password) =
      .basic identity.asStr password.asBytes := by
  have htrim := trimSpace_of_forall (LawfulStandardBase64.encode_chars
    (Utf8.encode identity.asStr ++ colonByte :: password.asBytes))
  simp only [fromAuthorizationHeader, basicAuthHeader, stripScheme_append, Option.some_or, htrim,
    String.ofList_toList, LawfulStandardBase64.decode_encode,
    idxOf?_append_cons h.colonByte_notMem, List.take_left, List.drop_left, Utf8.decode_encode,
    List.drop_one, List.tail_cons]

end OcppKit
