import OcppKit.Csms.Energy
import OcppKit.Metering.Printed
import OcppKit.Transport.Handshake

/-!
# Public keys

The key of a meter is printed on it, and what is printed is sent: in base64, an envelope that
names the encoding, or the hexadecimal digits alone (`OcppKit.decodePublicKey`). The key that is
read is the key that is printed, and what spells no key is refused – but for what the decoders
do not look at, and for what the note asks them not to look at, that in base16 whatever is no
digit is ignored (`OcppKit.printedKeys_iff`).
-/

namespace OcppKit

/-! ### base64 -/

/-- A character of the alphabet, or padding. -/
def isBase64Char (c : Char) : Bool := c.isAlphanum || c = '+' || c = '/' || c = '='

/-- What is called of the base64 crate: the standard alphabet, with padding that may be left
out. -/
class Base64 where
  /-- Encodes bytes. -/
  encode : List UInt8 → List Char
  /-- Decodes a text. -/
  decode : List Char → Option (List UInt8)

/-- **What is relied on of base64**: it round-trips, and keeps to its alphabet. -/
class LawfulBase64 [Base64] : Prop where
  /-- What was encoded is decoded. -/
  decode_encode (bytes : List UInt8) : Base64.decode (Base64.encode bytes) = some bytes
  /-- Nothing else is written. -/
  encode_chars (bytes : List UInt8) (c : Char) : c ∈ Base64.encode bytes → isBase64Char c = true

/-! ### What is read -/

/-- Why a public key could not be read. -/
inductive PublicKeyError where
  /-- The field is not base64. -/
  | notBase64
  /-- An envelope with too few parts. -/
  | malformedEnvelope
  /-- An envelope that names an encoding that is not implemented. -/
  | unsupportedEncoding (encoding : String)
  /-- The printed key does not spell a whole number of bytes. -/
  | malformedKey
deriving DecidableEq, Repr

/-- How the field was written. -/
inductive PublicKeyShape where
  /-- An envelope. -/
  | envelope
  /-- The key in hexadecimal digits. -/
  | printedHex
  /-- The key itself. -/
  | opaqueBytes
deriving DecidableEq, Repr

/-- A public key. -/
structure PublicKey where
  /-- The bytes of the key. -/
  bytes : List UInt8
  /-- The key as it was written, if it was. -/
  printed : Option String
  /-- The encoding of the envelope. -/
  encoding : Option String
  /-- The content type of the envelope. -/
  contentType : Option String
  /-- How the field was written. -/
  shape : PublicKeyShape
deriving DecidableEq, Repr

variable [Base64]

/-- Decodes a printed key in the encoding its envelope names. -/
def decodePrinted (printed encoding : List Char) : Except PublicKeyError (List UInt8) :=
  let token := String.ofList encoding
  if eqIgnoreAsciiCase token "base16" || eqIgnoreAsciiCase token "hex" then
    match decodeBase16 printed with
    | some bytes => .ok bytes
    | none => .error .malformedKey
  else if eqIgnoreAsciiCase token "base32" then
    match decodeBase32 printed with
    | some bytes => .ok bytes
    | none => .error .malformedKey
  else if eqIgnoreAsciiCase token "base64" then
    match Base64.decode (printed.filter isBase64Char) with
    | some bytes => .ok bytes
    | none => .error .malformedKey
  else .error (.unsupportedEncoding token)

/-- `splitn(3, ':')`, when there are three parts. -/
def envelopeParts (rest : List Char) : Option (List Char × List Char × List Char) :=
  match rest.dropWhile (· ≠ ':') with
  | [] => none
  | _ :: after =>
    match after.dropWhile (· ≠ ':') with
    | [] => none
    | _ :: printed => some (rest.takeWhile (· ≠ ':'), after.takeWhile (· ≠ ':'), printed)

/-- What stands after `oca:`. -/
def stripOca : List Char → Option (List Char)
  | 'o' :: 'c' :: 'a' :: ':' :: rest => some rest
  | _ => none

/-- **Reads the field of a public key**, in either of the shapes it is sent in. -/
def decodePublicKey (field : String) : Except PublicKeyError PublicKey :=
  match Base64.decode (trimSpace field.toList) with
  | none => .error .notBase64
  | some raw =>
    match Utf8.decode raw with
    | none => .ok ⟨raw, none, none, none, .opaqueBytes⟩
    | some text =>
      match stripOca (trimSpace text.toList) with
      | some rest =>
        match envelopeParts rest with
        | none => .error .malformedEnvelope
        | some (encoding, contentType, printed) =>
          match decodePrinted printed encoding with
          | .error error => .error error
          | .ok bytes =>
            .ok ⟨bytes, some (String.ofList printed), some (String.ofList encoding),
              some (String.ofList contentType), .envelope⟩
      | none =>
        match decodePrintedHex (trimSpace text.toList) with
        | some bytes =>
          .ok ⟨bytes, some (String.ofList (trimSpace text.toList)), none, none, .printedHex⟩
        | none => .ok ⟨raw, none, none, none, .opaqueBytes⟩

/-! ### Envelopes -/

/-- **The field carries this envelope**, in base64 and with white space around it or none. -/
structure Envelope (field : String) (encoding contentType printed : List Char) : Prop where
  /-- What the base64 covers. -/
  text : ∃ text, Base64.decode (trimSpace field.toList) = some (Utf8.encode text) ∧
    trimSpace text.toList =
      'o' :: 'c' :: 'a' :: ':' :: (encoding ++ ':' :: (contentType ++ ':' :: printed))
  /-- The content type has no colon. -/
  contentType : ':' ∉ contentType

/-- The names of base16. -/
def IsBase16 (encoding : List Char) : Prop :=
  eqIgnoreAsciiCase (String.ofList encoding) "base16" = true ∨
    eqIgnoreAsciiCase (String.ofList encoding) "hex" = true

/-- The name of base32. -/
def IsBase32 (encoding : List Char) : Prop :=
  eqIgnoreAsciiCase (String.ofList encoding) "base32" = true

/-- The name of base64. -/
def IsBase64 (encoding : List Char) : Prop :=
  eqIgnoreAsciiCase (String.ofList encoding) "base64" = true

/-- The field is read as these bytes. -/
def Yields (field : String) (key : List UInt8) : Prop :=
  (decodePublicKey field).map PublicKey.bytes = .ok key

/-- The field is refused for the key that is printed in it. -/
def Refuses (field : String) : Prop := decodePublicKey field = .error .malformedKey

omit [Base64] in
theorem splitColon {before : List Char} (h : ':' ∉ before) (rest : List Char) :
    (before ++ ':' :: rest).dropWhile (· ≠ ':') = ':' :: rest ∧
      (before ++ ':' :: rest).takeWhile (· ≠ ':') = before := by
  have hall : ∀ c ∈ before, decide (c ≠ ':') = true := by
    intro c hc
    rw [decide_eq_true_eq]
    rintro rfl
    exact h hc
  rw [List.dropWhile_append_of_pos hall, List.takeWhile_append_of_pos hall]
  exact ⟨rfl, List.append_nil _⟩

/-- **What an envelope is read as** is what its printed key is. -/
theorem decodePublicKey_envelope {field : String} {encoding contentType printed : List Char}
    (h : Envelope field encoding contentType printed) (hencoding : ':' ∉ encoding) :
    (∀ key, Yields field key ↔ decodePrinted printed encoding = .ok key) ∧
      (Refuses field ↔ decodePrinted printed encoding = .error .malformedKey) := by
  obtain ⟨text, hfield, htext⟩ := h.text
  obtain ⟨hdrop, htake⟩ := splitColon hencoding (contentType ++ ':' :: printed)
  obtain ⟨hdrop', htake'⟩ := splitColon h.contentType printed
  have hparts : envelopeParts (encoding ++ ':' :: (contentType ++ ':' :: printed)) =
      some (encoding, contentType, printed) := by
    simp only [envelopeParts, hdrop, htake, hdrop', htake']
  have hread : decodePublicKey field =
      (decodePrinted printed encoding).map fun bytes => ⟨bytes, some (String.ofList printed),
        some (String.ofList encoding), some (String.ofList contentType), .envelope⟩ := by
    simp only [decodePublicKey, hfield, Utf8.decode_encode, htext, stripOca, hparts]
    rcases decodePrinted printed encoding with error | bytes <;> rfl
  rw [Refuses, hread]
  rcases hprinted : decodePrinted printed encoding with error | bytes
  · simp [Yields, hread, hprinted, Except.map]
  · simp [Yields, hread, hprinted, Except.map]

omit [Base64] in
/-- A name has no colon. -/
theorem colon_notMem_of_named {encoding : List Char} {name : String}
    (hname : ':' ∉ name.toList.map Char.toLower)
    (h : eqIgnoreAsciiCase (String.ofList encoding) name = true) : ':' ∉ encoding := by
  rw [eqIgnoreAsciiCase, String.toList_ofList, decide_eq_true_eq] at h
  rintro hmem
  exact hname (h ▸ List.mem_map.mpr ⟨':', hmem, rfl⟩)

omit [Base64] in
/-- A text has one name. -/
theorem named_iff {encoding : List Char} {name : String}
    (h : eqIgnoreAsciiCase (String.ofList encoding) name = true) (other : String) :
    eqIgnoreAsciiCase (String.ofList encoding) other = eqIgnoreAsciiCase name other := by
  rw [eqIgnoreAsciiCase, decide_eq_true_eq] at h
  rw [eqIgnoreAsciiCase, eqIgnoreAsciiCase, h]

theorem decodePrinted_base16 {encoding : List Char} (h : IsBase16 encoding)
    (printed : List Char) : decodePrinted printed encoding =
      match decodeBase16 printed with
      | some bytes => .ok bytes
      | none => .error .malformedKey := by
  rw [decodePrinted, if_pos (Bool.or_eq_true_iff.mpr h)]

theorem decodePrinted_base32 {encoding : List Char} (h : IsBase32 encoding)
    (printed : List Char) : decodePrinted printed encoding =
      match decodeBase32 printed with
      | some bytes => .ok bytes
      | none => .error .malformedKey := by
  rw [decodePrinted, named_iff h, named_iff h, named_iff h, if_neg (by decide), if_pos (by decide)]

theorem decodePrinted_base64 {encoding : List Char} (h : IsBase64 encoding)
    (printed : List Char) : decodePrinted printed encoding =
      match Base64.decode (printed.filter isBase64Char) with
      | some bytes => .ok bytes
      | none => .error .malformedKey := by
  rw [decodePrinted, named_iff h, named_iff h, named_iff h, named_iff h, if_neg (by decide),
    if_neg (by decide), if_pos (by decide)]

omit [Base64] in
theorem IsBase16.colon {encoding : List Char} (h : IsBase16 encoding) : ':' ∉ encoding := by
  rcases h with h | h
  · exact colon_notMem_of_named (by decide) h
  · exact colon_notMem_of_named (by decide) h

omit [Base64] in
/-- A separator is not of the alphabet. -/
theorem isBase64Char_of_separator {c : Char} (h : isSeparator c = true) :
    isBase64Char c = false := by
  simp only [isSeparator, Bool.or_eq_true, decide_eq_true_eq] at h
  rcases h with (((((rfl | rfl) | rfl) | rfl) | rfl) | rfl) | rfl <;> decide

omit [Base64] in
/-- **Separators do not show**: what is kept of a text is what was encoded. -/
theorem filter_isBase64Char {printed spelled : List Char}
    (h : printed.filter (fun c => !isSeparator c) = spelled)
    (hspelled : ∀ c ∈ spelled, isBase64Char c = true) :
    printed.filter isBase64Char = spelled := by
  rw [← List.filter_eq_self.mpr hspelled, ← h, List.filter_filter]
  refine List.filter_congr fun c _ => ?_
  rcases hc : isSeparator c with _ | _
  · simp
  · rw [isBase64Char_of_separator hc]
    rfl

/-! ### Digits without an envelope -/

/-- **The field carries this text**, in base64 and with white space around it or none. -/
structure PrintedField (field : String) (printed : List Char) : Prop where
  /-- What the base64 covers. -/
  text : ∃ text, Base64.decode (trimSpace field.toList) = some (Utf8.encode text) ∧
    trimSpace text.toList = printed

omit [Base64] in
/-- Digits, and a `0x` perhaps: no white space, no padding, and no letter after the sixth. -/
theorem spelled_chars {text : List Char}
    (h : ∀ c ∈ withoutHexPrefix text, isHexDigitChar c = true) {c : Char} (hc : c ∈ text) :
    isUnicodeSpace c = false ∧ c ≠ '=' ∧ c ≠ 'o' := by
  have hdigit : ∀ d, isHexDigitChar d = true → isUnicodeSpace d = false ∧ d ≠ '=' ∧ d ≠ 'o' := by
    intro d hd
    refine ⟨(isHexDigitChar_spec hd).1, ?_, ?_⟩ <;>
      · rintro rfl
        exact absurd hd (by decide)
  rcases hprefix : hasHexPrefix text with _ | _
  · rw [withoutHexPrefix, hprefix] at h
    exact hdigit c (h c hc)
  · obtain ⟨x, rest, hx, heq, hwithout⟩ := exists_of_hasHexPrefix hprefix
    rw [hwithout] at h
    rw [heq] at hc
    rcases hc with _ | ⟨_, _ | ⟨_, hc⟩⟩
    · decide
    · rcases hx with rfl | rfl <;> decide
    · exact hdigit c (h c hc)

omit [Base64] in
/-- **A text of digits and separators is read when its `0x` stands in front.** -/
theorem decodePrintedHex_eq_some_iff {printed : List Char} {key : List UInt8} (hkey : key ≠ [])
    (htrim : trimSpace printed = printed)
    (h : SpellsBase16 key (withoutHexPrefix (printed.filter fun c => !isSeparator c))) :
    decodePrintedHex printed = some key ↔ PrefixInFront printed := by
  have hchars : ∀ c ∈ printed, isSeparator c = false →
      isUnicodeSpace c = false ∧ c ≠ '=' ∧ c ≠ 'o' := fun c hc hsep =>
    spelled_chars h.digits.1 (List.mem_filter.mpr ⟨hc, by simp [hsep]⟩)
  have hbare : bare printed = printed.filter fun c => !isSeparator c := by
    refine List.filter_congr fun c hc => ?_
    rcases hsep : isSeparator c with _ | _
    · simp [isIgnored, hsep, (hchars c hc hsep).2.1]
    · simp [isIgnored, hsep]
  rw [← hbare] at h
  have hread := decodeBase16_eq_some_iff hkey h
  rw [decodePrintedHex, htrim]
  split
  · next hany =>
    refine iff_of_false (Option.some_ne_none key).symm fun hfront => ?_
    obtain ⟨c, hc, hother⟩ := List.any_eq_true.mp hany
    simp only [Bool.and_eq_true, Bool.not_eq_true'] at hother
    have hprinted : isIgnored c = false := by
      have hmem : c ∈ printed := by
        rw [withoutHexPrefix] at hc
        split at hc
        · exact List.mem_of_mem_drop hc
        · exact hc
      simp [isIgnored, hother.2, (hchars c hmem hother.2).2.1]
    -- with its `0x` in front, what is left of the text is digits
    have hdigit : c ∈ withoutHexPrefix (bare printed) := by
      rcases hprefix : hasHexPrefix printed with _ | _
      · have hno : hasHexPrefix (bare printed) = false := by
          by_contra hyes
          have := hfront (Bool.not_eq_false _ ▸ hyes)
          rw [htrim, hprefix] at this
          cases this
        rw [withoutHexPrefix, hprefix] at hc
        rw [withoutHexPrefix, hno]
        exact List.mem_filter.mpr ⟨hc, by simp [hprinted]⟩
      · obtain ⟨x, rest, hx, heq, hwithout⟩ := exists_of_hasHexPrefix hprefix
        rw [hwithout] at hc
        have hkept : withoutHexPrefix (bare printed) = bare rest := by
          have hx' : isIgnored x = false := by rcases hx with rfl | rfl <;> decide
          rw [heq, bare_cons_of_not (by decide), bare_cons_of_not hx']
          rcases hx with rfl | rfl <;> rfl
        rw [hkept]
        exact List.mem_filter.mpr ⟨hc, by simp [hprinted]⟩
    rw [h.digits.1 c hdigit] at hother
    cases hother.1
  · exact hread

omit [Base64] in
/-- A text has no more characters than bytes. -/
theorem length_le_length_encode (text : String) :
    text.toList.length ≤ (Utf8.encode text).length := by
  have hchars : ∀ cs : List Char, cs.length ≤ (cs.flatMap String.utf8EncodeChar).length := by
    intro cs
    induction cs with
    | nil => exact le_rfl
    | cons c cs ih =>
        have hpos : 0 < (String.utf8EncodeChar c).length :=
          List.length_pos_iff.mpr String.utf8EncodeChar_ne_nil
        rw [List.flatMap_cons, List.length_append, List.length_cons]
        omega
  have h := hchars text.toList
  rwa [← Utf8.encode_ofList, String.ofList_toList] at h

omit [Base64] in
/-- The text of a key is longer than the key. -/
theorem length_lt_of_spells {text : String} {key : List UInt8} (hkey : key ≠ [])
    (h : SpellsBase16 key
      (withoutHexPrefix ((trimSpace text.toList).filter fun c => !isSeparator c))) :
    key.length < (Utf8.encode text).length := by
  have hpos := List.length_pos_iff.mpr hkey
  have hprefix : ∀ cs : List Char, (withoutHexPrefix cs).length ≤ cs.length := by
    intro cs
    rw [withoutHexPrefix]
    split
    · exact (List.drop_sublist 2 cs).length_le
    · exact le_rfl
  have hfilter := List.length_filter_le (fun c => !isSeparator c) (trimSpace text.toList)
  have htrim : (trimSpace text.toList).length ≤ text.toList.length := by
    rw [trimSpace, List.length_reverse]
    refine (List.dropWhile_sublist _).length_le.trans ?_
    rw [List.length_reverse]
    exact (List.dropWhile_sublist _).length_le
  have hdigits := h.digits.2
  have hbytes := length_le_length_encode text
  have := hprefix ((trimSpace text.toList).filter fun c => !isSeparator c)
  omega

/-- **Digits without an envelope are read when their `0x` stands in front.** -/
theorem PrintedField.yields_iff {field : String} {printed : List Char}
    (h : PrintedField field printed) {key : List UInt8} (hkey : key ≠ [])
    (hspells : SpellsBase16 key (withoutHexPrefix (printed.filter fun c => !isSeparator c))) :
    Yields field key ↔ PrefixInFront printed := by
  obtain ⟨text, hfield, rfl⟩ := h.text
  have hread := decodePrintedHex_eq_some_iff hkey (trimSpace_trimSpace _) hspells
  have hoca : stripOca (trimSpace text.toList) = none := by
    rcases hoca : stripOca (trimSpace text.toList) with _ | rest
    · rfl
    · exfalso
      unfold stripOca at hoca
      split at hoca
      · next heq =>
        have hmem : 'o' ∈ (trimSpace text.toList).filter fun c => !isSeparator c :=
          List.mem_filter.mpr ⟨by rw [heq]; exact List.mem_cons_self, by decide⟩
        exact (spelled_chars hspells.digits.1 hmem).2.2 rfl
      · cases hoca
  rw [← hread, Yields, decodePublicKey]
  simp only [hfield, Utf8.decode_encode, hoca]
  rcases hhex : decodePrintedHex (trimSpace text.toList) with _ | bytes
  · -- what is not read is taken for the key itself, and is longer
    refine iff_of_false ?_ nofun
    intro hraw
    have hlength := length_lt_of_spells hkey hspells
    rw [← Except.ok.inj hraw] at hlength
    exact absurd hlength (lt_irrefl _)
  · exact ⟨fun hbytes => congrArg some (Except.ok.inj hbytes), fun hbytes =>
      congrArg Except.ok (Option.some.inj hbytes)⟩

omit [Base64] in
/-- No character of the alphabet is white space. -/
theorem isUnicodeSpace_of_isBase64Char {c : Char} (h : isBase64Char c = true) :
    isUnicodeSpace c = false := by
  simp only [isBase64Char, Char.isAlphanum, Char.isAlpha, Char.isUpper, Char.isLower, Char.isDigit,
    Bool.or_eq_true, Bool.and_eq_true, decide_eq_true_eq] at h
  have hval : c.val.toNat = c.toNat := rfl
  refine isUnicodeSpace_of_seen ?_
  rcases h with (((((h | h) | h) | rfl) | rfl) | rfl)
  iterate 3
    have hlow := UInt32.le_iff_toNat_le.mp h.1
    have hhigh := UInt32.le_iff_toNat_le.mp h.2
    simp only [hval] at hlow hhigh
    simp at hlow hhigh
    omega
  all_goals decide

/-- What is written of a text is a field that carries it. -/
theorem decode_trimSpace_encode [LawfulBase64] (text : String) :
    Base64.decode (trimSpace (String.ofList (Base64.encode (Utf8.encode text))).toList) =
      some (Utf8.encode text) := by
  rw [String.toList_ofList, trimSpace_of_forall, LawfulBase64.decode_encode]
  exact fun c hc => isUnicodeSpace_of_isBase64Char (LawfulBase64.encode_chars _ c hc)

/-! ### Which keys are read -/

/-- **The key that is printed is the key that is read**, and what spells none is refused: in
base16 just where a `0x` stands in front and nothing but digits and separators follows, or else
the digits are no whole number of bytes; in base32 just where no more than four bits, all of them
zero, are left over; in base64 always. -/
theorem printedKeys_iff [LawfulBase64] (field : String) :
    (∀ encoding contentType printed, Envelope field encoding contentType printed →
      (IsBase16 encoding →
        (∀ key ≠ [], SpellsBase16 key (withoutHexPrefix (bare printed)) →
          (Yields field key ↔ PrefixInFront printed)) ∧
        (((¬∃ key, SpellsBase16 key (withoutHexPrefix (bare printed))) → Refuses field) ↔
          ¬Stray printed)) ∧
      (IsBase32 encoding →
        (∀ key ≠ [], SpellsBase32 key (bare printed) → Yields field key) ∧
        (((¬∃ key, SpellsBase32 key (bare printed)) → Refuses field) ↔
          ¬Overlong (bare printed))) ∧
      (IsBase64 encoding → ∀ key,
        (printed.filter fun c => !isSeparator c) = Base64.encode key → Yields field key)) ∧
    ∀ printed, PrintedField field printed → ∀ key ≠ [],
      SpellsBase16 key (withoutHexPrefix (printed.filter fun c => !isSeparator c)) →
        (Yields field key ↔ PrefixInFront printed) := by
  refine ⟨fun encoding contentType printed henvelope => ⟨?_, ?_, ?_⟩,
    fun printed hprinted key hkey hspells => hprinted.yields_iff hkey hspells⟩
  · intro hbase16
    obtain ⟨hyields, hrefuses⟩ := decodePublicKey_envelope henvelope hbase16.colon
    rw [decodePrinted_base16 hbase16] at hyields hrefuses
    constructor
    · intro key hkey hspells
      rw [hyields, ← decodeBase16_eq_some_iff hkey hspells]
      rcases decodeBase16 printed with _ | bytes <;> simp
    · rw [hrefuses, ← decodeBase16_refuses_iff]
      rcases decodeBase16 printed with _ | bytes <;> simp
  · intro hbase32
    obtain ⟨hyields, hrefuses⟩ :=
      decodePublicKey_envelope henvelope (colon_notMem_of_named (by decide) hbase32)
    rw [decodePrinted_base32 hbase32] at hyields hrefuses
    constructor
    · intro key hkey hspells
      obtain ⟨digits, padding, hdigits, hpadding, hbits⟩ := hspells
      rw [hyields, decodeBase32_eq_some_iff.mpr
        ⟨hkey, digits, padding, hdigits, hpadding.trans (by norm_num), hbits⟩]
    · rw [hrefuses, ← decodeBase32_refuses_iff]
      rcases decodeBase32 printed with _ | bytes <;> simp
  · intro hbase64 key hspelled
    obtain ⟨hyields, -⟩ :=
      decodePublicKey_envelope henvelope (colon_notMem_of_named (by decide) hbase64)
    rw [hyields, decodePrinted_base64 hbase64,
      filter_isBase64Char hspelled (LawfulBase64.encode_chars key), LawfulBase64.decode_encode]

end OcppKit

namespace OcppKit.Reference

/-! ### Two printed keys -/

/-- **base64**, for closed statements. -/
@[reducible] def printedBase64 : Base64 where
  encode bytes := (encodeStandard bytes).toList
  decode text := decodeStandard (String.ofList text)

theorem isBase64Char_standardLetter :
    ∀ n < 64, isBase64Char (standardLetter (letter n)) = true := by
  decide +kernel

theorem lawfulPrintedBase64 : @LawfulBase64 printedBase64 := by
  refine @LawfulBase64.mk printedBase64 ?_ ?_
  · intro bytes
    change decodeStandard (String.ofList (encodeStandard bytes).toList) = some bytes
    rw [String.ofList_toList, decodeStandard_encodeStandard]
  · intro bytes c hc
    obtain ⟨padding, hchars⟩ := exists_encodeStandard bytes
    change c ∈ (encodeStandard bytes).toList at hc
    rw [hchars, List.mem_append] at hc
    rcases hc with hc | hc
    · obtain ⟨n, hn, rfl⟩ := List.mem_map.mp hc
      exact isBase64Char_standardLetter n (toSextets_lt bytes n hn)
    · rw [List.eq_of_mem_replicate hc]
      decide

/-- A field with this text. -/
def fieldOf (text : String) : String :=
  String.ofList (@Base64.encode printedBase64 (Utf8.encode text))

/-- The field of an envelope carries it. -/
theorem envelope_fieldOf {text : String} {encoding contentType printed : List Char}
    (h : trimSpace text.toList =
      'o' :: 'c' :: 'a' :: ':' :: (encoding ++ ':' :: (contentType ++ ':' :: printed)))
    (hcontent : ':' ∉ contentType) :
    @Envelope printedBase64 (fieldOf text) encoding contentType printed :=
  @Envelope.mk printedBase64 _ _ _ _
    ⟨text, @decode_trimSpace_encode printedBase64 lawfulPrintedBase64 text, h⟩ hcontent

/-- **A key of three bytes in base32**, broken up, in mixed case and padded. -/
theorem printedKeys_iff_base32 : @Yields printedBase64
    (fieldOf "oca:BASE32:secp256r1:gb-MT C===") [0x30, 0x59, 0x31] := by
  have henvelope := @envelope_fieldOf "oca:BASE32:secp256r1:gb-MT C===" "BASE32".toList
    "secp256r1".toList "gb-MT C===".toList (by decide +kernel) (by decide)
  have hread := ((@printedKeys_iff printedBase64 lawfulPrintedBase64 _).1 _ _ _ henvelope).2.1
    (show eqIgnoreAsciiCase _ _ = true by decide)
  exact hread.1 [0x30, 0x59, 0x31] (by decide)
    ⟨[6, 1, 12, 19, 2], 1, by decide, by decide, by decide⟩

/-- **Three digits that say one byte, and seven bits of nothing**, are taken for a key. -/
theorem printedKeys_overlong :
    ¬((¬∃ key, SpellsBase32 key (bare "GAA".toList)) →
      @Refuses printedBase64 (fieldOf "oca:base32:x:GAA")) := by
  intro hrefuses
  have henvelope := @envelope_fieldOf "oca:base32:x:GAA" "base32".toList "x".toList "GAA".toList
    (by decide +kernel) (by decide)
  have hread := (@decodePublicKey_envelope printedBase64 _ _ _ _ henvelope (by decide)).2
  rw [@decodePrinted_base32 printedBase64 _ (show eqIgnoreAsciiCase _ _ = true by decide)] at hread
  have hoverlong : Overlong (bare "GAA".toList) :=
    ⟨[6, 0, 0], by decide, by decide, by decide, by decide⟩
  refine decodeBase32_refuses_iff.mp (fun hnone => ?_) hoverlong
  have := hread.mp (hrefuses hnone)
  rcases decodeBase32 "GAA".toList with _ | key
  · rfl
  · cases this

end OcppKit.Reference
