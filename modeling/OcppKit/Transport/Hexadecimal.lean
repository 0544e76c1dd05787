import OcppKit.Transport.Percent
import OcppKit.Transport.Security

/-!
# Two hexadecimal digits, and a plus sign

A key of 1.6 is read two digits at a time (`OcppKit.BasicAuthPassword.hex`), and so is an
escape of a path (`OcppKit.percentDecode`). Both leave the digits to an integer parser, and that
parser reads a sign: `+5` is a byte to it. So a key with a plus sign in it is taken for one of
fewer digits, and `%+5` for an escape.

That is all that goes wrong (`OcppKit.hexadecimal_strict_iff`). For an escape it is enough that
one such text stands anywhere, since no byte of it can be the end of an escape before it
(`OcppKit.percentDecodeBytes_cases`).
-/

namespace OcppKit

/-! ### Digits -/

/-- A hexadecimal digit. -/
def isHexDigit (b : UInt8) : Bool := (radix16 b).isSome

/-- The plus sign. -/
def plusByte : UInt8 := 0x2B

/-- The byte two digits spell. -/
def hexByte (high low : UInt8) : Option UInt8 :=
  (radix16 high).bind fun h => (radix16 low).map fun l => UInt8.ofNat (h * 16 + l)

/-- A plus sign is no digit. -/
theorem ne_plusByte {b : UInt8} (h : isHexDigit b = true) : b ≠ plusByte := by
  rintro rfl
  exact absurd h (by decide)

/-- **The parser reads two digits, or a plus sign and one.** -/
theorem fromStrRadix16_eq (high low : UInt8) : fromStrRadix16 high low =
    if high = plusByte then (radix16 low).map UInt8.ofNat else hexByte high low := rfl

/-- A byte in lower case. -/
def toLowerByte (b : UInt8) : UInt8 := if 0x41 ≤ b && b ≤ 0x5A then b + 0x20 else b

/-- A lower-case hexadecimal digit. -/
def lowerHex (n : ℕ) : UInt8 := UInt8.ofNat (if n < 10 then 0x30 + n else 0x57 + n)

/-- Octets as digits. -/
def hexOf (octets : List UInt8) : List UInt8 :=
  octets.flatMap fun b => [lowerHex (b.toNat / 16), lowerHex (b.toNat % 16)]

theorem radix16_spec {b : UInt8} {n : ℕ} (h : radix16 b = some n) :
    n < 16 ∧ toLowerByte b = lowerHex n := by
  have hall : ∀ high < 16, ∀ low < 16, (radix16 (UInt8.ofNat (16 * high + low))).all (fun n =>
      n < 16 ∧ toLowerByte (UInt8.ofNat (16 * high + low)) = lowerHex n) = true := by
    decide
  have hb := b.toNat_lt
  have := hall (b.toNat / 16) (by omega) (b.toNat % 16) (by omega)
  rw [Nat.div_add_mod, UInt8.ofNat_toNat, h] at this
  simpa using this

theorem hexByte_isSome_iff (high low : UInt8) :
    (hexByte high low).isSome ↔ isHexDigit high ∧ isHexDigit low := by
  rw [hexByte, isHexDigit, isHexDigit]
  rcases radix16 high with _ | h <;> rcases radix16 low with _ | l <;> simp

/-- The digits are those of the byte. -/
theorem hexOf_hexByte {high low b : UInt8} (h : hexByte high low = some b) (octets : List UInt8) :
    hexOf (b :: octets) = toLowerByte high :: toLowerByte low :: hexOf octets := by
  rw [hexByte] at h
  rcases hhigh : radix16 high with _ | m
  · rw [hhigh] at h
    exact absurd h (by simp)
  rcases hlow : radix16 low with _ | n
  · rw [hhigh, hlow] at h
    exact absurd h (by simp)
  obtain ⟨hm, hhigh'⟩ := radix16_spec hhigh
  obtain ⟨hn, hlow'⟩ := radix16_spec hlow
  rw [hhigh, hlow, Option.bind_some, Option.map_some] at h
  obtain rfl := Option.some.inj h
  have hbyte : (UInt8.ofNat (m * 16 + n)).toNat = m * 16 + n := by
    rw [UInt8.toNat_ofNat', Nat.mod_eq_of_lt (by omega)]
  rw [hexOf, List.flatMap_cons, hbyte, hhigh', hlow', hexOf, show (m * 16 + n) / 16 = m by omega,
    show (m * 16 + n) % 16 = n by omega]
  rfl

/-! ### Keys -/

/-- Why a credential cannot be constructed. -/
inductive CredentialError where
  /-- The password is too short, or too long. -/
  | passwordLength (len : ℕ)
  /-- The key is not a hexadecimal string. -/
  | notHex
deriving DecidableEq, Repr

namespace BasicAuthPassword

/-- The shortest password. -/
def minLen : ℕ := 16

/-- The longest password. -/
def maxLen : ℕ := 64

/-- A password that is sent as it is. -/
def utf8 (password : String) : Except CredentialError BasicAuthPassword :=
  if minLen ≤ password.toList.length ∧ password.toList.length ≤ maxLen then
    .ok ⟨Utf8.encode password⟩
  else .error (.passwordLength password.toList.length)

/-- Reads a text two bytes at a time. -/
def readPairs : List UInt8 → Option (List UInt8)
  | high :: low :: rest =>
      (fromStrRadix16 high low).bind fun byte => (readPairs rest).map (byte :: ·)
  | [] => some []
  | [_] => none

/-- The text of a key, without the white space at its ends. -/
def keyText (key : String) : List UInt8 := Utf8.encode (String.ofList (trimSpace key.toList))

/-- **A key that is given in hexadecimal.** -/
def hex (key : String) : Except CredentialError BasicAuthPassword :=
  if (keyText key).length % 2 ≠ 0 ∨ keyText key = [] then .error .notHex
  else
    match readPairs (keyText key) with
    | some bytes => .ok ⟨bytes⟩
    | none => .error .notHex

/-- The pairs of a text. -/
def pairs : List UInt8 → List (UInt8 × UInt8)
  | high :: low :: rest => (high, low) :: pairs rest
  | _ => []

/-- A pair that is a plus sign and a digit. -/
def plusPair (pair : UInt8 × UInt8) : Bool := pair.1 = plusByte && isHexDigit pair.2

/-- A pair of two digits. -/
def digitPair (pair : UInt8 × UInt8) : Bool := isHexDigit pair.1 && isHexDigit pair.2

/-- **A text that is taken for one of digits**: each of its pairs is two digits or a plus sign
and one, and some pair is the latter. -/
def TakenForDigits (text : List UInt8) : Prop :=
  text.length % 2 = 0 ∧ (∀ pair ∈ pairs text, digitPair pair ∨ plusPair pair) ∧
    ∃ pair ∈ pairs text, plusPair pair

instance (text : List UInt8) : Decidable (TakenForDigits text) :=
  inferInstanceAs (Decidable (_ ∧ _ ∧ _))

/-- **A key ought to be read like this**: it is a text of digits, an even number of them and
some, and they spell the octets. -/
structure HexStrict (key : String) : Prop where
  /-- What is accepted. -/
  accepts : (∃ password, hex key = .ok password) ↔
    keyText key ≠ [] ∧ (keyText key).length % 2 = 0 ∧ ∀ b ∈ keyText key, isHexDigit b = true
  /-- What is read. -/
  spells : ∀ password, hex key = .ok password →
    (keyText key).map toLowerByte = hexOf password.asBytes

theorem hex_eq_ok_iff (key : String) (password : BasicAuthPassword) : hex key = .ok password ↔
    keyText key ≠ [] ∧ (keyText key).length % 2 = 0 ∧
      readPairs (keyText key) = some password.asBytes := by
  rw [hex]
  split
  next hrefused =>
    refine iff_of_false (by simp) ?_
    rintro ⟨hne, heven, -⟩
    exact hrefused.elim (fun hodd => hodd heven) hne
  next hgood =>
    rw [not_or, not_not] at hgood
    rcases readPairs (keyText key) with _ | bytes
    · simp
    · cases password
      simp [hgood]

theorem fromStrRadix16_isSome_iff (high low : UInt8) : (fromStrRadix16 high low).isSome ↔
    digitPair (high, low) ∨ plusPair (high, low) := by
  rw [fromStrRadix16_eq, digitPair, plusPair]
  split
  next hhigh =>
    rw [hhigh]
    rcases hlow : radix16 low with _ | l <;> simp [isHexDigit, hlow]
  next hhigh =>
    rw [hexByte_isSome_iff]
    simp [hhigh]

/-- **A text is read when it is pairs of this kind.** -/
theorem readPairs_isSome_iff (text : List UInt8) : (readPairs text).isSome ↔
    text.length % 2 = 0 ∧ ∀ pair ∈ pairs text, digitPair pair ∨ plusPair pair := by
  induction text using readPairs.induct with
  | case1 high low rest ih =>
      rw [readPairs, pairs, List.forall_mem_cons, ← fromStrRadix16_isSome_iff, List.length_cons,
        List.length_cons, show (rest.length + 1 + 1) % 2 = rest.length % 2 by omega]
      rw [and_left_comm, ← ih]
      rcases fromStrRadix16 high low with _ | byte <;> rcases readPairs rest with _ | octets <;>
        simp
  | case2 => simp [readPairs, pairs]
  | case3 b => simp [readPairs]

/-- **Digits that are read are those of the octets.** -/
theorem map_toLowerByte_of_readPairs {text octets : List UInt8}
    (hdigits : ∀ pair ∈ pairs text, digitPair pair) (h : readPairs text = some octets) :
    (∀ b ∈ text, isHexDigit b = true) ∧ text.map toLowerByte = hexOf octets := by
  induction text using readPairs.induct generalizing octets with
  | case1 high low rest ih =>
      rw [readPairs] at h
      obtain ⟨byte, hbyte, hrest⟩ := Option.bind_eq_some_iff.mp h
      obtain ⟨octets', hoctets, rfl⟩ := Option.map_eq_some_iff.mp hrest
      rw [pairs, List.forall_mem_cons] at hdigits
      obtain ⟨hhigh, hlow⟩ := Bool.and_eq_true_iff.mp hdigits.1
      rw [fromStrRadix16_eq, if_neg (ne_plusByte hhigh)] at hbyte
      obtain ⟨hall, hspelled⟩ := ih hdigits.2 hoctets
      refine ⟨?_, ?_⟩
      · rintro b (_ | ⟨_, _ | ⟨_, hb⟩⟩)
        · exact hhigh
        · exact hlow
        · exact hall b hb
      · rw [List.map_cons, List.map_cons, hspelled, hexOf_hexByte hbyte]
  | case2 =>
      obtain rfl := Option.some.inj h
      exact ⟨by simp, rfl⟩
  | case3 b => exact absurd h (by simp [readPairs])

theorem mem_of_mem_pairs {text : List UInt8} {pair : UInt8 × UInt8} (h : pair ∈ pairs text) :
    pair.1 ∈ text ∧ pair.2 ∈ text := by
  induction text using pairs.induct with
  | case1 high low rest ih =>
      rw [pairs, List.mem_cons] at h
      rcases h with rfl | h
      · simp
      · obtain ⟨hfirst, hsecond⟩ := ih h
        exact ⟨List.mem_cons_of_mem _ (List.mem_cons_of_mem _ hfirst),
          List.mem_cons_of_mem _ (List.mem_cons_of_mem _ hsecond)⟩
  | case2 text hshort =>
      rw [pairs] at h
      · exact absurd h List.not_mem_nil
      · exact hshort

/-- A text with such a pair is not all digits. -/
theorem not_digits_of_plusPair {text : List UInt8} {pair : UInt8 × UInt8}
    (hpair : pair ∈ pairs text) (hplus : plusPair pair) :
    ¬∀ b ∈ text, isHexDigit b = true := by
  intro hdigits
  rw [plusPair, Bool.and_eq_true, decide_eq_true_iff] at hplus
  exact ne_plusByte (hdigits pair.1 (mem_of_mem_pairs hpair).1) hplus.1

/-- **A key is read as it ought to be unless its text is taken for one of digits.** -/
theorem hexStrict_iff (key : String) : HexStrict key ↔ ¬TakenForDigits (keyText key) := by
  constructor
  · rintro h ⟨heven, hall, pair, hpair, hplus⟩
    obtain ⟨octets, hoctets⟩ :=
      Option.isSome_iff_exists.mp ((readPairs_isSome_iff _).mpr ⟨heven, hall⟩)
    have hne : keyText key ≠ [] := by
      intro hnil
      rw [hnil] at hpair
      exact absurd hpair List.not_mem_nil
    obtain ⟨-, -, hdigits⟩ := h.accepts.mp
      ⟨⟨octets⟩, (hex_eq_ok_iff key ⟨octets⟩).mpr ⟨hne, heven, hoctets⟩⟩
    exact not_digits_of_plusPair hpair hplus hdigits
  · intro htaken
    have hread : ∀ octets, readPairs (keyText key) = some octets →
        ∀ pair ∈ pairs (keyText key), digitPair pair := by
      intro octets hoctets pair hpair
      obtain ⟨heven, hall⟩ := (readPairs_isSome_iff (keyText key)).mp (by rw [hoctets]; rfl)
      refine (hall pair hpair).resolve_right fun hplus => ?_
      exact htaken ⟨heven, hall, pair, hpair, hplus⟩
    refine ⟨⟨?_, ?_⟩, ?_⟩
    · rintro ⟨password, hpassword⟩
      obtain ⟨hne, heven, hoctets⟩ := (hex_eq_ok_iff key password).mp hpassword
      exact ⟨hne, heven, (map_toLowerByte_of_readPairs (hread _ hoctets) hoctets).1⟩
    · rintro ⟨hne, heven, hdigits⟩
      obtain ⟨octets, hoctets⟩ := Option.isSome_iff_exists.mp
        ((readPairs_isSome_iff (keyText key)).mpr ⟨heven, fun pair hpair => Or.inl (by
          obtain ⟨hfirst, hsecond⟩ := mem_of_mem_pairs hpair
          rw [digitPair, hdigits _ hfirst, hdigits _ hsecond]
          rfl)⟩)
      exact ⟨⟨octets⟩, (hex_eq_ok_iff key ⟨octets⟩).mpr ⟨hne, heven, hoctets⟩⟩
    · intro password hpassword
      obtain ⟨-, -, hoctets⟩ := (hex_eq_ok_iff key password).mp hpassword
      exact (map_toLowerByte_of_readPairs (hread _ hoctets) hoctets).2

end BasicAuthPassword

/-! ### Escapes -/

/-- **Escapes as they ought to be read**: a percent sign and two digits are a byte, and all else
is left as it is. -/
def unescape : List UInt8 → List UInt8
  | b :: high :: low :: rest =>
      if b = 0x25 then
        match hexByte high low with
        | some byte => byte :: unescape rest
        | none => b :: unescape (high :: low :: rest)
      else b :: unescape (high :: low :: rest)
  | rest => rest

/-- A percent sign, a plus sign and a digit stand somewhere in the text. -/
def HasPlusEscape (bytes : List UInt8) : Prop :=
  ∃ low, isHexDigit low = true ∧ [0x25, plusByte, low] <:+: bytes

theorem hasPlusEscape_cons (b : UInt8) (bytes : List UInt8) : HasPlusEscape (b :: bytes) ↔
    (∃ low, isHexDigit low = true ∧ [0x25, plusByte, low] <+: b :: bytes) ∨
      HasPlusEscape bytes := by
  simp only [HasPlusEscape, List.infix_cons_iff, and_or_left, exists_or]

/-- Where no percent sign is, no such text begins. -/
theorem hasPlusEscape_cons_of_ne {b : UInt8} (h : b ≠ 0x25) (bytes : List UInt8) :
    HasPlusEscape (b :: bytes) ↔ HasPlusEscape bytes := by
  rw [hasPlusEscape_cons, or_iff_right]
  rintro ⟨low, -, hlow⟩
  exact h (List.cons_prefix_cons.mp hlow).1.symm

/-- **The escapes are read as they ought to be up to the first percent sign, plus sign and
digit**, if there is one; there a byte below 16 is read for the percent sign. -/
def ReadUpToPlus (bytes : List UInt8) : Prop :=
  (¬HasPlusEscape bytes ∧ percentDecodeBytes bytes = unescape bytes) ∨
    (HasPlusEscape bytes ∧ ∃ front n rest rest', n < 16 ∧
      percentDecodeBytes bytes = front ++ UInt8.ofNat n :: rest ∧
      unescape bytes = front ++ 0x25 :: rest')

/-- One byte more is read, as it ought to be. -/
theorem ReadUpToPlus.read {bytes tail : List UInt8} {b : UInt8} (h : ReadUpToPlus tail)
    (hplus : HasPlusEscape bytes ↔ HasPlusEscape tail)
    (hcode : percentDecodeBytes bytes = b :: percentDecodeBytes tail)
    (hought : unescape bytes = b :: unescape tail) : ReadUpToPlus bytes := by
  rcases h with ⟨hnone, hsame⟩ | ⟨hsome, front, n, rest, rest', hn, hread, hread'⟩
  · exact Or.inl ⟨fun h => hnone (hplus.mp h), by rw [hcode, hought, hsame]⟩
  · exact Or.inr ⟨hplus.mpr hsome, b :: front, n, rest, rest', hn, by rw [hcode, hread]; rfl,
      by rw [hought, hread']; rfl⟩

theorem readUpToPlus (bytes : List UInt8) : ReadUpToPlus bytes := by
  induction bytes using unescape.induct with
  | case1 high low rest byte hbyte ih =>
      -- two digits, of which neither is a percent sign
      obtain ⟨hhigh, hlow⟩ := (hexByte_isSome_iff high low).mp (by rw [hbyte]; rfl)
      have hpercent : ∀ b, isHexDigit b = true → b ≠ 0x25 := by
        rintro b hb rfl
        exact absurd hb (by decide)
      refine ih.read (b := byte) ?_ ?_ ?_
      · rw [hasPlusEscape_cons, or_iff_right, hasPlusEscape_cons_of_ne (hpercent high hhigh),
          hasPlusEscape_cons_of_ne (hpercent low hlow)]
        rintro ⟨l, -, hl⟩
        obtain ⟨-, hl⟩ := List.cons_prefix_cons.mp hl
        exact ne_plusByte hhigh (List.cons_prefix_cons.mp hl).1.symm
      · rw [percentDecodeBytes, if_pos rfl, fromStrRadix16_eq, if_neg (ne_plusByte hhigh), hbyte]
      · rw [unescape, if_pos rfl, hbyte]
  | case2 high low rest hnone ih =>
      by_cases hplus : high = plusByte ∧ isHexDigit low = true
      · -- the plus sign
        obtain ⟨rfl, hlow⟩ := hplus
        obtain ⟨l, hl⟩ := Option.isSome_iff_exists.mp hlow
        refine Or.inr ⟨⟨low, hlow, List.IsPrefix.isInfix ⟨rest, rfl⟩⟩, [], l,
          percentDecodeBytes rest, unescape (plusByte :: low :: rest), (radix16_spec hl).1, ?_, ?_⟩
        · rw [percentDecodeBytes, if_pos rfl, fromStrRadix16_eq, if_pos rfl, hl]
          rfl
        · rw [unescape, if_pos rfl, hnone]
          rfl
      · have hcode : fromStrRadix16 high low = none := by
          rw [fromStrRadix16_eq]
          split
          next hhigh =>
            have hlow : ¬isHexDigit low = true := fun hlow => hplus ⟨hhigh, hlow⟩
            rw [isHexDigit, Option.not_isSome_iff_eq_none] at hlow
            rw [hlow]
            rfl
          next => exact hnone
        refine ih.read (b := 0x25) ?_ ?_ ?_
        · rw [hasPlusEscape_cons, or_iff_right]
          rintro ⟨l, hdigit, hl⟩
          obtain ⟨-, hl⟩ := List.cons_prefix_cons.mp hl
          obtain ⟨hhigh, hl⟩ := List.cons_prefix_cons.mp hl
          exact hplus ⟨hhigh.symm, (List.cons_prefix_cons.mp hl).1 ▸ hdigit⟩
        · rw [percentDecodeBytes, if_pos rfl, hcode]
        · rw [unescape, if_pos rfl, hnone]
  | case3 b high low rest hb ih =>
      refine ih.read (b := b) (hasPlusEscape_cons_of_ne hb _) ?_ ?_
      · rw [percentDecodeBytes, if_neg hb]
      · rw [unescape, if_neg hb]
  | case4 bytes hshort =>
      refine Or.inl ⟨?_, ?_⟩
      · rintro ⟨low, -, hlow⟩
        have hlength := hlow.length_le
        rcases bytes with _ | ⟨b, _ | ⟨high, _ | ⟨low, rest⟩⟩⟩
        · exact absurd hlength (by simp)
        · exact absurd hlength (by simp)
        · exact absurd hlength (by simp)
        · exact hshort b high low rest rfl
      · rw [percentDecodeBytes, unescape]
        · exact hshort
        · exact hshort

/-- **A path segment ought to be read like this**: the escapes of its bytes, and no other
bytes, are taken back. -/
def EscapesStrict (text : String) : Prop :=
  percentDecode text = Utf8.decodeLossy (unescape (Utf8.encode text))

/-- **A segment is read as it ought to be unless a percent sign, a plus sign and a digit stand
in it.** -/
theorem escapesStrict_iff (text : String) :
    EscapesStrict text ↔ ¬HasPlusEscape (Utf8.encode text) := by
  rw [EscapesStrict, percentDecode]
  rcases readUpToPlus (Utf8.encode text) with
    ⟨hnone, hsame⟩ | ⟨hsome, front, n, rest, rest', hn, hread, hread'⟩
  · exact iff_of_true (by rw [hsame]) hnone
  · refine iff_of_false (fun heq => ?_) fun hnone => hnone hsome
    have hbyte : (UInt8.ofNat n).toNat = n := by
      rw [UInt8.toNat_ofNat', Nat.mod_eq_of_lt (by omega)]
    rw [Utf8.decodeLossy, Utf8.decodeLossy, hread, hread',
      Utf8.lossyChars_append_cons front (by omega), Utf8.lossyChars_append_cons front (by decide)]
      at heq
    have hchars := List.append_cancel_left (String.ofList_injective heq)
    have hchar := congrArg Char.toNat (List.cons.inj hchars).1
    rw [hbyte] at hchar
    have hsmall : ∀ n < 16, (Char.ofNat n).toNat ≠ (Char.ofNat (0x25 : UInt8).toNat).toNat := by
      decide
    exact hsmall n hn hchar

/-- **Where hexadecimal input is read strictly**: keys, where no pair is a plus sign and a
digit among pairs that are read, and escapes, where none stands that has a plus sign for its
first digit. -/
theorem hexadecimal_strict_iff (text : String) :
    (BasicAuthPassword.HexStrict text ↔
        ¬BasicAuthPassword.TakenForDigits (BasicAuthPassword.keyText text)) ∧
      (EscapesStrict text ↔ ¬HasPlusEscape (Utf8.encode text)) :=
  ⟨BasicAuthPassword.hexStrict_iff text, escapesStrict_iff text⟩

end OcppKit

namespace OcppKit.Reference

/-! ### A plus sign -/

/-- **`+5` is taken for a key of one octet, and `%+5` for an escape.** -/
theorem plus_read : ¬∀ text : String, BasicAuthPassword.HexStrict text ∧ EscapesStrict text := by
  intro h
  have hkey : BasicAuthPassword.hex "+5" = .ok ⟨[5]⟩ := rfl
  obtain ⟨-, -, hdigits⟩ := (h "+5").1.accepts.mp ⟨_, hkey⟩
  exact absurd (hdigits plusByte (by decide +kernel)) (by decide)

end OcppKit.Reference
