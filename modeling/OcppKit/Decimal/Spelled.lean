import OcppKit.Decimal.RoundTrip
import OcppKit.Decimal.Rounding
import OcppKit.Library.Integers
import OcppKit.Library.Utf8

/-!
# Whole numbers read as decimals

A text is read as a decimal by its bytes (`OcppKit.Decimal.fromStr`), and a whole number of 64
bits is a text of its own kind (`Integers.parseI64`). Every whole number is spelled as a numeral
(`OcppKit.Decimal.exists_literal_of_parse`), and the two readers agree on it but for one: the
least number of 64 bits has a magnitude that the reader of decimals refuses
(`OcppKit.Decimal.fromStr_of_parseI64`, `OcppKit.Decimal.fromStr_of_least`).
-/

namespace OcppKit

namespace Decimal

/-- **Parses a decimal from a text.** -/
def fromStr (text : String) : Except ParseDecimalError Decimal := fromAscii (Utf8.encode text)

/-! ### Whole numbers are numerals -/

theorem toNat_of_digit? {c : Char} {d : Fin 10} (h : Integers.digit? c = some d) :
    c.toNat = 48 + d := by
  rw [Integers.digit?] at h
  split at h
  next hbounds =>
    obtain rfl := Option.some.inj h
    change c.toNat = 48 + (c.toNat - 48)
    omega
  next => cases h

/-- Digits are one byte each. -/
theorem bytes_of_digits {text : List Char} {ds : List (Fin 10)}
    (h : text.mapM Integers.digit? = some ds) :
    (∀ c ∈ text, c.toNat < 128) ∧ (text.map fun c => UInt8.ofNat c.toNat) = digitsText ds := by
  induction text generalizing ds with
  | nil =>
      obtain rfl := Option.some.inj h
      exact ⟨fun c hc => absurd hc List.not_mem_nil, rfl⟩
  | cons c text ih =>
      rw [List.mapM_cons] at h
      obtain ⟨d, hd, h⟩ := Option.bind_eq_some_iff.mp h
      obtain ⟨ds', hds, h⟩ := Option.bind_eq_some_iff.mp h
      obtain rfl := Option.some.inj h
      obtain ⟨hascii, hbytes⟩ := ih hds
      have hc := toNat_of_digit? hd
      have hlt := d.isLt
      refine ⟨?_, ?_⟩
      · rintro c' (_ | ⟨_, hc'⟩)
        · omega
        · exact hascii c' hc'
      · rw [List.map_cons, hbytes, hc]
        rfl

/-- The sign a whole number is written with. -/
def signChars : Option Bool → List Char
  | none => []
  | some true => ['-']
  | some false => ['+']

theorem ascii_signChars (sign : Option Bool) : ∀ c ∈ signChars sign, c.toNat < 128 := by
  rcases sign with _ | _ | _ <;> simp [signChars]

theorem bytes_signChars (sign : Option Bool) :
    ((signChars sign).map fun c => UInt8.ofNat c.toNat) = signText sign := by
  rcases sign with _ | _ | _ <;> rfl

theorem of_digits? {text : List Char} {ds : List (Fin 10)}
    (h : Integers.digits? text = some ds) : ds ≠ [] ∧ text.mapM Integers.digit? = some ds := by
  rw [Integers.digits?] at h
  split at h
  · cases h
  next hne =>
    refine ⟨?_, h⟩
    rintro rfl
    cases text with
    | nil => exact hne rfl
    | cons c text =>
        rw [List.mapM_cons] at h
        obtain ⟨d, -, h⟩ := Option.bind_eq_some_iff.mp h
        obtain ⟨ds', -, h⟩ := Option.bind_eq_some_iff.mp h
        cases Option.some.inj h

/-- A whole number is a sign and digits. -/
theorem exists_digits_of_parse {text : List Char} {n : ℤ} (h : Integers.parse text = some n) :
    ∃ sign rest ds, text = signChars sign ++ rest ∧ Integers.digits? rest = some ds ∧
      n = if sign = some true then -(Digits.value ds : ℤ) else Digits.value ds := by
  rw [Integers.parse.eq_def] at h
  split at h
  next rest =>
    obtain ⟨ds, hds, rfl⟩ := Option.map_eq_some_iff.mp h
    exact ⟨some false, rest, ds, rfl, hds, by simp⟩
  next rest =>
    obtain ⟨ds, hds, rfl⟩ := Option.map_eq_some_iff.mp h
    exact ⟨some true, rest, ds, rfl, hds, by simp⟩
  next =>
    obtain ⟨ds, hds, rfl⟩ := Option.map_eq_some_iff.mp h
    exact ⟨none, text, ds, rfl, hds, by simp⟩

/-- **A whole number is spelled as a numeral**, with neither a point nor an exponent. -/
theorem exists_literal_of_parse {text : String} {n : ℤ}
    (h : Integers.parse text.toList = some n) : ∃ l : Literal, l.text = Utf8.encode text ∧
      l.fraction = none ∧ l.exponent = none ∧
      n = if l.negative then -(Digits.value l.digits : ℤ) else Digits.value l.digits := by
  obtain ⟨cs, rfl⟩ := text.exists_eq_ofList
  rw [String.toList_ofList] at h
  obtain ⟨sign, rest, ds, rfl, hds, hn⟩ := exists_digits_of_parse h
  obtain ⟨hne, hdigits⟩ := of_digits? hds
  obtain ⟨hascii, hbytes⟩ := bytes_of_digits hdigits
  refine ⟨⟨[], sign, ds, none, none, [], all_isSpace_nil, all_isSpace_nil, by simpa using hne⟩,
    ?_, rfl, rfl, ?_⟩
  · rw [Utf8.encode_ofList_ascii, List.map_append, bytes_signChars, hbytes, Literal.text]
    · simp [Literal.fractionText, Literal.exponentText]
    · rintro c hc
      rcases List.mem_append.mp hc with hc | hc
      · exact ascii_signChars sign c hc
      · exact hascii c hc
  · rw [Literal.negative, Literal.digits, hn]
    simp

/-! ### The two readers -/

theorem of_parseI64 {text : String} {n : ℤ} (h : Integers.parseI64 text = some n) :
    Integers.parse text.toList = some n ∧ -2 ^ 63 ≤ n ∧ n ≤ 2 ^ 63 - 1 := by
  obtain ⟨hparse, hbounds⟩ := Option.filter_eq_some_iff.mp h
  exact ⟨hparse, by simpa using hbounds⟩

/-- **A whole number is read as the decimal it is**, unless it is the least. -/
theorem fromStr_of_parseI64 {text : String} {n : ℤ} (h : Integers.parseI64 text = some n)
    (hleast : n ≠ -2 ^ 63) : ∃ d, fromStr text = .ok d ∧ d.toRat = n := by
  obtain ⟨hparse, hlow, hhigh⟩ := of_parseI64 h
  obtain ⟨l, htext, hfraction, hexponent, hn⟩ := exists_literal_of_parse hparse
  have hlength : l.fractionLength = 0 := by rw [Literal.fractionLength, hfraction]; rfl
  have hfits : Digits.value l.digits < 2 ^ 63 := by
    split at hn <;> omega
  obtain ⟨d, hd, hmantissa, hscale⟩ := fromAscii_positional hexponent (by omega) hfits
  refine ⟨d, by rw [fromStr, ← htext, hd], ?_⟩
  rw [toRat, hmantissa, hscale, hlength, pow_zero, div_one, ← hn]

/-- **The least whole number of 64 bits is no decimal.** -/
theorem fromStr_of_least {text : String} (h : Integers.parseI64 text = some (-2 ^ 63)) :
    fromStr text = .error .overflow := by
  obtain ⟨hparse, -⟩ := of_parseI64 h
  obtain ⟨l, htext, hfraction, hexponent, hn⟩ := exists_literal_of_parse hparse
  have hvalue : Digits.value l.digits = 2 ^ 63 := by
    split at hn <;> omega
  obtain ⟨kept, dropped, hkept⟩ := exists_kept l
  have hlimit : (2 : ℕ) ^ 63 < accumulateLimit := by decide
  obtain ⟨hrounded, hpoint⟩ := hkept.eq_of_lt (hvalue.trans_lt hlimit)
  have hlength : l.fractionLength = 0 := by rw [Literal.fractionLength, hfraction]; rfl
  have hread : l.exponentRead = 0 := by rw [Literal.exponentRead, hexponent]; rfl
  rw [fromStr, ← htext, fromAscii_text, hrounded, hpoint, hread, hlength, hvalue, place]
  simp only [Nat.cast_zero, sub_zero, lt_self_iff_false, if_false, Int.toNat_zero]
  rw [if_neg (by norm_num), dif_neg (by norm_num)]
  exact shrink_zero_of_ge le_rfl

end Decimal

end OcppKit
