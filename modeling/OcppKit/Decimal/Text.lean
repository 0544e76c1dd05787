import OcppKit.Decimal
import OcppKit.Library.Digits

/-!
# Decimals as text

`OcppKit.Decimal.fromAscii` reads a number out of bytes: spaces, a sign, digits with a point
among them, an exponent, spaces. It collects the digits in 128 bits until there is no room,
keeps of the others what decides the rounding, and then places the point, dropping digits
until the mantissa fits. `OcppKit.Decimal.toText` writes a decimal at its own scale.

What it accepts is exactly the texts of `OcppKit.Literal`
(`OcppKit.Decimal.exists_literal`), and on those it is two steps: the digits are read, and
the point is placed (`OcppKit.Decimal.fromAscii_text`).
-/

namespace OcppKit

/-- Why a decimal could not be parsed. -/
inductive ParseDecimalError where
  /-- The text is not a number. -/
  | invalid
  /-- The number needs more than 19 digits before the decimal point. -/
  | overflow
deriving DecidableEq, Repr

/-- An ASCII character as a byte. -/
abbrev ascii (c : Char) : UInt8 := c.toUInt8

namespace Decimal

/-! ### Reading the digits -/

def isSpace (b : UInt8) : Bool :=
  b = ascii ' ' || b = ascii '\t' || b = ascii '\n' || b = ascii '\r'

theorem all_isSpace_nil : ([] : List UInt8).all isSpace = true := rfl

/-- Room to take one more digit without overflowing 128 bits. -/
def accumulateLimit : ℕ := (2 ^ 128 - 1) / 16

/-- What is kept of the digits that were read. -/
structure Reading where
  /-- The number they stand for, while there was room. -/
  magnitude : ℕ
  /-- How many of them follow the point. -/
  fractionDigits : ℕ
  /-- How many digits before the point found no room. -/
  skippedIntegerDigits : ℕ
  /-- The first digit that found no room. -/
  roundDigit : ℕ
  /-- Whether there was another than zero after it. -/
  sticky : Bool
  /-- Whether a digit found no room. -/
  droppedAny : Bool
  /-- Whether there was a digit. -/
  seenDigit : Bool
  /-- Whether there was a point. -/
  seenPoint : Bool
deriving DecidableEq

/-- Before the first digit. -/
def Reading.start : Reading := ⟨0, 0, 0, 0, false, false, false, false⟩

/-- One more digit. -/
def Reading.push (r : Reading) (digit : ℕ) : Reading :=
  if r.magnitude < accumulateLimit then
    { r with
      seenDigit := true
      magnitude := r.magnitude * 10 + digit
      fractionDigits := if r.seenPoint then r.fractionDigits + 1 else r.fractionDigits }
  else
    -- no room left: the digit only decides the rounding
    { r with
      seenDigit := true
      skippedIntegerDigits :=
        if r.seenPoint then r.skippedIntegerDigits else r.skippedIntegerDigits + 1
      sticky := if r.droppedAny then r.sticky || digit ≠ 0 else r.sticky
      roundDigit := if r.droppedAny then r.roundDigit else digit
      droppedAny := true }

/-- Reads digits and at most one point, up to another byte. -/
def readDigits : Reading → List UInt8 → Except ParseDecimalError (Reading × List UInt8)
  | r, [] => .ok (r, [])
  | r, b :: rest =>
      if b = ascii '.' then
        if r.seenPoint then .error .invalid else readDigits { r with seenPoint := true } rest
      else if b < ascii '0' || ascii '9' < b then .ok (r, b :: rest)
      else readDigits (r.push (b - ascii '0').toNat) rest

/-- The magnitude, rounded half to even by the digits that found no room. -/
def Reading.rounded (r : Reading) : ℕ :=
  if r.droppedAny &&
      (5 < r.roundDigit || (r.roundDigit = 5 && (r.sticky || r.magnitude % 2 = 1))) then
    r.magnitude + 1
  else r.magnitude

/-! ### Reading a sign and an exponent -/

/-- A sign, if there is one: whether it is a minus, and the rest. -/
def readSign : List UInt8 → Bool × List UInt8
  | [] => (false, [])
  | b :: rest =>
      if b = ascii '+' || b = ascii '-' then (b = ascii '-', rest) else (false, b :: rest)

/-- The digits of an exponent. Past a million they are no longer counted in. -/
def readExponentDigits : ℕ → Bool → List UInt8 → ℕ × Bool × List UInt8
  | exponent, seen, [] => (exponent, seen, [])
  | exponent, seen, b :: rest =>
      if b < ascii '0' || ascii '9' < b then (exponent, seen, b :: rest)
      else
        readExponentDigits
          (if exponent < 1000000 then exponent * 10 + (b - ascii '0').toNat else exponent) true rest

/-- An exponent, if there is one. -/
def readExponent : List UInt8 → Except ParseDecimalError (ℤ × List UInt8)
  | [] => .ok (0, [])
  | b :: rest =>
      if b = ascii 'e' || b = ascii 'E' then
        let signed := readSign rest
        let digits := readExponentDigits 0 false signed.2
        if digits.2.1 = false then .error .invalid
        else .ok (if signed.1 then -(digits.1 : ℤ) else digits.1, digits.2.2)
      else .ok (0, b :: rest)

/-! ### Placing the point -/

/-- Drops fraction digits, one at a time, until the mantissa fits. -/
def shrink (negative : Bool) :
    (magnitude scale : ℕ) → scale ≤ 18 → Except ParseDecimalError Decimal
  | magnitude, 0, hscale =>
      match ofMagnitude negative magnitude 0 hscale with
      | some d => .ok d
      | none => .error .overflow
  | magnitude, scale + 1, hscale =>
      match ofMagnitude negative magnitude (scale + 1) hscale with
      | some d => .ok d
      | none => shrink negative (roundOff magnitude 1 false) scale (Nat.le_of_succ_le hscale)

/-- The width that zero keeps: the one that was written, if it is a scale. -/
def zeroWidth (scale : ℤ) : ℕ := if scale < 0 ∨ 18 < scale then 0 else scale.toNat

theorem zeroWidth_le (scale : ℤ) : zeroWidth scale ≤ 18 := by
  rw [zeroWidth]
  split <;> omega

/-- Places the point: `magnitude × 10⁻ˢᶜᵃˡᵉ`, with its sign. -/
def place (negative : Bool) (magnitude : ℕ) (scale : ℤ) : Except ParseDecimalError Decimal :=
  if magnitude = 0 then .ok ⟨0, zeroWidth scale, fits_zero, zeroWidth_le scale⟩
  else if scale < 0 then
    let shift := (-scale).toNat
    if 38 < shift then .error .overflow
    else if 2 ^ 128 ≤ magnitude * 10 ^ shift then .error .overflow
    else shrink negative (magnitude * 10 ^ shift) 0 scale_zero_le
  else if h : 18 < scale then
    let drop := (scale - 18).toNat
    shrink negative (if 39 < drop then 0 else roundOff magnitude drop false) 18 scale_max_le
  else shrink negative magnitude scale.toNat (by omega)

/-! ### The parser and the printer -/

/-- **Parses a decimal from ASCII.** -/
def fromAscii (bytes : List UInt8) : Except ParseDecimalError Decimal :=
  let signed := readSign (bytes.dropWhile isSpace)
  match readDigits Reading.start signed.2 with
  | .error e => .error e
  | .ok (r, rest) =>
  if r.seenDigit = false then .error .invalid
  else
  match readExponent rest with
  | .error e => .error e
  | .ok (exponent, rest) =>
  if rest.dropWhile isSpace ≠ [] then .error .invalid
  else
    place signed.1 r.rounded ((r.fractionDigits : ℤ) - r.skippedIntegerDigits - exponent)

/-- A digit as a byte. -/
def digitByte (d : Fin 10) : UInt8 := UInt8.ofNat (48 + d)

/-- Digits as bytes. -/
def digitsText (ds : List (Fin 10)) : List UInt8 := ds.map digitByte

/-- **Writes the value at its own scale.** -/
def toText (d : Decimal) : List UInt8 :=
  let magnitude := d.mantissa.natAbs
  let sign := if d.mantissa < 0 then [ascii '-'] else []
  if d.scale = 0 then sign ++ digitsText (Digits.ofNat magnitude)
  else
    sign ++ digitsText (Digits.ofNat (magnitude / 10 ^ d.scale)) ++
      ascii '.' :: digitsText (Digits.pad d.scale (magnitude % 10 ^ d.scale))

end Decimal

/-! ### What is accepted -/

/-- A sign, as it may be written. -/
def signText : Option Bool → List UInt8
  | none => []
  | some true => [ascii '-']
  | some false => [ascii '+']

/-- An exponent, as it may be written. -/
structure ExponentPart where
  /-- Whether the `e` is a capital. -/
  upper : Bool
  /-- The sign. -/
  sign : Option Bool
  /-- The digits. -/
  digits : List (Fin 10)
  /-- There is one. -/
  digits_ne : digits ≠ []

/-- The text of an exponent. -/
def ExponentPart.text (e : ExponentPart) : List UInt8 :=
  ascii (if e.upper then 'E' else 'e') :: (signText e.sign ++ Decimal.digitsText e.digits)

/-- **A number, as it may be written.** -/
structure Literal where
  /-- Spaces. -/
  before : List UInt8
  /-- The sign: a minus is `true`. -/
  sign : Option Bool
  /-- The digits before the point. -/
  whole : List (Fin 10)
  /-- The point and the digits after it. -/
  fraction : Option (List (Fin 10))
  /-- The exponent. -/
  exponent : Option ExponentPart
  /-- Spaces. -/
  after : List UInt8
  /-- Nothing but spaces. -/
  before_isSpace : before.all Decimal.isSpace = true
  /-- Nothing but spaces. -/
  after_isSpace : after.all Decimal.isSpace = true
  /-- There is a digit. -/
  digits_ne : whole ++ fraction.getD [] ≠ []

namespace Literal

/-- All the digits, without the point. -/
def digits (l : Literal) : List (Fin 10) := l.whole ++ l.fraction.getD []

/-- Whether there is a minus. -/
def negative (l : Literal) : Bool := l.sign = some true

/-- The point and the digits after it, as text. -/
def fractionText : Option (List (Fin 10)) → List UInt8
  | none => []
  | some ds => ascii '.' :: Decimal.digitsText ds

/-- The exponent, as text. -/
def exponentText : Option ExponentPart → List UInt8
  | none => []
  | some e => e.text

/-- **The text.** -/
def text (l : Literal) : List UInt8 :=
  l.before ++ (signText l.sign ++ (Decimal.digitsText l.whole ++ (fractionText l.fraction ++
    (exponentText l.exponent ++ l.after))))

end Literal

/-! ### Digits as bytes -/

namespace Decimal

theorem digitByte_toNat (d : Fin 10) : (digitByte d - ascii '0').toNat = d := by
  revert d
  decide

theorem digitByte_isDigit (d : Fin 10) :
    (digitByte d < ascii '0' || ascii '9' < digitByte d) = false := by
  revert d
  decide

theorem digitByte_ne_point (d : Fin 10) : digitByte d ≠ ascii '.' := by
  revert d
  decide

theorem digitByte_isSpace (d : Fin 10) : isSpace (digitByte d) = false := by
  revert d
  decide

theorem digitByte_not_sign (d : Fin 10) :
    (digitByte d = ascii '+' || digitByte d = ascii '-') = false := by
  revert d
  decide

/-- A byte that is read as a digit is one. -/
theorem exists_digitByte {b : UInt8} (h : (b < ascii '0' || ascii '9' < b) = false) :
    ∃ d : Fin 10, b = digitByte d := by
  simp only [Bool.or_eq_false_iff, decide_eq_false_iff_not, UInt8.lt_iff_toNat_lt, not_lt,
    show (ascii '0').toNat = 48 from rfl, show (ascii '9').toNat = 57 from rfl] at h
  refine ⟨⟨b.toNat - 48, by omega⟩, UInt8.toNat_inj.mp ?_⟩
  rw [digitByte, UInt8.toNat_ofNat']
  simp only
  omega

/-- Nothing that is read as digits or a point comes next. -/
def Stops (bytes : List UInt8) : Prop :=
  ∀ b ∈ bytes.head?, b ≠ ascii '.' ∧ (b < ascii '0' || ascii '9' < b) = true

/-- Spaces are not read as digits. -/
theorem stops_of_isSpace {bytes : List UInt8} (h : bytes.all isSpace = true) : Stops bytes := by
  intro b hb
  cases bytes with
  | nil => exact absurd hb (by simp)
  | cons b' rest =>
      obtain rfl := Option.some.inj hb
      rw [List.all_cons, Bool.and_eq_true] at h
      simp only [isSpace, Bool.or_eq_true, decide_eq_true_eq] at h
      rcases h.1 with ((rfl | rfl) | rfl) | rfl <;> decide

/-! ### The digits are read -/

/-- Digits, one after the other. -/
def Reading.pushes (r : Reading) (ds : List (Fin 10)) : Reading :=
  ds.foldl (fun (r : Reading) (d : Fin 10) => r.push (d : ℕ)) r

@[simp] theorem Reading.pushes_nil (r : Reading) : r.pushes [] = r := rfl

@[simp] theorem Reading.pushes_cons (r : Reading) (d : Fin 10) (ds : List (Fin 10)) :
    r.pushes (d :: ds) = (r.push d).pushes ds := rfl

@[simp] theorem Reading.push_seenPoint (r : Reading) (digit : ℕ) :
    (r.push digit).seenPoint = r.seenPoint := by
  rw [push]
  split <;> rfl

@[simp] theorem Reading.push_seenDigit (r : Reading) (digit : ℕ) :
    (r.push digit).seenDigit = true := by
  rw [push]
  split <;> rfl

@[simp] theorem Reading.pushes_seenPoint (r : Reading) (ds : List (Fin 10)) :
    (r.pushes ds).seenPoint = r.seenPoint := by
  induction ds generalizing r with
  | nil => rfl
  | cons d ds ih => rw [pushes_cons, ih, push_seenPoint]

theorem Reading.pushes_seenDigit (r : Reading) (ds : List (Fin 10)) :
    (r.pushes ds).seenDigit = (r.seenDigit || !ds.isEmpty) := by
  induction ds generalizing r with
  | nil => simp
  | cons d ds ih => rw [pushes_cons, ih, push_seenDigit]; simp

theorem readDigits_digits (r : Reading) (ds : List (Fin 10)) (rest : List UInt8) :
    readDigits r (digitsText ds ++ rest) = readDigits (r.pushes ds) rest := by
  induction ds generalizing r with
  | nil => rfl
  | cons d ds ih =>
      rw [digitsText, List.map_cons, List.cons_append, readDigits, if_neg (digitByte_ne_point d),
        digitByte_isDigit, if_neg (by simp), digitByte_toNat, ← digitsText, ih]
      rfl

theorem readDigits_stop (r : Reading) {rest : List UInt8} (h : Stops rest) :
    readDigits r rest = .ok (r, rest) := by
  cases rest with
  | nil => rfl
  | cons b rest =>
      obtain ⟨hpoint, hdigit⟩ := h b rfl
      rw [readDigits, if_neg hpoint, if_pos hdigit]

/-- The digits before the point, and those after it. -/
def Reading.both (r : Reading) (whole : List (Fin 10)) : Option (List (Fin 10)) → Reading
  | none => r.pushes whole
  | some ds => ({ r.pushes whole with seenPoint := true } : Reading).pushes ds

/-- **Digits with a point among them are read to the end.** -/
theorem readDigits_text {r : Reading} (hpoint : r.seenPoint = false) (whole : List (Fin 10))
    (fraction : Option (List (Fin 10))) {rest : List UInt8} (h : Stops rest) :
    readDigits r (digitsText whole ++ (Literal.fractionText fraction ++ rest)) =
      .ok (r.both whole fraction, rest) := by
  rw [readDigits_digits]
  cases fraction with
  | none => exact readDigits_stop _ h
  | some ds =>
      rw [Literal.fractionText, List.cons_append, readDigits, if_pos rfl,
        if_neg (by simp [hpoint]), readDigits_digits, readDigits_stop _ h]
      rfl

/-- And nothing else is. -/
theorem readDigits_eq_ok {bytes rest : List UInt8} {r r' : Reading}
    (h : readDigits r bytes = .ok (r', rest)) :
    (r.seenPoint = true → ∃ ds, bytes = digitsText ds ++ rest ∧ r' = r.pushes ds) ∧
      ∃ whole fraction, bytes = digitsText whole ++ (Literal.fractionText fraction ++ rest) ∧
        r' = r.both whole fraction := by
  induction bytes generalizing r with
  | nil =>
      obtain ⟨rfl, rfl⟩ := Prod.mk.inj (Except.ok.inj h)
      exact ⟨fun _ => ⟨[], rfl, rfl⟩, [], none, rfl, rfl⟩
  | cons b bytes ih =>
  rw [readDigits] at h
  split at h
  next hb =>
    split at h
    · exact absurd h (by simp)
    next hpoint =>
      obtain ⟨ds, rfl, rfl⟩ := (ih h).1 rfl
      exact ⟨fun hseen => absurd hseen hpoint, [], some ds, by rw [hb]; rfl, rfl⟩
  next hb =>
  split at h
  next hdigit =>
    obtain ⟨rfl, rfl⟩ := Prod.mk.inj (Except.ok.inj h)
    exact ⟨fun _ => ⟨[], rfl, rfl⟩, [], none, rfl, rfl⟩
  next hdigit =>
    obtain ⟨d, rfl⟩ := exists_digitByte (Bool.eq_false_iff.mpr hdigit)
    rw [digitByte_toNat] at h
    obtain ⟨hseen, whole, fraction, hbytes, hr⟩ := ih h
    refine ⟨fun hpoint => ?_, d :: whole, fraction, by rw [hbytes]; rfl, ?_⟩
    · obtain ⟨ds, rfl, rfl⟩ := hseen (by rw [Reading.push_seenPoint, hpoint])
      exact ⟨d :: ds, rfl, rfl⟩
    · rw [hr]
      cases fraction <;> rfl

/-! ### A sign and an exponent are read -/

/-- No sign comes next. -/
def Unsigned (bytes : List UInt8) : Prop :=
  ∀ b ∈ bytes.head?, (b = ascii '+' || b = ascii '-') = false

theorem unsigned_digits {ds : List (Fin 10)} (h : ds ≠ []) (rest : List UInt8) :
    Unsigned (digitsText ds ++ rest) := by
  obtain ⟨d, ds, rfl⟩ := List.exists_cons_of_ne_nil h
  intro b hb
  obtain rfl := Option.some.inj hb
  exact digitByte_not_sign d

theorem readSign_text (sign : Option Bool) {rest : List UInt8} (h : Unsigned rest) :
    readSign (signText sign ++ rest) = (decide (sign = some true), rest) := by
  cases sign with
  | none =>
      cases rest with
      | nil => rfl
      | cons b rest =>
          change readSign (b :: rest) = _
          rw [readSign, if_neg (by rw [h b rfl]; simp)]
          rfl
  | some negative => cases negative <;> rfl

/-- What is read as a sign is one. -/
theorem exists_signText (bytes : List UInt8) : ∃ sign,
    bytes = signText sign ++ (readSign bytes).2 ∧
      (readSign bytes).1 = decide (sign = some true) := by
  cases bytes with
  | nil => exact ⟨none, rfl, rfl⟩
  | cons b rest =>
  rw [readSign]
  split
  next hsign =>
    simp only [Bool.or_eq_true, decide_eq_true_eq] at hsign
    rcases hsign with rfl | rfl
    · exact ⟨some false, rfl, rfl⟩
    · exact ⟨some true, rfl, rfl⟩
  next hsign => exact ⟨none, rfl, rfl⟩

/-- The digits of an exponent, as far as they are counted in. -/
def clamped (exponent : ℕ) (ds : List (Fin 10)) : ℕ :=
  ds.foldl (fun (e : ℕ) (d : Fin 10) => if e < 1000000 then e * 10 + (d : ℕ) else e) exponent

theorem readExponentDigits_text (exponent : ℕ) (seen : Bool) (ds : List (Fin 10))
    {rest : List UInt8} (h : Stops rest) :
    readExponentDigits exponent seen (digitsText ds ++ rest) =
      (clamped exponent ds, seen || !ds.isEmpty, rest) := by
  induction ds generalizing exponent seen with
  | nil =>
      cases rest with
      | nil => simp [digitsText, readExponentDigits, clamped]
      | cons b rest =>
          change readExponentDigits exponent seen (b :: rest) = _
          rw [readExponentDigits, if_pos (h b rfl).2]
          simp [clamped]
  | cons d ds ih =>
      rw [digitsText, List.map_cons, List.cons_append, readExponentDigits, digitByte_isDigit,
        if_neg (by simp), digitByte_toNat, ← digitsText, ih]
      simp [clamped]

/-- What is read as the digits of an exponent are digits. -/
theorem exists_exponentDigits (exponent : ℕ) (seen : Bool) (bytes : List UInt8) : ∃ ds,
    bytes = digitsText ds ++ (readExponentDigits exponent seen bytes).2.2 ∧
      ((readExponentDigits exponent seen bytes).2.1 = true → seen = true ∨ ds ≠ []) := by
  induction bytes generalizing exponent seen with
  | nil => exact ⟨[], rfl, Or.inl⟩
  | cons b bytes ih =>
  rw [readExponentDigits]
  split
  · exact ⟨[], rfl, Or.inl⟩
  next hdigit =>
    obtain ⟨d, rfl⟩ := exists_digitByte (Bool.eq_false_iff.mpr hdigit)
    obtain ⟨ds, hds, -⟩ := ih (if exponent < 1000000 then
      exponent * 10 + (digitByte d - ascii '0').toNat else exponent) true
    exact ⟨d :: ds, congrArg (digitByte d :: ·) hds, fun _ => Or.inr (List.cons_ne_nil d ds)⟩

end Decimal

/-- The exponent, as far as its digits are counted in. -/
def ExponentPart.read (e : ExponentPart) : ℤ :=
  if e.sign = some true then -(Decimal.clamped 0 e.digits : ℤ) else Decimal.clamped 0 e.digits

/-- The exponent. -/
def ExponentPart.value (e : ExponentPart) : ℤ :=
  if e.sign = some true then -(Digits.value e.digits : ℤ) else Digits.value e.digits

namespace Decimal

/-- **An exponent is read, as far as its digits are counted in.** -/
theorem readExponent_text (exponent : Option ExponentPart) {after : List UInt8}
    (h : after.all isSpace = true) : readExponent (Literal.exponentText exponent ++ after) =
      .ok ((exponent.map ExponentPart.read).getD 0, after) := by
  cases exponent with
  | none =>
      cases after with
      | nil => rfl
      | cons b rest =>
          change readExponent (b :: rest) = _
          rw [List.all_cons, Bool.and_eq_true] at h
          have hletter : (b = ascii 'e' || b = ascii 'E') = false := by
            simp only [isSpace, Bool.or_eq_true, decide_eq_true_eq] at h
            rcases h.1 with ((rfl | rfl) | rfl) | rfl <;> decide
          rw [readExponent, if_neg (by rw [hletter]; simp)]
          rfl
  | some e =>
      obtain ⟨upper, sign, ds, hds⟩ := e
      have hletter : (ascii (if upper then 'E' else 'e') = ascii 'e' ||
          ascii (if upper then 'E' else 'e') = ascii 'E') = true := by cases upper <;> decide
      rw [Literal.exponentText, ExponentPart.text, List.cons_append, readExponent, if_pos hletter,
        List.append_assoc, readSign_text sign (unsigned_digits hds after)]
      simp only [readExponentDigits_text 0 false ds (stops_of_isSpace h)]
      rw [if_neg (by simp [hds])]
      cases sign with
      | none => rfl
      | some negative => cases negative <;> rfl

/-- And nothing else is. -/
theorem exists_exponentText {bytes rest : List UInt8} {exponent : ℤ}
    (h : readExponent bytes = .ok (exponent, rest)) :
    ∃ e, bytes = Literal.exponentText e ++ rest := by
  cases bytes with
  | nil =>
      obtain ⟨-, rfl⟩ := Prod.mk.inj (Except.ok.inj h)
      exact ⟨none, rfl⟩
  | cons b bytes =>
  rw [readExponent] at h
  split at h
  next hletter =>
    dsimp only at h
    split at h
    · exact absurd h (by simp)
    next hseen =>
      obtain ⟨-, rfl⟩ := Prod.mk.inj (Except.ok.inj h)
      obtain ⟨sign, hsign, -⟩ := exists_signText bytes
      obtain ⟨ds, hds, hne⟩ := exists_exponentDigits 0 false (readSign bytes).2
      have hupper : ∃ upper : Bool, b = ascii (if upper then 'E' else 'e') := by
        simp only [Bool.or_eq_true, decide_eq_true_eq] at hletter
        rcases hletter with rfl | rfl
        · exact ⟨false, rfl⟩
        · exact ⟨true, rfl⟩
      obtain ⟨upper, rfl⟩ := hupper
      have hdigits : ds ≠ [] := (hne (Bool.eq_true_of_not_eq_false hseen)).resolve_left (by simp)
      refine ⟨some ⟨upper, sign, ds, hdigits⟩, ?_⟩
      rw [Literal.exponentText, ExponentPart.text, List.cons_append, List.append_assoc, ← hds,
        ← hsign]
  next hletter =>
    obtain ⟨-, rfl⟩ := Prod.mk.inj (Except.ok.inj h)
    exact ⟨none, rfl⟩

/-! ### The whole text -/

/-- Spaces in front are passed over. -/
theorem dropWhile_isSpace {spaces rest : List UInt8} (h : spaces.all isSpace = true)
    (hrest : ∀ b ∈ rest.head?, isSpace b = false) : (spaces ++ rest).dropWhile isSpace = rest := by
  rw [List.dropWhile_append_of_pos fun b hb => List.all_eq_true.mp h b hb]
  cases rest with
  | nil => rfl
  | cons b rest => rw [List.dropWhile_cons_of_neg (by rw [hrest b rfl]; simp)]

end Decimal

namespace Literal

/-- What its digits are read as. -/
def reading (l : Literal) : Decimal.Reading := Decimal.Reading.start.both l.whole l.fraction

/-- Its exponent, as far as the digits are counted in. -/
def exponentRead (l : Literal) : ℤ := (l.exponent.map ExponentPart.read).getD 0

/-- Its exponent. -/
def exponentValue (l : Literal) : ℤ := (l.exponent.map ExponentPart.value).getD 0

/-- How many of its digits follow the point. -/
def fractionLength (l : Literal) : ℕ := (l.fraction.getD []).length

end Literal

namespace Decimal

/-- The digits of a number begin with a digit or the point. -/
theorem head_digits {whole : List (Fin 10)} {fraction : Option (List (Fin 10))}
    (h : whole ++ fraction.getD [] ≠ []) (rest : List UInt8) :
    ∃ b bytes, digitsText whole ++ (Literal.fractionText fraction ++ rest) = b :: bytes ∧
      isSpace b = false ∧ (b = ascii '+' || b = ascii '-') = false := by
  cases whole with
  | cons d whole => exact ⟨digitByte d, _, rfl, digitByte_isSpace d, digitByte_not_sign d⟩
  | nil =>
      cases fraction with
      | none => exact absurd rfl h
      | some ds => exact ⟨ascii '.', _, rfl, by decide, by decide⟩

theorem seenDigit_both {whole : List (Fin 10)} {fraction : Option (List (Fin 10))} :
    (Reading.start.both whole fraction).seenDigit = !(whole ++ fraction.getD []).isEmpty := by
  cases fraction with
  | none => simp [Reading.both, Reading.pushes_seenDigit, Reading.start]
  | some ds =>
      simp only [Reading.both, Reading.pushes_seenDigit, Reading.start, Bool.false_or,
        Option.getD_some]
      cases whole <;> rfl

/-- An exponent, or spaces, stop the digits. -/
theorem stops_exponentText (exponent : Option ExponentPart) {after : List UInt8}
    (h : after.all isSpace = true) : Stops (Literal.exponentText exponent ++ after) := by
  cases exponent with
  | none => exact stops_of_isSpace h
  | some e =>
      intro b hb
      obtain rfl := Option.some.inj hb
      cases e.upper <;> decide

/-- **The digits of a number are read, and the point is placed.** -/
theorem fromAscii_text (l : Literal) : fromAscii l.text =
    place l.negative l.reading.rounded
      ((l.reading.fractionDigits : ℤ) - l.reading.skippedIntegerDigits - l.exponentRead) := by
  obtain ⟨b, bytes, hhead, hspace, hsign⟩ :=
    head_digits l.digits_ne (Literal.exponentText l.exponent ++ l.after)
  have hdrop : l.text.dropWhile isSpace = signText l.sign ++ (digitsText l.whole ++
      (Literal.fractionText l.fraction ++ (Literal.exponentText l.exponent ++ l.after))) := by
    refine dropWhile_isSpace l.before_isSpace ?_
    rw [hhead]
    rcases l.sign with _ | _ | _
    · intro b' hb'
      obtain rfl := Option.some.inj hb'
      exact hspace
    · intro b' hb'
      obtain rfl := Option.some.inj hb'
      decide
    · intro b' hb'
      obtain rfl := Option.some.inj hb'
      decide
  have hunsigned : Unsigned (digitsText l.whole ++ (Literal.fractionText l.fraction ++
      (Literal.exponentText l.exponent ++ l.after))) := by
    rw [hhead]
    intro b' hb'
    obtain rfl := Option.some.inj hb'
    exact hsign
  rw [fromAscii, hdrop, readSign_text l.sign hunsigned,
    readDigits_text rfl l.whole l.fraction (stops_exponentText l.exponent l.after_isSpace)]
  have hseen : (Reading.start.both l.whole l.fraction).seenDigit = true := by
    rw [seenDigit_both]
    simpa using l.digits_ne
  have hafter : l.after.dropWhile isSpace = [] :=
    List.dropWhile_eq_nil_iff.mpr fun b hb => List.all_eq_true.mp l.after_isSpace b hb
  simp only [hseen, Bool.true_eq_false, if_false, readExponent_text l.exponent l.after_isSpace,
    hafter, ne_eq, not_true_eq_false]
  rfl

/-- Digits are never too many. -/
theorem readDigits_error {bytes : List UInt8} {r : Reading} {e : ParseDecimalError}
    (h : readDigits r bytes = .error e) : e = .invalid := by
  induction bytes generalizing r with
  | nil => exact absurd h (by simp [readDigits])
  | cons b bytes ih =>
  rw [readDigits] at h
  split at h
  · split at h
    · exact (Except.error.inj h).symm
    · exact ih h
  · split at h
    · exact absurd h (by simp)
    · exact ih h

/-- Nor is an exponent too large. -/
theorem readExponent_error {bytes : List UInt8} {e : ParseDecimalError}
    (h : readExponent bytes = .error e) : e = .invalid := by
  cases bytes with
  | nil => exact absurd h (by simp [readExponent])
  | cons b bytes =>
  rw [readExponent] at h
  split at h
  · dsimp only at h
    split at h
    · exact (Except.error.inj h).symm
    · exact absurd h (by simp)
  · exact absurd h (by simp)

/-- **Nothing else is accepted, or found to be too large.** -/
theorem exists_literal {bytes : List UInt8} (h : fromAscii bytes ≠ .error .invalid) :
    ∃ l : Literal, l.text = bytes := by
  rw [fromAscii] at h
  split at h
  next e hdigits => exact absurd (congrArg Except.error (readDigits_error hdigits)) h
  next r rest hdigits =>
  split at h
  · exact absurd rfl h
  next hseen =>
  split at h
  next e hexponent => exact absurd (congrArg Except.error (readExponent_error hexponent)) h
  next exponent after hexponent =>
  split at h
  · exact absurd rfl h
  next hafter =>
  obtain ⟨sign, hsign, -⟩ := exists_signText (bytes.dropWhile isSpace)
  obtain ⟨-, whole, fraction, hboth, rfl⟩ := readDigits_eq_ok hdigits
  obtain ⟨exponent', rfl⟩ := exists_exponentText hexponent
  rw [seenDigit_both] at hseen
  refine ⟨⟨bytes.takeWhile isSpace, sign, whole, fraction, exponent', after, ?_, ?_, ?_⟩, ?_⟩
  · exact List.all_takeWhile
  · simpa using hafter
  · simpa using hseen
  · rw [Literal.text, ← hboth, ← hsign]
    exact List.takeWhile_append_dropWhile

end Decimal

end OcppKit
