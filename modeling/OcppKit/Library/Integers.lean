import OcppKit.Library.Digits

/-!
# Whole numbers in decimal

A whole number as it is read from a text: an optional sign, at least one digit, and nothing else
(`Integers.parse`), within bounds (`Integers.parseIn`); a number without a sign has no minus
(`Integers.parseUnsigned`). How many zeros stand in front does not matter.
-/

namespace Integers

/-- The digit a character is. -/
def digit? (c : Char) : Option (Fin 10) :=
  if h : 48 ≤ c.toNat ∧ c.toNat < 58 then some ⟨c.toNat - 48, by omega⟩ else none

/-- The digits of a text, if it is nothing else and not empty. -/
def digits? (text : List Char) : Option (List (Fin 10)) :=
  if text = [] then none else text.mapM digit?

/-- **The whole number a text spells.** -/
def parse : List Char → Option ℤ
  | '+' :: text => (digits? text).map fun ds => (Digits.value ds : ℤ)
  | '-' :: text => (digits? text).map fun ds => -(Digits.value ds : ℤ)
  | text => (digits? text).map fun ds => (Digits.value ds : ℤ)

/-- The whole number a text spells, if it is within bounds. -/
def parseIn (least greatest : ℤ) (text : String) : Option ℤ :=
  (parse text.toList).filter fun n => least ≤ n ∧ n ≤ greatest

/-- **The number a text spells that has no sign**, or a plus, if it is not too large. -/
def parseUnsigned (greatest : ℕ) (text : List Char) : Option ℕ :=
  ((digits? (if text.head? = some '+' then text.tail else text)).map Digits.value).filter
    fun n => n ≤ greatest

/-- A number of 64 bits with a sign. -/
abbrev parseI64 (text : String) : Option ℤ := parseIn (-2 ^ 63) (2 ^ 63 - 1) text

example : parseI64 "+0042" = some 42 := by decide

example : parseI64 "-9223372036854775809" = none := by decide

end Integers
