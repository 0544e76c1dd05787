import OcppKit.Library.Bits
import OcppKit.Transport.Security

/-!
# Printed keys

What is printed on a meter is a number of bits in groups of four or five (`OcppKit.Spells`),
broken up so that it can be read. The decoders keep the digits: base16 two at a time
(`OcppKit.decodeBase16`), base32 as bits that are collected until there are eight
(`OcppKit.Base32State.Holds`).

Two things go wrong. A `0x` is looked for before anything is ignored, so that it has to stand in
front (`OcppKit.decodeBase16_eq_some_iff`). And the bits that a base32 text leaves over need only
be zero: there may be five of them or more, a digit that says nothing, where an encoding never
has as many (`OcppKit.decodeBase32_eq_some_iff`).
-/

namespace OcppKit

/-! ### The decoders -/

/-- What a printed key may be broken up with. -/
def isSeparator (c : Char) : Bool :=
  c = ' ' || c = '\t' || c = '\n' || c = '\r' || c = '-' || c = ':' || c = '.'

/-- `char::to_digit(16)`. -/
def hexValue (c : Char) : Option ℕ :=
  if '0' ≤ c ∧ c ≤ '9' then some (c.toNat - '0'.toNat)
  else if 'a' ≤ c ∧ c ≤ 'f' then some (c.toNat - 'a'.toNat + 10)
  else if 'A' ≤ c ∧ c ≤ 'F' then some (c.toNat - 'A'.toNat + 10)
  else none

/-- `is_ascii_hexdigit`. -/
def isHexDigitChar (c : Char) : Bool := (hexValue c).isSome

/-- Whether a text begins with `0x`. -/
def hasHexPrefix : List Char → Bool
  | '0' :: 'x' :: _ => true
  | '0' :: 'X' :: _ => true
  | _ => false

/-- A text without a leading `0x`. -/
def withoutHexPrefix (text : List Char) : List Char :=
  if hasHexPrefix text then text.drop 2 else text

/-- Two digits a byte. -/
def hexPairs : List Char → Option (List UInt8)
  | high :: low :: rest =>
      (hexValue high).bind fun h => (hexValue low).bind fun l =>
        if h * 16 + l < 256 then (hexPairs rest).map (UInt8.ofNat (h * 16 + l) :: ·) else none
  | [] => some []
  | [_] => none

/-- The digits of a text in base16: what is no digit is ignored, and so is a leading `0x`. -/
def base16Digits (text : List Char) : List Char :=
  (withoutHexPrefix (trimSpace text)).filter isHexDigitChar

/-- **Hexadecimal**, whatever else there is. -/
def decodeBase16 (text : List Char) : Option (List UInt8) :=
  if base16Digits text = [] ∨ (base16Digits text).length % 2 ≠ 0 then none
  else hexPairs (base16Digits text)

/-- **Hexadecimal**, and nothing else but separators. -/
def decodePrintedHex (text : List Char) : Option (List UInt8) :=
  if (withoutHexPrefix (trimSpace text)).any fun c => !isHexDigitChar c && !isSeparator c then none
  else decodeBase16 (trimSpace text)

/-- A digit in base32. -/
def base32Value (c : Char) : Option ℕ :=
  if 'A' ≤ c ∧ c ≤ 'Z' then some (c.toNat - 'A'.toNat)
  else if 'a' ≤ c ∧ c ≤ 'z' then some (c.toNat - 'a'.toNat)
  else if '2' ≤ c ∧ c ≤ '7' then some (c.toNat - '2'.toNat + 26)
  else none

/-- What is kept while a text in base32 is read. -/
structure Base32State where
  /-- The bits that were read, in a word of 32. -/
  accumulator : ℕ
  /-- How many of them are still to be written. -/
  bits : ℕ
  /-- What has been written. -/
  bytes : List UInt8

namespace Base32State

/-- Nothing has been read. -/
def empty : Base32State := ⟨0, 0, []⟩

/-- A digit is read. -/
def push (s : Base32State) (value : ℕ) : Base32State :=
  let accumulator := (s.accumulator <<< 5 ||| value) % 2 ^ 32
  let bits := s.bits + 5
  if 8 ≤ bits then
    ⟨accumulator, bits - 8, s.bytes ++ [UInt8.ofNat (accumulator >>> (bits - 8) &&& 0xff)]⟩
  else ⟨accumulator, bits, s.bytes⟩

/-- A character is read. -/
def step (s : Base32State) (c : Char) : Option Base32State :=
  if c = '=' || isSeparator c then some s else (base32Value c).map s.push

/-- What is left over must be zero. -/
def finish (s : Base32State) : Option (List UInt8) :=
  if s.accumulator &&& (1 <<< s.bits - 1) ≠ 0 ∨ s.bytes = [] then none else some s.bytes

end Base32State

/-- **base32**, ignoring separators and padding. -/
def decodeBase32 (text : List Char) : Option (List UInt8) :=
  (text.foldlM Base32State.step Base32State.empty).bind Base32State.finish

/-! ### What a text spells -/

/-- Whether a character is ignored: a separator, or padding. -/
def isIgnored (c : Char) : Bool := c = '=' || isSeparator c

/-- A text without separators and padding. -/
def bare (text : List Char) : List Char := text.filter fun c => !isIgnored c

theorem bare_cons_of_ignored {c : Char} (hc : isIgnored c = true) (text : List Char) :
    bare (c :: text) = bare text := by
  rw [bare, List.filter_cons_of_neg (by simp [hc]), bare]

theorem bare_cons_of_not {c : Char} (hc : isIgnored c = false) (text : List Char) :
    bare (c :: text) = c :: bare text := by
  rw [bare, List.filter_cons_of_pos (by simp [hc]), bare]

/-- **What a text spells**, digit by digit: the bits of these bytes, in groups of this width, with
fewer than so many zeros after them. -/
def Spells (value : Char → Option ℕ) (width bound : ℕ) (key : List UInt8) (text : List Char) :
    Prop :=
  ∃ digits padding, text.mapM value = some digits ∧ padding < bound ∧
    Bits.groups width digits =
      Bits.groups 8 (key.map UInt8.toNat) ++ List.replicate padding false

/-- **A text in base16 spells a key**: two digits a byte. -/
abbrev SpellsBase16 (key : List UInt8) (text : List Char) : Prop := Spells hexValue 4 4 key text

/-- **A text in base32 spells a key**: five bits a digit, and as many zeros at the end as make up
the last. -/
abbrev SpellsBase32 (key : List UInt8) (text : List Char) : Prop :=
  Spells base32Value 5 5 key text

/-- The bits of the bytes are as many as those of the digits, but for what is left over. -/
theorem length_of_groups {width padding : ℕ} {key : List UInt8} {digits : List ℕ}
    (h : Bits.groups width digits =
      Bits.groups 8 (key.map UInt8.toNat) ++ List.replicate padding false) :
    width * digits.length = 8 * key.length + padding := by
  have hlength := congrArg List.length h
  rwa [Bits.length_groups, List.length_append, Bits.length_groups, List.length_map,
    List.length_replicate] at hlength

/-- **Bytes are determined by their bits.** -/
theorem eq_of_groups {key key' : List UInt8} {rest rest' : List Bool}
    (hlength : key.length = key'.length)
    (h : Bits.groups 8 (key.map UInt8.toNat) ++ rest =
      Bits.groups 8 (key'.map UInt8.toNat) ++ rest') : key = key' := by
  have hbound : ∀ key : List UInt8, ∀ n ∈ key.map UInt8.toNat, n < 2 ^ 8 := by
    intro key n hn
    obtain ⟨b, -, rfl⟩ := List.mem_map.mp hn
    exact b.toNat_lt
  have hbits := (List.append_inj h (by simp [hlength])).1
  exact (List.map_injective_iff.mpr fun _ _ => UInt8.toNat_inj.mp)
    (Bits.groups_injOn (by norm_num) (hbound key) (hbound key') hbits)

/-- A text spells one key at most. -/
theorem Spells.eq {value : Char → Option ℕ} {width bound bound' : ℕ} {key key' : List UInt8}
    {text : List Char} (hbound : bound ≤ 8) (hbound' : bound' ≤ 8)
    (h : Spells value width bound key text) (h' : Spells value width bound' key' text) :
    key = key' := by
  obtain ⟨digits, padding, hdigits, hpadding, hbits⟩ := h
  obtain ⟨digits', padding', hdigits', hpadding', hbits'⟩ := h'
  obtain rfl : digits = digits' := Option.some.inj (hdigits.symm.trans hdigits')
  have hlength := length_of_groups hbits
  have hlength' := length_of_groups hbits'
  exact eq_of_groups (by omega) (hbits.symm.trans hbits')

/-! ### base32 -/

namespace Base32State

/-- **What has been written, and what is still to be, are the digits.** -/
structure Holds (s : Base32State) (digits : List ℕ) : Prop where
  /-- The bits are those of the digits. -/
  groups : Bits.groups 8 (s.bytes.map UInt8.toNat) ++ Bits.ofNat s.bits s.accumulator =
    Bits.groups 5 digits
  /-- There is less than a byte to write. -/
  bits : s.bits < 8

theorem holds_empty : empty.Holds [] := ⟨rfl, by decide⟩

/-- The digit goes below what there is. -/
theorem accumulator_push {value : ℕ} (hvalue : value < 32) (s : Base32State) {m : ℕ} (hm : m ≤ 8) :
    Bits.ofNat (m + 5) ((s.accumulator <<< 5 ||| value) % 2 ^ 32) =
      Bits.ofNat m s.accumulator ++ Bits.ofNat 5 value := by
  rw [Bits.ofNat_mod (by omega), ← Nat.shiftLeft_add_eq_or_of_lt hvalue, Nat.shiftLeft_eq,
    Bits.ofNat_mul_add m hvalue]

/-- **A digit more.** -/
theorem Holds.push {s : Base32State} {digits : List ℕ} (h : s.Holds digits) {value : ℕ}
    (hvalue : value < 32) : (s.push value).Holds (digits ++ [value]) := by
  have hbits := h.bits
  have hall := accumulator_push hvalue s hbits.le
  rw [Base32State.push]
  generalize (s.accumulator <<< 5 ||| value) % 2 ^ 32 = accumulator at hall
  split
  · next hfull =>
    -- the eight bits above what is left over are a byte
    refine ⟨?_, by dsimp only; omega⟩
    have hbyte : Bits.ofNat 8 (UInt8.ofNat (accumulator >>> (s.bits + 5 - 8) &&& 0xff)).toNat =
        Bits.ofNat 8 (accumulator / 2 ^ (s.bits + 5 - 8)) := by
      rw [UInt8.toNat_ofNat', show (0xff : ℕ) = 2 ^ 8 - 1 from rfl, Nat.and_two_pow_sub_one_eq_mod,
        Nat.mod_mod, Bits.ofNat_mod le_rfl, Nat.shiftRight_eq_div_pow]
    have hsplit := Bits.ofNat_add 8 (s.bits + 5 - 8) accumulator
    rw [show 8 + (s.bits + 5 - 8) = s.bits + 5 by omega, hall] at hsplit
    rw [List.map_append, Bits.groups_append, List.map_singleton, Bits.groups_singleton, hbyte,
      Bits.groups_append, Bits.groups_singleton, ← h.groups, List.append_assoc, ← hsplit,
      List.append_assoc]
  · next hfew =>
    refine ⟨?_, by dsimp only; omega⟩
    rw [hall, Bits.groups_append, Bits.groups_singleton, ← h.groups, List.append_assoc]

theorem Holds.foldl_push {s : Base32State} {digits : List ℕ} (h : s.Holds digits)
    (values : List ℕ) (hvalues : ∀ value ∈ values, value < 32) :
    (values.foldl Base32State.push s).Holds (digits ++ values) := by
  induction values generalizing s digits with
  | nil => rwa [List.append_nil]
  | cons value values ih =>
      have hhead := h.push (hvalues value List.mem_cons_self)
      have htail := ih hhead fun v hv => hvalues v (List.mem_cons_of_mem _ hv)
      rwa [List.append_assoc] at htail

/-- What is ignored makes no difference. -/
theorem foldlM_step (text : List Char) (s : Base32State) : text.foldlM step s =
    ((bare text).mapM base32Value).map fun values => values.foldl push s := by
  induction text generalizing s with
  | nil => rfl
  | cons c text ih =>
      rw [List.foldlM_cons, step, ← isIgnored]
      rcases hc : isIgnored c with _ | _
      · rw [bare_cons_of_not hc, List.mapM_cons]
        rcases base32Value c with _ | value
        · rfl
        · simp only [Bool.false_eq_true, if_false, Option.map_some, Option.bind_eq_bind,
            Option.bind_some, ih]
          cases (bare text).mapM base32Value <;> rfl
      · rw [bare_cons_of_ignored hc]
        exact ih s

end Base32State

theorem base32Value_lt {c : Char} {value : ℕ} (h : base32Value c = some value) : value < 32 := by
  rw [base32Value] at h
  split at h
  · next hc =>
    have : c.toNat ≤ 'Z'.toNat := hc.2
    obtain rfl := Option.some.inj h
    simp at this ⊢
    omega
  split at h
  · next hc =>
    have : c.toNat ≤ 'z'.toNat := hc.2
    obtain rfl := Option.some.inj h
    simp at this ⊢
    omega
  split at h
  · next hc =>
    have : c.toNat ≤ '7'.toNat := hc.2
    obtain rfl := Option.some.inj h
    simp at this ⊢
    omega
  · cases h

/-- What is read of a text is read of its characters. -/
theorem exists_of_mem_mapM {value : Char → Option ℕ} {text : List Char} {digits : List ℕ}
    (h : text.mapM value = some digits) {n : ℕ} (hn : n ∈ digits) : ∃ c, value c = some n := by
  induction text generalizing digits with
  | nil =>
      obtain rfl : [] = digits := Option.some.inj h
      exact absurd hn List.not_mem_nil
  | cons c text ih =>
      rw [List.mapM_cons] at h
      rcases hc : value c with _ | m
      · rw [hc] at h
        cases h
      rcases htext : text.mapM value with _ | rest
      · rw [hc, htext] at h
        cases h
      rw [hc, htext] at h
      obtain rfl : m :: rest = digits := Option.some.inj h
      rcases List.mem_cons.mp hn with rfl | hn
      · exact ⟨c, hc⟩
      · exact ih htext hn

/-- What is left over is asked to be zero. -/
theorem Base32State.finish_eq_some_iff {s : Base32State} {key : List UInt8} :
    s.finish = some key ↔
      s.bytes = key ∧ key ≠ [] ∧ Bits.ofNat s.bits s.accumulator = List.replicate s.bits false := by
  rw [finish, Nat.one_shiftLeft, Nat.and_two_pow_sub_one_eq_mod, Bits.ofNat_eq_replicate_iff]
  split
  · next h =>
    refine iff_of_false nofun ?_
    rintro ⟨rfl, hbytes, hzero⟩
    exact h.elim (fun h => h hzero) hbytes
  · next h =>
    rw [not_or, not_not] at h
    constructor
    · intro hsome
      obtain rfl := Option.some.inj hsome
      exact ⟨rfl, h.2, h.1⟩
    · rintro ⟨rfl, -, -⟩
      rfl

/-- **A text in base32 is read when what is left over is zero**, be it eight bits or less: not
only what makes up the last digit. -/
theorem decodeBase32_eq_some_iff {text : List Char} {key : List UInt8} :
    decodeBase32 text = some key ↔ key ≠ [] ∧ Spells base32Value 5 8 key (bare text) := by
  rw [decodeBase32, Base32State.foldlM_step]
  rcases hdigits : (bare text).mapM base32Value with _ | digits
  · refine iff_of_false nofun ?_
    rintro ⟨-, digits, padding, hspelled, -⟩
    exact absurd (hdigits.symm.trans hspelled) nofun
  · have hvalues : ∀ value ∈ digits, value < 32 := fun value hvalue =>
      (exists_of_mem_mapM hdigits hvalue).elim fun _ hc => base32Value_lt hc
    have hholds := Base32State.holds_empty.foldl_push digits hvalues
    rw [Option.map_some, Option.bind_some, Base32State.finish_eq_some_iff]
    rw [List.nil_append] at hholds
    generalize digits.foldl Base32State.push Base32State.empty = s at hholds
    have hgroups := hholds.groups
    constructor
    · rintro ⟨rfl, hkey, hzero⟩
      exact ⟨hkey, digits, s.bits, hdigits, hholds.bits, by rw [← hgroups, hzero]⟩
    · rintro ⟨hkey, digits', padding, hdigits', hpadding, hbits⟩
      obtain rfl : digits = digits' := Option.some.inj (hdigits.symm.trans hdigits')
      have hlength := length_of_groups hbits
      have hwritten := congrArg List.length hgroups
      simp only [List.length_append, Bits.length_groups, List.length_map, Bits.length_ofNat]
        at hwritten
      have hlt := hholds.bits
      obtain rfl : s.bits = padding := by omega
      have hbytes : s.bytes = key := eq_of_groups (by omega) (hgroups.trans hbits)
      refine ⟨hbytes, hkey, ?_⟩
      rw [← hbytes, ← hgroups] at hbits
      exact List.append_cancel_left hbits

/-- The digits of a text in base32 leave five bits or more, all of them zero. -/
def Overlong (text : List Char) : Prop :=
  ∃ digits, text.mapM base32Value = some digits ∧ 2 ≤ digits.length ∧
    5 ≤ 5 * digits.length % 8 ∧
    ∀ b ∈ (Bits.groups 5 digits).drop (8 * (5 * digits.length / 8)), b = false

/-- **Where a text in base32 is refused that spells nothing.** -/
theorem decodeBase32_refuses_iff {text : List Char} :
    ((¬∃ key, SpellsBase32 key (bare text)) → decodeBase32 text = none) ↔
      ¬Overlong (bare text) := by
  constructor
  · rintro hrefuses ⟨digits, hdigits, htwo, hleft, hzero⟩
    have hnone : ¬∃ key, SpellsBase32 key (bare text) := by
      rintro ⟨key, digits', padding, hdigits', hpadding, hbits⟩
      obtain rfl : digits = digits' := Option.some.inj (hdigits.symm.trans hdigits')
      have hlength := length_of_groups hbits
      rw [hlength, Nat.mul_add_mod, Nat.mod_eq_of_lt (by omega)] at hleft
      omega
    have hread := hrefuses hnone
    -- what the decoder has written is the bytes, and what it has left over is zero
    have hvalues : ∀ value ∈ digits, value < 32 := fun value hvalue =>
      (exists_of_mem_mapM hdigits hvalue).elim fun _ hc => base32Value_lt hc
    have hholds := Base32State.holds_empty.foldl_push digits hvalues
    rw [List.nil_append] at hholds
    rw [decodeBase32, Base32State.foldlM_step, hdigits, Option.map_some, Option.bind_some] at hread
    generalize digits.foldl Base32State.push Base32State.empty = s at hholds hread
    have hgroups := hholds.groups
    have hwritten := congrArg List.length hgroups
    simp only [List.length_append, Bits.length_groups, List.length_map, Bits.length_ofNat]
      at hwritten
    have hlt := hholds.bits
    have hsome : s.finish = some s.bytes := by
      refine Base32State.finish_eq_some_iff.mpr ⟨rfl, ?_, ?_⟩
      · intro hempty
        rw [hempty, List.length_nil] at hwritten
        omega
      · have hbytes : 5 * digits.length / 8 = s.bytes.length := by omega
        rw [hbytes, ← hgroups, List.drop_append_of_le_length (by simp),
          List.drop_eq_nil_of_le (by simp), List.nil_append] at hzero
        exact List.eq_replicate_iff.mpr ⟨Bits.length_ofNat _ _, hzero⟩
    rw [hsome] at hread
    cases hread
  · intro hshort hnone
    rcases hread : decodeBase32 text with _ | key
    · rfl
    · exfalso
      obtain ⟨hkey, digits, padding, hdigits, hpadding, hbits⟩ :=
        decodeBase32_eq_some_iff.mp hread
      have hlength := length_of_groups hbits
      have hpos : 0 < key.length := List.length_pos_iff.mpr hkey
      by_cases hfew : padding < 5
      · exact hnone ⟨key, digits, padding, hdigits, hfew, hbits⟩
      · have hleft : 5 * digits.length % 8 = padding := by
          rw [hlength, Nat.mul_add_mod, Nat.mod_eq_of_lt hpadding]
        have hbytes : 5 * digits.length / 8 = key.length := by
          rw [hlength, Nat.mul_add_div (by norm_num), Nat.div_eq_of_lt hpadding, Nat.add_zero]
        refine hshort ⟨digits, hdigits, by omega, by omega, ?_⟩
        rw [hbytes, hbits, List.drop_append_of_le_length (by simp),
          List.drop_eq_nil_of_le (by simp), List.nil_append]
        exact fun b hb => List.eq_of_mem_replicate hb

/-! ### Hexadecimal -/

/-- The characters that are kept, unless white space is among them, are not at the ends. -/
theorem filter_trimSpace {keep : Char → Bool} {text : List Char}
    (h : ∀ c ∈ text, isUnicodeSpace c = true → keep c = false) :
    (trimSpace text).filter keep = text.filter keep := by
  have hfront : ∀ cs : List Char, (∀ c ∈ cs, isUnicodeSpace c = true → keep c = false) →
      (cs.dropWhile isUnicodeSpace).filter keep = cs.filter keep := by
    intro cs hcs
    induction cs with
    | nil => rfl
    | cons c cs ih =>
        have htail := ih fun d hd => hcs d (List.mem_cons_of_mem _ hd)
        rcases hc : isUnicodeSpace c with _ | _
        · rw [List.dropWhile_cons_of_neg (by simp [hc])]
        · rw [List.dropWhile_cons_of_pos hc, htail,
            List.filter_cons_of_neg (by simp [hcs c List.mem_cons_self hc])]
  have hback := hfront (text.dropWhile isUnicodeSpace).reverse fun c hc =>
    h c ((List.dropWhile_sublist _).subset (List.mem_reverse.mp hc))
  rw [trimSpace, List.filter_reverse, hback, List.filter_reverse, List.reverse_reverse,
    hfront text h]

/-- What stands in the text without the white space at its ends stands in it. -/
theorem mem_of_mem_trimSpace {c : Char} {text : List Char} (h : c ∈ trimSpace text) :
    c ∈ text := by
  have hreverse := (List.dropWhile_sublist _).subset (List.mem_reverse.mp h)
  exact (List.dropWhile_sublist _).subset (List.mem_reverse.mp hreverse)

theorem hexValue_eq_some {c : Char} {value : ℕ} (h : hexValue c = some value) :
    value < 16 ∧ 0x30 ≤ c.toNat ∧ c.toNat ≤ 0x66 ∧ c.toNat ≠ 0x3A ∧ c.toNat ≠ 0x3D := by
  rw [hexValue] at h
  split at h
  · next hc =>
    have hlow : '0'.toNat ≤ c.toNat := hc.1
    have hhigh : c.toNat ≤ '9'.toNat := hc.2
    obtain rfl := Option.some.inj h
    simp at hlow hhigh ⊢
    omega
  split at h
  · next hc =>
    have hlow : 'a'.toNat ≤ c.toNat := hc.1
    have hhigh : c.toNat ≤ 'f'.toNat := hc.2
    obtain rfl := Option.some.inj h
    simp at hlow hhigh ⊢
    omega
  split at h
  · next hc =>
    have hlow : 'A'.toNat ≤ c.toNat := hc.1
    have hhigh : c.toNat ≤ 'F'.toNat := hc.2
    obtain rfl := Option.some.inj h
    simp at hlow hhigh ⊢
    omega
  · cases h

/-- A digit is seen, and not ignored. -/
theorem isHexDigitChar_spec {c : Char} (h : isHexDigitChar c = true) :
    isUnicodeSpace c = false ∧ isIgnored c = false := by
  obtain ⟨value, hvalue⟩ := Option.isSome_iff_exists.mp h
  obtain ⟨-, hlow, hhigh, hcolon, hpadding⟩ := hexValue_eq_some hvalue
  refine ⟨isUnicodeSpace_of_seen ⟨by omega, by omega⟩, ?_⟩
  have hne : ∀ d : Char, d.toNat < 0x30 ∨ d.toNat = 0x3A ∨ d.toNat = 0x3D → c ≠ d := by
    rintro d hd rfl
    omega
  simp [isIgnored, isSeparator, hne]

/-- **Pairs of digits are the bytes they spell.** -/
theorem hexPairs_of_even {digits : List Char} (hhex : ∀ c ∈ digits, isHexDigitChar c = true)
    (heven : digits.length % 2 = 0) :
    ∃ key, hexPairs digits = some key ∧ SpellsBase16 key digits := by
  induction digits using hexPairs.induct with
  | case1 high low rest ih =>
      obtain ⟨h, hhigh⟩ := Option.isSome_iff_exists.mp (hhex high (by simp))
      obtain ⟨l, hlow⟩ := Option.isSome_iff_exists.mp (hhex low (by simp))
      rw [List.length_cons, List.length_cons] at heven
      obtain ⟨key, hkey, digits, padding, hdigits, hpadding, hbits⟩ :=
        ih (fun c hc => hhex c (by simp [hc])) (by omega)
      have hh := (hexValue_eq_some hhigh).1
      have hl := (hexValue_eq_some hlow).1
      refine ⟨UInt8.ofNat (h * 16 + l) :: key, ?_, h :: l :: digits, padding, ?_, hpadding, ?_⟩
      · rw [hexPairs, hhigh, Option.bind_some, hlow, Option.bind_some, if_pos (by omega), hkey]
        rfl
      · rw [List.mapM_cons, hhigh, List.mapM_cons, hlow, hdigits]
        rfl
      · have hbyte : Bits.ofNat 8 (UInt8.ofNat (h * 16 + l)).toNat =
            Bits.ofNat 4 h ++ Bits.ofNat 4 l := by
          rw [UInt8.toNat_ofNat', Bits.ofNat_mod le_rfl]
          exact @Bits.ofNat_mul_add 4 4 l hl h
        rw [List.map_cons, Bits.groups_cons, Bits.groups_cons, Bits.groups_cons, hbits, hbyte,
          List.append_assoc, List.append_assoc]
  | case2 => exact ⟨[], rfl, [], 0, rfl, by norm_num, rfl⟩
  | case3 c => simp at heven

/-- What spells a key in base16 are pairs of digits. -/
theorem SpellsBase16.digits {key : List UInt8} {text : List Char} (h : SpellsBase16 key text) :
    (∀ c ∈ text, isHexDigitChar c = true) ∧ text.length = 2 * key.length := by
  obtain ⟨digits, padding, hdigits, hpadding, hbits⟩ := h
  have hall : (∀ c ∈ text, isHexDigitChar c = true) ∧ text.length = digits.length := by
    clear hbits
    induction text generalizing digits with
    | nil =>
        obtain rfl : [] = digits := Option.some.inj hdigits
        exact ⟨nofun, rfl⟩
    | cons c text ih =>
        rw [List.mapM_cons] at hdigits
        rcases hc : hexValue c with _ | m
        · rw [hc] at hdigits
          cases hdigits
        rcases htext : text.mapM hexValue with _ | rest
        · rw [hc, htext] at hdigits
          cases hdigits
        rw [hc, htext] at hdigits
        obtain rfl : m :: rest = digits := Option.some.inj hdigits
        obtain ⟨hhex, hlength⟩ := ih rest htext
        refine ⟨?_, congrArg Nat.succ hlength⟩
        rintro d (_ | ⟨_, hd⟩)
        · exact Option.isSome_iff_exists.mpr ⟨m, hc⟩
        · exact hhex d hd
  have hlength := length_of_groups hbits
  exact ⟨hall.1, by omega⟩

/-- **What the digits of a text spell is read.** -/
theorem decodeBase16_of_spells {text : List Char} {key : List UInt8} (hkey : key ≠ [])
    (h : SpellsBase16 key (base16Digits text)) : decodeBase16 text = some key := by
  obtain ⟨hhex, hlength⟩ := h.digits
  obtain ⟨key', hread, hspells⟩ := hexPairs_of_even hhex (by omega)
  have hpos := List.length_pos_iff.mpr hkey
  have hne : base16Digits text ≠ [] := List.length_pos_iff.mp (by omega)
  rw [decodeBase16, if_neg (by simp [hne, hlength]), hread,
    hspells.eq (by norm_num) (by norm_num) h]

/-- Half a byte is no key. -/
theorem decodeBase16_eq_none_iff {text : List Char} : decodeBase16 text = none ↔
    base16Digits text = [] ∨ (base16Digits text).length % 2 ≠ 0 := by
  rw [decodeBase16]
  split
  · next h => exact iff_of_true rfl h
  · next h =>
    rw [not_or, not_not] at h
    have hhex : ∀ c ∈ base16Digits text, isHexDigitChar c = true := fun c hc =>
      (List.mem_filter.mp hc).2
    obtain ⟨key, hread, -⟩ := hexPairs_of_even hhex h.2
    rw [hread]
    exact iff_of_false nofun (by simp [h.1, h.2])

/-- **A `0x` stands in front**, if there is one. -/
def PrefixInFront (text : List Char) : Prop :=
  hasHexPrefix (bare text) = true → hasHexPrefix (trimSpace text) = true

/-- A text with a prefix is a zero, an `x` and the rest. -/
theorem exists_of_hasHexPrefix {text : List Char} (h : hasHexPrefix text = true) :
    ∃ x rest, (x = 'x' ∨ x = 'X') ∧ text = '0' :: x :: rest ∧ withoutHexPrefix text = rest := by
  unfold hasHexPrefix at h
  split at h
  · exact ⟨'x', _, Or.inl rfl, rfl, rfl⟩
  · exact ⟨'X', _, Or.inr rfl, rfl, rfl⟩
  · cases h

/-- **The digits of a text that has no others but them**: where a `0x` stands further back, its
zero is one of them. -/
theorem base16Digits_cases {text : List Char}
    (h : ∀ c ∈ withoutHexPrefix (bare text), isHexDigitChar c = true) :
    (PrefixInFront text ∧ base16Digits text = withoutHexPrefix (bare text)) ∨
      (¬PrefixInFront text ∧ base16Digits text = '0' :: withoutHexPrefix (bare text)) := by
  have htrim : (trimSpace text).filter isHexDigitChar = (bare text).filter isHexDigitChar := by
    rw [filter_trimSpace, bare, List.filter_filter]
    · refine (List.filter_congr fun c _ => ?_).symm
      rcases hc : isHexDigitChar c with _ | _
      · rfl
      · rw [(isHexDigitChar_spec hc).2]
        rfl
    · intro c _ hspace
      rcases hc : isHexDigitChar c with _ | _
      · rfl
      · rw [(isHexDigitChar_spec hc).1] at hspace
        cases hspace
  have hx : ∀ x, x = 'x' ∨ x = 'X' → isHexDigitChar x = false := by
    rintro x (rfl | rfl) <;> decide
  rcases hbare : hasHexPrefix (bare text) with _ | _
  · -- there is no `x` in the text
    left
    refine ⟨fun hfirst => absurd (hbare.symm.trans hfirst) nofun, ?_⟩
    rw [withoutHexPrefix, hbare] at h ⊢
    simp only [Bool.false_eq_true, if_false] at h ⊢
    rcases hfront : hasHexPrefix (trimSpace text) with _ | _
    · rw [base16Digits, withoutHexPrefix, hfront]
      simp only [Bool.false_eq_true, if_false]
      rw [htrim]
      exact List.filter_eq_self.mpr h
    · obtain ⟨x, rest, hxx, heq, -⟩ := exists_of_hasHexPrefix hfront
      exfalso
      have hmem : x ∈ text := mem_of_mem_trimSpace (by rw [heq]; simp)
      have hkept : x ∈ bare text :=
        List.mem_filter.mpr ⟨hmem, by rcases hxx with rfl | rfl <;> decide⟩
      exact absurd ((hx x hxx).symm.trans (h x hkept)) nofun
  · obtain ⟨x, hexes, hxx, hbareeq, hwithout⟩ := exists_of_hasHexPrefix hbare
    rw [hwithout] at h ⊢
    have hall : (trimSpace text).filter isHexDigitChar = '0' :: hexes := by
      rw [htrim, hbareeq, List.filter_cons_of_pos (by decide),
        List.filter_cons_of_neg (by rw [hx x hxx]; decide), List.filter_eq_self.mpr h]
    rcases hfront : hasHexPrefix (trimSpace text) with _ | _
    · right
      refine ⟨fun hfirst => absurd (hfront.symm.trans (hfirst hbare)) nofun, ?_⟩
      rw [base16Digits, withoutHexPrefix, hfront]
      exact hall
    · left
      obtain ⟨x', rest, hxx', heq, hrest⟩ := exists_of_hasHexPrefix hfront
      refine ⟨fun _ => hfront, ?_⟩
      rw [heq, List.filter_cons_of_pos (by decide),
        List.filter_cons_of_neg (by rw [hx x' hxx']; decide)] at hall
      rw [base16Digits, hrest]
      exact List.tail_eq_of_cons_eq hall

/-- **A text in base16 is read when its `0x` stands in front.** -/
theorem decodeBase16_eq_some_iff {text : List Char} {key : List UInt8} (hkey : key ≠ [])
    (h : SpellsBase16 key (withoutHexPrefix (bare text))) :
    decodeBase16 text = some key ↔ PrefixInFront text := by
  obtain ⟨hhex, hlength⟩ := h.digits
  rcases base16Digits_cases hhex with ⟨hfront, hdigits⟩ | ⟨hback, hdigits⟩
  · refine iff_of_true (decodeBase16_of_spells hkey ?_) hfront
    rwa [hdigits]
  · refine iff_of_false ?_ hback
    rw [decodeBase16_eq_none_iff.mpr (Or.inr ?_)]
    · exact nofun
    · rw [hdigits, List.length_cons]
      omega

/-- There is something else in a text than its digits, with their `0x` in front – which the
decoder ignores –, and the digits are a whole number of bytes. -/
def Stray (text : List Char) : Prop :=
  ¬(PrefixInFront text ∧ ∀ c ∈ withoutHexPrefix (bare text), isHexDigitChar c = true) ∧
    base16Digits text ≠ [] ∧ (base16Digits text).length % 2 = 0

/-- **Where a text in base16 is refused that spells nothing.** -/
theorem decodeBase16_refuses_iff {text : List Char} :
    ((¬∃ key, SpellsBase16 key (withoutHexPrefix (bare text))) → decodeBase16 text = none) ↔
      ¬Stray text := by
  rw [decodeBase16_eq_none_iff]
  constructor
  · rintro hrefuses ⟨hnot, hne, heven⟩
    by_cases hspells : ∃ key, SpellsBase16 key (withoutHexPrefix (bare text))
    · obtain ⟨key, hkey⟩ := hspells
      obtain ⟨hhex, hlength⟩ := hkey.digits
      rcases base16Digits_cases hhex with ⟨hfront, -⟩ | ⟨-, hdigits⟩
      · exact hnot ⟨hfront, hhex⟩
      · rw [hdigits, List.length_cons] at heven
        omega
    · exact (hrefuses hspells).elim hne fun hodd => hodd heven
  · intro hstray hnone
    by_contra hread
    rw [not_or, not_not] at hread
    by_cases hplain : PrefixInFront text ∧
        ∀ c ∈ withoutHexPrefix (bare text), isHexDigitChar c = true
    · rcases base16Digits_cases hplain.2 with ⟨-, hdigits⟩ | ⟨hback, -⟩
      · rw [hdigits] at hread
        obtain ⟨key, -, hspells⟩ := hexPairs_of_even hplain.2 hread.2
        exact hnone ⟨key, hspells⟩
      · exact hback hplain.1
    · exact hstray ⟨hplain, hread.1, hread.2⟩

end OcppKit
