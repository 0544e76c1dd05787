import Mathlib

/-!
# Texts as lists of bytes

The bytes of a text (`Utf8.encode`) and the text of some bytes (`Utf8.decode`), over lists
rather than byte arrays, and the bytes that begin a text up to a boundary between two
characters (`Utf8.exists_take_encode`).

Bytes that are not a text can be read all the same (`Utf8.decodeLossy`): what is broken off
of a character, or is none, is replaced. Of a text nothing is
(`Utf8.decodeLossy_encode`), and a character of one byte is where its byte is
(`Utf8.lossyChars_append_cons`).
-/

namespace Utf8

/-- The bytes of a text. -/
def encode (text : String) : List UInt8 := text.toByteArray.data.toList

/-- The text some bytes are, if they are one. -/
def decode (bytes : List UInt8) : Option String := String.fromUTF8? ⟨bytes.toArray⟩

theorem fromUTF8?_toByteArray (text : String) :
    String.fromUTF8? text.toByteArray = some text := by
  rw [String.fromUTF8?, dif_pos text.isValidUTF8]
  rfl

/-- **What was encoded is decoded.** -/
@[simp] theorem decode_encode (text : String) : decode (encode text) = some text := by
  rw [decode, encode, Array.toArray_toList]
  exact fromUTF8?_toByteArray text

/-- **And nothing else is.** -/
theorem encode_of_decode {bytes : List UInt8} {text : String} (h : decode bytes = some text) :
    encode text = bytes := by
  rw [decode, String.fromUTF8?] at h
  split at h
  · obtain rfl := Option.some.inj h
    rfl
  · exact absurd h (by simp)

theorem encode_injective : Function.Injective encode := by
  intro text text' h
  have hdecode := congrArg decode h
  rw [decode_encode, decode_encode] at hdecode
  exact Option.some.inj hdecode

@[simp] theorem encode_append (text text' : String) :
    encode (text ++ text') = encode text ++ encode text' := by
  simp [encode, String.toByteArray_append]

@[simp] theorem length_encode (text : String) : (encode text).length = text.utf8ByteSize := by
  rw [encode, Array.length_toList]
  exact String.size_toByteArray

/-- **The bytes up to a boundary are a text**, the first part of the whole. -/
theorem exists_take_encode {text : String} {k : ℕ} (h : (String.Pos.Raw.mk k).IsValid text) :
    ∃ first second : String, text = first ++ second ∧ first.utf8ByteSize = k ∧
      (encode text).take k = encode first := by
  obtain ⟨first, second, rfl, hk⟩ := String.Pos.Raw.isValid_iff_exists_append.mp h
  have hsize : first.utf8ByteSize = k := (congrArg String.Pos.Raw.byteIdx hk).symm
  refine ⟨first, second, rfl, hsize, ?_⟩
  rw [encode_append, ← hsize, ← length_encode, List.take_left]

/-- Where a first part ends, there is a boundary. -/
theorem isValid_of_append (first second : String) :
    (String.Pos.Raw.mk first.utf8ByteSize).IsValid (first ++ second) :=
  String.Pos.Raw.isValid_iff_exists_append.mpr ⟨first, second, rfl, rfl⟩

/-! ### Character by character -/

theorem encode_ofList (cs : List Char) :
    encode (String.ofList cs) = cs.flatMap String.utf8EncodeChar := by
  rw [encode, String.toByteArray_ofList, List.utf8Encode, List.toList_data_toByteArray]

/-- A byte below 128 is a character of its own. -/
theorem eq_of_mem_utf8EncodeChar {c : Char} {b : UInt8} (h : b ∈ String.utf8EncodeChar c)
    (hb : b.toNat < 128) : c.toNat = b.toNat := by
  have hc : c.val.toNat = c.toNat := rfl
  rw [String.utf8EncodeChar] at h
  simp only [hc] at h
  split_ifs at h <;> simp only [List.mem_cons, List.not_mem_nil, or_false] at h
  · rw [h, UInt8.toNat_ofNat', Nat.mod_eq_of_lt (by omega)]
  all_goals
    have hlarge : ∀ n : ℕ, 128 ≤ n % 256 → b ≠ UInt8.ofNat n := by
      rintro n hn rfl
      rw [UInt8.toNat_ofNat'] at hb
      omega
  · rcases h with h | h
    · exact absurd h (hlarge _ (by omega))
    · exact absurd h (hlarge _ (by omega))
  · rcases h with h | h | h
    · exact absurd h (hlarge _ (by omega))
    · exact absurd h (hlarge _ (by omega))
    · exact absurd h (hlarge _ (by omega))
  · rcases h with h | h | h | h
    · exact absurd h (hlarge _ (by omega))
    · exact absurd h (hlarge _ (by omega))
    · exact absurd h (hlarge _ (by omega))
    · exact absurd h (hlarge _ (by omega))

/-- **A byte below 128 is in a text where its character is.** -/
theorem mem_toList_of_mem_encode {text : String} {c : Char} (hc : c.toNat < 128)
    (h : UInt8.ofNat c.toNat ∈ encode text) : c ∈ text.toList := by
  obtain ⟨cs, rfl⟩ := text.exists_eq_ofList
  rw [encode_ofList, List.mem_flatMap] at h
  obtain ⟨c', hc', hmem⟩ := h
  have hbyte : (UInt8.ofNat c.toNat).toNat = c.toNat := by
    rw [UInt8.toNat_ofNat', Nat.mod_eq_of_lt (by omega)]
  have hsame := eq_of_mem_utf8EncodeChar hmem (hbyte.trans_lt hc)
  rw [hbyte] at hsame
  rw [String.toList_ofList]
  rwa [show c = c' from Char.toNat_inj.mp hsame.symm]

/-- Characters below 128 are one byte each. -/
theorem encode_ofList_ascii {cs : List Char} (h : ∀ c ∈ cs, c.toNat < 128) :
    encode (String.ofList cs) = cs.map fun c => UInt8.ofNat c.toNat := by
  rw [encode_ofList]
  induction cs with
  | nil => rfl
  | cons c cs ih =>
      have hc : c.val.toNat < 128 := h c List.mem_cons_self
      rw [List.flatMap_cons, ih fun c hc => h c (List.mem_cons_of_mem _ hc), List.map_cons,
        String.utf8EncodeChar, if_pos (by omega)]
      rfl

/-! ### Bytes that are no text -/

/-- The character some bytes begin with. -/
def head? (bytes : List UInt8) : Option Char := ByteArray.utf8DecodeChar? ⟨bytes.toArray⟩ 0

/-- Whether a byte goes on with a character. -/
def isContinuation (b : UInt8) : Bool := 0x80 ≤ b && b ≤ 0xBF

/-- How many bytes a character has that begins with this one and goes on, and between which
bytes the second is. -/
def secondByte (a : UInt8) : Option (ℕ × UInt8 × UInt8) :=
  if a = 0xE0 then some (3, 0xA0, 0xBF)
  else if a = 0xED then some (3, 0x80, 0x9F)
  else if 0xE1 ≤ a && a ≤ 0xEF then some (3, 0x80, 0xBF)
  else if a = 0xF0 then some (4, 0x90, 0xBF)
  else if 0xF1 ≤ a && a ≤ 0xF3 then some (4, 0x80, 0xBF)
  else if a = 0xF4 then some (4, 0x80, 0x8F)
  else none

/-- How many bytes at the front, which are no character, are broken off of one. -/
def brokenLength : List UInt8 → ℕ
  | a :: b :: rest =>
      match secondByte a with
      | none => 1
      | some (width, low, high) =>
          if low ≤ b && b ≤ high then
            if width = 4 && rest.head?.any isContinuation then 3 else 2
          else 1
  | _ => 1

/-- **The characters of bytes that may be none**: what is broken off of one is replaced. -/
def lossyChars (bytes : List UInt8) : List Char :=
  match bytes with
  | [] => []
  | b :: rest =>
      match head? (b :: rest) with
      | some c => c :: lossyChars (rest.drop (c.utf8Size - 1))
      | none => Char.ofNat 0xFFFD :: lossyChars (rest.drop (brokenLength (b :: rest) - 1))
termination_by bytes.length
decreasing_by all_goals simp only [List.length_drop, List.length_cons]; omega

/-- **Reads bytes as a text, whatever they are.** -/
def decodeLossy (bytes : List UInt8) : String := String.ofList (lossyChars bytes)

/-- A character at the front is read. -/
theorem lossyChars_of_head {bytes : List UInt8} {c : Char} (h : head? bytes = some c) :
    lossyChars bytes = c :: lossyChars (bytes.drop c.utf8Size) := by
  rcases bytes with _ | ⟨b, rest⟩
  · exact absurd h (by rw [show head? [] = none from rfl]; simp)
  · have hsize := c.utf8Size_pos
    rw [lossyChars, h]
    obtain ⟨n, hn⟩ : ∃ n, c.utf8Size = n + 1 := ⟨c.utf8Size - 1, by omega⟩
    dsimp only
    rw [hn, List.drop_succ_cons, Nat.add_sub_cancel]

theorem head?_utf8EncodeChar (c : Char) (rest : List UInt8) :
    head? (String.utf8EncodeChar c ++ rest) = some c := by
  have hbytes : (⟨(String.utf8EncodeChar c ++ rest).toArray⟩ : ByteArray) =
      (String.utf8EncodeChar c).toByteArray ++ rest.toByteArray := by
    refine ByteArray.ext (Array.toList_inj.mp ?_)
    rw [ByteArray.data_append, Array.toList_append, List.toList_data_toByteArray,
      List.toList_data_toByteArray]
  rw [head?, hbytes, ByteArray.utf8DecodeChar?_utf8EncodeChar_append]

/-- **A text is read as it is.** -/
@[simp] theorem decodeLossy_encode (text : String) : decodeLossy (encode text) = text := by
  obtain ⟨cs, rfl⟩ := text.exists_eq_ofList
  rw [decodeLossy, encode_ofList]
  refine congrArg String.ofList ?_
  induction cs with
  | nil => rw [List.flatMap_nil, lossyChars]
  | cons c cs ih =>
      rw [List.flatMap_cons, lossyChars_of_head (head?_utf8EncodeChar c _),
        ← String.length_utf8EncodeChar, List.drop_left, ih]

/-! ### Around a character of one byte -/

/-- The bytes a character was read off are its own. -/
theorem head?_eq_some_iff {bytes : List UInt8} {c : Char} :
    head? bytes = some c ↔ ∃ rest, bytes = String.utf8EncodeChar c ++ rest := by
  constructor
  · intro h
    obtain ⟨rest, hrest⟩ := ByteArray.exists_of_utf8DecodeChar?_eq_some h
    refine ⟨rest.data.toList, ?_⟩
    have hbytes := congrArg (fun array : ByteArray => array.data.toList) hrest
    rwa [ByteArray.data_append, Array.toList_append, List.toList_data_toByteArray] at hbytes
  · rintro ⟨rest, rfl⟩
    exact head?_utf8EncodeChar c rest

/-- A byte below 128 is in no character that begins before it. -/
theorem head?_append_cons {bytes : List UInt8} (hbytes : bytes ≠ []) {b : UInt8}
    (hb : b.toNat < 128) (rest : List UInt8) : head? (bytes ++ b :: rest) = head? bytes := by
  rcases hhead : head? (bytes ++ b :: rest) with _ | c
  · rcases hhead' : head? bytes with _ | c
    · rfl
    · obtain ⟨tail, rfl⟩ := head?_eq_some_iff.mp hhead'
      rw [List.append_assoc, head?_utf8EncodeChar] at hhead
      exact absurd hhead (by simp)
  · obtain ⟨tail, htail⟩ := head?_eq_some_iff.mp hhead
    refine (head?_eq_some_iff.mpr ?_).symm
    rcases le_or_gt (String.utf8EncodeChar c).length bytes.length with hle | hgt
    · refine ⟨bytes.drop (String.utf8EncodeChar c).length, ?_⟩
      have htake := congrArg (List.take (String.utf8EncodeChar c).length) htail
      rw [List.take_append_of_le_length hle, List.take_left] at htake
      conv_lhs => rw [← List.take_append_drop (String.utf8EncodeChar c).length bytes, htake]
    · -- the byte would be one of the character, and so the whole of it
      exfalso
      have hmem : b ∈ String.utf8EncodeChar c := by
        have hget := congrArg (fun l => l[bytes.length]?) htail
        simp only [List.getElem?_append_right (le_refl bytes.length), Nat.sub_self,
          List.getElem?_cons_zero, List.getElem?_append_left hgt] at hget
        exact List.mem_of_getElem? hget.symm
      have hc := eq_of_mem_utf8EncodeChar hmem hb
      have hone : (String.utf8EncodeChar c).length = 1 := by
        have hval : c.val.toNat = c.toNat := rfl
        rw [String.utf8EncodeChar, if_pos (by omega)]
        rfl
      have := List.length_pos_iff.mpr hbytes
      omega

theorem brokenLength_append_cons {bytes : List UInt8} (hbytes : bytes ≠ []) {b : UInt8}
    (hb : b.toNat < 128) (rest : List UInt8) :
    brokenLength (bytes ++ b :: rest) = brokenLength bytes ∧
      brokenLength bytes ≤ bytes.length := by
  have hgoes : isContinuation b = false := by
    have hlow : ¬(0x80 : UInt8) ≤ b := fun h =>
      absurd (UInt8.le_iff_toNat_le.mp h) (by simpa using hb)
    simp [isContinuation, hlow]
  have hsecond : ∀ a width low high, secondByte a = some (width, low, high) →
      (low ≤ b && b ≤ high) = false := by
    intro a width low high h
    have hlow : (0x80 : UInt8) ≤ low := by
      rw [secondByte] at h
      split_ifs at h <;> obtain ⟨rfl, rfl, rfl⟩ := by simpa using h
      all_goals decide
    have hgt : ¬low ≤ b := fun hle => by
      have h1 := UInt8.le_iff_toNat_le.mp hlow
      have h2 := UInt8.le_iff_toNat_le.mp hle
      have : (0x80 : UInt8).toNat = 128 := rfl
      omega
    simp [hgt]
  rcases bytes with _ | ⟨a, _ | ⟨a', tail⟩⟩
  · exact absurd rfl hbytes
  · refine ⟨?_, le_rfl⟩
    rw [List.singleton_append, brokenLength]
    rcases hwidth : secondByte a with _ | ⟨width, low, high⟩
    · rfl
    · dsimp only
      rw [hsecond a width low high hwidth]
      rfl
  · rw [List.cons_append, List.cons_append, brokenLength, brokenLength]
    rcases secondByte a with _ | ⟨width, low, high⟩
    · exact ⟨rfl, by simp⟩
    · dsimp only
      rcases tail with _ | ⟨a'', tail⟩
      · simp only [List.nil_append, List.head?_cons, Option.any_some, hgoes, List.head?_nil,
          Option.any_none, List.length_cons, List.length_nil]
        split_ifs <;> simp_all
      · refine ⟨rfl, ?_⟩
        simp only [List.length_cons]
        split_ifs <;> omega

theorem brokenLength_pos (bytes : List UInt8) : 0 < brokenLength bytes := by
  rw [brokenLength.eq_def]
  split
  · split
    · exact Nat.one_pos
    · split_ifs <;> omega
  · exact Nat.one_pos

/-- What is broken off at the front is replaced. -/
theorem lossyChars_of_broken {bytes : List UInt8} (hbytes : bytes ≠ []) (h : head? bytes = none) :
    lossyChars bytes =
      Char.ofNat 0xFFFD :: lossyChars (bytes.drop (brokenLength bytes)) := by
  rcases bytes with _ | ⟨b, rest⟩
  · exact absurd rfl hbytes
  · rw [lossyChars, h]
    obtain ⟨n, hn⟩ : ∃ n, brokenLength (b :: rest) = n + 1 :=
      ⟨brokenLength (b :: rest) - 1, by have := brokenLength_pos (b :: rest); omega⟩
    dsimp only
    rw [hn, List.drop_succ_cons, Nat.add_sub_cancel]

/-- **A byte below 128 is read as its character**, whatever is broken off before it. -/
theorem lossyChars_append_cons (bytes : List UInt8) {b : UInt8} (hb : b.toNat < 128)
    (rest : List UInt8) :
    lossyChars (bytes ++ b :: rest) =
      lossyChars bytes ++ Char.ofNat b.toNat :: lossyChars rest := by
  induction hn : bytes.length using Nat.strong_induction_on generalizing bytes with
  | _ n ih =>
  rcases bytes with _ | ⟨a, tail⟩
  · have hone : String.utf8EncodeChar (Char.ofNat b.toNat) = [b] := by
      have hvalid : b.toNat.isValidChar := Or.inl (by omega)
      have hval : (Char.ofNat b.toNat).val.toNat = b.toNat := by
        rw [Char.ofNat, dif_pos hvalid]
        exact UInt32.toNat_ofNatLT
      rw [String.utf8EncodeChar, if_pos (by omega), hval, UInt8.ofNat_toNat]
    have hhead : head? (b :: rest) = some (Char.ofNat b.toNat) :=
      head?_eq_some_iff.mpr ⟨rest, by rw [hone]; rfl⟩
    rw [List.nil_append, lossyChars_of_head hhead, ← String.length_utf8EncodeChar, hone,
      lossyChars]
    rfl
  · have hne : a :: tail ≠ [] := List.cons_ne_nil a tail
    have hdrop : ∀ k, 0 < k → k ≤ (a :: tail).length →
        lossyChars ((a :: tail ++ b :: rest).drop k) =
          lossyChars ((a :: tail).drop k) ++ Char.ofNat b.toNat :: lossyChars rest := by
      intro k hk hle
      rw [List.drop_append_of_le_length hle]
      refine ih _ ?_ _ rfl
      rw [List.length_drop, ← hn]
      have : 0 < (a :: tail).length := List.length_pos_iff.mpr hne
      omega
    have hhead := head?_append_cons hne hb rest
    rcases hsame : head? (a :: tail) with _ | c
    · obtain ⟨hbroken, hle⟩ := brokenLength_append_cons hne hb rest
      have hpos := brokenLength_pos (a :: tail)
      rw [hsame] at hhead
      rw [lossyChars_of_broken (by simp) hhead, hbroken, lossyChars_of_broken hne hsame,
        hdrop _ hpos hle]
      rfl
    · rw [hsame] at hhead
      obtain ⟨more, hmore⟩ := head?_eq_some_iff.mp hsame
      have hle : c.utf8Size ≤ (a :: tail).length := by
        rw [hmore, List.length_append, String.length_utf8EncodeChar]
        omega
      rw [lossyChars_of_head hhead, lossyChars_of_head hsame, hdrop _ c.utf8Size_pos hle]
      rfl

end Utf8
