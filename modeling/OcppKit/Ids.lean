import OcppKit.Basic
import OcppKit.Transport.Ws.Frame

/-!
# Message ids

No id may be used twice, and none may be longer than 36 characters. Two generators produce them,
each with a counter for the first of these: `OcppKit.CounterIds` writes it behind a prefix, and
`OcppKit.RandomIds`, where there is no entropy, into a UUID.

Neither has room for all of it. An id that is too long is cut at its end, where the counter
stands: then a number is cut to the digits of a smaller one, and has its id
(`OcppKit.CounterIds.id_eq_of_lt`). And the version of a UUID is written over four bits of the
counter, so that ids repeat after 4096 (`OcppKit.degradedUuid_eq_iff`). So ids are distinct for
as long as the counter leaves these places alone (`OcppKit.CounterIds.distinct_iff`,
`OcppKit.RandomIds.degraded_distinct_iff`).
-/

namespace OcppKit

/-! ### Generators -/

/-- The ids a generator produces, one call after another. -/
def idsOf {G : Type} (nextId : G → MessageId × G) : ℕ → G → List MessageId
  | 0, _ => []
  | n + 1, g => (nextId g).1 :: idsOf nextId n (nextId g).2

/-- **A generator that counts** produces the ids of the numbers it goes through. -/
theorem idsOf_eq {G : Type} {nextId : G → MessageId × G} {state : ℕ → G} {id : ℕ → MessageId}
    (h : ∀ i, nextId (state i) = (id i, state (i + 1))) (n start : ℕ) :
    idsOf nextId n (state start) = (List.range' start n).map id := by
  induction n generalizing start with
  | zero => rfl
  | succ n ih => rw [idsOf, h, List.range'_succ, List.map_cons, ih]

/-- They are distinct when no two of the numbers have one id. -/
theorem nodup_idsOf_iff {G : Type} {nextId : G → MessageId × G} {state : ℕ → G}
    {id : ℕ → MessageId} (h : ∀ i, nextId (state i) = (id i, state (i + 1))) (n : ℕ) :
    (idsOf nextId n (state 0)).Nodup ↔ ∀ i < n, ∀ j < n, id i = id j → i = j := by
  rw [idsOf_eq h, ← List.range_eq_range', List.nodup_map_iff_inj_on List.nodup_range]
  simp only [List.mem_range]

/-- A value, truncated to the characters an id may have. -/
def MessageId.truncating (value : String) : MessageId :=
  ⟨String.ofList (value.toList.take messageIdMaxLen)⟩

/-! ### A counter behind a prefix -/

/-- A digit of a number to the base 36. -/
def digit36 (digit : ℕ) : Char := Char.ofNat (if digit < 10 then 0x30 + digit else 0x57 + digit)

/-- A number to the base 36. -/
def base36 (remaining : ℕ) : List Char :=
  if remaining / 36 = 0 then [digit36 (remaining % 36)]
  else base36 (remaining / 36) ++ [digit36 (remaining % 36)]
termination_by remaining
decreasing_by omega

theorem base36_of_lt {n : ℕ} (h : n < 36) : base36 n = [digit36 n] := by
  rw [base36, if_pos (Nat.div_eq_of_lt h), Nat.mod_eq_of_lt h]

theorem base36_of_ge {n : ℕ} (h : 36 ≤ n) :
    base36 n = base36 (n / 36) ++ [digit36 (n % 36)] := by
  rw [base36, if_neg (by omega)]

theorem length_base36_pos (n : ℕ) : 0 < (base36 n).length := by
  rcases lt_or_ge n 36 with hlt | hge
  · simp [base36_of_lt hlt]
  · simp [base36_of_ge hge]

/-- A larger number has no fewer digits. -/
theorem length_base36_mono {m n : ℕ} (h : m ≤ n) : (base36 m).length ≤ (base36 n).length := by
  induction n using Nat.strong_induction_on generalizing m with
  | _ n ih =>
  rcases lt_or_ge n 36 with hlt | hge
  · rw [base36_of_lt hlt, base36_of_lt (h.trans_lt hlt)]
    exact le_rfl
  · rw [base36_of_ge hge, List.length_append, List.length_singleton]
    rcases lt_or_ge m 36 with hlt | hge'
    · rw [base36_of_lt hlt, List.length_singleton]
      omega
    · rw [base36_of_ge hge', List.length_append, List.length_singleton]
      have := ih (n / 36) (by omega) (Nat.div_le_div_right (c := 36) h)
      omega

theorem digit36_injOn : ∀ m < 36, ∀ n < 36, digit36 m = digit36 n → m = n := by decide

/-- **No two numbers have the same digits.** -/
theorem base36_injective : Function.Injective base36 := by
  intro m n h
  induction m using Nat.strong_induction_on generalizing n with
  | _ m ih =>
  have hlength := congrArg List.length h
  rcases lt_or_ge m 36 with hm | hm <;> rcases lt_or_ge n 36 with hn | hn
  · rw [base36_of_lt hm, base36_of_lt hn, List.singleton_inj] at h
    exact digit36_injOn m hm n hn h
  · rw [base36_of_lt hm, base36_of_ge hn, List.length_append] at hlength
    simp only [List.length_singleton] at hlength
    have := length_base36_pos (n / 36)
    omega
  · rw [base36_of_ge hm, base36_of_lt hn, List.length_append] at hlength
    simp only [List.length_singleton] at hlength
    have := length_base36_pos (m / 36)
    omega
  · rw [base36_of_ge hm, base36_of_ge hn] at h
    obtain ⟨hdiv, hmod⟩ := List.append_inj' h rfl
    have hdiv' := ih (m / 36) (by omega) hdiv
    have hmod' := digit36_injOn (m % 36) (by omega) (n % 36) (by omega) (List.singleton_inj.mp hmod)
    omega

/-- A counter-based generator. -/
structure CounterIds where
  /-- What each id begins with. -/
  prefixText : String
  /-- The counter, of 64 bits. -/
  next : ℕ

namespace CounterIds

/-- Starts a generator with a prefix. -/
def withPrefix (prefixText : String) : CounterIds := ⟨prefixText, 0⟩

/-- The id of a number. -/
def id (prefixText : String) (value : ℕ) : MessageId :=
  .truncating (prefixText ++ String.ofList (base36 value))

/-- **Produces the next id.** -/
def nextId (g : CounterIds) : MessageId × CounterIds :=
  (id g.prefixText g.next, { g with next := (g.next + 1) % 2 ^ 64 })

/-- **An id that is cut is the id of a smaller number**: the one without its last digit. -/
theorem id_eq_of_lt {prefixText : String} {value : ℕ}
    (h : messageIdMaxLen < prefixText.toList.length + (base36 value).length) :
    id prefixText value = id prefixText (value / 36) := by
  rw [id, id, MessageId.truncating, MessageId.truncating, String.toList_append,
    String.toList_append, String.toList_ofList, String.toList_ofList]
  refine congrArg MessageId.mk (congrArg String.ofList ?_)
  rcases lt_or_ge value 36 with hlt | hge
  · -- nothing of the counter is left
    rw [base36_of_lt hlt, List.length_singleton] at h
    rw [List.take_append_of_le_length (by omega), List.take_append_of_le_length (by omega)]
  · rw [base36_of_ge hge, List.length_append, List.length_singleton] at h
    rw [base36_of_ge hge, ← List.append_assoc, List.take_append_of_le_length]
    rw [List.length_append]
    omega

/-- An id that is not cut has the digits of its number. -/
theorem id_injOn {prefixText : String} {m n : ℕ}
    (hm : prefixText.toList.length + (base36 m).length ≤ messageIdMaxLen)
    (hn : prefixText.toList.length + (base36 n).length ≤ messageIdMaxLen)
    (h : id prefixText m = id prefixText n) : m = n := by
  rw [id, id, MessageId.truncating, MessageId.truncating, MessageId.mk.injEq,
    String.ofList_inj, String.toList_append, String.toList_append, String.toList_ofList,
    String.toList_ofList, List.take_of_length_le (by rwa [List.length_append]),
    List.take_of_length_le (by rwa [List.length_append])] at h
  exact base36_injective (List.append_cancel_left h)

/-- Ids ought to be distinct, and no longer than they may be. -/
def Distinct (prefixText : String) (n : ℕ) : Prop :=
  (idsOf nextId n (withPrefix prefixText)).Nodup ∧
    ∀ messageId ∈ idsOf nextId n (withPrefix prefixText),
      messageId.asStr.toList.length ≤ messageIdMaxLen

/-- **Ids are distinct as long as the prefix leaves room for the digits of the counter.** -/
theorem distinct_iff (prefixText : String) {n : ℕ} (hn : n < 2 ^ 64) : Distinct prefixText n ↔
    n ≤ 1 ∨ prefixText.toList.length + (base36 (n - 1)).length ≤ messageIdMaxLen := by
  have hnext : ∀ i, nextId ⟨prefixText, i % 2 ^ 64⟩ =
      (id prefixText (i % 2 ^ 64), ⟨prefixText, (i + 1) % 2 ^ 64⟩) := fun i => by
    rw [nextId, Nat.mod_add_mod]
  have hnodup := nodup_idsOf_iff hnext n
  rw [show (0 : ℕ) % 2 ^ 64 = 0 from rfl] at hnodup
  rw [Distinct, withPrefix, hnodup, and_iff_left]
  swap
  · intro messageId hid
    rw [show (⟨prefixText, 0⟩ : CounterIds) = ⟨prefixText, 0 % 2 ^ 64⟩ from rfl,
      idsOf_eq hnext, List.mem_map] at hid
    obtain ⟨i, -, rfl⟩ := hid
    rw [id, MessageId.truncating, String.toList_ofList]
    exact List.length_take_le _ _
  have hmod : ∀ i < n, i % 2 ^ 64 = i := fun i hi => Nat.mod_eq_of_lt (hi.trans hn)
  constructor
  · intro h
    by_contra hlong
    rw [not_or, not_le, not_le] at hlong
    -- the last number and the one without its last digit
    have hsame := id_eq_of_lt hlong.2
    have hlt : (n - 1) / 36 < n - 1 := Nat.div_lt_self (by omega) (by norm_num)
    have heq := h (n - 1) (by omega) ((n - 1) / 36) (by omega)
    rw [hmod _ (by omega), hmod _ (by omega)] at heq
    exact hlt.ne' (heq hsame)
  · rintro hroom i hi j hj heq
    rw [hmod i hi, hmod j hj] at heq
    rcases hroom with hone | hroom
    · omega
    · have hfits : ∀ k < n, prefixText.toList.length + (base36 k).length ≤ messageIdMaxLen :=
        fun k hk => (Nat.add_le_add_left (length_base36_mono (by omega)) _).trans hroom
      exact id_injOn (hfits i hi) (hfits j hj) heq

end CounterIds

/-! ### A counter in a UUID -/

/-- Renders bytes as digits, with hyphens before some of them. -/
def hyphenateFrom : (position : ℕ) → List UInt8 → List Char
  | _, [] => []
  | position, byte :: rest =>
      (if position ∈ [4, 6, 8, 10] then ['-'] else []) ++
        [Nat.digitChar (byte.toNat / 16), Nat.digitChar (byte.toNat % 16)] ++
        hyphenateFrom (position + 1) rest

/-- Renders 16 bytes as `xxxxxxxx-xxxx-xxxx-xxxx-xxxxxxxxxxxx`. -/
def hyphenate (bytes : List UInt8) : String := String.ofList (hyphenateFrom 0 bytes)

/-- Sets the version, and the variant. -/
def stamp (version : UInt8) (bytes : List UInt8) : List UInt8 :=
  (bytes.modify 6 fun byte => byte &&& 0x0F ||| version).modify 8 fun byte =>
    byte &&& 0x3F ||| 0x80

/-- A random UUID, of 16 bytes from the entropy source if it has them. -/
def uuidV4 (entropy : Option (List UInt8)) : Option String :=
  entropy.map fun bytes => hyphenate (stamp 0x40 bytes)

/-- **A UUID-shaped id built from a counter.** -/
def degradedUuid (counter : ℕ) : String :=
  hyphenate (stamp 0x80 (Ws.toBeBytes 8 counter ++ List.replicate 8 0))

/-- A random generator. -/
structure RandomIds where
  /-- How many ids it has produced, on 64 bits. -/
  counter : ℕ

namespace RandomIds

/-- A generator that has produced none. -/
def new : RandomIds := ⟨0⟩

/-- **Produces the next id**, from what the entropy source has. -/
def nextId (entropy : Option (List UInt8)) (g : RandomIds) : MessageId × RandomIds :=
  let counter := (g.counter + 1) % 2 ^ 64
  (⟨(uuidV4 entropy).getD (degradedUuid counter)⟩, ⟨counter⟩)

end RandomIds

theorem digitChar_injOn : ∀ m < 16, ∀ n < 16, Nat.digitChar m = Nat.digitChar n → m = n := by
  decide

/-- **The bytes can be told from the digits.** -/
theorem hyphenateFrom_injective {position : ℕ} {bytes bytes' : List UInt8}
    (hlength : bytes.length = bytes'.length)
    (h : hyphenateFrom position bytes = hyphenateFrom position bytes') : bytes = bytes' := by
  induction bytes generalizing position bytes' with
  | nil => exact (List.length_eq_zero_iff.mp hlength.symm).symm
  | cons byte rest ih =>
      rcases bytes' with _ | ⟨byte', rest'⟩
      · exact absurd hlength (by simp)
      rw [hyphenateFrom, hyphenateFrom, List.append_assoc, List.append_assoc] at h
      have htail := List.append_cancel_left h
      obtain ⟨hdigits, hrest⟩ := List.append_inj htail rfl
      have hhigh := digitChar_injOn _ (by have := byte.toNat_lt; omega) _
        (by have := byte'.toNat_lt; omega) (List.cons.inj hdigits).1
      have hlow := digitChar_injOn _ (by omega) _ (by omega)
        (List.cons.inj (List.cons.inj hdigits).2).1
      have hbyte : byte = byte' := UInt8.toNat_inj.mp (by omega)
      rw [hbyte, ih (Nat.succ.inj hlength) hrest]

theorem hyphenate_eq_iff {bytes bytes' : List UInt8} (hlength : bytes.length = bytes'.length) :
    hyphenate bytes = hyphenate bytes' ↔ bytes = bytes' := by
  constructor
  · intro h
    exact hyphenateFrom_injective hlength (String.ofList_injective h)
  · rintro rfl
    rfl

/-- The version takes the place of the high half of a byte. -/
theorem version_byte (n : ℕ) :
    (UInt8.ofNat (n % 256) &&& 0x0F ||| 0x80) = UInt8.ofNat (0x80 + n % 16) := by
  have hall : ∀ high < 16, ∀ low < 16,
      (UInt8.ofNat (16 * high + low) &&& 0x0F ||| 0x80) = UInt8.ofNat (0x80 + low) := by
    decide
  have := hall (n % 256 / 16) (by omega) (n % 256 % 16) (by omega)
  rwa [Nat.div_add_mod, show n % 256 % 16 = n % 16 by omega] at this

/-- **What is left of the counter**: all but the high half of its last byte but one. -/
theorem stamp_toBeBytes (counter : ℕ) :
    stamp 0x80 (Ws.toBeBytes 8 counter ++ List.replicate 8 0) =
      Ws.toBeBytes 6 (counter / 2 ^ 16) ++ UInt8.ofNat (0x80 + counter / 256 % 16) ::
        UInt8.ofNat (counter % 256) :: 0x80 :: List.replicate 7 0 := by
  obtain ⟨a, b, c, d, e, f, hhigh⟩ : ∃ a b c d e f,
      Ws.toBeBytes 6 (counter / 2 ^ 16) = [a, b, c, d, e, f] := ⟨_, _, _, _, _, _, rfl⟩
  have hbytes : Ws.toBeBytes 8 counter =
      Ws.toBeBytes 6 (counter / 2 ^ 16) ++ [UInt8.ofNat (counter / 256 % 256)] ++
        [UInt8.ofNat (counter % 256)] := by
    rw [Ws.toBeBytes, Ws.toBeBytes, show counter / 256 / 256 = counter / 2 ^ 16 by omega]
  rw [hbytes, hhigh, ← version_byte (counter / 256)]
  rfl

/-- **Two counters have one id when they differ in four bits at most**: the upper half of the
last byte but one. -/
theorem degradedUuid_eq_iff {c c' : ℕ} (hc : c < 2 ^ 64) (hc' : c' < 2 ^ 64) :
    degradedUuid c = degradedUuid c' ↔ c / 2 ^ 16 = c' / 2 ^ 16 ∧ c % 2 ^ 12 = c' % 2 ^ 12 := by
  rw [degradedUuid, degradedUuid, stamp_toBeBytes, stamp_toBeBytes, hyphenate_eq_iff (by simp)]
  have hbyte : ∀ m < 256, ∀ n < 256, UInt8.ofNat m = UInt8.ofNat n → m = n := by
    intro m hm n hn h
    have := congrArg UInt8.toNat h
    rwa [UInt8.toNat_ofNat', UInt8.toNat_ofNat', Nat.mod_eq_of_lt (by omega),
      Nat.mod_eq_of_lt (by omega)] at this
  constructor
  · intro h
    obtain ⟨hhigh, hrest⟩ := List.append_inj h (by simp)
    have hhigh' := congrArg Ws.fromBeBytes hhigh
    rw [Ws.fromBeBytes_toBeBytes (by omega), Ws.fromBeBytes_toBeBytes (by omega)] at hhigh'
    obtain ⟨hsixth, hrest⟩ := List.cons.inj hrest
    have hsixth' := hbyte _ (by omega) _ (by omega) hsixth
    have hseventh' := hbyte _ (by omega) _ (by omega) (List.cons.inj hrest).1
    omega
  · rintro ⟨hhigh, hlow⟩
    rw [hhigh, show c / 256 % 16 = c' / 256 % 16 by omega, show c % 256 = c' % 256 by omega]

namespace RandomIds

/-- The ids of a run are those of the numbers from one on. -/
theorem nodup_iff (n : ℕ) : (idsOf (nextId none) n new).Nodup ↔ ∀ i < n, ∀ j < n,
    (⟨degradedUuid ((i + 1) % 2 ^ 64)⟩ : MessageId) = ⟨degradedUuid ((j + 1) % 2 ^ 64)⟩ →
      i = j := by
  have hnext : ∀ i, nextId none ⟨i % 2 ^ 64⟩ =
      (⟨degradedUuid ((i + 1) % 2 ^ 64)⟩, ⟨(i + 1) % 2 ^ 64⟩) := fun i => by
    rw [nextId, Nat.mod_add_mod]
    rfl
  exact nodup_idsOf_iff hnext n

/-- The 4097th id is the first. -/
theorem not_nodup {n : ℕ} (h : 2 ^ 12 < n) : ¬(idsOf (nextId none) n new).Nodup := by
  rw [nodup_iff]
  intro hnodup
  have hmod : ∀ c < 2 ^ 64, c % 2 ^ 64 = c := fun c hc => Nat.mod_eq_of_lt hc
  have hsame : degradedUuid ((0 + 1) % 2 ^ 64) = degradedUuid ((2 ^ 12 + 1) % 2 ^ 64) := by
    rw [hmod _ (by norm_num), hmod _ (by norm_num)]
    exact (degradedUuid_eq_iff (by norm_num) (by norm_num)).mpr (by norm_num)
  have heq := hnodup 0 (by omega) (2 ^ 12) h (congrArg MessageId.mk hsame)
  norm_num at heq

/-- **Without entropy the ids are distinct for 4096 of them**, and a counter has the id of
every other that differs from it in four bits. -/
theorem degraded_distinct_iff (n : ℕ) : ((idsOf (nextId none) n new).Nodup ↔ n ≤ 2 ^ 12) ∧
    ∀ c < 2 ^ 64, ∀ c' < 2 ^ 64,
      degradedUuid c = degradedUuid c' ↔ c / 2 ^ 16 = c' / 2 ^ 16 ∧ c % 2 ^ 12 = c' % 2 ^ 12 := by
  refine ⟨?_, fun c hc c' hc' => degradedUuid_eq_iff hc hc'⟩
  constructor
  · intro h
    by_contra hlong
    exact not_nodup (by omega) h
  · rw [nodup_iff]
    intro hshort i hi j hj heq
    have hsame := (degradedUuid_eq_iff (Nat.mod_lt _ (by norm_num)) (Nat.mod_lt _ (by norm_num))).mp
      (MessageId.mk.inj heq)
    rw [Nat.mod_eq_of_lt (by omega), Nat.mod_eq_of_lt (by omega)] at hsame
    omega

end RandomIds

end OcppKit

namespace OcppKit.Reference

/-! ### Two ids that are one -/

/-- A prefix that leaves no room. -/
def fullPrefix : String := "aaaaaaaaaaaaaaaaaaaaaaaaaaaaaaaaaaaa"

/-- **Behind a prefix of 36 characters, the first two ids are one.** -/
theorem prefix_repeats : ¬∀ (prefixText : String) (n : ℕ), n < 2 ^ 64 →
    CounterIds.Distinct prefixText n := by
  intro h
  have hnodup := (h fullPrefix 2 (by norm_num)).1
  have hsame : CounterIds.id fullPrefix 1 = CounterIds.id fullPrefix 0 := by
    have hlength : fullPrefix.toList.length = 36 := rfl
    have hdigit := length_base36_pos 1
    refine @CounterIds.id_eq_of_lt fullPrefix 1 ?_
    rw [hlength, messageIdMaxLen]
    omega
  rw [idsOf, idsOf, List.nodup_cons] at hnodup
  refine hnodup.1 (List.mem_cons.mpr (Or.inl ?_))
  exact hsame.symm

/-- A prefix of one character leaves room for more than a thousand. -/
theorem distinct_iff_short : CounterIds.Distinct "a" 1297 := by
  refine (CounterIds.distinct_iff "a" (by norm_num)).mpr (Or.inr ?_)
  have hdigits : (base36 1296).length = 3 := by
    rw [base36_of_ge (by norm_num), base36_of_ge (by norm_num), base36_of_lt (by norm_num)]
    rfl
  rw [show (1297 - 1 : ℕ) = 1296 from rfl, hdigits]
  decide

/-- **Of 4097 ids without entropy two are one.** -/
theorem counter_repeats : ¬∀ n : ℕ, (idsOf (RandomIds.nextId none) n RandomIds.new).Nodup :=
  fun h => RandomIds.not_nodup (by norm_num) (h 4097)

end OcppKit.Reference
