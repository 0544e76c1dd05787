import OcppKit.Engine.Replay
import OcppKit.Reference

/-!
# A reference for the text of records

One value of the parameter `OcppKit.JournalText`, for closed statements to be
evaluated with: a byte is a character, and a record is written as `serde_json`
writes it, as long as its strings have no braces and no tilde in them. Those three
characters are written as a tilde and a letter, so that a text has exactly one
opening brace, at its beginning, and one closing brace, at its end
(`OcppKit.Reference.isMark_pieces`). From that follows everything that is relied on
about prefixes and about pieces glued together.

A text reads as a record if it is the text of that record and of nothing else.
-/

namespace OcppKit.Reference

/-! ### Strings without braces -/

/-- The braces of a string written without braces. -/
def veil : List Char → List Char
  | [] => []
  | c :: cs =>
    if c = '\x7b' then '~' :: 'o' :: veil cs
    else if c = '\x7d' then '~' :: 'c' :: veil cs
    else if c = '~' then '~' :: '~' :: veil cs
    else c :: veil cs

/-- The string whose braces were written otherwise. -/
def unveil : List Char → List Char
  | '~' :: 'o' :: cs => '\x7b' :: unveil cs
  | '~' :: 'c' :: cs => '\x7d' :: unveil cs
  | '~' :: '~' :: cs => '~' :: unveil cs
  | c :: cs => c :: unveil cs
  | [] => []

theorem unveil_cons {c : Char} (h : c ≠ '~') (cs : List Char) :
    unveil (c :: cs) = c :: unveil cs := by
  rw [unveil]
  all_goals
    intro _ hc
    exact absurd hc h

theorem unveil_veil (cs : List Char) : unveil (veil cs) = cs := by
  induction cs with
  | nil => rfl
  | cons c cs ih =>
      rw [veil]
      split
      · next h => rw [h, unveil, ih]
      · split
        · next h => rw [h, unveil, ih]
        · split
          · next h => rw [h, unveil, ih]
          · next h => rw [unveil_cons h, ih]

/-- The characters that structure a journal: the braces around a record and the end
of a line. -/
def isMark (c : Char) : Bool := c = '\x7b' || c = '\x7d' || c = '\n'

theorem unmarked {cs : List Char} (h : (cs.all fun c => !isMark c) = true) :
    ∀ c ∈ cs, isMark c = false := by
  intro c hc
  simpa using List.all_eq_true.mp h c hc

theorem isMark_veil {cs : List Char} {c : Char} (hc : c ∈ veil cs) :
    c ≠ '\x7b' ∧ c ≠ '\x7d' := by
  induction cs with
  | nil => cases hc
  | cons d cs ih =>
      rw [veil] at hc
      split at hc
      · rcases List.mem_cons.mp hc with rfl | hc
        · decide
        · rcases List.mem_cons.mp hc with rfl | hc
          · decide
          · exact ih hc
      · split at hc
        · rcases List.mem_cons.mp hc with rfl | hc
          · decide
          · rcases List.mem_cons.mp hc with rfl | hc
            · decide
            · exact ih hc
        · split at hc
          · rcases List.mem_cons.mp hc with rfl | hc
            · decide
            · rcases List.mem_cons.mp hc with rfl | hc
              · decide
              · exact ih hc
          · next hopen hclose _ =>
              rcases List.mem_cons.mp hc with rfl | hc
              · exact ⟨hopen, hclose⟩
              · exact ih hc

theorem isMark_hexDigit : ∀ n < 32, (['\\', 'u', '0', '0', Json.hexDigit (n / 16),
    Json.hexDigit (n % 16)].all fun c => !isMark c) = true := by
  decide +kernel

/-- An escape has no mark in it that its character is not, and no end of line. -/
theorem isMark_escapeChar {c d : Char} (hc : c ∈ Json.escapeChar d)
    (hd : d ≠ '\x7b' ∧ d ≠ '\x7d') : isMark c = false := by
  rcases Json.escapeChar_cases d with ⟨e, he, heq⟩ | ⟨hd', heq⟩ | ⟨-, -, hd', heq⟩
  · have hescapes : (Json.shortEscapes.all fun p => ['\\', p.2].all fun c => !isMark c) = true :=
      rfl
    exact unmarked (List.all_eq_true.mp hescapes _ he) c (heq ▸ hc)
  · exact unmarked (isMark_hexDigit _ hd') c (heq ▸ hc)
  · obtain rfl := List.mem_singleton.mp (heq ▸ hc)
    have hline : c ≠ '\n' := by
      rintro rfl
      exact hd' (by decide)
    simp [isMark, hd.1, hd.2, hline]

/-- A string, quoted and without braces. -/
def quoted (s : String) : List Char := Json.quote (veil s.toList)

theorem isMark_quoted {s : String} {c : Char} (hc : c ∈ quoted s) : isMark c = false := by
  rcases List.mem_cons.mp hc with rfl | hc
  · rfl
  rcases List.mem_append.mp hc with hc | hc
  · obtain ⟨d, hd, hc⟩ := List.mem_flatMap.mp hc
    exact isMark_escapeChar hc (isMark_veil hd)
  · obtain rfl := List.mem_singleton.mp hc
    rfl

/-! ### Writing -/

/-- A Boolean. -/
def boolText (b : Bool) : List Char := if b then "true".toList else "false".toList

/-- What stands between the braces of a record, piece by piece. -/
def pieces : JournalRecord → List (List Char)
  | .push seq entry =>
    ["\"op\":\"push\",\"seq\":".toList, Json.digits seq,
      ",\"action\":".toList, quoted entry.action,
      ",\"payload\":".toList, quoted entry.payload,
      ",\"send\":".toList, boolText entry.send,
      ",\"attempts\":".toList, Json.digits entry.attempts,
      ",\"transactional\":".toList, boolText entry.transactional]
  | .ack seq => ["\"op\":\"ack\",\"seq\":".toList, Json.digits seq]
  | .attempts seq attempts =>
    ["\"op\":\"attempts\",\"seq\":".toList, Json.digits seq,
      ",\"attempts\":".toList, Json.digits attempts]

/-- The text of a record. -/
def recordText (r : JournalRecord) : List Char := '\x7b' :: ((pieces r).flatten ++ ['\x7d'])

theorem isMark_digits {n : ℕ} {c : Char} (hc : c ∈ Json.digits n) : isMark c = false := by
  have hdigit : c.isDigit = true := Nat.isDigit_of_mem_toDigits (by decide) (by decide) hc
  rcases hmark : isMark c
  · rfl
  · simp only [isMark, Bool.or_eq_true, decide_eq_true_eq] at hmark
    rcases hmark with (rfl | rfl) | rfl
    · exact absurd hdigit (by decide)
    · exact absurd hdigit (by decide)
    · exact absurd hdigit (by decide)

theorem isMark_boolText {b : Bool} : ∀ c ∈ boolText b, isMark c = false := by
  cases b
  · exact unmarked (by rfl)
  · exact unmarked (by rfl)

/-- **No mark stands between the braces.** -/
theorem isMark_pieces (r : JournalRecord) : ∀ c ∈ (pieces r).flatten, isMark c = false := by
  suffices h : ∀ piece ∈ pieces r, ∀ c ∈ piece, isMark c = false by
    intro c hc
    obtain ⟨piece, hpiece, hc⟩ := List.mem_flatten.mp hc
    exact h piece hpiece c hc
  intro piece hpiece
  rcases r with ⟨seq, entry⟩ | seq | ⟨seq, attempts⟩
  · simp only [pieces, List.mem_cons, List.not_mem_nil, or_false] at hpiece
    rcases hpiece with rfl | rfl | rfl | rfl | rfl | rfl | rfl | rfl | rfl | rfl | rfl | rfl
    · exact unmarked (by rfl)
    · exact fun c => isMark_digits
    · exact unmarked (by rfl)
    · exact fun c => isMark_quoted
    · exact unmarked (by rfl)
    · exact fun c => isMark_quoted
    · exact unmarked (by rfl)
    · exact isMark_boolText
    · exact unmarked (by rfl)
    · exact fun c => isMark_digits
    · exact unmarked (by rfl)
    · exact isMark_boolText
  · simp only [pieces, List.mem_cons, List.not_mem_nil, or_false] at hpiece
    rcases hpiece with rfl | rfl
    · exact unmarked (by rfl)
    · exact fun c => isMark_digits
  · simp only [pieces, List.mem_cons, List.not_mem_nil, or_false] at hpiece
    rcases hpiece with rfl | rfl | rfl | rfl
    · exact unmarked (by rfl)
    · exact fun c => isMark_digits
    · exact unmarked (by rfl)
    · exact fun c => isMark_digits

/-! ### Reading -/

/-- A fixed piece of text. -/
def expect (piece cs : List Char) : Option (List Char) :=
  if piece.isPrefixOf cs then some (cs.drop piece.length) else none

/-- A number. -/
def takeNumber (cs : List Char) : Option (ℕ × List Char) :=
  some (Nat.ofDigitChars 10 (cs.takeWhile Char.isDigit) 0, cs.dropWhile Char.isDigit)

/-- A string. -/
def takeString (cs : List Char) : Option (String × List Char) :=
  (Json.takeValue Json.start cs).bind fun r =>
    (Json.unquote r.1).map fun s => (String.ofList (unveil s), r.2)

/-- A Boolean. -/
def takeBool (cs : List Char) : Option (Bool × List Char) :=
  ((expect "true".toList cs).map fun cs => (true, cs)) <|>
    (expect "false".toList cs).map fun cs => (false, cs)

/-- The record a text would be the text of, after the opening brace. -/
def candidate (cs : List Char) : Option JournalRecord :=
  (do
    let cs ← expect "\"op\":\"push\",\"seq\":".toList cs
    let (seq, cs) ← takeNumber cs
    let cs ← expect ",\"action\":".toList cs
    let (action, cs) ← takeString cs
    let cs ← expect ",\"payload\":".toList cs
    let (payload, cs) ← takeString cs
    let cs ← expect ",\"send\":".toList cs
    let (send, cs) ← takeBool cs
    let cs ← expect ",\"attempts\":".toList cs
    let (attempts, cs) ← takeNumber cs
    let cs ← expect ",\"transactional\":".toList cs
    let (transactional, _) ← takeBool cs
    return .push seq ⟨action, payload, send, attempts, transactional⟩) <|>
  (do
    let cs ← expect "\"op\":\"ack\",\"seq\":".toList cs
    let (seq, _) ← takeNumber cs
    return .ack seq) <|>
  (do
    let cs ← expect "\"op\":\"attempts\",\"seq\":".toList cs
    let (seq, cs) ← takeNumber cs
    let cs ← expect ",\"attempts\":".toList cs
    let (attempts, _) ← takeNumber cs
    return .attempts seq attempts)

theorem expect_append (piece rest : List Char) : expect piece (piece ++ rest) = some rest := by
  rw [expect, if_pos (List.isPrefixOf_iff_prefix.mpr (List.prefix_append _ _)), List.drop_left]

/-- What may follow a value in a record. -/
def EndsValue (rest : List Char) : Prop := ∃ c cs, rest = c :: cs ∧ (c = ',' ∨ c = '\x7d')

theorem takeNumber_digits (n : ℕ) {rest : List Char} (h : EndsValue rest) :
    takeNumber (Json.digits n ++ rest) = some (n, rest) := by
  obtain ⟨c, cs, rfl, hc⟩ := h
  have hstop : c.isDigit = false := by rcases hc with rfl | rfl <;> rfl
  have hall : ∀ d ∈ Json.digits n, d.isDigit = true :=
    fun d hd => Nat.isDigit_of_mem_toDigits (by decide) (by decide) hd
  have htake : (Json.digits n ++ c :: cs).takeWhile Char.isDigit = Json.digits n := by
    rw [List.takeWhile_append_of_pos hall, List.takeWhile_cons_of_neg (by simp [hstop]),
      List.append_nil]
  have hdrop : (Json.digits n ++ c :: cs).dropWhile Char.isDigit = c :: cs := by
    rw [List.dropWhile_append_of_pos hall, List.dropWhile_cons_of_neg (by simp [hstop])]
  rw [takeNumber, htake, hdrop, Json.digits, Nat.ofDigitChars_ten_toDigits]

theorem takeString_quoted (s : String) {rest : List Char} (h : EndsValue rest) :
    takeString (quoted s ++ rest) = some (s, rest) := by
  obtain ⟨c, cs, rfl, hc⟩ := h
  have hdelimiter : Json.isDelimiter c = true := by rcases hc with rfl | rfl <;> rfl
  rw [takeString, quoted, Json.takeValue_value (Json.isValue_quote _) hdelimiter]
  simp only [Option.bind_some, Json.unquote_quote, Option.map_some, unveil_veil,
    String.ofList_toList]

theorem takeBool_boolText (b : Bool) (rest : List Char) :
    takeBool (boolText b ++ rest) = some (b, rest) := by
  cases b
  · have hno : expect "true".toList ("false".toList ++ rest) = none := by
      rw [expect, if_neg]
      simp [List.isPrefixOf]
    rw [boolText, if_neg (by decide), takeBool, hno, expect_append]
    rfl
  · rw [boolText, if_pos rfl, takeBool, expect_append]
    rfl

theorem expect_none {piece cs rest : List Char} (n : ℕ) (hpiece : n ≤ piece.length)
    (hcs : n ≤ cs.length) (h : piece.take n ≠ cs.take n) : expect piece (cs ++ rest) = none := by
  rw [expect, if_neg]
  intro hprefix
  obtain ⟨t, ht⟩ := List.isPrefixOf_iff_prefix.mp hprefix
  refine h ?_
  have htake : (piece ++ t).take n = piece.take n := List.take_append_of_le_length hpiece
  rw [← htake, ht, List.take_append_of_le_length hcs]

theorem endsValue_close : EndsValue ['\x7d'] := ⟨'\x7d', [], rfl, Or.inr rfl⟩

theorem endsValue_of_head {p : List Char} (h : p.head? = some ',') (rest : List Char) :
    EndsValue (p ++ rest) := by
  rcases p with _ | ⟨c, cs⟩
  · cases h
  · exact ⟨c, cs ++ rest, rfl, Or.inl (Option.some.inj h)⟩

/-- **A record is the candidate for its own text.** -/
theorem candidate_pieces (r : JournalRecord) :
    candidate ((pieces r).flatten ++ ['\x7d']) = some r := by
  rcases r with ⟨seq, ⟨action, payload, send, attempts, transactional⟩⟩ | seq | ⟨seq, attempts⟩
  · have haction := endsValue_of_head (p := ",\"action\":".toList) (by rfl)
    have hpayload := endsValue_of_head (p := ",\"payload\":".toList) (by rfl)
    have hsend := endsValue_of_head (p := ",\"send\":".toList) (by rfl)
    have htransactional :=
      endsValue_of_head (p := ",\"transactional\":".toList) (by rfl)
    simp only [pieces, List.flatten_cons, List.flatten_nil, List.append_assoc, List.nil_append]
    rw [candidate]
    simp only [expect_append, Option.bind_eq_bind, Option.bind_some,
      takeNumber_digits _ (haction _), takeString_quoted _ (hpayload _),
      takeString_quoted _ (hsend _), takeBool_boolText, takeNumber_digits _ (htransactional _)]
    rfl
  · simp only [pieces, List.flatten_cons, List.flatten_nil, List.append_assoc, List.nil_append]
    have hpush : ∀ rest, expect "\"op\":\"push\",\"seq\":".toList
        ("\"op\":\"ack\",\"seq\":".toList ++ rest) = none :=
      fun rest => expect_none 7 (by decide) (by decide) (by decide)
    rw [candidate, hpush]
    simp only [expect_append, Option.bind_eq_bind, Option.bind_some, Option.bind_none,
      takeNumber_digits _ endsValue_close]
    rfl
  · have hattempts := endsValue_of_head (p := ",\"attempts\":".toList) (by rfl)
    simp only [pieces, List.flatten_cons, List.flatten_nil, List.append_assoc, List.nil_append]
    have hpush : ∀ rest, expect "\"op\":\"push\",\"seq\":".toList
        ("\"op\":\"attempts\",\"seq\":".toList ++ rest) = none :=
      fun rest => expect_none 7 (by decide) (by decide) (by decide)
    have hack : ∀ rest, expect "\"op\":\"ack\",\"seq\":".toList
        ("\"op\":\"attempts\",\"seq\":".toList ++ rest) = none :=
      fun rest => expect_none 8 (by decide) (by decide) (by decide)
    rw [candidate, hpush, hack]
    simp only [expect_append, Option.bind_eq_bind, Option.bind_some, Option.bind_none,
      takeNumber_digits _ (hattempts _), takeNumber_digits _ endsValue_close]
    rfl

/-! ### The reference -/

/-- **The reference.** -/
scoped instance instJournalText : JournalText where
  Byte := Char
  newline := '\n'
  toVec := recordText
  lineText cs := some (String.ofList cs)
  fromStr text := (candidate text.toList.tail).filter fun r => recordText r = text.toList
  rawFromString text :=
    if h : JsonText.isValue text = true then .ok ⟨text, h⟩ else .error "expected value"

/-- A text that reads as a record is the record's text. -/
theorem recordText_of_fromStr {text : String} {r : JournalRecord}
    (h : JournalText.fromStr text = some r) : recordText r = text.toList := by
  have hfilter := (Option.filter_eq_some_iff.mp h).2
  simpa using hfilter

theorem brace_not_mem_pieces (r : JournalRecord) :
    '\x7b' ∉ (pieces r).flatten ∧ '\x7d' ∉ (pieces r).flatten :=
  ⟨fun h => absurd (isMark_pieces r _ h) (by decide),
    fun h => absurd (isMark_pieces r _ h) (by decide)⟩

/-- A text has one opening brace. -/
theorem count_recordText (r : JournalRecord) : (recordText r).count '\x7b' = 1 := by
  rw [recordText, List.count_cons_self, List.count_append,
    List.count_eq_zero_of_not_mem (brace_not_mem_pieces r).1]
  rfl

/-- A piece that is not empty has the opening brace. -/
theorem brace_mem_of_prefix {r : JournalRecord} {p : List Char} (h : p <+: recordText r)
    (hp : p ≠ []) :
    '\x7b' ∈ p := by
  rcases p with _ | ⟨c, cs⟩
  · exact absurd rfl hp
  · obtain ⟨t, ht⟩ := h
    rw [recordText, List.cons_append] at ht
    exact List.mem_cons.mpr (Or.inl (List.cons.inj ht).1.symm)

theorem isBlank_of_brace {cs : List Char} (h : '\x7b' ∈ cs) :
    isBlank (String.ofList cs) = false := by
  rw [isBlank, String.toList_ofList]
  exact List.all_eq_false.mpr ⟨_, h, by decide⟩

scoped instance instLawfulJournalText : LawfulJournalText where
  newline_not_mem r hmem := by
    rcases List.mem_cons.mp hmem with h | h
    · exact absurd h (by decide)
    · rcases List.mem_append.mp h with h | h
      · exact absurd (isMark_pieces r _ h) (by decide)
      · exact absurd h (by decide)
  fromStr_toVec r := by
    refine ⟨_, rfl, isBlank_of_brace List.mem_cons_self, ?_⟩
    refine Option.filter_eq_some_iff.mpr ⟨?_, ?_⟩
    · rw [String.toList_ofList]
      exact candidate_pieces r
    · rw [String.toList_ofList]
      exact decide_eq_true rfl
  fromStr_prefix r p text hp hne htext := by
    obtain rfl := Option.some.inj htext
    rcases hread : JournalText.fromStr (String.ofList p) with _ | r'
    · rfl
    · have htext' := recordText_of_fromStr hread
      rw [String.toList_ofList] at htext'
      have hclose : '\x7d' ∈ p := by
        rw [← htext']
        exact List.mem_cons_of_mem _ (List.mem_append_right _ (List.mem_singleton.mpr rfl))
      have hp' : p <+: ('\x7b' :: (pieces r).flatten) ++ ['\x7d'] := hp
      rcases List.prefix_concat_iff.mp hp' with h | h
      · exact absurd h hne
      · rcases List.mem_cons.mp (h.subset hclose) with hbad | hbad
        · exact absurd hbad (by decide)
        · exact absurd hbad (brace_not_mem_pieces r).2
  rawFromString_get v := by
    simp only [JournalText.rawFromString]
    rw [dif_pos v.valid]

scoped instance instGluedUnreadable : Journal.GluedUnreadable JournalText.Byte JournalRecord where
  write_ne_nil r := List.cons_ne_nil _ _
  read_glued pieces hlen hpieces := by
    obtain ⟨p, q, rest, rfl⟩ : ∃ p q rest, pieces = p :: q :: rest := by
      rcases pieces with _ | ⟨p, _ | ⟨q, rest⟩⟩
      · simp at hlen
      · simp at hlen
      · exact ⟨p, q, rest, rfl⟩
    obtain ⟨hp0, r, hp⟩ := hpieces p List.mem_cons_self
    obtain ⟨hq0, r', hq⟩ := hpieces q (List.mem_cons_of_mem _ List.mem_cons_self)
    have hpb := brace_mem_of_prefix hp hp0
    have hqb := brace_mem_of_prefix hq hq0
    have hblank : isBlank (String.ofList (p :: q :: rest).flatten) = false :=
      isBlank_of_brace (List.mem_append_left _ hpb)
    have hnone : JournalText.fromStr (String.ofList (p :: q :: rest).flatten) = none := by
      rcases hread : JournalText.fromStr (String.ofList (p :: q :: rest).flatten) with _ | r''
      · rfl
      · have htext := recordText_of_fromStr hread
        rw [String.toList_ofList] at htext
        have hcount := count_recordText r''
        rw [htext, List.flatten_cons, List.flatten_cons, List.count_append, List.count_append]
          at hcount
        have hp1 := List.count_pos_iff.mpr hpb
        have hq1 := List.count_pos_iff.mpr hqb
        omega
    simp only [Journal.Format.read, JournalText.lineText, hblank, hnone]
    rfl

end OcppKit.Reference
