import Mathlib

/-!
# JSON texts, one character at a time

A recognizer of JSON values as a machine that reads one character at a time and
keeps the open brackets on a stack (`Json.step`), and what can be done with it:
`Json.isValue` decides whether a text is one value, `Json.takeValue` takes the
value a text begins with, `Json.arrayElements` and `Json.objectMembers` split an
array and an object into the texts of their parts. `Json.quote` and `Json.unquote`
write and read strings.

Because the machine is a fold over the characters, what it does on a text followed
by more text needs no induction on the structure of the value:
`Json.takeValue_append`. From that, an array that is written element by element is
split into the same elements: `Json.arrayElements_bracket`.
-/

namespace Json

/-! ### The machine -/

/-- Where a number can be interrupted. -/
inductive NumState where
  /-- After the sign. -/
  | minus
  /-- After a leading zero. -/
  | zero
  /-- In the digits before the point. -/
  | int
  /-- After the point. -/
  | dot
  /-- In the digits after the point. -/
  | frac
  /-- After the `e`. -/
  | exp
  /-- After the sign of the exponent. -/
  | expSign
  /-- In the digits of the exponent. -/
  | expDigits
deriving DecidableEq

/-- Where a text can be interrupted. -/
inductive Mode where
  /-- A value must follow. -/
  | value
  /-- The first element of an array must follow, or its end. -/
  | first
  /-- A key must follow. -/
  | key
  /-- The first key of an object must follow, or its end. -/
  | firstKey
  /-- The colon after a key must follow. -/
  | colon
  /-- A value is complete. -/
  | done
  /-- In a string, which is a key or a value. -/
  | str (isKey : Bool)
  /-- After a backslash in a string. -/
  | esc (isKey : Bool)
  /-- In a `\u` escape, with this many digits to go. -/
  | hex (isKey : Bool) (left : ℕ)
  /-- In a number. -/
  | num (state : NumState)
  /-- In `true`, `false` or `null`, with these characters to go. -/
  | lit (rest : List Char)
deriving DecidableEq

/-- What is open. -/
inductive Nest where
  /-- An array. -/
  | arr
  /-- An object. -/
  | obj
deriving DecidableEq

/-- The state of the machine. -/
structure State where
  /-- Where it is. -/
  mode : Mode
  /-- What is open, innermost first. -/
  stack : List Nest
deriving DecidableEq

/-- White space. -/
def isSpace (c : Char) : Bool := c = ' ' || c = '\t' || c = '\n' || c = '\r'

/-- The value of a hexadecimal digit. -/
def hexValue (c : Char) : Option ℕ :=
  if '0' ≤ c ∧ c ≤ '9' then some (c.toNat - 48)
  else if 'a' ≤ c ∧ c ≤ 'f' then some (c.toNat - 87)
  else if 'A' ≤ c ∧ c ≤ 'F' then some (c.toNat - 55)
  else none

/-- The next state inside a number. -/
def NumState.next (s : NumState) (c : Char) : Option NumState :=
  match s with
  | .minus => if c = '0' then some .zero else if c.isDigit then some .int else none
  | .zero => if c = '.' then some .dot else if c = 'e' ∨ c = 'E' then some .exp else none
  | .int =>
      if c.isDigit then some .int
      else if c = '.' then some .dot else if c = 'e' ∨ c = 'E' then some .exp else none
  | .dot => if c.isDigit then some .frac else none
  | .frac =>
      if c.isDigit then some .frac else if c = 'e' ∨ c = 'E' then some .exp else none
  | .exp =>
      if c = '+' ∨ c = '-' then some .expSign else if c.isDigit then some .expDigits else none
  | .expSign | .expDigits => if c.isDigit then some .expDigits else none

/-- Whether a number may end here. -/
def NumState.final : NumState → Bool
  | .zero | .int | .frac | .expDigits => true
  | _ => false

/-- The first character of a value. -/
def startValue (stack : List Nest) (c : Char) : Option State :=
  if c = '"' then some ⟨.str false, stack⟩
  else if c = '[' then some ⟨.first, .arr :: stack⟩
  else if c = '{' then some ⟨.firstKey, .obj :: stack⟩
  else if c = '-' then some ⟨.num .minus, stack⟩
  else if c = '0' then some ⟨.num .zero, stack⟩
  else if c.isDigit then some ⟨.num .int, stack⟩
  else if c = 't' then some ⟨.lit ['r', 'u', 'e'], stack⟩
  else if c = 'f' then some ⟨.lit ['a', 'l', 's', 'e'], stack⟩
  else if c = 'n' then some ⟨.lit ['u', 'l', 'l'], stack⟩
  else none

/-- A character after a complete value. Outside of every bracket nothing may
follow. -/
def afterValue : List Nest → Char → Option State
  | [], _ => none
  | .arr :: rest, c =>
      if c = ',' then some ⟨.value, .arr :: rest⟩
      else if c = ']' then some ⟨.done, rest⟩
      else if isSpace c then some ⟨.done, .arr :: rest⟩ else none
  | .obj :: rest, c =>
      if c = ',' then some ⟨.key, .obj :: rest⟩
      else if c = '}' then some ⟨.done, rest⟩
      else if isSpace c then some ⟨.done, .obj :: rest⟩ else none

/-- **One character.** -/
def step (s : State) (c : Char) : Option State :=
  match s.mode with
  | .value => if isSpace c && !s.stack.isEmpty then some s else startValue s.stack c
  | .first =>
      if isSpace c then some s
      else if c = ']' then some ⟨.done, s.stack.tail⟩ else startValue s.stack c
  | .firstKey =>
      if isSpace c then some s
      else if c = '}' then some ⟨.done, s.stack.tail⟩
      else if c = '"' then some ⟨.str true, s.stack⟩ else none
  | .key => if isSpace c then some s else if c = '"' then some ⟨.str true, s.stack⟩ else none
  | .colon => if isSpace c then some s else if c = ':' then some ⟨.value, s.stack⟩ else none
  | .done => afterValue s.stack c
  | .str isKey =>
      if c = '"' then some ⟨if isKey then .colon else .done, s.stack⟩
      else if c = '\\' then some ⟨.esc isKey, s.stack⟩
      else if c.toNat < 32 then none else some s
  | .esc isKey =>
      if c = 'u' then some ⟨.hex isKey 4, s.stack⟩
      else if c ∈ ['"', '\\', '/', 'b', 'f', 'n', 'r', 't'] then
        some ⟨.str isKey, s.stack⟩
      else none
  | .hex isKey left =>
      if (hexValue c).isSome then
        some ⟨if left ≤ 1 then .str isKey else .hex isKey (left - 1), s.stack⟩
      else none
  | .num state =>
      match state.next c with
      | some state' => some ⟨.num state', s.stack⟩
      | none => if state.final then afterValue s.stack c else none
  | .lit [] => none
  | .lit (x :: rest) =>
      if c = x then some ⟨if rest.isEmpty then .done else .lit rest, s.stack⟩ else none

/-- Whether one complete value has been read. -/
def State.accepts (s : State) : Bool :=
  s.stack.isEmpty &&
    match s.mode with
    | .done => true
    | .num state => state.final
    | _ => false

/-- Where the machine starts. -/
def start : State := ⟨.value, []⟩

/-- The machine on a text. -/
def scan : State → List Char → Option State
  | s, [] => some s
  | s, c :: cs => (step s c).bind fun s' => scan s' cs

/-- **The text is one value**, with no white space around it. -/
def isValue (cs : List Char) : Bool := (scan start cs).any State.accepts

/-- Takes the value that a text begins with. -/
def takeValue : State → List Char → Option (List Char × List Char)
  | s, [] => if s.accepts then some ([], []) else none
  | s, c :: cs =>
      match step s c with
      | some s' => (takeValue s' cs).map fun r => (c :: r.1, r.2)
      | none => if s.accepts then some ([], c :: cs) else none

theorem scan_append (s : State) (cs ds : List Char) :
    scan s (cs ++ ds) = (scan s cs).bind fun s' => scan s' ds := by
  induction cs generalizing s with
  | nil => rfl
  | cons c cs ih =>
      rw [List.cons_append, scan, scan]
      rcases step s c with _ | s'
      · rfl
      · exact ih s'

/-- **What the machine has read through is taken.** -/
theorem takeValue_append {s s' : State} {cs : List Char} (h : scan s cs = some s')
    (rest : List Char) :
    takeValue s (cs ++ rest) = (takeValue s' rest).map fun r => (cs ++ r.1, r.2) := by
  induction cs generalizing s with
  | nil =>
      obtain rfl : s = s' := by simpa [scan] using h
      simp
  | cons c cs ih =>
      rw [scan] at h
      rcases hs : step s c with _ | s''
      · rw [hs] at h
        exact absurd h (by simp)
      · rw [hs] at h
        rw [List.cons_append, takeValue, hs]
        simp only [ih h, Option.map_map]
        rfl

/-- The characters that end a value outside of every bracket. -/
def isDelimiter (c : Char) : Bool := c = ',' || c = ']' || c = '}' || c = ':' || isSpace c

theorem NumState.next_delimiter (s : NumState) {c : Char} (h : isDelimiter c = true) :
    s.next c = none := by
  simp only [isDelimiter, isSpace, Bool.or_eq_true, decide_eq_true_eq] at h
  rcases h with (((rfl | rfl) | rfl) | rfl) | ((rfl | rfl) | rfl) | rfl <;> cases s <;> rfl

/-- A complete value ends at a delimiter. -/
theorem step_accepts {s : State} (hs : s.accepts = true) {c : Char} (h : isDelimiter c = true) :
    step s c = none := by
  obtain ⟨mode, stack⟩ := s
  simp only [State.accepts, Bool.and_eq_true, List.isEmpty_iff] at hs
  obtain ⟨rfl, hmode⟩ := hs
  cases mode with
  | done => rfl
  | num state =>
      simp only [step, NumState.next_delimiter state h]
      split <;> rfl
  | _ => exact absurd hmode (by simp)

/-- **A value is taken up to the delimiter that follows it.** -/
theorem takeValue_value {v : List Char} (hv : isValue v = true) {c : Char}
    (hc : isDelimiter c = true) (rest : List Char) :
    takeValue start (v ++ c :: rest) = some (v, c :: rest) := by
  rw [isValue] at hv
  rcases hs : scan start v with _ | s
  · rw [hs] at hv
    exact absurd hv (by simp)
  · rw [hs] at hv
    have hacc : s.accepts = true := by simpa using hv
    rw [takeValue_append hs, takeValue, step_accepts hacc hc, hacc]
    simp

/-! ### Arrays and objects -/

/-- Skips white space. -/
def skipSpace (cs : List Char) : List Char := cs.dropWhile isSpace

/-- The elements of an array from the first of them on, and what follows the
closing bracket. -/
def elementsFrom : ℕ → List Char → Option (List (List Char) × List Char)
  | 0, _ => none
  | n + 1, cs =>
      match takeValue start (skipSpace cs) with
      | none => none
      | some (v, rest) =>
          match skipSpace rest with
          | ',' :: rest => (elementsFrom n rest).map fun r => (v :: r.1, r.2)
          | ']' :: rest => some ([v], rest)
          | _ => none

/-- **The elements of the array a text is.** -/
def arrayElements (cs : List Char) : Option (List (List Char)) :=
  match skipSpace cs with
  | '[' :: cs =>
      match skipSpace cs with
      | ']' :: rest => if (skipSpace rest).isEmpty then some [] else none
      | _ =>
          match elementsFrom cs.length cs with
          | some (vs, rest) => if (skipSpace rest).isEmpty then some vs else none
          | none => none
  | _ => none

/-- An array written element by element. -/
def bracket (vs : List (List Char)) : List Char := '[' :: ((vs.intersperse [',']).flatten ++ [']'])

theorem step_start_space {c : Char} (h : isSpace c = true) : step start c = none := by
  simp only [isSpace, Bool.or_eq_true, decide_eq_true_eq] at h
  rcases h with ((rfl | rfl) | rfl) | rfl <;> rfl

/-- A value begins with a character of its own. -/
theorem skipSpace_value {v : List Char} (hv : isValue v = true) (rest : List Char) :
    skipSpace (v ++ rest) = v ++ rest := by
  rcases v with _ | ⟨c, v⟩
  · exact absurd hv (by decide)
  · have hc : ¬isSpace c = true := by
      intro hsp
      rw [isValue, scan, step_start_space hsp] at hv
      exact absurd hv (by simp)
    rw [skipSpace, List.cons_append, List.dropWhile_cons_of_neg hc]

theorem elementsFrom_bracket {vs : List (List Char)} (hne : vs ≠ [])
    (hvs : ∀ v ∈ vs, isValue v = true) (rest : List Char) {n : ℕ} (hn : vs.length ≤ n) :
    elementsFrom n ((vs.intersperse [',']).flatten ++ ']' :: rest) = some (vs, rest) := by
  induction vs generalizing n with
  | nil => exact absurd rfl hne
  | cons v vs ih =>
      obtain ⟨n, rfl⟩ : ∃ m, n = m + 1 := ⟨n - 1, by simp at hn; omega⟩
      have hv : isValue v = true := hvs v List.mem_cons_self
      rcases vs with _ | ⟨w, vs⟩
      · have htake : takeValue start (skipSpace (v ++ ']' :: rest)) = some (v, ']' :: rest) := by
          rw [skipSpace_value hv, takeValue_value hv (by rfl)]
        simp only [List.intersperse, List.flatten_cons, List.flatten_nil, List.append_nil,
          elementsFrom, htake]
        rfl
      · have hih := ih (by simp) (fun u hu => hvs u (List.mem_cons_of_mem _ hu))
          (n := n) (by simpa using hn)
        have htake : takeValue start (skipSpace (v ++ ',' ::
            (((w :: vs).intersperse [',']).flatten ++ ']' :: rest))) =
            some (v, ',' :: (((w :: vs).intersperse [',']).flatten ++ ']' :: rest)) := by
          rw [skipSpace_value hv, takeValue_value hv (by rfl)]
        have hsplit : ((v :: w :: vs).intersperse [',']).flatten ++ ']' :: rest =
            v ++ ',' :: (((w :: vs).intersperse [',']).flatten ++ ']' :: rest) := by
          simp [List.intersperse]
        rw [hsplit, elementsFrom, htake]
        have hskip : skipSpace (',' :: (((w :: vs).intersperse [',']).flatten ++ ']' :: rest)) =
            ',' :: (((w :: vs).intersperse [',']).flatten ++ ']' :: rest) := rfl
        simp only [hskip, hih, Option.map_some]

theorem length_le_intersperse {vs : List (List Char)} (hvs : ∀ v ∈ vs, isValue v = true) :
    vs.length ≤ (vs.intersperse [',']).flatten.length := by
  induction vs with
  | nil => simp
  | cons v vs ih =>
      have hv : 1 ≤ v.length := by
        rcases v with _ | ⟨c, v⟩
        · exact absurd (hvs [] List.mem_cons_self) (by decide)
        · simp
      have hrest := ih fun w hw => hvs w (List.mem_cons_of_mem _ hw)
      rcases vs with _ | ⟨w, vs⟩
      · simpa using hv
      · simp only [List.intersperse, List.flatten_cons, List.length_append,
          List.length_cons] at hrest ⊢
        omega

/-- **An array written element by element is split into the same elements.** -/
theorem arrayElements_bracket {vs : List (List Char)} (hvs : ∀ v ∈ vs, isValue v = true) :
    arrayElements (bracket vs) = some vs := by
  rcases vs with _ | ⟨v, vs⟩
  · rfl
  · have helem := elementsFrom_bracket (by simp) hvs [] (n := (((v :: vs).intersperse
      [',']).flatten ++ [']']).length) (by
        have := length_le_intersperse hvs
        rw [List.length_append]
        omega)
    have hbody : skipSpace (((v :: vs).intersperse [',']).flatten ++ [']']) =
        ((v :: vs).intersperse [',']).flatten ++ [']'] := by
      have hv : isValue v = true := hvs v List.mem_cons_self
      rcases vs with _ | ⟨w, vs⟩
      · simpa [List.intersperse] using skipSpace_value hv [']']
      · simpa [List.intersperse] using skipSpace_value hv _
    have hhead : ∀ rest, ((v :: vs).intersperse [',']).flatten ++ [']'] ≠ ']' :: rest := by
      intro rest he
      have hv : isValue v = true := hvs v List.mem_cons_self
      rcases v with _ | ⟨c, v⟩
      · exact absurd hv (by decide)
      · obtain rfl : c = ']' := by
          rcases vs with _ | ⟨w, vs⟩
          · simp [List.intersperse] at he
            exact he.1
          · simp [List.intersperse] at he
            exact he.1
        exact absurd hv (by simp [isValue, scan, step, start, startValue, isSpace])
    rw [arrayElements, bracket, show skipSpace ('[' :: (((v :: vs).intersperse [',']).flatten ++
      [']'])) = '[' :: (((v :: vs).intersperse [',']).flatten ++ [']']) from rfl]
    simp only [hbody, helem]
    rfl

/-- The members of an object from the first of them on, each a key and the text of
its value, and what follows the closing brace. -/
def membersFrom : ℕ → List Char → Option (List (List Char × List Char) × List Char)
  | 0, _ => none
  | n + 1, cs =>
      match takeValue start (skipSpace cs) with
      | none => none
      | some (k, rest) =>
          match skipSpace rest with
          | ':' :: rest =>
              match takeValue start (skipSpace rest) with
              | none => none
              | some (v, rest) =>
                  match skipSpace rest with
                  | ',' :: rest => (membersFrom n rest).map fun r => ((k, v) :: r.1, r.2)
                  | '}' :: rest => some ([(k, v)], rest)
                  | _ => none
          | _ => none

/-- **The members of the object a text is.** -/
def objectMembers (cs : List Char) : Option (List (List Char × List Char)) :=
  match skipSpace cs with
  | '{' :: cs =>
      match skipSpace cs with
      | '}' :: rest => if (skipSpace rest).isEmpty then some [] else none
      | _ =>
          match membersFrom cs.length cs with
          | some (ms, rest) => if (skipSpace rest).isEmpty then some ms else none
          | none => none
  | _ => none

/-! ### Strings -/

/-- The digit of a number below sixteen. -/
def hexDigit (n : ℕ) : Char := Char.ofNat (if n < 10 then 48 + n else 87 + n)

/-- One character as it stands in a string. -/
def escapeChar (c : Char) : List Char :=
  if c = '"' then ['\\', '"']
  else if c = '\\' then ['\\', '\\']
  else if c = '\n' then ['\\', 'n']
  else if c = '\r' then ['\\', 'r']
  else if c = '\t' then ['\\', 't']
  else if c = '\x08' then ['\\', 'b']
  else if c = '\x0c' then ['\\', 'f']
  else if c.toNat < 32 then ['\\', 'u', '0', '0', hexDigit (c.toNat / 16), hexDigit (c.toNat % 16)]
  else [c]

/-- **A string, quoted.** -/
def quote (cs : List Char) : List Char := '"' :: (cs.flatMap escapeChar ++ ['"'])

/-- What a character after a backslash stands for. -/
def unescapeChar (c : Char) : Option Char :=
  if c = '"' ∨ c = '\\' ∨ c = '/' then some c
  else if c = 'n' then some '\n'
  else if c = 'r' then some '\r'
  else if c = 't' then some '\t'
  else if c = 'b' then some '\x08'
  else if c = 'f' then some '\x0c'
  else none

/-- Four hexadecimal digits. -/
def hex4 (a b c d : Char) : Option ℕ := do
  return (((← hexValue a) * 16 + (← hexValue b)) * 16 + (← hexValue c)) * 16 + (← hexValue d)

/-- A character named by its number, if it is one. -/
def charOf (n : ℕ) : Option Char := if n.isValidChar then some (Char.ofNat n) else none

/-- The characters of a string from here to the closing quote, which must end the
text; a `\u` escape stays a number for now. -/
def unitsFrom : List Char → Option (List (Char ⊕ ℕ))
  | [] => none
  | '\\' :: 'u' :: a :: b :: c :: d :: rest =>
      (hex4 a b c d).bind fun n => (unitsFrom rest).map (.inr n :: ·)
  | '\\' :: c :: rest => (unescapeChar c).bind fun ch => (unitsFrom rest).map (.inl ch :: ·)
  | c :: rest =>
      if c = '"' then (if rest.isEmpty then some [] else none)
      else if c.toNat < 32 then none
      else (unitsFrom rest).map (.inl c :: ·)

/-- Puts the pairs of surrogates together, given the first half of a pair that has
been read; a lone half names no character. -/
def joinUnits : Option ℕ → List (Char ⊕ ℕ) → Option (List Char)
  | none, [] => some []
  | some _, [] => none
  | none, .inl c :: rest => (joinUnits none rest).map (c :: ·)
  | some _, .inl _ :: _ => none
  | none, .inr n :: rest =>
      if 0xD800 ≤ n ∧ n < 0xDC00 then joinUnits (some n) rest
      else (charOf n).bind fun ch => (joinUnits none rest).map (ch :: ·)
  | some n, .inr m :: rest =>
      if 0xDC00 ≤ m ∧ m < 0xE000 then
        (charOf (0x10000 + (n - 0xD800) * 1024 + (m - 0xDC00))).bind fun ch =>
          (joinUnits none rest).map (ch :: ·)
      else none

/-- **The string a text is.** -/
def unquote : List Char → Option (List Char)
  | '"' :: rest => (unitsFrom rest).bind (joinUnits none)
  | _ => none

theorem hexValue_hexDigit : ∀ n < 16, hexValue (hexDigit n) = some n := by decide

/-- A digit of an escape. -/
theorem step_hex {isKey : Bool} {left n : ℕ} {stack : List Nest} {c : Char}
    (h : hexValue c = some n) : step ⟨.hex isKey left, stack⟩ c =
      some ⟨if left ≤ 1 then .str isKey else .hex isKey (left - 1), stack⟩ := by
  rw [step]
  exact if_pos (by rw [h]; rfl)

/-- The characters that have an escape of one letter, and the letters. -/
def shortEscapes : List (Char × Char) :=
  [('"', '"'), ('\\', '\\'), ('\n', 'n'), ('\r', 'r'), ('\t', 't'), ('\x08', 'b'), ('\x0c', 'f')]

/-- **How a character is written**: by a letter after a backslash, by its number, or as it is. -/
theorem escapeChar_cases (c : Char) :
    (∃ d, (c, d) ∈ shortEscapes ∧ escapeChar c = ['\\', d]) ∨
    (c.toNat < 32 ∧
      escapeChar c = ['\\', 'u', '0', '0', hexDigit (c.toNat / 16), hexDigit (c.toNat % 16)]) ∨
    (c ≠ '"' ∧ c ≠ '\\' ∧ ¬c.toNat < 32 ∧ escapeChar c = [c]) := by
  by_cases h₁ : c = '"'
  · subst h₁
    exact Or.inl ⟨_, by decide, rfl⟩
  by_cases h₂ : c = '\\'
  · subst h₂
    exact Or.inl ⟨_, by decide, rfl⟩
  by_cases h₃ : c = '\n'
  · subst h₃
    exact Or.inl ⟨_, by decide, rfl⟩
  by_cases h₄ : c = '\r'
  · subst h₄
    exact Or.inl ⟨_, by decide, rfl⟩
  by_cases h₅ : c = '\t'
  · subst h₅
    exact Or.inl ⟨_, by decide, rfl⟩
  by_cases h₆ : c = '\x08'
  · subst h₆
    exact Or.inl ⟨_, by decide, rfl⟩
  by_cases h₇ : c = '\x0c'
  · subst h₇
    exact Or.inl ⟨_, by decide, rfl⟩
  have heq : escapeChar c = if c.toNat < 32 then
      ['\\', 'u', '0', '0', hexDigit (c.toNat / 16), hexDigit (c.toNat % 16)] else [c] := by
    rw [escapeChar, if_neg h₁, if_neg h₂, if_neg h₃, if_neg h₄, if_neg h₅, if_neg h₆, if_neg h₇]
  by_cases hc : c.toNat < 32
  · exact Or.inr (Or.inl ⟨hc, heq.trans (if_pos hc)⟩)
  · exact Or.inr (Or.inr ⟨h₁, h₂, hc, heq.trans (if_neg hc)⟩)

theorem scan_escapeChar (isKey : Bool) (stack : List Nest) (c : Char) :
    scan ⟨.str isKey, stack⟩ (escapeChar c) = some ⟨.str isKey, stack⟩ := by
  rcases escapeChar_cases c with ⟨d, hd, heq⟩ | ⟨hc, heq⟩ | ⟨hquote, hbackslash, hc, heq⟩
  · have hletter : d ∈ ['"', '\\', '/', 'b', 'f', 'n', 'r', 't'] ∧ d ≠ 'u' := by
      revert hd
      simp only [shortEscapes, List.mem_cons, Prod.mk.injEq, List.not_mem_nil, or_false]
      rintro (⟨-, rfl⟩ | ⟨-, rfl⟩ | ⟨-, rfl⟩ | ⟨-, rfl⟩ | ⟨-, rfl⟩ | ⟨-, rfl⟩ | ⟨-, rfl⟩) <;> decide
    have hstep : step ⟨.esc isKey, stack⟩ d = some ⟨.str isKey, stack⟩ := by
      rw [step]
      exact (if_neg hletter.2).trans (if_pos hletter.1)
    have hesc : scan ⟨.str isKey, stack⟩ ['\\', d] = scan ⟨.esc isKey, stack⟩ [d] := rfl
    rw [heq, hesc, scan, hstep]
    rfl
  · have hhi := hexValue_hexDigit (c.toNat / 16) (by omega)
    have hlo := hexValue_hexDigit (c.toNat % 16) (by omega)
    have hzeros : ∀ cs : List Char, scan ⟨.str isKey, stack⟩ ('\\' :: 'u' :: '0' :: '0' :: cs) =
        scan ⟨.hex isKey 2, stack⟩ cs := fun cs => rfl
    rw [heq, hzeros, scan, step_hex hhi]
    change scan ⟨.hex isKey 1, stack⟩ [hexDigit (c.toNat % 16)] = _
    rw [scan, step_hex hlo]
    rfl
  · have hstep : step ⟨.str isKey, stack⟩ c = some ⟨.str isKey, stack⟩ := by
      rw [step]
      simp only [hquote, hbackslash, hc, if_false]
    rw [heq, scan, hstep]
    rfl

theorem scan_escaped (isKey : Bool) (stack : List Nest) (cs : List Char) :
    scan ⟨.str isKey, stack⟩ (cs.flatMap escapeChar) = some ⟨.str isKey, stack⟩ := by
  induction cs with
  | nil => rfl
  | cons c cs ih =>
      rw [List.flatMap_cons, scan_append, scan_escapeChar]
      exact ih

/-- **A quoted string is a value.** -/
theorem isValue_quote (cs : List Char) : isValue (quote cs) = true := by
  have h : scan start (quote cs) = some ⟨.done, []⟩ := by
    rw [quote, scan]
    change scan ⟨.str false, []⟩ (cs.flatMap escapeChar ++ ['"']) = _
    rw [scan_append, scan_escaped]
    rfl
  rw [isValue, h]
  rfl

theorem hex4_control : ∀ n < 32, hex4 '0' '0' (hexDigit (n / 16)) (hexDigit (n % 16)) = some n := by
  decide

theorem charOf_control : ∀ n < 32, charOf n = some (Char.ofNat n) := by decide

/-- One escaped character reads as one unit, and the unit as the character. -/
theorem unitsFrom_escapeChar (c : Char) (rest : List Char) :
    ∃ u, unitsFrom (escapeChar c ++ rest) = (unitsFrom rest).map (u :: ·) ∧
      ∀ us, joinUnits none (u :: us) = (joinUnits none us).map (c :: ·) := by
  rcases escapeChar_cases c with ⟨d, hd, heq⟩ | ⟨hc, heq⟩ | ⟨hquote, hbackslash, hc, heq⟩
  · refine ⟨.inl c, ?_, fun us => rfl⟩
    rw [heq]
    revert hd
    simp only [shortEscapes, List.mem_cons, Prod.mk.injEq, List.not_mem_nil, or_false]
    rintro (⟨rfl, rfl⟩ | ⟨rfl, rfl⟩ | ⟨rfl, rfl⟩ | ⟨rfl, rfl⟩ | ⟨rfl, rfl⟩ | ⟨rfl, rfl⟩ |
      ⟨rfl, rfl⟩) <;> rfl
  · refine ⟨.inr c.toNat, ?_, fun us => ?_⟩
    · rw [heq]
      simp only [List.cons_append, List.nil_append, unitsFrom, hex4_control _ hc, Option.bind_some]
    · rw [joinUnits, if_neg (by omega), charOf_control _ hc, Char.ofNat_toNat]
      rfl
  · refine ⟨.inl c, ?_, fun us => rfl⟩
    rw [heq, List.singleton_append, unitsFrom]
    · simp only [hquote, hc, if_false]
    · intro a b d e rest hc
      exact absurd hc hbackslash
    · intro d rest hc
      exact absurd hc hbackslash

/-- **A quoted string reads as what was quoted.** -/
theorem unquote_quote (cs : List Char) : unquote (quote cs) = some cs := by
  have h : ∃ us, unitsFrom (cs.flatMap escapeChar ++ ['"']) = some us ∧
      joinUnits none us = some cs := by
    induction cs with
    | nil => exact ⟨[], rfl, rfl⟩
    | cons c cs ih =>
        obtain ⟨us, hus, hjoin⟩ := ih
        obtain ⟨u, hu, hc⟩ := unitsFrom_escapeChar c (cs.flatMap escapeChar ++ ['"'])
        refine ⟨u :: us, ?_, ?_⟩
        · rw [List.flatMap_cons, List.append_assoc, hu, hus, Option.map_some]
        · rw [hc, hjoin, Option.map_some]
  obtain ⟨us, hus, hjoin⟩ := h
  rw [quote, unquote, hus, Option.bind_some, hjoin]

/-! ### Whole numbers -/

/-- The digits of a number. -/
def digits (n : ℕ) : List Char := Nat.toDigits 10 n

/-- The number some digits stand for: at least one, and no superfluous zero. -/
def readNat (cs : List Char) : Option ℕ :=
  if cs.isEmpty ∨ !cs.all Char.isDigit ∨ (cs.head? = some '0' ∧ cs.length ≠ 1) then none
  else some (cs.foldl (fun n c => n * 10 + (c.toNat - 48)) 0)

/-- **The whole number a text is**, if it is one of 64 bits. A negative zero is not a
whole number. -/
def readInt (cs : List Char) : Option ℤ :=
  let n : Option ℤ :=
    match cs with
    | '-' :: rest => (readNat rest).bind fun n => if n = 0 then none else some (-(n : ℤ))
    | _ => (readNat cs).map fun n => (n : ℤ)
  n.filter fun n => -(2 : ℤ) ^ 63 ≤ n ∧ n < 2 ^ 63

theorem isValue_digits : ∀ n < 256, isValue (digits n) = true := by decide +kernel

theorem readNat_digits : ∀ n < 256, readNat (digits n) = some n := by decide +kernel

theorem head?_digits : ∀ n < 256, (digits n).head? ≠ some '-' := by decide +kernel

/-- What is no negative number is a whole number of 64 bits if it is a small one. -/
theorem readInt_of_readNat {cs : List Char} {n : ℕ} (h : readNat cs = some n)
    (hhead : cs.head? ≠ some '-') (hn : n < 2 ^ 63) : readInt cs = some (n : ℤ) := by
  have hread : readInt cs = Option.filter (fun n : ℤ => -(2 : ℤ) ^ 63 ≤ n ∧ n < 2 ^ 63)
      ((readNat cs).map fun n : ℕ => (n : ℤ)) := by
    unfold readInt
    split
    · exact absurd rfl hhead
    · cases readNat cs <;> rfl
  rw [hread, h, Option.map_some]
  refine Option.filter_some_pos (decide_eq_true ⟨?_, ?_⟩)
  · omega
  · exact_mod_cast hn

/-- A byte is a value, and reads as itself. -/
theorem digits_byte (n : Fin 256) :
    isValue (digits n) = true ∧ readInt (digits n) = some (n : ℤ) := by
  refine ⟨isValue_digits n n.isLt, ?_⟩
  have hlt : (n : ℕ) < 2 ^ 63 := n.isLt.trans (by decide)
  exact readInt_of_readNat (readNat_digits n n.isLt) (head?_digits n n.isLt) hlt

end Json
