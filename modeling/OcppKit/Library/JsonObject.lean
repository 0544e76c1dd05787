import OcppKit.Library.Json

/-!
# Objects, member by member

`Json.brace` writes an object from the texts of its members, as `Json.bracket` writes an
array. It is one value (`Json.isValue_brace`), and it is split into the same members
(`Json.objectMembers_brace`).

What makes the first true is that the machine never looks below the brackets it has opened
itself: what it does on a value it does inside an object as well (`Json.scan_within`). And a
value does not end in white space (`Json.not_isSpace_of_isValue_concat`), so nothing is lost
of it when the white space around it is taken away.
-/

namespace Json

/-! ### Inside an object -/

/-- The machine has not just opened a bracket that is not there, and no white space is to
follow in a literal. -/
structure State.Grounded (s : State) : Prop where
  /-- A bracket that was just opened is open. -/
  opened : s.mode = .first ∨ s.mode = .firstKey → s.stack ≠ []
  /-- A literal is of letters. -/
  literal : ∀ rest, s.mode = .lit rest → ∀ x ∈ rest, isSpace x = false

theorem grounded_start : start.Grounded := ⟨by simp [start], by simp [start]⟩

theorem startValue_within {stack : List Nest} {c : Char} {s : State}
    (h : startValue stack c = some s) (below : List Nest) :
    startValue (stack ++ below) c = some ⟨s.mode, s.stack ++ below⟩ ∧ s.Grounded := by
  rw [startValue] at h ⊢
  split_ifs at h ⊢ <;> obtain rfl := Option.some.inj h <;>
    exact ⟨rfl, by constructor <;> simp [isSpace]⟩

theorem afterValue_within {stack : List Nest} {c : Char} {s : State}
    (h : afterValue stack c = some s) (below : List Nest) :
    afterValue (stack ++ below) c = some ⟨s.mode, s.stack ++ below⟩ ∧ s.Grounded := by
  rcases stack with _ | ⟨_ | _, stack⟩
  · exact absurd h (by simp [afterValue])
  · simp only [afterValue, List.cons_append] at h ⊢
    split_ifs at h ⊢ <;> obtain rfl := Option.some.inj h <;> exact ⟨rfl, by constructor <;> simp⟩
  · simp only [afterValue, List.cons_append] at h ⊢
    split_ifs at h ⊢ <;> obtain rfl := Option.some.inj h <;> exact ⟨rfl, by constructor <;> simp⟩

/-- **What is open below is not looked at.** -/
theorem step_within {s s' : State} {c : Char} (h : step s c = some s') (hs : s.Grounded)
    (below : List Nest) :
    step ⟨s.mode, s.stack ++ below⟩ c = some ⟨s'.mode, s'.stack ++ below⟩ ∧ s'.Grounded := by
  obtain ⟨mode, stack⟩ := s
  cases mode with
  | value =>
      simp only [step] at h ⊢
      split at h
      next hspace =>
        obtain rfl := Option.some.inj h
        simp only [Bool.and_eq_true, Bool.not_eq_true', List.isEmpty_eq_false_iff] at hspace
        rw [if_pos (by simp [hspace.1, hspace.2])]
        exact ⟨rfl, hs⟩
      next hspace =>
        have hc : isSpace c = false := by
          by_contra hc
          rcases stack with _ | ⟨n, stack⟩
          · have : step start c = some s' := by simpa [step, start] using h
            rw [step_start_space (by simpa using hc)] at this
            exact absurd this (by simp)
          · exact hspace (by simpa using hc)
        rw [if_neg (by simp [hc])]
        exact startValue_within h below
  | first =>
      have hne : stack ≠ [] := hs.opened (Or.inl rfl)
      simp only [step] at h ⊢
      split_ifs at h ⊢
      · obtain rfl := Option.some.inj h
        exact ⟨rfl, hs⟩
      · obtain rfl := Option.some.inj h
        rw [List.tail_append_of_ne_nil hne]
        exact ⟨rfl, by constructor <;> simp⟩
      · exact startValue_within h below
  | firstKey =>
      have hne : stack ≠ [] := hs.opened (Or.inr rfl)
      simp only [step] at h ⊢
      split_ifs at h ⊢
      · obtain rfl := Option.some.inj h
        exact ⟨rfl, hs⟩
      · obtain rfl := Option.some.inj h
        rw [List.tail_append_of_ne_nil hne]
        exact ⟨rfl, by constructor <;> simp⟩
      · obtain rfl := Option.some.inj h
        exact ⟨rfl, by constructor <;> simp⟩
  | done => exact afterValue_within h below
  | num state =>
      simp only [step] at h ⊢
      rcases hnext : state.next c with _ | state'
      · simp only [hnext] at h ⊢
        split_ifs at h ⊢
        exact afterValue_within h below
      · simp only [hnext] at h ⊢
        obtain rfl := Option.some.inj h
        exact ⟨rfl, by constructor <;> simp⟩
  | lit rest =>
      rcases rest with _ | ⟨x, rest⟩
      · exact absurd h (by simp [step])
      · simp only [step] at h ⊢
        split_ifs at h ⊢ <;> obtain rfl := Option.some.inj h
        · exact ⟨rfl, by constructor <;> simp⟩
        · refine ⟨rfl, by simp, ?_⟩
          rintro rest' hrest y hy
          obtain rfl := Mode.lit.inj hrest
          exact hs.literal _ rfl y (List.mem_cons_of_mem _ hy)
  | _ =>
      simp only [step] at h ⊢
      split_ifs at h ⊢ <;> obtain rfl := Option.some.inj h <;>
        exact ⟨rfl, by constructor <;> simp⟩

/-- **What is read is read inside a bracket as well.** -/
theorem scan_within {s s' : State} {cs : List Char} (h : scan s cs = some s') (hs : s.Grounded)
    (below : List Nest) :
    scan ⟨s.mode, s.stack ++ below⟩ cs = some ⟨s'.mode, s'.stack ++ below⟩ ∧ s'.Grounded := by
  induction cs generalizing s with
  | nil =>
      obtain rfl := Option.some.inj h
      exact ⟨rfl, hs⟩
  | cons c cs ih =>
      rw [scan] at h ⊢
      rcases hstep : step s c with _ | s''
      · rw [hstep] at h
        exact absurd h (by simp)
      · rw [hstep] at h
        obtain ⟨hwithin, hgrounded⟩ := step_within hstep hs below
        rw [hwithin]
        exact ih h hgrounded

/-- After a value, the bracket it is in goes on at a delimiter. -/
theorem scan_value_delimiter {v : List Char} (hv : isValue v = true) {c : Char}
    (hc : isDelimiter c = true) (below : List Nest) (rest : List Char) :
    scan ⟨.value, below⟩ (v ++ c :: rest) = (afterValue below c).bind fun s => scan s rest := by
  rw [isValue] at hv
  rcases hs : scan start v with _ | ⟨mode, stack⟩
  · rw [hs] at hv
    exact absurd hv (by simp)
  · rw [hs] at hv
    simp only [State.accepts, Option.any_some, Bool.and_eq_true, List.isEmpty_iff] at hv
    obtain ⟨rfl, hmode⟩ := hv
    have hwithin : scan ⟨.value, below⟩ v = some ⟨mode, below⟩ :=
      (scan_within hs grounded_start below).1
    rw [scan_append, hwithin, Option.bind_some, scan]
    refine congrArg (Option.bind · _) ?_
    cases mode with
    | done => rfl
    | num state => simp only [step, NumState.next_delimiter state hc, hmode, if_true]
    | _ => exact absurd hmode (by simp)

/-! ### Objects -/

/-- A member: the text of its key, and that of its value. -/
def member (m : List Char × List Char) : List Char := m.1 ++ ':' :: m.2

/-- An object written member by member. -/
def brace (ms : List (List Char × List Char)) : List Char :=
  '\x7b' :: (((ms.map member).intersperse [',']).flatten ++ ['\x7d'])

/-- Its keys are quoted, and its values are values. -/
def Members (ms : List (List Char × List Char)) : Prop :=
  ∀ m ∈ ms, (∃ key, m.1 = quote key) ∧ isValue m.2 = true

/-- A key is read as a key. -/
theorem scan_key (key : List Char) (below : List Nest) (rest : List Char) :
    scan ⟨.key, below⟩ (quote key ++ ':' :: rest) = scan ⟨.value, below⟩ rest ∧
      scan ⟨.firstKey, below⟩ (quote key ++ ':' :: rest) = scan ⟨.value, below⟩ rest := by
  have hstr : scan ⟨.str true, below⟩ (key.flatMap escapeChar ++ '"' :: ':' :: rest) =
      scan ⟨.value, below⟩ rest := by
    rw [scan_append, scan_escaped]
    rfl
  rw [quote, List.cons_append, List.append_assoc]
  exact ⟨hstr, hstr⟩

/-- From one key on, an object is read to its end. -/
theorem scan_members {ms : List (List Char × List Char)} (hne : ms ≠ []) (hms : Members ms) :
    scan ⟨.key, [.obj]⟩ (((ms.map member).intersperse [',']).flatten ++ ['\x7d']) =
        some ⟨.done, []⟩ ∧
      scan ⟨.firstKey, [.obj]⟩ (((ms.map member).intersperse [',']).flatten ++ ['\x7d']) =
        some ⟨.done, []⟩ := by
  induction ms with
  | nil => exact absurd rfl hne
  | cons m ms ih =>
      obtain ⟨⟨key, hkey⟩, hvalue⟩ := hms m List.mem_cons_self
      rcases ms with _ | ⟨m', ms⟩
      · simp only [List.map_cons, List.map_nil, List.intersperse, List.flatten_cons,
          List.flatten_nil, List.append_nil, member, hkey, List.append_assoc, List.cons_append,
          scan_key, scan_value_delimiter hvalue (show isDelimiter '\x7d' = true from rfl)]
        exact ⟨rfl, rfl⟩
      · have hrest := (ih (by simp) fun m hm => hms m (List.mem_cons_of_mem _ hm)).1
        simp only [List.map_cons] at hrest
        simp only [List.map_cons, List.intersperse, List.flatten_cons, member, hkey,
          List.append_assoc, List.cons_append, List.nil_append, scan_key,
          scan_value_delimiter hvalue (show isDelimiter ',' = true from rfl)]
        exact ⟨hrest, hrest⟩

/-- **An object written member by member is one value.** -/
theorem isValue_brace {ms : List (List Char × List Char)} (hms : Members ms) :
    isValue (brace ms) = true := by
  rcases ms with _ | ⟨m, ms⟩
  · rfl
  · have h : scan start (brace (m :: ms)) = some ⟨.done, []⟩ := (scan_members (by simp) hms).2
    rw [isValue, h]
    rfl

/-- The name of a member is taken off, and then its value. -/
theorem takeValue_member {m : List Char × List Char} {key : List Char} (hkey : m.1 = quote key)
    (hvalue : isValue m.2 = true) {c : Char} (hc : isDelimiter c = true) (rest : List Char) :
    takeValue start (skipSpace (member m ++ c :: rest)) =
        some (m.1, ':' :: (m.2 ++ c :: rest)) ∧
      takeValue start (skipSpace (m.2 ++ c :: rest)) = some (m.2, c :: rest) := by
  have hquote : isValue m.1 = true := hkey ▸ isValue_quote key
  constructor
  · rw [member, List.append_assoc, skipSpace_value hquote, List.cons_append,
      takeValue_value hquote (by rfl)]
  · rw [skipSpace_value hvalue, takeValue_value hvalue hc]

/-- The last member. -/
theorem membersFrom_last {m : List Char × List Char} {key : List Char} (hkey : m.1 = quote key)
    (hvalue : isValue m.2 = true) (n : ℕ) (rest : List Char) :
    membersFrom (n + 1) (member m ++ '\x7d' :: rest) = some ([m], rest) := by
  obtain ⟨hname, hread⟩ := takeValue_member hkey hvalue (show isDelimiter '\x7d' = true from rfl) rest
  have hcolon : skipSpace (':' :: (m.2 ++ '\x7d' :: rest)) = ':' :: (m.2 ++ '\x7d' :: rest) := rfl
  have hclose : skipSpace ('\x7d' :: rest) = '\x7d' :: rest := rfl
  simp only [membersFrom, hname, hcolon, hread, hclose]

/-- A member that another one follows. -/
theorem membersFrom_more {m : List Char × List Char} {key : List Char} (hkey : m.1 = quote key)
    (hvalue : isValue m.2 = true) (n : ℕ) (rest : List Char) :
    membersFrom (n + 1) (member m ++ ',' :: rest) =
      (membersFrom n rest).map fun r => (m :: r.1, r.2) := by
  obtain ⟨hname, hread⟩ := takeValue_member hkey hvalue (show isDelimiter ',' = true from rfl) rest
  have hcolon : skipSpace (':' :: (m.2 ++ ',' :: rest)) = ':' :: (m.2 ++ ',' :: rest) := rfl
  have hcomma : skipSpace (',' :: rest) = ',' :: rest := rfl
  simp only [membersFrom, hname, hcolon, hread, hcomma]

theorem membersFrom_members {ms : List (List Char × List Char)} (hne : ms ≠ [])
    (hms : Members ms) {n : ℕ} (hn : ms.length ≤ n) :
    membersFrom n (((ms.map member).intersperse [',']).flatten ++ ['\x7d']) = some (ms, []) := by
  induction ms generalizing n with
  | nil => exact absurd rfl hne
  | cons m ms ih =>
      obtain ⟨n, rfl⟩ : ∃ k, n = k + 1 := ⟨n - 1, by simp at hn; omega⟩
      obtain ⟨⟨key, hkey⟩, hvalue⟩ := hms m List.mem_cons_self
      rcases ms with _ | ⟨m', ms⟩
      · simp only [List.map_cons, List.map_nil, List.intersperse, List.flatten_cons,
          List.flatten_nil, List.append_nil]
        exact membersFrom_last hkey hvalue n []
      · have hrest := ih (by simp) (fun m hm => hms m (List.mem_cons_of_mem _ hm))
          (show (m' :: ms).length ≤ n by simpa using hn)
        simp only [List.map_cons] at hrest
        simp only [List.map_cons, List.intersperse, List.flatten_cons, List.append_assoc,
          List.cons_append, List.nil_append]
        rw [membersFrom_more hkey hvalue, hrest, Option.map_some]

theorem length_le_members (ms : List (List Char × List Char)) :
    ms.length ≤ ((ms.map member).intersperse [',']).flatten.length := by
  induction ms with
  | nil => simp
  | cons m ms ih =>
      rcases ms with _ | ⟨m', ms⟩
      · simp [member]
        omega
      · simp only [List.map_cons, List.intersperse, List.flatten_cons, List.length_append,
          List.length_cons] at ih ⊢
        omega

/-- **An object written member by member is split into the same members.** -/
theorem objectMembers_brace {ms : List (List Char × List Char)} (hms : Members ms) :
    objectMembers (brace ms) = some ms := by
  rcases ms with _ | ⟨m, ms⟩
  · rfl
  · have hmembers := membersFrom_members (by simp) hms
      (n := ((((m :: ms).map member).intersperse [',']).flatten ++ ['\x7d']).length) (by
        have := length_le_members (m :: ms)
        rw [List.length_append]
        omega)
    obtain ⟨⟨key, hkey⟩, -⟩ := hms m List.mem_cons_self
    -- an object that has a member begins with a quotation mark
    obtain ⟨rest, hhead⟩ : ∃ rest,
        (((m :: ms).map member).intersperse [',']).flatten ++ ['\x7d'] = '"' :: rest := by
      rcases ms with _ | ⟨m', ms⟩
      · exact ⟨_, by simp [member, hkey, quote]; rfl⟩
      · exact ⟨_, by simp [member, hkey, quote]; rfl⟩
    rw [hhead] at hmembers
    rw [objectMembers, brace, hhead]
    have hopen : skipSpace ('\x7b' :: '"' :: rest) = '\x7b' :: '"' :: rest := rfl
    have hquote : skipSpace ('"' :: rest) = '"' :: rest := rfl
    simp only [hopen, hquote, hmembers]
    rfl

/-! ### Where a value ends -/

/-- After white space, no value has just ended. -/
theorem not_accepts_of_space {s s' : State} {c : Char} (hs : s.Grounded) (hc : isSpace c = true)
    (h : step s c = some s') : s'.accepts = false := by
  obtain ⟨mode, stack⟩ := s
  have hdelimiter : isDelimiter c = true := by simp [isDelimiter, hc]
  -- what follows a value outside of every bracket is not read
  have hafter : ∀ s', afterValue stack c = some s' → s'.accepts = false := by
    intro s' h
    simp only [isSpace, Bool.or_eq_true, decide_eq_true_eq] at hc
    rcases stack with _ | ⟨_ | _, stack⟩
    · exact absurd h (by simp [afterValue])
    all_goals
      rcases hc with ((rfl | rfl) | rfl) | rfl <;> obtain rfl := Option.some.inj h <;> rfl
  cases mode with
  | done => exact hafter s' h
  | num state =>
      simp only [step, NumState.next_delimiter state hdelimiter] at h
      split_ifs at h
      exact hafter s' h
  | value =>
      simp only [isSpace, Bool.or_eq_true, decide_eq_true_eq] at hc
      rcases stack with _ | ⟨n, stack⟩
      · rcases hc with ((rfl | rfl) | rfl) | rfl <;>
          exact absurd h (by simp [step, startValue, isSpace])
      · rcases hc with ((rfl | rfl) | rfl) | rfl <;> obtain rfl := Option.some.inj h <;> rfl
  | lit rest =>
      rcases rest with _ | ⟨x, rest⟩
      · exact absurd h (by simp [step])
      · simp only [step] at h
        split_ifs at h with hx
        all_goals
          have := hs.literal _ rfl x List.mem_cons_self
          rw [← hx, hc] at this
          exact absurd this (by simp)
  | _ =>
      simp only [isSpace, Bool.or_eq_true, decide_eq_true_eq] at hc
      rcases hc with ((rfl | rfl) | rfl) | rfl <;> simp [step, isSpace, hexValue] at h <;>
        subst h <;> simp [State.accepts]

/-- **A value does not end in white space.** -/
theorem not_isSpace_of_isValue_concat {v : List Char} {c : Char}
    (h : isValue (v ++ [c]) = true) : isSpace c = false := by
  by_contra hc
  rw [isValue, scan_append] at h
  rcases hs : scan start v with _ | s
  · rw [hs] at h
    exact absurd h (by simp)
  · rw [hs, Option.bind_some, scan] at h
    rcases hstep : step s c with _ | s'
    · rw [hstep] at h
      exact absurd h (by simp)
    · rw [hstep] at h
      have := not_accepts_of_space (scan_within hs grounded_start []).2 (by simpa using hc) hstep
      exact absurd h (by simp [scan, this])

end Json
