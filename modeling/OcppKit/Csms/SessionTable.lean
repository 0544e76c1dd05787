import OcppKit.Csms.Sessions

/-!
# A session table in order

`OcppKit.Ordered` is what keeps the table of the CSMS in order: of each identity at most one
session is current – it has taken the table, its task is not over, and no successor has told it
to shut down –, it is the last that took the table, and it is in the table unless it is still on
its way into it.

Every section leaves the table in order (`OcppKit.Ordered.step`), with two exceptions that are
both races: a connection takes the table while another of its identity is on its way into it,
and the handshake timeout drops a connection on its way although its task runs
(`OcppKit.InTurn`).
-/

namespace OcppKit

variable {I : Type}

/-! ### A session that counts -/

namespace Connection

/-- The session counts as the one of its identity: it has taken the table, its task does not
run yet or runs still, and no successor has told it to shut down. -/
def current (conn : Connection I) : Prop :=
  conn.superseded = false ∧ (conn.phase = .claimed ∨ conn.task = .running)

/-- Its session has a number. -/
def named (conn : Connection I) : Prop := conn.phase = .numbered ∨ 0 < conn.turn

/-- The parts of a connection go together. -/
structure Sound (conn : Connection I) : Prop where
  /-- A task runs only once it was started. -/
  running : conn.task = .running →
    conn.phase = .spawned ∨ conn.phase = .returned ∨ conn.phase = .timedOut
  /-- A session that was begun has taken the table. -/
  turn : conn.phase.between = true ∨ conn.phase = .returned ∨ conn.task ≠ .unborn →
    0 < conn.turn
  /-- What was superseded was in the table. -/
  superseded : conn.superseded = true → conn.phase = .returned

theorem Sound.turn_of_current {conn : Connection I} (h : conn.Sound) (hc : conn.current) :
    0 < conn.turn := by
  rcases hc.2 with hphase | htask
  · exact h.turn (Or.inl (by rw [hphase]; rfl))
  · exact h.turn (Or.inr (Or.inr (by simp [htask])))

theorem Sound.turn_of_running {conn : Connection I} (h : conn.Sound)
    (hrun : conn.task = .running) : 0 < conn.turn :=
  h.turn (Or.inr (Or.inr (by simp [hrun])))

/-- Where a task is over, the connection is not current. -/
theorem Sound.not_current_over {conn : Connection I} (h : conn.Sound)
    (hrun : conn.task = .running) {task : SessionTask} (hover : task ≠ .running) :
    ¬({ conn with task := task } : Connection I).current := by
  rintro ⟨-, hc | hc⟩
  · rcases h.running hrun with h' | h' | h' <;> exact absurd (h'.symm.trans hc) (by simp)
  · exact hover hc

theorem Sound.over {conn : Connection I} (h : conn.Sound) (hrun : conn.task = .running)
    {task : SessionTask} (hover : task ≠ .running) :
    ({ conn with task := task } : Connection I).Sound :=
  ⟨fun hrun => absurd hrun hover, fun _ => h.turn_of_running hrun, h.superseded⟩

end Connection

variable [DecidableEq I]

/-! ### A table in order -/

/-- **The table is in order**: of each identity at most one session is current, it is the last
that took the table, and it is in the table unless it is still on its way into it. -/
structure Ordered (s : Server I) : Prop where
  /-- The parts of every connection go together. -/
  sound : ∀ c conn, s.At c conn → conn.Sound
  /-- Numbers were handed out. -/
  below : ∀ c conn, s.At c conn → conn.named → conn.id < s.nextSession
  /-- No number was handed out twice. -/
  distinct : ∀ c d conn conn', s.At c conn → s.At d conn' →
    conn.named → conn'.named → conn.id = conn'.id → c = d
  /-- The table was not taken more often than that. -/
  turns : ∀ c conn, s.At c conn → conn.turn ≤ s.turns
  /-- A current session is the last of its identity that took the table. -/
  last : ∀ c d conn conn', s.At c conn → s.At d conn' →
    conn.identity = conn'.identity → conn.current → c ≠ d → conn'.turn < conn.turn
  /-- It is on its way into the table, or in it. -/
  placed : ∀ c conn, s.At c conn → conn.current →
    conn.phase.between = true ∨ s.session conn.identity = some ⟨conn.id, c⟩
  /-- While one is on its way, the table has no entry for its identity. -/
  vacant : ∀ c conn, s.At c conn → conn.phase.between = true →
    s.session conn.identity = none
  /-- Of each identity only one is on its way. -/
  alone : ∀ c d conn conn', s.At c conn → s.At d conn' →
    conn.identity = conn'.identity → conn.phase.between = true →
    conn'.phase.between = true → c = d
  /-- An entry is that of a session that was entered and not superseded. -/
  entry : ∀ identity session, s.session identity = some session →
    ∃ conn, s.At session.owner conn ∧ conn.identity = identity ∧
      conn.id = session.id ∧ conn.phase = .returned ∧ conn.superseded = false
  /-- Nothing is superseded where this is turned off. -/
  kept : s.config.supersede = false →
    ∀ c conn, s.At c conn → conn.superseded = false

namespace Ordered

variable {s : Server I}

theorem start (config : ServerConfig) : Ordered (Server.start config : Server I) where
  sound := by simp [Server.start]
  below := by simp [Server.start]
  distinct := by simp [Server.start]
  turns := by simp [Server.start]
  last := by simp [Server.start]
  placed := by simp [Server.start]
  vacant := by simp [Server.start]
  alone := by simp [Server.start]
  entry := by simp [Server.start, Server.session]
  kept := by simp [Server.start]

theorem send (h : Ordered s) (event : SessionEvent I) : Ordered (s.send event) := { h with }

/-- **A connection changes, and entries are taken out.** It is not current unless it was, it is
on its way only if it was, and stays so while it is current; what is taken out is not that of
another current session, and what stays is in order. -/
theorem change (h : Ordered s) {c : ConnectionId} {f : Connection I → Connection I}
    {conn : Connection I} (hget : s.At c conn) (sessions : AList fun _ : I => Session)
    (hidentity : (f conn).identity = conn.identity) (hid : (f conn).id = conn.id)
    (hturn : (f conn).turn = conn.turn)
    (hsuper : s.config.supersede = false → (f conn).superseded = conn.superseded)
    (hsound : (f conn).Sound) (hnamed : (f conn).named → conn.named)
    (hcurrent : (f conn).current → conn.current ∧
      (conn.phase.between = true → (f conn).phase.between = true))
    (hbetween : (f conn).phase.between = true → conn.phase.between = true)
    (hsub : ∀ identity session, sessions.lookup identity = some session →
      s.session identity = some session ∧
        (session.owner = c → (f conn).phase = .returned ∧ (f conn).superseded = false))
    (hkeep : ∀ d old, s.At d old → old.current → (d = c → (f conn).current) →
      s.session old.identity = some ⟨old.id, d⟩ →
      sessions.lookup old.identity = some ⟨old.id, d⟩) :
    Ordered { s.update c f with sessions := sessions } := by
  -- every connection is as it was, or it is the one that changed
  have hold : ∀ d new, (s.update c f).At d new → ∃ old,
      s.At d old ∧ new.identity = old.identity ∧ new.id = old.id ∧ new.turn = old.turn ∧
      (s.config.supersede = false → new.superseded = old.superseded) ∧ new.Sound ∧
      (new.named → old.named) ∧ (new.current → old.current ∧ (d = c → (f conn).current) ∧
        (old.phase.between = true → new.phase.between = true)) ∧
      (new.phase.between = true → old.phase.between = true) := by
    intro d new hnew
    rcases Server.eq_of_getElem?_update hnew with ⟨rfl, old, hold, rfl⟩ | ⟨hne, hold⟩
    · obtain rfl : conn = old := Option.some.inj (hget.symm.trans hold)
      exact ⟨conn, hget, hidentity, hid, hturn, hsuper, hsound, hnamed,
        fun hc => ⟨(hcurrent hc).1, fun _ => hc, (hcurrent hc).2⟩, hbetween⟩
    · exact ⟨new, hold, rfl, rfl, rfl, fun _ => rfl, h.sound d new hold, id,
        fun hc => ⟨hc, fun he => absurd he.symm hne, id⟩, id⟩
  constructor
  · intro d new hnew
    obtain ⟨old, -, -, -, -, -, hsound, -⟩ := hold d new hnew
    exact hsound
  · intro d new hnew hn
    obtain ⟨old, hat, -, hid, -, -, -, hnamed, -⟩ := hold d new hnew
    rw [hid]
    exact h.below d old hat (hnamed hn)
  · intro d d' new new' hnew hnew' hn hn' heq
    obtain ⟨old, hat, -, hid, -, -, -, hnamed, -⟩ := hold d new hnew
    obtain ⟨old', hat', -, hid', -, -, -, hnamed', -⟩ := hold d' new' hnew'
    exact h.distinct d d' old old' hat hat' (hnamed hn) (hnamed' hn') (by rw [← hid, heq, hid'])
  · intro d new hnew
    obtain ⟨old, hat, -, -, hturn, -⟩ := hold d new hnew
    rw [hturn]
    exact h.turns d old hat
  · intro d d' new new' hnew hnew' heq hc hne
    obtain ⟨old, hat, hi, -, hturn, -, -, -, hcurrent, -⟩ := hold d new hnew
    obtain ⟨old', hat', hi', -, hturn', -⟩ := hold d' new' hnew'
    rw [hturn, hturn']
    exact h.last d d' old old' hat hat' (by rw [← hi, heq, hi']) (hcurrent hc).1 hne
  · intro d new hnew hc
    obtain ⟨old, hat, hi, hid, -, -, -, -, hcurrent, -⟩ := hold d new hnew
    obtain ⟨hc', hself, hkeeps⟩ := hcurrent hc
    rw [hi, hid]
    exact (h.placed d old hat hc').imp hkeeps (hkeep d old hat hc' hself)
  · intro d new hnew hb
    obtain ⟨old, hat, hi, -, -, -, -, -, -, hbetween⟩ := hold d new hnew
    rcases hlook : sessions.lookup new.identity with _ | session
    · exact hlook
    · have hnone := h.vacant d old hat (hbetween hb)
      rw [← hi] at hnone
      exact absurd (hnone.symm.trans (hsub _ _ hlook).1) (by simp)
  · intro d d' new new' hnew hnew' heq hb hb'
    obtain ⟨old, hat, hi, -, -, -, -, -, -, hbetween⟩ := hold d new hnew
    obtain ⟨old', hat', hi', -, -, -, -, -, -, hbetween'⟩ := hold d' new' hnew'
    exact h.alone d d' old old' hat hat' (by rw [← hi, heq, hi']) (hbetween hb) (hbetween' hb')
  · intro identity session hs
    obtain ⟨hsession, hstays⟩ := hsub identity session hs
    obtain ⟨owner, hat, hi, hid', hphase, hs'⟩ := h.entry identity session hsession
    by_cases hc : c = session.owner
    · subst hc
      obtain rfl : conn = owner := Option.some.inj (hget.symm.trans hat)
      obtain ⟨hphase', hs''⟩ := hstays rfl
      refine ⟨f conn, ?_, hidentity.trans hi, hid.trans hid', hphase', hs''⟩
      change (s.update _ f).connections[_]? = _
      rw [Server.getElem?_update, if_pos rfl, hget, Option.map_some]
    · refine ⟨owner, ?_, hi, hid', hphase, hs'⟩
      change (s.update _ f).connections[_]? = _
      rw [Server.getElem?_update, if_neg hc, hat]
  · intro hoff d new hnew
    obtain ⟨old, hat, -, -, -, hsuper, -⟩ := hold d new hnew
    rw [hsuper hoff]
    exact h.kept hoff d old hat

/-- A connection changes, and the table stays as it is. -/
theorem modify (h : Ordered s) {c : ConnectionId} {f : Connection I → Connection I}
    {conn : Connection I} (hget : s.At c conn) (hidentity : (f conn).identity = conn.identity)
    (hid : (f conn).id = conn.id) (hturn : (f conn).turn = conn.turn)
    (hsuper : (f conn).superseded = conn.superseded) (hsound : (f conn).Sound)
    (hnamed : (f conn).named → conn.named)
    (hcurrent : (f conn).current → conn.current ∧
      (conn.phase.between = true → (f conn).phase.between = true))
    (hbetween : (f conn).phase.between = true → conn.phase.between = true)
    (hreturned : conn.phase = .returned → (f conn).phase = .returned) :
    Ordered (s.update c f) := by
  refine h.change hget s.sessions hidentity hid hturn (fun _ => hsuper) hsound hnamed hcurrent
    hbetween (fun identity session hs => ⟨hs, ?_⟩) fun _ _ _ _ _ hs => hs
  rintro rfl
  obtain ⟨owner, hat, -, -, hphase, hs'⟩ := h.entry identity session hs
  obtain rfl : conn = owner := Option.some.inj (hget.symm.trans hat)
  exact ⟨hreturned hphase, hsuper.trans hs'⟩

/-! ### The sections -/

/-- A connection comes in. -/
theorem accept (h : Ordered s) (identity : I) :
    Ordered { s with connections := s.connections ++
      [⟨identity, .handshaking, 0, .unborn, false, 0⟩] } := by
  let fresh : Connection I := ⟨identity, .handshaking, 0, .unborn, false, 0⟩
  -- every connection was there, or it is the new one, of which nothing holds yet
  have hold : ∀ c conn, (s.connections ++ [fresh])[c]? = some conn →
      s.At c conn ∨ conn = fresh := by
    intro c conn hat
    rw [List.getElem?_append] at hat
    split at hat
    · exact Or.inl hat
    · exact Or.inr (List.mem_singleton.mp (List.mem_of_getElem? hat))
  have hnew : ∀ c conn, s.At c conn → (s.connections ++ [fresh])[c]? = some conn := by
    intro c conn hat
    rw [List.getElem?_append_left (List.getElem?_eq_some_iff.mp hat).1]
    exact hat
  have hcurrent : ¬fresh.current := by rintro ⟨-, h | h⟩ <;> exact absurd h (by simp [fresh])
  have hnamed : ¬fresh.named := by rintro (h | h) <;> exact absurd h (by simp [fresh])
  have hbetween : fresh.phase.between = false := rfl
  constructor
  · intro c conn hat
    rcases hold c conn hat with hat | rfl
    · exact h.sound c conn hat
    · exact ⟨fun h => absurd h (by simp [fresh]), fun h => absurd h (by simp [fresh, hbetween]),
        fun h => absurd h (by simp [fresh])⟩
  · intro c conn hat hn
    rcases hold c conn hat with hat | rfl
    · exact h.below c conn hat hn
    · exact absurd hn hnamed
  · intro c d conn conn' hat hat' hn hn' heq
    rcases hold c conn hat with hat | rfl
    · rcases hold d conn' hat' with hat' | rfl
      · exact h.distinct c d conn conn' hat hat' hn hn' heq
      · exact absurd hn' hnamed
    · exact absurd hn hnamed
  · intro c conn hat
    rcases hold c conn hat with hat | rfl
    · exact h.turns c conn hat
    · exact Nat.zero_le _
  · intro c d conn conn' hat hat' heq hc hne
    rcases hold c conn hat with hat | rfl
    · rcases hold d conn' hat' with hat' | rfl
      · exact h.last c d conn conn' hat hat' heq hc hne
      · exact (h.sound c conn hat).turn_of_current hc
    · exact absurd hc hcurrent
  · intro c conn hat hc
    rcases hold c conn hat with hat | rfl
    · exact h.placed c conn hat hc
    · exact absurd hc hcurrent
  · intro c conn hat hb
    rcases hold c conn hat with hat | rfl
    · exact h.vacant c conn hat hb
    · exact absurd hb (by simp [hbetween])
  · intro c d conn conn' hat hat' heq hb hb'
    rcases hold c conn hat with hat | rfl
    · rcases hold d conn' hat' with hat' | rfl
      · exact h.alone c d conn conn' hat hat' heq hb hb'
      · exact absurd hb' (by simp [hbetween])
    · exact absurd hb (by simp [hbetween])
  · intro identity' session hs
    obtain ⟨conn, hat, hentry⟩ := h.entry identity' session hs
    exact ⟨conn, hnew _ _ hat, hentry⟩
  · intro hoff c conn hat
    rcases hold c conn hat with hat | rfl
    · exact h.kept hoff c conn hat
    · rfl

/-- The session gets the next number. -/
theorem number (h : Ordered s) {c : ConnectionId} {conn : Connection I} (hget : s.At c conn)
    (hphase : conn.phase = .admitted) : Ordered (s.number c) := by
  have hsound := h.sound c conn hget
  have hidle : conn.task ≠ .running := by
    intro hrun
    rcases hsound.running hrun with h | h | h <;> exact absurd (hphase.symm.trans h) (by simp)
  have hold : ∀ d new, (s.number c).At d new → (c ≠ d ∧ s.At d new) ∨
      (c = d ∧ new = { conn with phase := .numbered, id := s.nextSession }) := by
    intro d new hnew
    rcases Server.eq_of_getElem?_update hnew with ⟨rfl, old, hat, rfl⟩ | ⟨hne, hat⟩
    · obtain rfl : conn = old := Option.some.inj (hget.symm.trans hat)
      exact Or.inr ⟨rfl, rfl⟩
    · exact Or.inl ⟨hne, hat⟩
  have hcurrent : ¬({ conn with phase := .numbered, id := s.nextSession } :
      Connection I).current := by
    rintro ⟨-, h | h⟩
    · exact absurd h (by simp)
    · exact hidle h
  constructor
  · intro d new hat
    rcases hold d new hat with ⟨-, hat⟩ | ⟨-, rfl⟩
    · exact h.sound d new hat
    · refine ⟨fun hrun => absurd hrun hidle, ?_, fun hs => ?_⟩
      · rintro (h | h | h)
        · exact absurd h (by simp [ServePhase.between])
        · exact absurd h (by simp)
        · exact hsound.turn (Or.inr (Or.inr h))
      · exact absurd (hphase.symm.trans (hsound.superseded hs)) (by simp)
  · intro d new hat hn
    rcases hold d new hat with ⟨-, hat⟩ | ⟨-, rfl⟩
    · exact Nat.lt_succ_of_lt (h.below d new hat hn)
    · exact Nat.lt_succ_self _
  · intro d d' new new' hat hat' hn hn' heq
    rcases hold d new hat with ⟨-, hat⟩ | ⟨rfl, rfl⟩
    · rcases hold d' new' hat' with ⟨-, hat'⟩ | ⟨-, rfl⟩
      · exact h.distinct d d' new new' hat hat' hn hn' heq
      · exact absurd heq (h.below d new hat hn).ne
    · rcases hold d' new' hat' with ⟨-, hat'⟩ | ⟨rfl, -⟩
      · exact absurd heq.symm (h.below d' new' hat' hn').ne
      · rfl
  · intro d new hat
    rcases hold d new hat with ⟨-, hat⟩ | ⟨-, rfl⟩
    · exact h.turns d new hat
    · exact h.turns c conn hget
  · intro d d' new new' hat hat' heq hc hne
    rcases hold d new hat with ⟨-, hat⟩ | ⟨-, rfl⟩
    · rcases hold d' new' hat' with ⟨-, hat'⟩ | ⟨rfl, rfl⟩
      · exact h.last d d' new new' hat hat' heq hc hne
      · exact h.last d c new conn hat hget heq hc hne
    · exact absurd hc hcurrent
  · intro d new hat hc
    rcases hold d new hat with ⟨-, hat⟩ | ⟨-, rfl⟩
    · exact h.placed d new hat hc
    · exact absurd hc hcurrent
  · intro d new hat hb
    rcases hold d new hat with ⟨-, hat⟩ | ⟨-, rfl⟩
    · exact h.vacant d new hat hb
    · exact absurd hb (by simp [ServePhase.between])
  · intro d d' new new' hat hat' heq hb hb'
    rcases hold d new hat with ⟨-, hat⟩ | ⟨-, rfl⟩
    · rcases hold d' new' hat' with ⟨-, hat'⟩ | ⟨-, rfl⟩
      · exact h.alone d d' new new' hat hat' heq hb hb'
      · exact absurd hb' (by simp [ServePhase.between])
    · exact absurd hb (by simp [ServePhase.between])
  · intro identity session hs
    obtain ⟨owner, hat, hi, hid, hreturned, hs'⟩ := h.entry identity session hs
    have hne : c ≠ session.owner := by
      rintro rfl
      obtain rfl : conn = owner := Option.some.inj (hget.symm.trans hat)
      exact absurd (hphase.symm.trans hreturned) (by simp)
    refine ⟨owner, ?_, hi, hid, hreturned, hs'⟩
    change (s.update c _).connections[_]? = _
    rw [Server.getElem?_update, if_neg hne, hat]
  · intro hoff d new hat
    rcases hold d new hat with ⟨-, hat⟩ | ⟨-, rfl⟩
    · exact h.kept hoff d new hat
    · exact h.kept hoff c conn hget

/-- The connection takes the table, which has no entry for its identity. -/
theorem take (h : Ordered s) {c : ConnectionId} {conn : Connection I} (hget : s.At c conn)
    (hphase : conn.phase = .numbered) (hvacant : s.session conn.identity = none)
    (halone : ∀ d conn', s.At d conn' → conn'.identity = conn.identity →
      conn'.phase.between = false) : Ordered (s.take c) := by
  have hsound := h.sound c conn hget
  let claimed : Connection I := { conn with phase := .claimed, turn := s.turns + 1 }
  have hidle : conn.task ≠ .running := by
    intro hrun
    rcases hsound.running hrun with h | h | h <;> exact absurd (hphase.symm.trans h) (by simp)
  have hfresh : conn.superseded = false := by
    refine Bool.eq_false_of_not_eq_true fun hs => ?_
    exact absurd (hphase.symm.trans (hsound.superseded hs)) (by simp)
  have hnamed : conn.named := Or.inl hphase
  have hold : ∀ d new, (s.take c).At d new → (c ≠ d ∧ s.At d new) ∨ (c = d ∧ new = claimed) := by
    intro d new hnew
    rcases Server.eq_of_getElem?_update hnew with ⟨rfl, old, hat, rfl⟩ | ⟨hne, hat⟩
    · obtain rfl : conn = old := Option.some.inj (hget.symm.trans hat)
      exact Or.inr ⟨rfl, rfl⟩
    · exact Or.inl ⟨hne, hat⟩
  -- no other session of this identity is current: it would have an entry, or be on its way
  have hnone : ∀ d conn', s.At d conn' → conn'.identity = conn.identity → ¬conn'.current := by
    intro d conn' hat heq hc
    rcases h.placed d conn' hat hc with hb | hs
    · exact absurd (halone d conn' hat heq) (by simp [hb])
    · rw [heq] at hs
      exact absurd (hvacant.symm.trans hs) (by simp)
  constructor
  · intro d new hat
    rcases hold d new hat with ⟨-, hat⟩ | ⟨-, rfl⟩
    · exact h.sound d new hat
    · exact ⟨fun hrun => absurd hrun hidle, fun _ => Nat.succ_pos _,
        fun hs => absurd hs (by simp [claimed, hfresh])⟩
  · intro d new hat hn
    rcases hold d new hat with ⟨-, hat⟩ | ⟨-, rfl⟩
    · exact h.below d new hat hn
    · exact h.below c conn hget hnamed
  · intro d d' new new' hat hat' hn hn' heq
    rcases hold d new hat with ⟨-, hat⟩ | ⟨rfl, rfl⟩
    · rcases hold d' new' hat' with ⟨-, hat'⟩ | ⟨rfl, rfl⟩
      · exact h.distinct d d' new new' hat hat' hn hn' heq
      · exact h.distinct d c new conn hat hget hn hnamed heq
    · rcases hold d' new' hat' with ⟨-, hat'⟩ | ⟨rfl, -⟩
      · exact h.distinct c d' conn new' hget hat' hnamed hn' heq
      · rfl
  · intro d new hat
    rcases hold d new hat with ⟨-, hat⟩ | ⟨-, rfl⟩
    · exact Nat.le_succ_of_le (h.turns d new hat)
    · exact le_rfl
  · intro d d' new new' hat hat' heq hc hne
    rcases hold d new hat with ⟨-, hat⟩ | ⟨rfl, rfl⟩
    · rcases hold d' new' hat' with ⟨-, hat'⟩ | ⟨-, rfl⟩
      · exact h.last d d' new new' hat hat' heq hc hne
      · exact absurd hc (hnone d new hat heq)
    · rcases hold d' new' hat' with ⟨-, hat'⟩ | ⟨rfl, -⟩
      · exact Nat.lt_succ_of_le (h.turns d' new' hat')
      · exact absurd rfl hne
  · intro d new hat hc
    rcases hold d new hat with ⟨-, hat⟩ | ⟨-, rfl⟩
    · exact h.placed d new hat hc
    · exact Or.inl rfl
  · intro d new hat hb
    rcases hold d new hat with ⟨-, hat⟩ | ⟨-, rfl⟩
    · exact h.vacant d new hat hb
    · exact hvacant
  · intro d d' new new' hat hat' heq hb hb'
    rcases hold d new hat with ⟨-, hat⟩ | ⟨rfl, rfl⟩
    · rcases hold d' new' hat' with ⟨-, hat'⟩ | ⟨-, rfl⟩
      · exact h.alone d d' new new' hat hat' heq hb hb'
      · exact absurd (halone d new hat heq) (by simp [hb])
    · rcases hold d' new' hat' with ⟨-, hat'⟩ | ⟨rfl, -⟩
      · exact absurd (halone d' new' hat' heq.symm) (by simp [hb'])
      · rfl
  · intro identity session hs
    obtain ⟨owner, hat, hi, hid, hreturned, hs'⟩ := h.entry identity session hs
    have hne : c ≠ session.owner := by
      rintro rfl
      obtain rfl : conn = owner := Option.some.inj (hget.symm.trans hat)
      exact absurd (hphase.symm.trans hreturned) (by simp)
    refine ⟨owner, ?_, hi, hid, hreturned, hs'⟩
    change (s.update c _).connections[_]? = _
    rw [Server.getElem?_update, if_neg hne, hat]
  · intro hoff d new hat
    rcases hold d new hat with ⟨-, hat⟩ | ⟨-, rfl⟩
    · exact h.kept hoff d new hat
    · exact hfresh

/-- The session is entered. -/
theorem insert (h : Ordered s) {c : ConnectionId} {conn : Connection I} (hget : s.At c conn)
    (hphase : conn.phase = .spawned) : Ordered (s.insert c conn) := by
  have hsound := h.sound c conn hget
  have hbetween : conn.phase.between = true := by rw [hphase]; rfl
  have hvacant := h.vacant c conn hget hbetween
  have hfresh : conn.superseded = false := by
    refine Bool.eq_false_of_not_eq_true fun hs => ?_
    exact absurd (hphase.symm.trans (hsound.superseded hs)) (by simp)
  let entered : Connection I := { conn with phase := .returned }
  have hold : ∀ d new, (s.insert c conn).At d new →
      (c ≠ d ∧ s.At d new) ∨ (c = d ∧ new = entered) := by
    intro d new hnew
    rcases Server.eq_of_getElem?_update hnew with ⟨rfl, old, hat, rfl⟩ | ⟨hne, hat⟩
    · obtain rfl : conn = old := Option.some.inj (hget.symm.trans hat)
      exact Or.inr ⟨rfl, rfl⟩
    · exact Or.inl ⟨hne, hat⟩
  have hcurrent : entered.current → conn.current := by
    rintro ⟨hs, h | h⟩
    · exact absurd h (by simp [entered])
    · exact ⟨hs, Or.inr h⟩
  have hnamed : entered.named → conn.named := by
    rintro (h | h)
    · exact absurd h (by simp [entered])
    · exact Or.inr h
  have hself : (s.insert c conn).session conn.identity = some ⟨conn.id, c⟩ :=
    AList.lookup_insert _
  have hother : ∀ identity, identity ≠ conn.identity →
      (s.insert c conn).session identity = s.session identity :=
    fun identity hne => AList.lookup_insert_ne hne
  constructor
  · intro d new hat
    rcases hold d new hat with ⟨-, hat⟩ | ⟨-, rfl⟩
    · exact h.sound d new hat
    · exact ⟨fun _ => Or.inr (Or.inl rfl), fun _ => hsound.turn (Or.inl hbetween), fun _ => rfl⟩
  · intro d new hat hn
    rcases hold d new hat with ⟨-, hat⟩ | ⟨-, rfl⟩
    · exact h.below d new hat hn
    · exact h.below c conn hget (hnamed hn)
  · intro d d' new new' hat hat' hn hn' heq
    rcases hold d new hat with ⟨-, hat⟩ | ⟨rfl, rfl⟩
    · rcases hold d' new' hat' with ⟨-, hat'⟩ | ⟨rfl, rfl⟩
      · exact h.distinct d d' new new' hat hat' hn hn' heq
      · exact h.distinct d c new conn hat hget hn (hnamed hn') heq
    · rcases hold d' new' hat' with ⟨-, hat'⟩ | ⟨rfl, -⟩
      · exact h.distinct c d' conn new' hget hat' (hnamed hn) hn' heq
      · rfl
  · intro d new hat
    rcases hold d new hat with ⟨-, hat⟩ | ⟨-, rfl⟩
    · exact h.turns d new hat
    · exact h.turns c conn hget
  · intro d d' new new' hat hat' heq hc hne
    rcases hold d new hat with ⟨-, hat⟩ | ⟨rfl, rfl⟩
    · rcases hold d' new' hat' with ⟨-, hat'⟩ | ⟨rfl, rfl⟩
      · exact h.last d d' new new' hat hat' heq hc hne
      · exact h.last d c new conn hat hget heq hc hne
    · rcases hold d' new' hat' with ⟨-, hat'⟩ | ⟨rfl, -⟩
      · exact h.last c d' conn new' hget hat' heq (hcurrent hc) hne
      · exact absurd rfl hne
  · intro d new hat hc
    rcases hold d new hat with ⟨hne, hat⟩ | ⟨rfl, rfl⟩
    · rcases h.placed d new hat hc with hb | hs
      · exact Or.inl hb
      · -- an entry for the identity would have kept the other one out
        have hi : new.identity ≠ conn.identity := by
          intro heq
          rw [heq] at hs
          exact absurd (hvacant.symm.trans hs) (by simp)
        exact Or.inr ((hother _ hi).trans hs)
    · exact Or.inr hself
  · intro d new hat hb
    rcases hold d new hat with ⟨hne, hat⟩ | ⟨-, rfl⟩
    · have hi : new.identity ≠ conn.identity := by
        intro heq
        exact hne (h.alone c d conn new hget hat heq.symm hbetween hb)
      rw [hother _ hi]
      exact h.vacant d new hat hb
    · exact absurd hb (by simp [entered, ServePhase.between])
  · intro d d' new new' hat hat' heq hb hb'
    rcases hold d new hat with ⟨-, hat⟩ | ⟨-, rfl⟩
    · rcases hold d' new' hat' with ⟨-, hat'⟩ | ⟨-, rfl⟩
      · exact h.alone d d' new new' hat hat' heq hb hb'
      · exact absurd hb' (by simp [entered, ServePhase.between])
    · exact absurd hb (by simp [entered, ServePhase.between])
  · intro identity session hs
    have hat' : (s.insert c conn).At c entered := by
      change (s.update c _).connections[_]? = _
      rw [Server.getElem?_update, if_pos rfl, hget, Option.map_some]
    by_cases hi : identity = conn.identity
    · subst hi
      obtain rfl : ⟨conn.id, c⟩ = session := Option.some.inj (hself.symm.trans hs)
      exact ⟨entered, hat', rfl, rfl, rfl, hfresh⟩
    · rw [hother _ hi] at hs
      obtain ⟨owner, hat, hi', hid, hreturned, hs'⟩ := h.entry identity session hs
      have hne : c ≠ session.owner := by
        rintro rfl
        obtain rfl : conn = owner := Option.some.inj (hget.symm.trans hat)
        exact absurd (hphase.symm.trans hreturned) (by simp)
      refine ⟨owner, ?_, hi', hid, hreturned, hs'⟩
      change (s.update c _).connections[_]? = _
      rw [Server.getElem?_update, if_neg hne, hat]
  · intro hoff d new hat
    rcases hold d new hat with ⟨-, hat⟩ | ⟨-, rfl⟩
    · exact h.kept hoff d new hat
    · exact hfresh

/-- Only what the table says of an identity matters. -/
theorem congr (h : Ordered s) (sessions : AList fun _ : I => Session)
    (hsame : ∀ identity, sessions.lookup identity = s.session identity) :
    Ordered { s with sessions := sessions } :=
  { h with
    placed := fun c conn hat hc =>
      (h.placed c conn hat hc).imp_right (hsame conn.identity).trans
    vacant := fun c conn hat hb => (hsame conn.identity).trans (h.vacant c conn hat hb)
    entry := fun identity session hs =>
      h.entry identity session ((hsame identity).symm.trans hs) }

/-- A connection that has not taken the table yet comes further, or goes. -/
theorem advance (h : Ordered s) {c : ConnectionId} {conn : Connection I} (hget : s.At c conn)
    (hidle : conn.task ≠ .running) (hphase : conn.phase ≠ .returned) {phase : ServePhase}
    (hnext : phase.between = false) (hnot : phase ≠ .returned) (hnumber : phase ≠ .numbered) :
    Ordered (s.advance c phase) := by
  have hsound := h.sound c conn hget
  refine h.modify (f := fun conn => { conn with phase := phase }) hget rfl rfl rfl rfl ?_ ?_ ?_
    (fun hb => absurd hb (by simp [hnext])) (fun h => absurd h hphase)
  · refine ⟨fun hrun => absurd hrun hidle, ?_, fun hs => absurd (hsound.superseded hs) hphase⟩
    rintro (h | h | h)
    · exact absurd h (by simp [hnext])
    · exact absurd h hnot
    · exact hsound.turn (Or.inr (Or.inr h))
  · rintro (h | h)
    · exact absurd h hnumber
    · exact Or.inr h
  · rintro ⟨-, h | h⟩
    · exact absurd hnext (by rw [show phase = .claimed from h]; simp [ServePhase.between])
    · exact absurd h hidle

theorem checkCapacity (h : Ordered s) {c : ConnectionId} {conn : Connection I}
    (hget : s.At c conn) (hphase : conn.phase = .handshaking) :
    Ordered (s.checkCapacity c conn) := by
  have hidle : conn.task ≠ .running := by
    intro hrun
    rcases (h.sound c conn hget).running hrun with h | h | h <;>
      exact absurd (hphase.symm.trans h) (by simp)
  have hadvance : ∀ phase : ServePhase, phase.between = false → phase ≠ .returned →
      phase ≠ .numbered → Ordered (s.advance c phase) :=
    fun _ => h.advance hget hidle (by simp [hphase])
  rw [Server.checkCapacity]
  split
  · exact (hadvance .refused rfl (by simp) (by simp)).send _
  · exact hadvance .admitted rfl (by simp) (by simp)

theorem spawn (h : Ordered s) {c : ConnectionId} {conn : Connection I} (hget : s.At c conn)
    (hphase : conn.phase = .claimed) : Ordered (s.spawn c conn) := by
  have hsound := h.sound c conn hget
  have hbetween : conn.phase.between = true := by rw [hphase]; rfl
  refine (h.modify (f := fun conn => { conn with phase := .spawned, task := .running }) hget
    rfl rfl rfl rfl ⟨fun _ => Or.inl rfl, fun _ => hsound.turn (Or.inl hbetween), fun hs => ?_⟩
    ?_ ?_ (fun _ => hbetween) (fun h => absurd (hphase.symm.trans h) (by simp))).send _
  · exact absurd (hphase.symm.trans (hsound.superseded hs)) (by simp)
  · rintro (h | h)
    · exact absurd h (by simp)
    · exact Or.inr h
  · rintro ⟨hs, -⟩
    exact ⟨⟨hs, Or.inl hphase⟩, fun _ => rfl⟩

theorem abort (h : Ordered s) {c : ConnectionId} {conn : Connection I} (hget : s.At c conn)
    (hrun : conn.task = .running) : Ordered (s.abort c) := by
  have hsound := h.sound c conn hget
  refine h.modify (f := fun conn => { conn with task := .aborted }) hget rfl rfl rfl rfl
    (hsound.over hrun (by simp)) id (fun hc => ?_) id id
  exact absurd hc (hsound.not_current_over hrun (by simp))

/-- **The task ends**, and takes out no entry but its own. -/
theorem teardown (h : Ordered s) {c : ConnectionId} {conn : Connection I} (hget : s.At c conn)
    (hrun : conn.task = .running) : Ordered (s.teardown c conn) := by
  have hsound := h.sound c conn hget
  have hover := hsound.not_current_over hrun (show SessionTask.finished ≠ .running by simp)
  have hnamed : conn.named := Or.inr (hsound.turn_of_running hrun)
  refine (h.change (f := fun conn => { conn with task := .finished }) hget _ rfl rfl rfl
    (fun _ => rfl) (hsound.over hrun (by simp)) id (fun hc => absurd hc hover) id ?_ ?_).send _
  · intro identity session hs
    have hstays : s.session identity = some session → session.owner = c →
        conn.phase = .returned ∧ conn.superseded = false := by
      rintro hs rfl
      obtain ⟨owner, hat, -, -, hphase, hs'⟩ := h.entry identity session hs
      obtain rfl : conn = owner := Option.some.inj (hget.symm.trans hat)
      exact ⟨hphase, hs'⟩
    split at hs
    · have hi : identity ≠ conn.identity := by
        rintro rfl
        exact absurd ((AList.lookup_erase conn.identity s.sessions).symm.trans hs) (by simp)
      rw [AList.lookup_erase_ne hi] at hs
      exact ⟨hs, hstays hs⟩
    · exact ⟨hs, hstays hs⟩
  · intro d old hat hc hself hs
    split
    next hmine =>
      have hi : old.identity ≠ conn.identity := by
        intro heq
        rw [← heq, show s.sessions.lookup old.identity = some ⟨old.id, d⟩ from hs] at hmine
        have hid : old.id = conn.id := by simpa using hmine
        have hn : old.named := Or.inr ((h.sound d old hat).turn_of_current hc)
        exact hover (hself (h.distinct d c old conn hat hget hn hnamed hid))
      rw [AList.lookup_erase_ne hi]
      exact hs
    next => exact hs

/-- **The table is taken.** -/
theorem supersede (h : Ordered s) {c : ConnectionId} {conn : Connection I} (hget : s.At c conn)
    (hphase : conn.phase = .numbered)
    (halone : ∀ d conn', s.At d conn' → conn'.identity = conn.identity →
      conn'.phase.between = false) : Ordered (s.supersede c conn) := by
  have hidle : conn.task ≠ .running := by
    intro hrun
    rcases (h.sound c conn hget).running hrun with h | h | h <;>
      exact absurd (hphase.symm.trans h) (by simp)
  rw [Server.supersede]
  dsimp only
  split
  next previous hprevious =>
    have hprevious' : s.session conn.identity = some previous := hprevious
    obtain ⟨owner, hown, hi, hid, hreturned, -⟩ := h.entry _ _ hprevious'
    have hne : previous.owner ≠ c := by
      rintro rfl
      obtain rfl : conn = owner := Option.some.inj (hget.symm.trans hown)
      exact absurd (hphase.symm.trans hreturned) (by simp)
    have hsound := h.sound _ owner hown
    split
    next hon =>
      -- the one that was there is no longer current, and its entry is gone
      let f : Connection I → Connection I := fun conn => { conn with superseded := true }
      have hgone : ¬(f owner).current := fun hc => absurd hc.1 (by simp [f])
      have hgive : Ordered { s.update previous.owner f with
          sessions := s.sessions.erase conn.identity } := by
        refine h.change hown _ rfl rfl rfl (fun hoff => absurd hoff (by simp [hon]))
          ⟨hsound.running, hsound.turn, fun _ => hreturned⟩ id (fun hc => absurd hc hgone) id
          ?_ ?_
        · intro identity session hs
          have hother : identity ≠ conn.identity := by
            rintro rfl
            exact absurd ((AList.lookup_erase conn.identity s.sessions).symm.trans hs) (by simp)
          rw [AList.lookup_erase_ne hother] at hs
          refine ⟨hs, fun heq => ?_⟩
          obtain ⟨owner', hown', hi', -⟩ := h.entry identity session hs
          rw [heq] at hown'
          obtain rfl : owner = owner' := Option.some.inj (hown.symm.trans hown')
          exact absurd (hi'.symm.trans hi) hother
        · intro d old hat hc hself hs
          have hother : old.identity ≠ conn.identity := by
            intro heq
            rw [heq] at hs
            obtain rfl : previous = ⟨old.id, d⟩ := Option.some.inj (hprevious'.symm.trans hs)
            exact hgone (hself rfl)
          rw [AList.lookup_erase_ne hother]
          exact hs
      have hget' : (s.update previous.owner f).At c conn := by
        rw [Server.At, Server.getElem?_update, if_neg hne, hget]
      refine (hgive.send _).take hget' hphase (AList.lookup_erase _ _) ?_
      · intro d new hat heq
        rcases Server.eq_of_getElem?_update hat with ⟨rfl, old, hold, rfl⟩ | ⟨-, hold⟩
        · exact halone _ old hold heq
        · exact halone d new hold heq
    next =>
      -- the one that was there stays
      have hback : Ordered { s with sessions :=
          (s.sessions.erase conn.identity).insert conn.identity previous } := by
        refine h.congr _ fun identity => ?_
        by_cases heq : identity = conn.identity
        · subst heq
          rw [AList.lookup_insert]
          exact hprevious.symm
        · rw [AList.lookup_insert_ne heq, AList.lookup_erase_ne heq]
          rfl
      exact hback.advance hget hidle (by simp [hphase]) rfl (by simp) (by simp)
  next hnone =>
    have herase : Ordered { s with sessions := s.sessions.erase conn.identity } := by
      refine h.congr _ fun identity => ?_
      by_cases heq : identity = conn.identity
      · subst heq
        rw [AList.lookup_erase]
        exact hnone.symm
      · rw [AList.lookup_erase_ne heq]
        rfl
    exact herase.take hget hphase (AList.lookup_erase _ _) halone

end Ordered

/-! ### Runs in turn -/

/-- **No connection takes the table out of turn**: not while another of its identity has taken
it and is not entered yet. And the handshake timeout does not drop a session that runs before
it is entered. -/
def InTurn (s : Server I) : Action I → Prop
  | .supersede c => ∀ conn ∈ s.connections[c]?, ∀ conn' ∈ s.connections,
      conn'.identity = conn.identity → conn'.phase.between = false
  | .timeOut c => ∀ conn ∈ s.connections[c]?, conn.phase = .spawned → conn.task ≠ .running
  | _ => True

instance (s : Server I) : (action : Action I) → Decidable (InTurn s action)
  | .supersede c => inferInstanceAs (Decidable (∀ conn ∈ s.connections[c]?,
      ∀ conn' ∈ s.connections, conn'.identity = conn.identity → conn'.phase.between = false))
  | .timeOut c => inferInstanceAs (Decidable (∀ conn ∈ s.connections[c]?,
      conn.phase = .spawned → conn.task ≠ .running))
  | .accept _ | .checkCapacity _ | .number _ | .spawn _ | .insert _ | .teardown _ | .abort _ =>
      isTrue trivial

/-- **A section taken in turn leaves the table in order.** -/
theorem Ordered.step {s s' : Server I} {action : Action I} (h : Ordered s)
    (hturn : InTurn s action) (hstep : s.step action = some s') : Ordered s' := by
  cases action with
  | accept identity =>
      rw [Server.step, Server.accept] at hstep
      split at hstep
      · obtain rfl := Option.some.inj hstep
        exact h.accept identity
      · exact absurd hstep (by simp)
  | checkCapacity c =>
      obtain ⟨conn, hget, hready, rfl⟩ := Server.act_eq_some.mp hstep
      exact h.checkCapacity hget (by simpa using hready)
  | number c =>
      obtain ⟨conn, hget, hready, rfl⟩ := Server.act_eq_some.mp hstep
      exact h.number hget (by simpa using hready)
  | supersede c =>
      obtain ⟨conn, hget, hready, rfl⟩ := Server.act_eq_some.mp hstep
      exact h.supersede hget (by simpa using hready) fun d conn' hat =>
        hturn conn hget conn' (List.mem_of_getElem? hat)
  | spawn c =>
      obtain ⟨conn, hget, hready, rfl⟩ := Server.act_eq_some.mp hstep
      exact h.spawn hget (by simpa using hready)
  | insert c =>
      obtain ⟨conn, hget, hready, rfl⟩ := Server.act_eq_some.mp hstep
      exact h.insert hget (by simpa using hready)
  | timeOut c =>
      obtain ⟨conn, hget, hready, rfl⟩ := Server.act_eq_some.mp hstep
      have hsound := h.sound c conn hget
      have hphase : conn.phase ≠ .returned := by
        intro hr
        rw [hr] at hready
        exact absurd hready (by simp [ServePhase.waits])
      have hidle : conn.task ≠ .running := by
        intro hrun
        rcases hsound.running hrun with hr | hr | hr
        · exact hturn conn hget hr hrun
        · exact hphase hr
        · rw [hr] at hready
          exact absurd hready (by simp [ServePhase.waits])
      exact h.advance hget hidle hphase rfl (by simp) (by simp)
  | teardown c =>
      obtain ⟨conn, hget, hready, rfl⟩ := Server.act_eq_some.mp hstep
      exact h.teardown hget (by simpa using hready)
  | abort c =>
      obtain ⟨conn, hget, hready, rfl⟩ := Server.act_eq_some.mp hstep
      have hboth : conn.superseded = true ∧ conn.task = .running := by simpa using hready
      exact h.abort hget hboth.2

end OcppKit
