import OcppKit.Csms.SessionTable

/-!
# One session an identity

What a CSMS promises of its sessions (`OcppKit.OneActive`): of each identity at most one
session lives that was not superseded, an older one has been told to shut down or – where
nothing is superseded – is never replaced, and there are never more than `max_connections`.

None of it holds of every interleaving. Asking for room, taking the table and entering the
session are three sections, and the sections of another connection may come between them:
two connections of one station that both find the table without an entry both live, and two
connections that both find room may together exceed it. `OcppKit.one_session` says that this
is all: it holds in every run in which no connection takes the table while another of its
identity is on its way into it, none finds room that is promised to others, and none that
already runs is dropped by the handshake timeout.
-/

namespace OcppKit

variable {I : Type}

/-- The connection was let in, and may yet enter the table. -/
def ServePhase.onTheWay : ServePhase → Bool
  | .admitted | .numbered | .claimed | .spawned => true
  | _ => false

variable [DecidableEq I]

/-! ### The room that is promised -/

/-- The identities that are in the table, and those that may yet enter it. -/
def Server.expected (s : Server I) : Finset I :=
  (s.listed ++ (s.connections.filter (·.phase.onTheWay)).map (·.identity)).toFinset

namespace Server

variable {s s' : Server I}

theorem mem_expected {identity : I} : identity ∈ s.expected ↔
    identity ∈ s.sessions ∨ ∃ c conn, s.At c conn ∧ conn.phase.onTheWay = true ∧
      conn.identity = identity := by
  rw [expected, List.mem_toFinset, List.mem_append, listed, ← AList.mem_keys, List.mem_map]
  constructor
  · rintro (h | ⟨conn, hmem, hi⟩)
    · exact Or.inl h
    · obtain ⟨hconn, hway⟩ := List.mem_filter.mp hmem
      obtain ⟨c, hat⟩ := List.mem_iff_getElem?.mp hconn
      exact Or.inr ⟨c, conn, hat, hway, hi⟩
  · rintro (h | ⟨c, conn, hat, hway, hi⟩)
    · exact Or.inl h
    · exact Or.inr ⟨conn, List.mem_filter.mpr ⟨List.mem_of_getElem? hat, hway⟩, hi⟩

/-- The table is no larger than what is expected. -/
theorem len_le_expected (s : Server I) : s.len ≤ s.expected.card := by
  rw [len, ← List.toFinset_card_of_nodup s.sessions.keys_nodup]
  refine Finset.card_le_card fun identity hmem => mem_expected.mpr (Or.inl ?_)
  exact AList.mem_keys.mpr (List.mem_toFinset.mp hmem)

/-- Nobody new is expected. -/
theorem expected_subset (htable : ∀ identity ∈ s'.sessions, identity ∈ s.expected)
    (hconn : ∀ d new, s'.At d new → new.phase.onTheWay = true → new.identity ∈ s.expected) :
    s'.expected ⊆ s.expected := by
  intro identity hmem
  rcases mem_expected.mp hmem with hs | ⟨d, new, hat, hway, rfl⟩
  · exact htable identity hs
  · exact hconn d new hat hway

omit [DecidableEq I] in
/-- A connection that changes is expected only if it was. -/
theorem onTheWay_update {c : ConnectionId} {f : Connection I → Connection I}
    (hf : ∀ conn, s.At c conn → (f conn).phase.onTheWay = true →
      conn.phase.onTheWay = true ∧ (f conn).identity = conn.identity) :
    ∀ d new, (s.update c f).At d new → new.phase.onTheWay = true →
      ∃ old, s.At d old ∧ old.phase.onTheWay = true ∧ new.identity = old.identity := by
  intro d new hnew hway
  rcases eq_of_getElem?_update hnew with ⟨rfl, old, hold, rfl⟩ | ⟨-, hold⟩
  · obtain ⟨hway', hi⟩ := hf old hold hway
    exact ⟨old, hold, hway', hi⟩
  · exact ⟨new, hold, hway, rfl⟩

/-- The table loses entries, and the connections that may enter it were expected. -/
theorem expected_update_subset {c : ConnectionId} {f : Connection I → Connection I}
    (htable : ∀ identity ∈ s'.sessions, identity ∈ s.sessions)
    (hconn : s'.connections = (s.update c f).connections)
    (hf : ∀ conn, s.At c conn → (f conn).phase.onTheWay = true →
      conn.phase.onTheWay = true ∧ (f conn).identity = conn.identity) :
    s'.expected ⊆ s.expected := by
  refine expected_subset (fun identity hs => mem_expected.mpr (Or.inl (htable identity hs))) ?_
  intro d new hnew hway
  rw [At, hconn] at hnew
  obtain ⟨old, hold, hway', hi⟩ := onTheWay_update hf d new hnew hway
  exact mem_expected.mpr (Or.inr ⟨d, old, hold, hway', hi.symm⟩)

/-- **Taking the table promises no room.** -/
theorem expected_supersede {c : ConnectionId} {conn : Connection I} (hget : s.At c conn)
    (hphase : conn.phase = .numbered) : (s.supersede c conn).expected ⊆ s.expected := by
  have hway : conn.phase.onTheWay = true := by rw [hphase]; rfl
  have hmine : ∀ conn', s.At c conn' → conn'.phase.onTheWay = true := by
    intro conn' hat
    obtain rfl : conn = conn' := Option.some.inj (hget.symm.trans hat)
    exact hway
  have herase : ∀ identity ∈ s.sessions.erase conn.identity, identity ∈ s.sessions :=
    fun identity hmem => (AList.mem_erase.mp hmem).2
  rw [supersede]
  dsimp only
  split
  next previous hprevious =>
    split
    · -- the one that is superseded was not on its way, and is not now
      refine expected_subset (fun identity hs => ?_) fun d new hnew hway' => ?_
      · exact mem_expected.mpr (Or.inl (herase identity hs))
      · rcases eq_of_getElem?_update hnew with ⟨rfl, old, hold, rfl⟩ | ⟨-, hold⟩
        · rcases eq_of_getElem?_update hold with ⟨rfl, old', hold', rfl⟩ | ⟨-, hold'⟩
          · exact mem_expected.mpr (Or.inr ⟨_, old', hold', hmine old' hold', rfl⟩)
          · exact mem_expected.mpr (Or.inr ⟨_, old, hold', hmine old hold', rfl⟩)
        · rcases eq_of_getElem?_update hold with ⟨rfl, old', hold', rfl⟩ | ⟨-, hold'⟩
          · exact mem_expected.mpr (Or.inr ⟨_, old', hold', hway', rfl⟩)
          · exact mem_expected.mpr (Or.inr ⟨_, new, hold', hway', rfl⟩)
    · refine expected_update_subset (fun identity hs => ?_) rfl
        (fun _ _ h => absurd h (by simp [ServePhase.onTheWay]))
      rcases (AList.mem_insert _).mp hs with rfl | hs
      · exact AList.lookup_isSome.mp (by rw [hprevious]; rfl)
      · exact herase identity hs
  next => exact expected_update_subset herase rfl fun conn' hat _ => ⟨hmine conn' hat, rfl⟩

end Server

/-! ### Letting in no more than there is room for -/

/-- **No connection is let in on room that is promised to others**: with its own, the
identities in the table and on their way into it are no more than there may be. -/
def Roomy (s : Server I) : Action I → Prop
  | .checkCapacity c => ∀ conn ∈ s.connections[c]?, s.len < s.config.maxConnections →
      (insert conn.identity s.expected).card ≤ s.config.maxConnections
  | _ => True

instance (s : Server I) : (action : Action I) → Decidable (Roomy s action)
  | .checkCapacity c => inferInstanceAs (Decidable (∀ conn ∈ s.connections[c]?,
      s.len < s.config.maxConnections →
        (insert conn.identity s.expected).card ≤ s.config.maxConnections))
  | .accept _ | .number _ | .supersede _ | .spawn _ | .insert _ | .timeOut _ | .teardown _
  | .abort _ => isTrue trivial

namespace Server

variable {s s' : Server I}

theorem config_step {action : Action I} (hstep : s.step action = some s') :
    s'.config = s.config := by
  cases action with
  | accept identity =>
      rw [step, accept] at hstep
      split at hstep
      · obtain rfl := Option.some.inj hstep
        rfl
      · exact absurd hstep (by simp)
  | checkCapacity c =>
      obtain ⟨conn, -, -, rfl⟩ := act_eq_some.mp hstep
      rw [checkCapacity]
      split <;> rfl
  | supersede c =>
      obtain ⟨conn, -, -, rfl⟩ := act_eq_some.mp hstep
      rw [supersede]
      dsimp only
      split
      · split <;> rfl
      · rfl
  | number c | spawn c | insert c | timeOut c | teardown c | abort c =>
      obtain ⟨conn, -, -, rfl⟩ := act_eq_some.mp hstep
      rfl

/-- **A section promises no more room than there is.** -/
theorem expected_step {action : Action I} (hroom : Roomy s action)
    (h : s.expected.card ≤ s.config.maxConnections) (hstep : s.step action = some s') :
    s'.expected.card ≤ s'.config.maxConnections := by
  rw [config_step hstep]
  have hfewer : s'.expected ⊆ s.expected → s'.expected.card ≤ s.config.maxConnections :=
    fun hsub => (Finset.card_le_card hsub).trans h
  cases action with
  | accept identity =>
      rw [step, accept] at hstep
      split at hstep
      · obtain rfl := Option.some.inj hstep
        refine hfewer (expected_subset (fun _ hs => mem_expected.mpr (Or.inl hs)) ?_)
        intro d new hat hway
        change (s.connections ++ [_])[d]? = _ at hat
        rw [List.getElem?_append] at hat
        split at hat
        · exact mem_expected.mpr (Or.inr ⟨d, new, hat, hway, rfl⟩)
        · obtain rfl := List.mem_singleton.mp (List.mem_of_getElem? hat)
          exact absurd hway (by simp [ServePhase.onTheWay])
      · exact absurd hstep (by simp)
  | checkCapacity c =>
      obtain ⟨conn, hget, hready, rfl⟩ := act_eq_some.mp hstep
      rw [checkCapacity]
      split
      · refine (Finset.card_le_card ?_).trans h
        exact expected_update_subset (fun _ hs => hs) rfl
          fun _ _ h => absurd h (by simp [ServePhase.onTheWay])
      next hfree =>
        -- the one that is let in is expected from now on
        refine (Finset.card_le_card ?_).trans (hroom conn hget (not_le.mp hfree))
        intro identity hmem
        rcases mem_expected.mp hmem with hs | ⟨d, new, hat, hway, rfl⟩
        · exact Finset.mem_insert_of_mem (mem_expected.mpr (Or.inl hs))
        · rcases eq_of_getElem?_update hat with ⟨rfl, old, hold, rfl⟩ | ⟨-, hold⟩
          · obtain rfl : conn = old := Option.some.inj (hget.symm.trans hold)
            exact Finset.mem_insert_self _ _
          · exact Finset.mem_insert_of_mem (mem_expected.mpr (Or.inr ⟨d, new, hold, hway, rfl⟩))
  | number c =>
      obtain ⟨conn, hget, hready, rfl⟩ := act_eq_some.mp hstep
      refine hfewer (expected_update_subset (fun _ hs => hs) rfl fun conn' hat _ => ⟨?_, rfl⟩)
      obtain rfl : conn = conn' := Option.some.inj (hget.symm.trans hat)
      rw [show conn.phase = .admitted by simpa using hready]
      rfl
  | supersede c =>
      obtain ⟨conn, hget, hready, rfl⟩ := act_eq_some.mp hstep
      exact hfewer (expected_supersede hget (by simpa using hready))
  | spawn c =>
      obtain ⟨conn, hget, hready, rfl⟩ := act_eq_some.mp hstep
      refine hfewer (expected_update_subset (fun _ hs => hs) rfl fun conn' hat _ => ⟨?_, rfl⟩)
      obtain rfl : conn = conn' := Option.some.inj (hget.symm.trans hat)
      rw [show conn.phase = .claimed by simpa using hready]
      rfl
  | insert c =>
      obtain ⟨conn, hget, hready, rfl⟩ := act_eq_some.mp hstep
      have hphase : conn.phase = .spawned := by simpa using hready
      have hmine : conn.identity ∈ s.expected :=
        mem_expected.mpr (Or.inr ⟨c, conn, hget, by rw [hphase]; rfl, rfl⟩)
      refine hfewer (expected_subset (fun identity hs => ?_) fun d new hnew hway => ?_)
      · rcases (AList.mem_insert _).mp hs with rfl | hs
        · exact hmine
        · exact mem_expected.mpr (Or.inl hs)
      · obtain ⟨old, hold, hway', hi⟩ := onTheWay_update
          (fun _ _ h => absurd h (by simp [ServePhase.onTheWay])) d new hnew hway
        exact mem_expected.mpr (Or.inr ⟨d, old, hold, hway', hi.symm⟩)
  | timeOut c =>
      obtain ⟨conn, hget, hready, rfl⟩ := act_eq_some.mp hstep
      exact hfewer (expected_update_subset (fun _ hs => hs) rfl
        fun _ _ h => absurd h (by simp [ServePhase.onTheWay]))
  | teardown c =>
      obtain ⟨conn, hget, hready, rfl⟩ := act_eq_some.mp hstep
      refine hfewer (expected_update_subset (fun identity hs => ?_) rfl fun _ _ h => ⟨h, rfl⟩)
      change identity ∈ (if _ then _ else _ : AList fun _ : I => Session) at hs
      split at hs
      · exact (AList.mem_erase.mp hs).2
      · exact hs
  | abort c =>
      obtain ⟨conn, hget, hready, rfl⟩ := act_eq_some.mp hstep
      exact hfewer (expected_update_subset (fun _ hs => hs) rfl fun _ _ h => ⟨h, rfl⟩)

end Server

/-! ### One session -/

/-- **At most one session an identity, and no more than there is room for.** -/
structure OneActive (s : Server I) : Prop where
  /-- Of each identity at most one session lives that was not superseded. -/
  unique : ∀ c d conn conn', s.At c conn → s.At d conn' → conn.identity = conn'.identity →
    conn.task = .running → conn'.task = .running → conn.superseded = false →
    conn'.superseded = false → c = d
  /-- Where a newer one supersedes, an older one that lives has been told to shut down. -/
  handedOver : s.config.supersede = true → ∀ c d conn conn', s.At c conn → s.At d conn' →
    conn.identity = conn'.identity → conn.task = .running → conn.turn < conn'.turn →
    conn.superseded = true
  /-- Where it does not, a session that lives stays in the table once it is there, and no
  newer one is let in. -/
  kept : s.config.supersede = false → ∀ c conn, s.At c conn → conn.task = .running →
    conn.superseded = false ∧
      (conn.phase = .returned → s.session conn.identity = some ⟨conn.id, c⟩) ∧
      ∀ d conn', s.At d conn' → conn'.identity = conn.identity → conn'.turn ≤ conn.turn
  /-- There are no more than there may be. -/
  capacity : s.len ≤ s.config.maxConnections

theorem Ordered.oneActive {s : Server I} (h : Ordered s)
    (hroom : s.expected.card ≤ s.config.maxConnections) : OneActive s where
  unique := by
    intro c d conn conn' hat hat' heq hrun hrun' hs hs'
    by_contra hne
    have hlt := h.last c d conn conn' hat hat' heq ⟨hs, Or.inr hrun⟩ hne
    have hgt := h.last d c conn' conn hat' hat heq.symm ⟨hs', Or.inr hrun'⟩ (Ne.symm hne)
    omega
  handedOver := by
    intro _ c d conn conn' hat hat' heq hrun hlt
    by_contra hs
    have hs' : conn.superseded = false := Bool.eq_false_of_not_eq_true hs
    have hne : c ≠ d := by
      rintro rfl
      obtain rfl : conn = conn' := Option.some.inj (hat.symm.trans hat')
      exact absurd hlt (lt_irrefl _)
    have hgt := h.last c d conn conn' hat hat' heq ⟨hs', Or.inr hrun⟩ hne
    omega
  kept := by
    intro hoff c conn hat hrun
    have hs := h.kept hoff c conn hat
    refine ⟨hs, fun hphase => ?_, fun d conn' hat' heq => ?_⟩
    · rcases h.placed c conn hat ⟨hs, Or.inr hrun⟩ with hb | hentry
      · rw [hphase] at hb
        exact absurd hb (by simp [ServePhase.between])
      · exact hentry
    · by_cases hne : c = d
      · subst hne
        obtain rfl : conn = conn' := Option.some.inj (hat.symm.trans hat')
        exact le_rfl
      · exact (h.last c d conn conn' hat hat' heq.symm ⟨hs, Or.inr hrun⟩ hne).le
  capacity := (Server.len_le_expected s).trans hroom

/-- **One session an identity, under concurrency.** In every run in which no connection takes
the table out of turn and none is let in on room that is promised to others, every state that
is reached has at most one active session an identity. -/
theorem one_session (config : ServerConfig) (actions : List (Action I)) (s : Server I)
    (hcond : Transitions.EachStep Server.step (fun s action => InTurn s action ∧ Roomy s action)
      (Server.start config) actions)
    (hrun : (Server.start config).run actions = some s) : OneActive s := by
  have hstart : Ordered (Server.start config : Server I) ∧
      (Server.start config : Server I).expected.card ≤ config.maxConnections :=
    ⟨Ordered.start config, Nat.zero_le _⟩
  obtain ⟨hordered, hroom⟩ := Transitions.run_invariant
    (fun s => Ordered s ∧ s.expected.card ≤ s.config.maxConnections)
    (fun s action s' hinv hφ hstep =>
      ⟨hinv.1.step hφ.1 hstep, Server.expected_step hφ.2 hinv.2 hstep⟩) hstart hcond hrun
  exact hordered.oneActive hroom

end OcppKit

namespace OcppKit.Reference

/-! ### Runs -/

/-- Two connections, section by section. -/
def sideBySide (identity identity' : ℕ) : List (Action ℕ) :=
  [.accept identity, .accept identity', .checkCapacity 0, .checkCapacity 1, .number 0, .number 1,
    .supersede 0, .supersede 1, .spawn 0, .spawn 1, .insert 0, .insert 1]

/-- A station connects, and connects again: the second connection takes the place of the
first, whose task then ends. -/
def reconnecting : List (Action ℕ) :=
  [.accept 7, .checkCapacity 0, .number 0, .supersede 0, .spawn 0, .insert 0,
    .accept 7, .checkCapacity 1, .number 1, .supersede 1, .spawn 1, .insert 1, .teardown 0]

/-- The server after a run that is possible. -/
def after (config : ServerConfig) (actions : List (Action ℕ))
    (h : ((Server.start config).run actions).isSome = true := by decide +kernel) : Server ℕ :=
  ((Server.start config).run actions).get h

/-- The server after that. -/
def reconnected : Server ℕ := after .default reconnecting

theorem run_reconnecting : (Server.start .default).run reconnecting = some reconnected := by
  rw [reconnected, after, Option.some_get]

/-- One after the other is in order. -/
theorem one_session_reconnecting :
    OneActive reconnected ∧ reconnected.session 7 = some ⟨1, 1⟩ :=
  ⟨one_session .default reconnecting reconnected (by decide +kernel) run_reconnecting,
    by decide +kernel⟩

/-- Two connections of one station both live, whether or not the newer one supersedes, and two
stations are let into a server that has room for one. -/
theorem not_one_session :
    (¬∀ (actions : List (Action ℕ)) (s : Server ℕ),
      (Server.start .default).run actions = some s → OneActive s) ∧
    (¬∀ (actions : List (Action ℕ)) (s : Server ℕ),
      (Server.start ⟨10000, 512, false⟩).run actions = some s → OneActive s) ∧
    ¬∀ (actions : List (Action ℕ)) (s : Server ℕ),
      (Server.start ⟨1, 512, true⟩).run actions = some s → OneActive s := by
  refine ⟨fun h => ?_, fun h => ?_, fun h => ?_⟩
  · have hone := h (sideBySide 7 7) (after .default (sideBySide 7 7)) (Option.some_get _).symm
    have htwo := hone.unique 0 1 ⟨7, .returned, 0, .running, false, 1⟩
      ⟨7, .returned, 1, .running, false, 2⟩ (by decide +kernel) (by decide +kernel) rfl rfl rfl
      rfl rfl
    exact absurd htwo (by decide)
  · have hone := h (sideBySide 7 7) (after ⟨10000, 512, false⟩ (sideBySide 7 7))
      (Option.some_get _).symm
    have hkept := hone.kept (by decide +kernel) 0 ⟨7, .returned, 0, .running, false, 1⟩
      (by decide +kernel) rfl
    exact absurd (hkept.2.1 rfl) (by decide +kernel)
  · have hone := h (sideBySide 1 2) (after ⟨1, 512, true⟩ (sideBySide 1 2))
      (Option.some_get _).symm
    exact absurd hone.capacity (by decide +kernel)

end OcppKit.Reference
