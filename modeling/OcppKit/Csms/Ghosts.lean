import OcppKit.Csms.OneSession

/-!
# No ghosts in the session table

What the table of a CSMS is for (`OcppKit.NoGhosts`): it lists exactly the stations that are
connected. A session that is over is not in it, a session that lives and was not superseded
is, and a task that ends takes out no entry but its own.

The last of these holds always. The others hold in every run in turn in which a session is
entered while its task still runs (`OcppKit.no_ghosts`): the task is started before its session
is entered, and where the peer closes in between, the entry comes too late to be taken out, and
stays.
-/

namespace OcppKit

variable {I : Type} [DecidableEq I]

/-! ### Entries of sessions that live -/

/-- A session is entered while its task runs. -/
def Timely (s : Server I) : Action I → Prop
  | .insert c => ∀ conn ∈ s.connections[c]?, conn.task = .running
  | _ => True

instance (s : Server I) : (action : Action I) → Decidable (Timely s action)
  | .insert c => inferInstanceAs (Decidable (∀ conn ∈ s.connections[c]?, conn.task = .running))
  | .accept _ | .checkCapacity _ | .number _ | .supersede _ | .spawn _ | .timeOut _
  | .teardown _ | .abort _ => isTrue trivial

/-- **Every entry is that of a session whose task runs.** -/
def Alive (s : Server I) : Prop :=
  ∀ identity session, s.session identity = some session →
    ∃ conn, s.At session.owner conn ∧ conn.task = .running

namespace Alive

variable {s s' : Server I}

/-- A connection changes, and entries are taken out. -/
theorem update (h : Alive s) {c : ConnectionId} {f : Connection I → Connection I}
    (hconn : s'.connections = (s.update c f).connections)
    (hsub : ∀ identity session, s'.session identity = some session →
      s.session identity = some session)
    (hf : ∀ conn identity session, s.At c conn → s'.session identity = some session →
      session.owner = c → conn.task = .running → (f conn).task = .running) : Alive s' := by
  intro identity session hs
  obtain ⟨conn, hat, hrun⟩ := h identity session (hsub identity session hs)
  by_cases hc : c = session.owner
  · subst hc
    refine ⟨f conn, ?_, hf conn identity session hat hs rfl hrun⟩
    rw [Server.At, hconn, Server.getElem?_update, if_pos rfl, hat, Option.map_some]
  · refine ⟨conn, ?_, hrun⟩
    rw [Server.At, hconn, Server.getElem?_update, if_neg hc, hat]

/-- What is taken out of the table leaves the rest as it is. -/
theorem lookup_of_erase {identity identity' : I} {session : Session}
    (h : (s.sessions.erase identity).lookup identity' = some session) :
    identity' ≠ identity ∧ s.session identity' = some session := by
  have hne : identity' ≠ identity := by
    rintro rfl
    exact absurd ((AList.lookup_erase identity' s.sessions).symm.trans h) (by simp)
  rw [AList.lookup_erase_ne hne] at h
  exact ⟨hne, h⟩

theorem supersede (h : Alive s) (c : ConnectionId) (conn : Connection I) :
    Alive (s.supersede c conn) := by
  rw [Server.supersede]
  dsimp only
  split
  next previous hprevious =>
    split
    · have hgive : Alive { s.update previous.owner fun conn => { conn with superseded := true } with
          sessions := s.sessions.erase conn.identity } :=
        h.update rfl (fun _ _ hs => (lookup_of_erase hs).2) fun _ _ _ _ _ _ hrun => hrun
      exact hgive.update rfl (fun _ _ hs => hs) fun _ _ _ _ _ _ hrun => hrun
    · refine h.update rfl (fun identity session hs => ?_) fun _ _ _ _ _ _ hrun => hrun
      by_cases heq : identity = conn.identity
      · subst heq
        exact hprevious.trans ((AList.lookup_insert _).symm.trans hs)
      · exact (lookup_of_erase ((AList.lookup_insert_ne heq).symm.trans hs)).2
  next => exact h.update rfl (fun _ _ hs => (lookup_of_erase hs).2) fun _ _ _ _ _ _ hrun => hrun

/-- The task that ends has no other entry than the one it takes out. -/
theorem teardown (h : Alive s) (hordered : Ordered s) {c : ConnectionId} {conn : Connection I}
    (hget : s.At c conn) : Alive (s.teardown c conn) := by
  have hsub : ∀ identity session, (s.teardown c conn).session identity = some session →
      s.session identity = some session := by
    intro identity session hs
    change AList.lookup identity (if _ then _ else _ : AList fun _ : I => Session) = _ at hs
    split at hs
    · exact (lookup_of_erase hs).2
    · exact hs
  refine h.update rfl hsub fun conn' identity session hat hs howner _ => ?_
  obtain ⟨owner, hown, hi, hid, -⟩ := hordered.entry identity session (hsub _ _ hs)
  rw [howner] at hown
  obtain rfl : conn = owner := Option.some.inj (hget.symm.trans hown)
  subst hi
  have hmine : s.sessions.lookup conn.identity = some session := hsub _ _ hs
  change AList.lookup _ (if _ then _ else _ : AList fun _ : I => Session) = _ at hs
  rw [if_pos (by simp [hmine, hid]), AList.lookup_erase] at hs
  exact absurd hs (by simp)

/-- **A section that comes in time leaves only living sessions in the table.** -/
theorem step (h : Alive s) (hordered : Ordered s) {action : Action I}
    (htimely : Timely s action) (hstep : s.step action = some s') : Alive s' := by
  cases action with
  | accept identity =>
      rw [Server.step, Server.accept] at hstep
      split at hstep
      · obtain rfl := Option.some.inj hstep
        intro identity' session hs
        obtain ⟨conn, hat, hrun⟩ := h identity' session hs
        refine ⟨conn, ?_, hrun⟩
        change (s.connections ++ [_])[_]? = _
        rw [List.getElem?_append_left (List.getElem?_eq_some_iff.mp hat).1]
        exact hat
      · exact absurd hstep (by simp)
  | checkCapacity c =>
      obtain ⟨conn, -, -, rfl⟩ := Server.act_eq_some.mp hstep
      rw [Server.checkCapacity]
      split
      · exact h.update rfl (fun _ _ hs => hs) fun _ _ _ _ _ _ hrun => hrun
      · exact h.update rfl (fun _ _ hs => hs) fun _ _ _ _ _ _ hrun => hrun
  | number c =>
      obtain ⟨conn, -, -, rfl⟩ := Server.act_eq_some.mp hstep
      exact h.update rfl (fun _ _ hs => hs) fun _ _ _ _ _ _ hrun => hrun
  | supersede c =>
      obtain ⟨conn, -, -, rfl⟩ := Server.act_eq_some.mp hstep
      exact h.supersede c conn
  | spawn c =>
      obtain ⟨conn, -, -, rfl⟩ := Server.act_eq_some.mp hstep
      exact h.update rfl (fun _ _ hs => hs) fun _ _ _ _ _ _ _ => rfl
  | insert c =>
      obtain ⟨conn, hget, -, rfl⟩ := Server.act_eq_some.mp hstep
      intro identity session hs
      by_cases heq : identity = conn.identity
      · subst heq
        obtain rfl : ⟨conn.id, c⟩ = session :=
          Option.some.inj ((AList.lookup_insert s.sessions).symm.trans hs)
        refine ⟨{ conn with phase := .returned }, ?_, htimely conn hget⟩
        change (s.update c _).connections[c]? = _
        rw [Server.getElem?_update, if_pos rfl, hget, Option.map_some]
      · have hs' : s.session identity = some session := (AList.lookup_insert_ne heq).symm.trans hs
        have hrest : Alive (s.advance c .returned) :=
          h.update rfl (fun _ _ hs => hs) fun _ _ _ _ _ _ hrun => hrun
        exact hrest identity session hs'
  | timeOut c =>
      obtain ⟨conn, -, -, rfl⟩ := Server.act_eq_some.mp hstep
      exact h.update rfl (fun _ _ hs => hs) fun _ _ _ _ _ _ hrun => hrun
  | teardown c =>
      obtain ⟨conn, hget, -, rfl⟩ := Server.act_eq_some.mp hstep
      exact h.teardown hordered hget
  | abort c =>
      obtain ⟨conn, hget, hready, rfl⟩ := Server.act_eq_some.mp hstep
      have hgiven : conn.superseded = true := (Bool.and_eq_true_iff.mp hready).1
      refine h.update rfl (fun _ _ hs => hs) fun conn' identity session hat hs howner _ => ?_
      -- what was superseded is not in the table
      obtain ⟨owner, hown, -, -, -, hnot⟩ := hordered.entry identity session hs
      rw [howner] at hown
      obtain rfl : conn = owner := Option.some.inj (hget.symm.trans hown)
      exact absurd hnot (by simp [hgiven])

end Alive

/-! ### The table lists who is connected -/

omit [DecidableEq I] in
/-- A connection on its way into the table has `accept` still to finish. -/
theorem ServePhase.pending_of_between {phase : ServePhase} (h : phase.between = true) :
    phase.pending = true := by
  cases phase with
  | claimed | spawned => rfl
  | _ => exact absurd h (by simp [ServePhase.between])

/-- **The table holds no ghosts.** -/
structure NoGhosts (s : Server I) : Prop where
  /-- Once `run_session` and the task of a session are over, the table does not have it. -/
  cleared : ∀ c conn, s.At c conn → conn.phase.pending = false →
    conn.task = .finished ∨ conn.task = .aborted →
    ∀ identity session, s.session identity = some session → session.id ≠ conn.id
  /-- A task that ends takes out its own entry only. -/
  own : ∀ c s', s.step (.teardown c) = some s' → ∀ identity session,
    s.session identity = some session → s'.session identity ≠ some session →
    session.owner = c ∧ ∃ conn, s.At c conn ∧ conn.id = session.id
  /-- A session that lives, was entered and not superseded is the entry of its identity. -/
  entry : ∀ c conn, s.At c conn → conn.phase = .returned → conn.task = .running →
    conn.superseded = false → s.session conn.identity = some ⟨conn.id, c⟩
  /-- The handle lists exactly the identities that have such a session. -/
  listed : ∀ identity, identity ∈ s.listed ↔ ∃ c conn, s.At c conn ∧
    conn.identity = identity ∧ conn.phase.pending = false ∧ conn.task = .running ∧
    conn.superseded = false

/-- **A task that ends takes out its own entry only**, and this holds of every state in
order. -/
theorem Ordered.own {s s' : Server I} (h : Ordered s) {c : ConnectionId}
    (hstep : s.step (.teardown c) = some s') {identity : I} {session : Session}
    (hs : s.session identity = some session) (hs' : s'.session identity ≠ some session) :
    session.owner = c ∧ ∃ conn, s.At c conn ∧ conn.id = session.id := by
  obtain ⟨conn, hget, hready, rfl⟩ := Server.act_eq_some.mp hstep
  change AList.lookup identity (if _ then _ else _ : AList fun _ : I => Session) ≠ _ at hs'
  split at hs'
  next hmine =>
    have heq : identity = conn.identity := by
      by_contra hne
      exact hs' ((AList.lookup_erase_ne hne).trans hs)
    subst heq
    rw [show s.sessions.lookup conn.identity = some session from hs] at hmine
    have hid : session.id = conn.id := by simpa using hmine
    obtain ⟨owner, hown, -, hid', hphase, -⟩ := h.entry _ _ hs
    have hnamed : owner.named :=
      Or.inr ((h.sound _ owner hown).turn (Or.inr (Or.inl hphase)))
    have hnamed' : conn.named :=
      Or.inr ((h.sound c conn hget).turn_of_running (by simpa using hready))
    exact ⟨h.distinct _ _ owner conn hown hget hnamed hnamed' (hid'.trans hid), conn, hget,
      hid.symm⟩
  next => exact absurd hs hs'

theorem Ordered.noGhosts {s : Server I} (h : Ordered s) (halive : Alive s) : NoGhosts s where
  cleared := by
    intro c conn hat _ hover identity session hs hid
    obtain ⟨owner, hown, hi, hid', hphase, -⟩ := h.entry identity session hs
    obtain ⟨owner', hown', hrun⟩ := halive identity session hs
    obtain rfl : owner = owner' := Option.some.inj (hown.symm.trans hown')
    have hnamed : owner.named := Or.inr ((h.sound _ owner hown).turn_of_running hrun)
    have hunborn : conn.task ≠ .unborn := by
      rcases hover with hover | hover <;> simp [hover]
    have hnamed' : conn.named := Or.inr ((h.sound c conn hat).turn (Or.inr (Or.inr hunborn)))
    obtain rfl := h.distinct _ _ owner conn hown hat hnamed hnamed' (hid'.trans hid)
    obtain rfl : owner = conn := Option.some.inj (hown.symm.trans hat)
    rcases hover with hover | hover <;> exact absurd (hrun.symm.trans hover) (by simp)
  own := fun _ _ hstep _ _ hs hs' => h.own hstep hs hs'
  entry := by
    intro c conn hat hphase hrun hs
    rcases h.placed c conn hat ⟨hs, Or.inr hrun⟩ with hb | hentry
    · rw [hphase] at hb
      exact absurd hb (by simp [ServePhase.between])
    · exact hentry
  listed := by
    intro identity
    rw [Server.listed, ← AList.mem_keys, ← AList.lookup_isSome, Option.isSome_iff_exists]
    constructor
    · rintro ⟨session, hs⟩
      obtain ⟨owner, hown, hi, -, hphase, hs'⟩ := h.entry identity session hs
      obtain ⟨owner', hown', hrun⟩ := halive identity session hs
      obtain rfl : owner = owner' := Option.some.inj (hown.symm.trans hown')
      exact ⟨session.owner, owner, hown, hi, by rw [hphase]; rfl, hrun, hs'⟩
    · rintro ⟨c, conn, hat, rfl, hover, hrun, hs⟩
      rcases h.placed c conn hat ⟨hs, Or.inr hrun⟩ with hb | hentry
      · exact absurd (ServePhase.pending_of_between hb) (by simp [hover])
      · exact ⟨_, hentry⟩

/-- **The session table holds no ghosts.** In every run in which no connection takes the table
out of turn and every session is entered while its task runs, the table lists exactly the
stations that are connected. -/
theorem no_ghosts (config : ServerConfig) (actions : List (Action I)) (s : Server I)
    (hcond : Transitions.EachStep Server.step (fun s action => InTurn s action ∧ Timely s action)
      (Server.start config) actions)
    (hrun : (Server.start config).run actions = some s) : NoGhosts s := by
  have hstart : Ordered (Server.start config : Server I) ∧ Alive (Server.start config : Server I) :=
    ⟨Ordered.start config, fun _ _ hs => absurd hs (by simp [Server.start, Server.session])⟩
  obtain ⟨hordered, halive⟩ := Transitions.run_invariant (fun s => Ordered s ∧ Alive s)
    (fun s action s' hinv hφ hstep =>
      ⟨hinv.1.step hφ.1 hstep, hinv.2.step hinv.1 hφ.2 hstep⟩) hstart hcond hrun
  exact hordered.noGhosts halive

end OcppKit

namespace OcppKit.Reference

/-! ### Runs -/

/-- One after the other leaves no ghost. -/
theorem no_ghosts_reconnecting :
    NoGhosts reconnected ∧ reconnected.listed = [7] :=
  ⟨no_ghosts .default reconnecting reconnected (by decide +kernel) run_reconnecting,
    by decide +kernel⟩

/-- The peer closes before its session is entered. -/
def shortLived : List (Action ℕ) :=
  [.accept 7, .checkCapacity 0, .number 0, .supersede 0, .spawn 0, .teardown 0, .insert 0]

/-- A session that is over stays in the table where it is entered after its end. -/
theorem ghosts :
    ¬∀ (actions : List (Action ℕ)) (s : Server ℕ),
      (Server.start .default).run actions = some s → NoGhosts s := by
  intro h
  have hnone := h shortLived (after .default shortLived) (Option.some_get _).symm
  have hcleared := hnone.cleared 0 ⟨7, .returned, 0, .finished, false, 1⟩ (by decide +kernel) rfl
    (Or.inl rfl) 7 ⟨0, 0⟩ (by decide +kernel)
  exact hcleared rfl

end OcppKit.Reference
