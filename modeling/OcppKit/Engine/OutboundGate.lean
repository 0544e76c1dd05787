import OcppKit.Engine.Moves

/-!
# The boot gate on the way out

A station that gates its traffic sends nothing of its own before it is accepted but its
`BootNotification`, and what it was asked for: `OcppKit.station_gated`. A message may have
been accepted in another boot state, loaded from the store or put back after a failure; it
goes through `OcppKit.Engine.clear` when it is sent, and only this moment counts.

The boot state at a point of the history is the last one that was reported before it
(`OcppKit.bootOf`). A station reports every change.
-/

namespace OcppKit

variable [Externals]

/-! ### The boot state of a history -/

/-- The boot state an entry reports. -/
def Event.bootReport : Event → Option BootState
  | .out (.bootState state) => some state
  | _ => none

/-- **The boot state at the end of a history**: the last one reported, and `Idle` if none
was. -/
def bootOf (evs : List Event) : BootState :=
  (evs.filterMap Event.bootReport).getLast?.getD .idle

theorem bootOf_concat_of_none (evs : List Event) {ev : Event} (h : ev.bootReport = none) :
    bootOf (evs ++ [ev]) = bootOf evs := by
  rw [bootOf, List.filterMap_append, List.filterMap_cons_none h, List.filterMap_nil,
    List.append_nil, bootOf]

theorem bootOf_concat_report (evs : List Event) (state : BootState) :
    bootOf (evs ++ [Event.out (.bootState state)]) = state := by
  rw [bootOf, List.filterMap_append,
    List.filterMap_cons_some (show Event.bootReport _ = some state from rfl),
    List.filterMap_nil, List.getLast?_concat, Option.getD_some]

theorem Event.bootReport_of_aside {ev : Event} (h : ev.aside = true) : ev.bootReport = none := by
  cases ev with
  | out o => cases o <;> simp_all [Event.aside, Event.bootReport]
  | _ => rfl

theorem bootOf_append {evs more : List Event} (h : ∀ ev ∈ more, ev.aside = true) :
    bootOf (evs ++ more) = bootOf evs := by
  induction more generalizing evs with
  | nil => rw [List.append_nil]
  | cons ev more ih =>
      rw [List.append_cons, ih fun ev' hev' => h ev' (List.mem_cons_of_mem ev hev')]
      exact bootOf_concat_of_none evs (Event.bootReport_of_aside (h ev List.mem_cons_self))

/-! ### What the gate lets out -/

/-- A message was accepted under this handle as one the peer had asked for. -/
def AskedFor (evs : List Event) (token : CallToken) : Prop :=
  ∃ entry, .accepted entry ∈ evs ∧ entry.token = token ∧ entry.triggered = true

theorem AskedFor.append {evs : List Event} {token : CallToken} (h : AskedFor evs token)
    (more : List Event) : AskedFor (evs ++ more) token := by
  obtain ⟨entry, hmem, htoken, htriggered⟩ := h
  exact ⟨entry, List.mem_append_left _ hmem, htoken, htriggered⟩

/-- **A message goes out before the station is accepted** only if it boots it or was asked
for. -/
def LetOut (before : List Event) : Event → Prop
  | .sent _ entry => bootOf before ≠ .accepted →
      entry.action = "BootNotification" ∨ AskedFor before entry.token
  | _ => True

theorem letOut_of_aside {ev : Event} (h : ev.aside = true) (before : List Event) :
    LetOut before ev := by
  cases ev with
  | sent id entry => exact absurd h (by simp [Event.aside])
  | _ => trivial

namespace Engine

variable {S : Type}

/-- **The invariant of a gated station**: its boot state is the one last reported, what
waits as asked for was accepted as such, and what was sent was let out. -/
structure Gated (e : Engine S) : Prop where
  /-- It is a station. -/
  role : e.config.role = .chargingStation
  /-- It gates its traffic. -/
  enforced : e.config.enforceBootGate = true
  /-- The boot state is the one last reported. -/
  boot : bootOf e.log = e.boot
  /-- What waits as asked for was accepted as such. -/
  queue : ∀ p ∈ e.queue, p.triggered = true → AskedFor e.log p.token
  /-- So was what is outstanding as asked for. -/
  slot : ∀ f, e.inflight = some f → f.triggered = true → AskedFor e.log f.token
  /-- What was sent was let out. -/
  sent : Along LetOut e.log

/-- What is of no concern to any message does not show at the gate. -/
theorem Aside.gated {e e' : Engine S} (ha : Aside e e') (h : e.Gated) : e'.Gated := by
  obtain ⟨timeout, hconfig⟩ := ha.config
  obtain ⟨evs, hlog, hevs⟩ := ha.log
  constructor
  · rw [hconfig]
    exact h.role
  · rw [hconfig]
    exact h.enforced
  · rw [hlog, bootOf_append hevs, h.boot]
    rcases ha.boot with hboot | hrole
    · exact hboot.symm
    · exact absurd (h.role.symm.trans hrole) (by simp)
  · intro p hp htriggered
    rw [ha.queue] at hp
    rw [hlog]
    exact (h.queue p hp htriggered).append evs
  · intro f hf htriggered
    rw [ha.inflight] at hf
    rw [hlog]
    exact (h.slot f hf htriggered).append evs
  · rw [hlog]
    exact h.sent.append fun ev hev before => letOut_of_aside (hevs ev hev) before

/-- **A message that nothing holds back is let out.** -/
theorem Gated.letOut {e : Engine S} (h : e.Gated) {entry : Pending} (hmem : entry ∈ e.queue)
    (hclear : e.clear entry = true) (id : MessageId) : LetOut e.log (.sent id entry) := by
  intro hboot
  rw [h.boot] at hboot
  have hclosed : e.boot.allowsTraffic = false := by
    cases hb : e.boot with
    | accepted => exact absurd hb hboot
    | _ => rfl
  simp only [clear, h.role, h.enforced, hclosed, Bool.and_eq_true, Bool.or_eq_true,
    Bool.not_true, decide_eq_true_eq, ne_eq, not_true_eq_false, decide_false, Bool.false_eq_true,
    or_false, false_or] at hclear
  exact hclear.2.imp_right (h.queue entry hmem)

/-- A message is sent: what is left in the queue was there before, and the slot holds what it
held or what was sent. -/
theorem Gated.note_sent {e : Engine S} (h : e.Gated) {id : MessageId} {xs ys : List Pending}
    {entry : Pending} (hq : e.queue = xs ++ entry :: ys) (hclear : e.clear entry = true)
    {slot : Option InFlight} (hslot : ∀ f, slot = some f → e.inflight = some f ∨
      f.token = entry.token ∧ f.triggered = entry.triggered) :
    Gated ({ e with queue := xs ++ ys, inflight := slot }.note (.sent id entry)) := by
  have hmem : entry ∈ e.queue := by
    rw [hq]
    exact List.mem_append_right xs List.mem_cons_self
  refine ⟨h.role, h.enforced, ?_, fun p hp htriggered => ?_, fun f hf htriggered => ?_, ?_⟩
  · exact (bootOf_concat_of_none e.log rfl).trans h.boot
  · refine (h.queue p ?_ htriggered).append _
    rw [hq]
    rcases List.mem_append.mp hp with hp | hp
    · exact List.mem_append_left _ hp
    · exact List.mem_append_right xs (List.mem_cons_of_mem entry hp)
  · rcases hslot f hf with hf | ⟨htoken, htrig⟩
    · exact (h.slot f hf htriggered).append _
    · rw [htoken]
      exact (h.queue entry hmem (htrig ▸ htriggered)).append _
  · exact h.sent.concat (h.letOut hmem hclear id)

/-- **Every move keeps the gate.** -/
theorem Gated.move {e e' : Engine S} (hmove : Move e e') (h : e.Gated) : e'.Gated := by
  cases hmove with
  | aside ha => exact ha.gated h
  | tick now => exact ⟨h.role, h.enforced, h.boot, h.queue, h.slot, h.sent⟩
  | boot state ha =>
      refine ha.gated ⟨h.role, h.enforced, ?_, fun p hp htriggered => ?_,
        fun f hf htriggered => ?_, ?_⟩
      · exact bootOf_concat_report e.log state
      · exact (h.queue p hp htriggered).append _
      · exact (h.slot f hf htriggered).append _
      · refine h.sent.concat ?_
        trivial
  | accept entry htoken hfresh ha =>
      refine ha.gated ⟨h.role, h.enforced, ?_, fun p hp htriggered => ?_,
        fun f hf htriggered => ?_, ?_⟩
      · refine (bootOf_concat_of_none e.log ?_).trans h.boot
        rfl
      · rcases List.mem_append.mp hp with hp | hp
        · exact (h.queue p hp htriggered).append _
        · obtain rfl := List.mem_singleton.mp hp
          exact ⟨p, List.mem_append_right _ (List.mem_singleton_self _), rfl, htriggered⟩
      · exact (h.slot f hf htriggered).append _
      · refine h.sent.concat ?_
        trivial
  | drop queue hsub ha =>
      refine ha.gated ⟨h.role, h.enforced, h.boot, fun p hp htriggered => ?_, h.slot, h.sent⟩
      exact h.queue p (hsub.subset hp) htriggered
  | sendUnconfirmed id xs entry ys hq hclear ha =>
      exact ha.gated (h.note_sent hq hclear fun f hf => Or.inl hf)
  | sendCall id deadline xs entry ys hq hclear hfree ha =>
      refine ha.gated (h.note_sent hq hclear fun f hf => Or.inr ?_)
      obtain rfl := Option.some.inj hf
      exact ⟨rfl, rfl⟩
  | requeue f hf htx hretry ha =>
      refine ha.gated ⟨h.role, h.enforced, h.boot, fun p hp htriggered => ?_,
        fun f hf => absurd hf (by simp), h.sent⟩
      rcases List.mem_cons.mp hp with rfl | hp
      · exact h.slot f hf htriggered
      · exact h.queue p hp htriggered
  | exhaust f hf htx hretry ha =>
      have hfree : Gated { e with inflight := none } :=
        ⟨h.role, h.enforced, h.boot, h.queue, fun f hf => absurd hf (by simp), h.sent⟩
      obtain ⟨hrole, henforced, hboot, hqueue, hslot, hsent⟩ := ha.gated hfree
      refine ⟨hrole, henforced, ?_, fun p hp htriggered => ?_, fun f hf htriggered => ?_, ?_⟩
      · refine (bootOf_concat_of_none _ ?_).trans hboot
        rfl
      · exact (hqueue p hp htriggered).append _
      · exact (hslot f hf htriggered).append _
      · refine hsent.concat ?_
        trivial
  | free f hf ha =>
      exact ha.gated ⟨h.role, h.enforced, h.boot, h.queue, fun f hf => absurd hf (by simp),
        h.sent⟩

end Engine

open Engine

variable {S : Type} [MessageStore S]

/-- **Before it is accepted, a station that gates its traffic sends nothing but what boots it
and what it was asked for**: wherever a `CALL` or a `SEND` is written while the boot state is
not `Accepted`, it is a `BootNotification` or was accepted as asked for. The boot state is the
one last reported, and the texts on the wire are those of the frames that are marked. -/
theorem station_gated {config : EngineConfig} {store : S} {ids : ℕ → MessageId} {e₀ : Engine S}
    (h : Engine.withStore config store ids = .ok e₀) (hrole : config.role = .chargingStation)
    (henforced : config.enforceBootGate = true) (ops : List Op) :
    bootOf (run e₀ ops).log = (run e₀ ops).boot ∧
    (∀ before id entry after, (run e₀ ops).log = before ++ .sent id entry :: after →
      bootOf before ≠ .accepted → entry.action = "BootNotification" ∨
        ∃ asked, .accepted asked ∈ before ∧ asked.token = entry.token ∧
          asked.triggered = true) ∧
    AtEach e₀ ops fun e op => Marked (exec e op).version (newEvents e op) := by
  have hgated : (run e₀ ops).Gated := by
    refine Moves.invariant Engine.Gated (fun _ _ => Engine.Gated.move) (moves_of_withStore h ops) ?_
    refine ⟨hrole, henforced, rfl, fun p hp => absurd hp List.not_mem_nil,
      fun f hf => absurd hf (by simp [fresh]), along_nil _⟩
  refine ⟨hgated.boot, fun before id entry after hlog => ?_, fun before op _ _ => ?_⟩
  · exact hgated.sent before (.sent id entry) after hlog
  · exact (newEvents_effect (run e₀ before) op).2

end OcppKit

namespace OcppKit.Reference

/-! ### A run -/

/-- A station is asked for its status before it is accepted, and has a message of its own
waiting. -/
def gatedRun : List Op :=
  [.handle 1 (.connected .v2_0_1), .callWith 1 "Heartbeat" .emptyObject {},
    .callWith 1 "BootNotification" .emptyObject {},
    .handle 2 (.received "[3,\"s0\",\x7b\"status\":\"Pending\",\"interval\":60\x7d]"),
    .callWith 3 "StatusNotification" .emptyObject { triggered := true }]

theorem station_gated_gatedRun :
    bootOf (run (station .v2_0_1) gatedRun).log = .pending ∧
    ∀ before id entry after,
      (run (station .v2_0_1) gatedRun).log = before ++ .sent id entry :: after →
      bootOf before ≠ .accepted → entry.action = "BootNotification" ∨
        ∃ asked, .accepted asked ∈ before ∧ asked.token = entry.token ∧
          asked.triggered = true := by
  obtain ⟨hboot, hsent, -⟩ := station_gated (withStore_station .v2_0_1) rfl rfl gatedRun
  have hpending : (run (station .v2_0_1) gatedRun).boot = .pending := by decide +kernel
  exact ⟨hboot.trans hpending, hsent⟩

end OcppKit.Reference
