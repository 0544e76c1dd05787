import OcppKit.Engine.Inbound

/-!
# The gate of a CSMS

A CSMS forgets the verdict it gave as soon as another `BootNotification` arrives, before
that one is answered. `OcppKit.gate_holds_iff`: along a run in which only answers to a
`BootNotification` carry verdicts, the gate holds after a verdict other than `Accepted`
exactly when every call it is to stop arrives before the next `BootNotification`, or is
refused for another reason.

The boot state of a CSMS is a function of its history, `OcppKit.PeerView.boot`; that is
the invariant of the runs here.
-/

namespace OcppKit

variable [Externals]

open Engine

variable {S : Type} [MessageStore S]

/-! ### The boot state of a CSMS -/

/-- Only answers to a `BootNotification` carry a verdict. -/
def OnlyBootVerdicts (e : Engine S) (op : Op) : Prop :=
  ∀ now id payload, op = .respond now id payload → id ∈ e.peerInflight →
    (peerView e.log).awaitsBoot id = true ∨ bootVerdict payload = none

/-- The boot state a CSMS is in, from its history: the verdict it gave last, unless
another `BootNotification` has been delivered since. -/
def PeerView.boot (v : PeerView) : BootState := if v.reopened then .idle else v.verdict.getD .idle

/-- What ties the boot state of a CSMS to its history. -/
structure CsmsBoot (e : Engine S) : Prop where
  /-- It is a CSMS. -/
  role : e.config.role = .csms
  /-- It has no boot timer. -/
  retry : e.bootRetryAt = none
  /-- The boot state is that of the history. -/
  boot : e.boot = (peerView e.log).boot

theorem csmsBoot_exec {e : Engine S} {op : Op} (h : OnlyBootVerdicts e op) (hc : CsmsBoot e) :
    CsmsBoot (exec e op) := by
  obtain ⟨hrole, hretry, hboot⟩ := hc
  have heffect := (newEvents_effect e op).1
  have hrole' : (exec e op).config.role = .csms := by
    obtain ⟨timeout, hconfig⟩ := config_exec e op
    rw [hconfig]
    exact hrole
  suffices hs : (exec e op).setting.bootRetryAt = none ∧
      (exec e op).setting.boot = (peerView (exec e op).log).boot from ⟨hrole', hs.1, hs.2⟩
  rw [peerView_exec]
  generalize (exec e op).setting = s at heffect
  generalize foreign (newEvents e op) = left at heffect
  cases heffect with
  | bootRetry now hdue =>
      obtain ⟨at_, hsome, -⟩ := hdue
      exact absurd (hsome.symm.trans hretry) (by simp)
  | malformed now text error _ =>
      refine ⟨hretry, ?_⟩
      simp only [replyMarks]
      split <;> exact hboot
  | delivered now text id action payload kind _ _ =>
      refine ⟨hretry, ?_⟩
      by_cases haction : action = "BootNotification"
      · simp [hrole, haction, PeerView.next, PeerView.boot]
      · simp only [haction, and_false, if_false, List.foldl_cons, List.foldl_nil, PeerView.next,
          PeerView.boot, decide_false, Bool.or_false]
        exact hboot
  | answered now text f payload r _ _ hr =>
      have hno : ¬(f.action = "BootNotification" ∧ e.config.role = .chargingStation) := by
        rw [hrole]
        simp
      refine ⟨(hr hno).trans hretry, ?_⟩
      simp only [bootAfter, if_neg hno]
      exact hboot
  | responded now id payload hmem =>
      refine ⟨hretry, ?_⟩
      simp only [hrole, if_true, List.foldl_cons, List.foldl_nil, PeerView.next, PeerView.answer]
      rcases h now id payload rfl hmem with hawaits | hnone
      · rw [if_pos hawaits]
        rcases bootVerdict payload with _ | verdict
        · exact hboot
        · rfl
      · rw [hnone, ite_self]
        exact hboot
  | _ => exact ⟨hretry, hboot⟩

theorem csmsBoot_run {config : EngineConfig} {store : S} {ids : ℕ → MessageId}
    {e₀ : Engine S} (h : Engine.withStore config store ids = .ok e₀)
    (hrole : config.role = .csms) {ops : List Op} (honly : AtEach e₀ ops OnlyBootVerdicts) :
    CsmsBoot (run e₀ ops) := by
  refine honly.invariant CsmsBoot (fun e op hop he => csmsBoot_exec hop he) ?_
  have hset := setting_withStore h
  refine ⟨?_, congrArg Setting.bootRetryAt hset, ?_⟩
  · rw [show e₀.config = config from congrArg Setting.config hset]
    exact hrole
  · rw [peerView_withStore h, show e₀.boot = .idle from congrArg Setting.boot hset]
    rfl

/-! ### The gate -/

/-- What refuses a call when the gate does not: its action is unknown, of another
kind or not the peer's to send, its id is taken, or it is one too many. -/
def RefusedAnyway (e : Engine S) (id : MessageId) (action : String) : Prop :=
  ∃ error, Refusal { e with boot := .idle } id action .call error

/-- An ordinary call arrives, unsolicited, while the verdict that was given last is not
`Accepted`. -/
def Gated (e : Engine S) (op : Op) (id : MessageId) (action : String) : Prop :=
  (∃ now text payload, op = .handle now (.received text) ∧
    Frame.parse text e.version = .ok (.call id action payload)) ∧
  action ≠ "BootNotification" ∧ action ∉ e.solicited ∧
  ((peerView e.log).verdict = some .pending ∨ (peerView e.log).verdict = some .rejected)

/-- Such a call is not delivered, and is answered with an error: `SecurityError`,
unless it is refused anyway. -/
def GateHolds (e : Engine S) (op : Op) : Prop :=
  ∀ id action, Gated e op id action → requests (newEvents e op) = [] ∧
    ∃ error, .rejected id error ∈ newEvents e op ∧
      (RefusedAnyway e id action ∨ error.code = .securityError)

/-- No `BootNotification` has been delivered since the verdict, or the call is refused
anyway. -/
def VerdictStands (e : Engine S) (op : Op) : Prop :=
  ∀ id action, Gated e op id action →
    (peerView e.log).reopened = false ∨ RefusedAnyway e id action

omit [MessageStore S] in
/-- A refusal is the gate's, or has another reason. -/
theorem refusedAnyway_or {e : Engine S} {id : MessageId} {action : String} {error : CallError}
    (h : Refusal e id action .call error) :
    RefusedAnyway e id action ∨ e.gated action = true ∧ error.code = .securityError := by
  cases h with
  | unknown h => exact Or.inl ⟨_, .unknown h⟩
  | wrongKind expected h hne => exact Or.inl ⟨_, .wrongKind expected h hne⟩
  | wrongDirection h => exact Or.inl ⟨_, .wrongDirection h⟩
  | duplicate hcall h => exact Or.inl ⟨_, .duplicate hcall h⟩
  | concurrent hcall h hmax => exact Or.inl ⟨_, .concurrent hcall h hmax⟩
  | gated h => exact Or.inr ⟨h, rfl⟩

omit [MessageStore S] in
/-- What is refused anyway is not welcome. -/
theorem not_welcome {e : Engine S} {id : MessageId} {action : String}
    (h : RefusedAnyway e id action) : ¬e.Welcome id action .call := by
  rintro hwelcome
  obtain ⟨error, hwhy⟩ := h
  cases hwhy with
  | unknown h => exact hwelcome _ (.unknown h)
  | wrongKind expected h hne => exact hwelcome _ (.wrongKind expected h hne)
  | wrongDirection h => exact hwelcome _ (.wrongDirection h)
  | duplicate hcall h => exact hwelcome _ (.duplicate hcall h)
  | concurrent hcall h hmax => exact hwelcome _ (.concurrent hcall h hmax)
  | gated h => exact absurd h (by simp [gated, BootState.blocksUnsolicitedTraffic])

omit [MessageStore S] in
/-- Whether the gate is closed to an ordinary, unsolicited call. -/
theorem gated_iff {e : Engine S} (hc : CsmsBoot e) (hgate : e.config.enforceBootGate = true)
    {action : String} (haction : action ≠ "BootNotification") (hsol : action ∉ e.solicited)
    (hverdict : (peerView e.log).verdict = some .pending ∨
      (peerView e.log).verdict = some .rejected) :
    e.gated action = true ↔ (peerView e.log).reopened = false := by
  have hg : e.gated action = (peerView e.log).boot.blocksUnsolicitedTraffic := by
    simp [gated, hc.role, hgate, haction, hsol, hc.boot]
  rw [hg, PeerView.boot]
  rcases (peerView e.log).reopened with _ | _
  · rcases hverdict with hv | hv <;> simp [hv, BootState.blocksUnsolicitedTraffic]
  · simp [BootState.blocksUnsolicitedTraffic]

theorem gateHolds_iff {e : Engine S} (hc : CsmsBoot e)
    (hgate : e.config.enforceBootGate = true) (op : Op) : GateHolds e op ↔ VerdictStands e op := by
  refine forall_congr' fun id => forall_congr' fun action => forall_congr' fun hg => ?_
  obtain ⟨⟨now, text, payload, rfl, hparse⟩, haction, hsol, hverdict⟩ := hg
  have hclosed := gated_iff hc hgate haction hsol hverdict
  rw [← hclosed]
  have heffect := (newEvents_effect e (.handle now (.received text))).1
  have hsub : ∀ event, event ∈ foreign (newEvents e (.handle now (.received text))) →
      event ∈ newEvents e (.handle now (.received text)) := fun _ h => List.mem_of_mem_filter h
  rw [← requests_foreign]
  generalize (exec e (.handle now (.received text))).setting = s at heffect
  generalize foreign (newEvents e (.handle now (.received text))) = left at heffect hsub
  cases heffect with
  | refused _ _ id' action' payload' error hparse' hwhy =>
      obtain ⟨rfl, rfl, rfl⟩ : id = id' ∧ action = action' ∧ payload = payload' := by
        simpa using hparse.symm.trans hparse'
      have hreason := refusedAnyway_or hwhy
      refine iff_of_true ⟨rfl, error, hsub _ (by simp), ?_⟩ ?_
      · exact hreason.imp_right And.right
      · exact (hreason.imp_right And.left).symm
  | delivered _ _ id' action' payload' kind hparse' hwelcome =>
      refine iff_of_false (fun h => absurd h.1 (by simp [requests])) ?_
      rcases kind with _ | _
      · obtain ⟨rfl, rfl, rfl⟩ : id = id' ∧ action = action' ∧ payload = payload' := by
          simpa [requestFrame] using hparse.symm.trans hparse'
        rintro (hshut | hanyway)
        · exact absurd (hshut.symm.trans hwelcome.gate) (by simp)
        · exact not_welcome hanyway hwelcome
      · exact absurd (hparse.symm.trans hparse') (by simp [requestFrame])
  | malformed _ _ error hparse' => exact absurd (hparse.symm.trans hparse') (by simp)
  | dropped _ _ _ _ _ _ hparse' _ => exact absurd (hparse.symm.trans hparse') (by simp)
  | unexpected _ _ frame hparse' htype _ =>
      obtain rfl : Frame.call id action payload = frame :=
        Except.ok.inj (hparse.symm.trans hparse')
      simp [Frame.messageType] at htype
  | answered _ _ f _ _ hparse' _ _ => exact absurd (hparse.symm.trans hparse') (by simp)
  | answeredError _ _ f _ hparse' _ => exact absurd (hparse.symm.trans hparse') (by simp)
  | resultRejected _ _ _ _ hparse' => exact absurd (hparse.symm.trans hparse') (by simp)

/-- **A CSMS forgets its verdict when another `BootNotification` arrives**: along a run
in which only answers to a `BootNotification` carry verdicts, the gate holds exactly
when every ordinary, unsolicited call that arrives after a verdict other than
`Accepted` arrives before the next `BootNotification`, or is refused anyway. -/
theorem gate_holds_iff {config : EngineConfig} {store : S} {ids : ℕ → MessageId}
    {e₀ : Engine S} (h : Engine.withStore config store ids = .ok e₀)
    (hrole : config.role = .csms) (hgate : config.enforceBootGate = true) (ops : List Op)
    (honly : AtEach e₀ ops OnlyBootVerdicts) :
    AtEach e₀ ops GateHolds ↔ AtEach e₀ ops VerdictStands := by
  refine atEach_congr fun before op after hsplit => gateHolds_iff ?_ ?_ op
  · have honly' : AtEach e₀ (before ++ op :: after) OnlyBootVerdicts := hsplit ▸ honly
    exact csmsBoot_run h hrole honly'.of_append
  · obtain ⟨timeout, hconfig⟩ := config_run h before
    rw [hconfig]
    exact hgate

end OcppKit

/-! ### A run -/

namespace OcppKit.Reference

/-- A rejected station boots again, and does not wait for the answer. -/
def hastyRun : List Op :=
  [.handle 1 (.connected .v2_0_1), .handle 2 (.received "[2,\"s0\",\"BootNotification\",{}]"),
    .respond 3 ⟨"s0"⟩ (raw "\x7b\"status\":\"Rejected\"\x7d"),
    .handle 4 (.received "[2,\"s1\",\"BootNotification\",{}]"),
    .handle 5 (.received "[2,\"s2\",\"StatusNotification\",{}]")]

theorem onlyBootVerdicts_hastyRun : AtEach (csms .v2_0_1) hastyRun OnlyBootVerdicts := by
  simp only [hastyRun, atEach_cons]
  refine ⟨?_, ?_, ?_, ?_, ?_, atEach_nil _ _⟩
  · rintro _ _ _ ⟨⟩
  · rintro _ _ _ ⟨⟩
  · rintro _ _ _ ⟨⟩ -
    exact Or.inl (by decide +kernel)
  · rintro _ _ _ ⟨⟩
  · rintro _ _ _ ⟨⟩

/-- **The second boot request lets the next call through.** -/
theorem gate_notHolding :
    AtEach (csms .v2_0_1) hastyRun OnlyBootVerdicts ∧
      ¬AtEach (csms .v2_0_1) hastyRun GateHolds := by
  refine ⟨onlyBootVerdicts_hastyRun, fun h => ?_⟩
  have hgated : Gated (run (csms .v2_0_1) (hastyRun.take 4))
      (.handle 5 (.received "[2,\"s2\",\"StatusNotification\",{}]")) ⟨"s2"⟩
      "StatusNotification" :=
    ⟨⟨5, _, RawValue.emptyObject, rfl, by decide +kernel⟩, by decide, by decide +kernel,
      Or.inr (by decide +kernel)⟩
  exact absurd (h (hastyRun.take 4) _ [] rfl _ _ hgated).1 (by decide +kernel)

/-- Without the second boot request. -/
def patientRun : List Op :=
  [.handle 1 (.connected .v2_0_1), .handle 2 (.received "[2,\"s0\",\"BootNotification\",{}]"),
    .respond 3 ⟨"s0"⟩ (raw "\x7b\"status\":\"Rejected\"\x7d"),
    .handle 5 (.received "[2,\"s2\",\"StatusNotification\",{}]")]

theorem gate_holds_iff_patientRun : AtEach (csms .v2_0_1) patientRun GateHolds := by
  have honly : AtEach (csms .v2_0_1) patientRun OnlyBootVerdicts := by
    simp only [patientRun, atEach_cons]
    refine ⟨?_, ?_, ?_, ?_, atEach_nil _ _⟩
    · rintro _ _ _ ⟨⟩
    · rintro _ _ _ ⟨⟩
    · rintro _ _ _ ⟨⟩ -
      exact Or.inl (by decide +kernel)
    · rintro _ _ _ ⟨⟩
  refine (gate_holds_iff (withStore_csms .v2_0_1) rfl rfl patientRun honly).mpr ?_
  simp only [patientRun, atEach_cons]
  refine ⟨?_, ?_, ?_, ?_, atEach_nil _ _⟩
  · rintro _ _ ⟨⟨_, _, _, ⟨⟩, -⟩, -⟩
  · rintro _ _ ⟨-, -, -, hverdict⟩
    exact absurd hverdict (by decide +kernel)
  · rintro _ _ ⟨⟨_, _, _, ⟨⟩, -⟩, -⟩
  · exact fun _ _ _ => Or.inl (by decide +kernel)

end OcppKit.Reference
