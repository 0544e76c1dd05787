import OcppKit.Engine.Inbound

/-!
# A station that was accepted

A station does not disarm its boot timer when it is accepted. The timer of an earlier
answer, `Pending` or `Rejected`, then puts it back to `Idle`.
`OcppKit.accepted_stays_iff`: from the answer that accepts it, a station stays accepted
exactly when its boot timer does not fire.
-/

namespace OcppKit

variable [Externals]

open Engine

variable {S : Type} [MessageStore S]

/-! ### Answers to a boot request -/

/-- The operation feeds the answer to an outstanding `BootNotification`. -/
def BootResult (e : Engine S) (op : Op) : Prop :=
  ∃ now text f payload, op = .handle now (.received text) ∧
    Frame.parse text e.version = .ok (.callResult f.id payload) ∧ e.inflight = some f ∧
    f.action = "BootNotification"

/-- The operation feeds an answer that accepts the station. -/
def BootAccepted (e : Engine S) (op : Op) : Prop :=
  ∃ now text f payload, op = .handle now (.received text) ∧
    Frame.parse text e.version = .ok (.callResult f.id payload) ∧ e.inflight = some f ∧
    f.action = "BootNotification" ∧ bootVerdict payload = some .accepted

/-- **A verdict is taken over.** -/
theorem boot_of_accepted {e : Engine S} {op : Op} (hrole : e.config.role = .chargingStation)
    (h : BootAccepted e op) : (exec e op).boot = .accepted := by
  obtain ⟨now, text, f, payload, rfl, hparse, hf, haction, hverdict⟩ := h
  have heffect := (newEvents_effect e (.handle now (.received text))).1
  rw [show (exec e (.handle now (.received text))).boot =
    (exec e (.handle now (.received text))).setting.boot from rfl]
  generalize (exec e (.handle now (.received text))).setting = s at heffect
  generalize foreign (newEvents e (.handle now (.received text))) = left at heffect
  cases heffect with
  | answered _ _ g payload' _ hparse' hg _ =>
      obtain rfl : f = g := Option.some.inj (hf.symm.trans hg)
      obtain rfl : payload = payload' := by simpa using hparse.symm.trans hparse'
      rw [show e.bootAfter f.action payload = .accepted by
        rw [bootAfter, if_pos ⟨haction, hrole⟩, hverdict, Option.getD_some]]
  | malformed _ _ error hparse' => exact absurd (hparse.symm.trans hparse') (by simp)
  | refused _ _ _ _ _ _ hparse' _ => exact absurd (hparse.symm.trans hparse') (by simp)
  | dropped _ _ _ _ _ _ hparse' _ => exact absurd (hparse.symm.trans hparse') (by simp)
  | delivered _ _ _ _ _ kind hparse' _ =>
      exact absurd (hparse.symm.trans hparse') (by cases kind <;> simp [requestFrame])
  | unexpected _ _ frame hparse' _ hne =>
      obtain rfl : Frame.callResult f.id payload = frame :=
        Except.ok.inj (hparse.symm.trans hparse')
      exact absurd rfl (hne f hf)
  | answeredError _ _ g _ hparse' _ => exact absurd (hparse.symm.trans hparse') (by simp)
  | resultRejected _ _ _ _ hparse' => exact absurd (hparse.symm.trans hparse') (by simp)

/-- The boot timer does not fire in this operation. -/
def NoBootRetry (e : Engine S) (op : Op) : Prop :=
  ∀ now, op = .handle now .timeout → ¬BootRetryDue e now

/-! ### Staying accepted -/

/-- **One step of an accepted station**: unless it is given another answer to a
`BootNotification`, it stays accepted exactly when the boot timer does not fire. -/
theorem accepted_exec_iff {e : Engine S} {op : Op} (hrole : e.config.role = .chargingStation)
    (hboot : e.boot = .accepted) (hno : ¬BootResult e op) :
    (exec e op).boot = .accepted ↔ NoBootRetry e op := by
  have heffect := (newEvents_effect e op).1
  rw [show (exec e op).boot = (exec e op).setting.boot from rfl]
  generalize (exec e op).setting = s at heffect
  generalize foreign (newEvents e op) = left at heffect
  have hadvance : ∀ now, (e.advance now).boot = .accepted := fun _ => hboot
  cases heffect with
  | timeout now hdue =>
      refine iff_of_true hboot ?_
      rintro _ ⟨⟩
      exact hdue
  | bootRetry now hdue =>
      refine iff_of_false (by simp) fun h => ?_
      exact h now rfl hdue
  | delivered now text id action payload kind _ _ =>
      refine iff_of_true ?_ (by rintro _ ⟨⟩)
      simp only [hrole, reduceCtorEq, false_and, if_false]
      exact hboot
  | responded now id payload _ =>
      refine iff_of_true ?_ (by rintro _ ⟨⟩)
      simp only [hrole, reduceCtorEq, if_false]
      exact hboot
  | answered now text f payload r hparse hf _ =>
      refine iff_of_true ?_ (by rintro _ ⟨⟩)
      have haction : f.action ≠ "BootNotification" := fun haction =>
        hno ⟨now, text, f, payload, rfl, hparse, hf, haction⟩
      simp only [bootAfter, haction, false_and, if_false]
      exact hboot
  | _ => exact iff_of_true hboot (by rintro _ ⟨⟩)

/-- The station is accepted all along the run. -/
def StaysAccepted (e : Engine S) (ops : List Op) : Prop :=
  ∀ before after, ops = before ++ after → (run e before).boot = .accepted

theorem staysAccepted_iff {e : Engine S} {ops : List Op} (hrole : e.config.role = .chargingStation)
    (hboot : e.boot = .accepted) (hno : AtEach e ops fun e op => ¬BootResult e op) :
    StaysAccepted e ops ↔ AtEach e ops NoBootRetry := by
  induction ops generalizing e with
  | nil =>
      refine iff_of_true (fun before after h => ?_) (atEach_nil e _)
      obtain ⟨rfl, -⟩ := List.append_eq_nil_iff.mp h.symm
      exact hboot
  | cons op ops ih =>
      obtain ⟨hop, hops⟩ := atEach_cons.mp hno
      have hstep := accepted_exec_iff hrole hboot hop
      have hrole' : (exec e op).config.role = .chargingStation := by
        obtain ⟨timeout, hconfig⟩ := config_exec e op
        rw [hconfig]
        exact hrole
      rw [atEach_cons]
      constructor
      · intro h
        have hboot' : (exec e op).boot = .accepted := h [op] ops rfl
        refine ⟨hstep.mp hboot', (ih hrole' hboot' hops).mp fun before after he => ?_⟩
        exact h (op :: before) after (by rw [he, List.cons_append])
      · rintro ⟨hnow, hlater⟩ before after he
        rcases before with _ | ⟨op', before⟩
        · exact hboot
        · obtain ⟨rfl, hrest⟩ : op = op' ∧ ops = before ++ after := by simpa using he
          exact (ih hrole' (hstep.mpr hnow) hops).mpr hlater before after hrest

/-- **A station that was accepted stays accepted exactly when its boot timer does not
fire**: from the answer that accepts it, for as long as no other answer to a
`BootNotification` is processed. -/
theorem accepted_stays_iff {config : EngineConfig} {store : S} {ids : ℕ → MessageId}
    {e₀ : Engine S} (h : Engine.withStore config store ids = .ok e₀)
    (hrole : config.role = .chargingStation) (ops : List Op) (op : Op) (more : List Op)
    (haccepted : BootAccepted (run e₀ ops) op)
    (hno : AtEach (run e₀ (ops ++ [op])) more fun e op => ¬BootResult e op) :
    StaysAccepted (run e₀ (ops ++ [op])) more ↔ AtEach (run e₀ (ops ++ [op])) more NoBootRetry := by
  have hrole' : ∀ ops, (run e₀ ops).config.role = .chargingStation := by
    intro ops
    obtain ⟨timeout, hconfig⟩ := config_run h ops
    rw [hconfig]
    exact hrole
  refine staysAccepted_iff (hrole' _) ?_ hno
  rw [run_concat]
  exact boot_of_accepted (hrole' ops) haccepted

end OcppKit

/-! ### A run -/

namespace OcppKit.Reference

/-- The answer to a boot request, as text. -/
def pendingText : String := "[3,\"s0\",\x7b\"status\":\"Pending\",\"interval\":60\x7d]"

/-- The answer to the next one. -/
def acceptedText : String := "[3,\"s1\",\x7b\"status\":\"Accepted\",\"interval\":300\x7d]"

/-- A station is told to wait a minute, and boots again at once. -/
def impatientRun : List Op :=
  [.handle 1 (.connected .v2_0_1), .callWith 1 "BootNotification" .emptyObject {},
    .handle 2 (.received pendingText), .callWith 3 "BootNotification" .emptyObject {}]

theorem bootAccepted_impatientRun :
    BootAccepted (run (station .v2_0_1) impatientRun) (.handle 4 (.received acceptedText)) := by
  have hf : ∃ f, (run (station .v2_0_1) impatientRun).inflight = some f ∧ f.id = ⟨"s1"⟩ ∧
      f.action = "BootNotification" := by
    refine ⟨((run (station .v2_0_1) impatientRun).inflight.get (by decide +kernel)), ?_, ?_, ?_⟩ <;>
      decide +kernel
  obtain ⟨f, hf, hid, haction⟩ := hf
  refine ⟨4, acceptedText, f, raw "\x7b\"status\":\"Accepted\",\"interval\":300\x7d", rfl, ?_, hf,
    haction, ?_⟩
  · rw [hid]
    decide +kernel
  · decide +kernel

/-- **The first answer's timer ends the acceptance** the second answer gave. -/
theorem accepted_notStaying :
    BootAccepted (run (station .v2_0_1) impatientRun) (.handle 4 (.received acceptedText)) ∧
    (AtEach (run (station .v2_0_1) (impatientRun ++ [.handle 4 (.received acceptedText)]))
      [.handle 60002 .timeout] fun e op => ¬BootResult e op) ∧
    ¬StaysAccepted (run (station .v2_0_1) (impatientRun ++ [.handle 4 (.received acceptedText)]))
      [.handle 60002 .timeout] := by
  refine ⟨bootAccepted_impatientRun, atEach_cons.mpr ⟨?_, atEach_nil _ _⟩, fun h => ?_⟩
  · rintro ⟨_, _, _, _, ⟨⟩, -⟩
  · exact absurd (h [.handle 60002 .timeout] [] rfl) (by decide +kernel)

theorem accepted_stays_iff_impatientRun :
    StaysAccepted (run (station .v2_0_1) (impatientRun ++ [.handle 4 (.received acceptedText)]))
      [.handle 60001 .timeout] := by
  refine (accepted_stays_iff (withStore_station .v2_0_1) rfl impatientRun
    (.handle 4 (.received acceptedText)) [.handle 60001 .timeout] bootAccepted_impatientRun
    (atEach_cons.mpr ⟨?_, atEach_nil _ _⟩)).mpr (atEach_cons.mpr ⟨?_, atEach_nil _ _⟩)
  · rintro ⟨_, _, _, _, ⟨⟩, -⟩
  · rintro now ⟨⟩ ⟨at_, hat, hle⟩
    have hretry : (run (station .v2_0_1)
        (impatientRun ++ [.handle 4 (.received acceptedText)])).bootRetryAt = some 60002 := by
      decide +kernel
    obtain rfl : 60002 = at_ := Option.some.inj (hretry.symm.trans hat)
    exact absurd hle (by decide +kernel)

end OcppKit.Reference
