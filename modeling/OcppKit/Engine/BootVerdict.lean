import OcppKit.Engine.Inbound

/-!
# The verdict a CSMS gives

A CSMS reads its own verdict out of every answer it gives, whatever was asked.
`OcppKit.respond_keepsGate_iff`: along a run, answers to anything but a
`BootNotification` leave the boot state and the gate alone exactly when their payloads
carry no verdict, or the one that stands.
-/

namespace OcppKit

variable [Externals]

open Engine

variable {S : Type} [MessageStore S]

/-! ### One answer -/

/-- What the gate lets through is the same in both states. -/
def SameGate (e e' : Engine S) : Prop :=
  e'.boot = e.boot ∧ ∀ action, e'.gated action = e.gated action

/-- An answer to anything but a `BootNotification` leaves the gate as it is. -/
def RespondKeepsGate (e : Engine S) (op : Op) : Prop :=
  ∀ now id payload, op = .respond now id payload → (peerView e.log).awaitsBoot id = false →
    SameGate e (exec e op)

/-- An answer to anything but a `BootNotification` carries no verdict, or the one that
stands. -/
def NoOtherVerdict (e : Engine S) (op : Op) : Prop :=
  ∀ now id payload, op = .respond now id payload → (peerView e.log).awaitsBoot id = false →
    id ∈ e.peerInflight → bootVerdict payload = none ∨ bootVerdict payload = some e.boot

theorem respond_solicited (e : Engine S) (now : Instant) (id : MessageId) (payload : RawValue) :
    (e.respond now id payload).2.solicited = e.solicited := by
  rw [respond]
  rcases takePeerRequest_cases (e.advance now) id with ⟨error, h⟩ | h
  · rw [h]
    rfl
  · rw [h]
    refine Eq.trans (writes_note_transmit _ _ _).solicited ?_
    split
    · exact (reports_observeBootAnswer _ payload).solicited
    · rfl

/-- What an answer does to the boot state of a CSMS. -/
theorem boot_respond {e : Engine S} (hrole : e.config.role = .csms) (now : Instant)
    (id : MessageId) (payload : RawValue) :
    (exec e (.respond now id payload)).config = e.config ∧
      (exec e (.respond now id payload)).boot =
        if id ∈ e.peerInflight then (bootVerdict payload).getD e.boot else e.boot := by
  have heffect := (newEvents_effect e (.respond now id payload)).1
  rw [show (exec e (.respond now id payload)).config =
      (exec e (.respond now id payload)).setting.config from rfl,
    show (exec e (.respond now id payload)).boot =
      (exec e (.respond now id payload)).setting.boot from rfl]
  generalize (exec e (.respond now id payload)).setting = s at heffect
  generalize foreign (newEvents e (.respond now id payload)) = left at heffect
  cases heffect with
  | responded _ _ _ hmem => exact ⟨rfl, by rw [if_pos hmem, if_pos hrole]⟩
  | notResponded _ _ _ hnot => exact ⟨rfl, (if_neg hnot).symm⟩

theorem respondKeepsGate_iff {e : Engine S} (hrole : e.config.role = .csms) (op : Op) :
    RespondKeepsGate e op ↔ NoOtherVerdict e op := by
  constructor
  · rintro h now id payload rfl hother hmem
    obtain ⟨-, hboot⟩ := boot_respond hrole now id payload
    rw [(h now id payload rfl hother).1, if_pos hmem] at hboot
    rcases hv : bootVerdict payload with _ | verdict
    · exact Or.inl rfl
    · rw [hv, Option.getD_some] at hboot
      exact Or.inr (congrArg some hboot.symm)
  · rintro h now id payload rfl hother
    obtain ⟨hconfig, hboot⟩ := boot_respond hrole now id payload
    have hkeep : (exec e (.respond now id payload)).boot = e.boot := by
      rw [hboot]
      split
      · next hmem =>
        rcases h now id payload rfl hother hmem with hv | hv <;> rw [hv] <;> rfl
      · rfl
    refine ⟨hkeep, fun action => ?_⟩
    rw [gated, gated, hconfig, hkeep, show (exec e (.respond now id payload)).solicited =
      e.solicited from respond_solicited e now id payload]

/-- **A CSMS learns its verdict from whatever it answers**: along a run, answers to
anything but a `BootNotification` leave the gate alone exactly when their payloads
carry no verdict, or the one that stands. -/
theorem respond_keepsGate_iff {config : EngineConfig} {store : S} {ids : ℕ → MessageId}
    {e₀ : Engine S} (h : Engine.withStore config store ids = .ok e₀)
    (hrole : config.role = .csms) (ops : List Op) :
    AtEach e₀ ops RespondKeepsGate ↔ AtEach e₀ ops NoOtherVerdict := by
  refine atEach_congr fun before op after _ => respondKeepsGate_iff ?_ op
  obtain ⟨timeout, hconfig⟩ := config_run h before
  rw [hconfig]
  exact hrole

end OcppKit

/-! ### A run -/

namespace OcppKit.Reference

/-- The payload of an answer that many actions have. -/
def acceptedPayload : RawValue := raw "\x7b\"status\":\"Accepted\"\x7d"

/-- A station that has not booted sends data, and is answered that it was accepted. -/
def dataRun : List Op :=
  [.handle 1 (.connected .v2_0_1),
    .handle 2 (.received "[2,\"s0\",\"DataTransfer\",\x7b\"vendorId\":\"v\"\x7d]"),
    .respond 3 ⟨"s0"⟩ acceptedPayload]

/-- **The answer to a `DataTransfer` accepts the station.** -/
theorem respond_opensGate :
    (run (csms .v2_0_1) dataRun).boot = .accepted ∧
      ¬AtEach (csms .v2_0_1) dataRun RespondKeepsGate := by
  refine ⟨by decide +kernel, fun h => ?_⟩
  have hstep := h (dataRun.take 2) (.respond 3 ⟨"s0"⟩ acceptedPayload) [] rfl 3 ⟨"s0"⟩
    acceptedPayload rfl (by decide +kernel)
  exact absurd hstep.1 (by decide +kernel)

/-- The same answer to the same request, once the station has been accepted. -/
def bootedDataRun : List Op :=
  [.handle 1 (.connected .v2_0_1), .handle 2 (.received "[2,\"s0\",\"BootNotification\",{}]"),
    .respond 3 ⟨"s0"⟩ acceptedPayload,
    .handle 4 (.received "[2,\"s1\",\"DataTransfer\",\x7b\"vendorId\":\"v\"\x7d]"),
    .respond 5 ⟨"s1"⟩ acceptedPayload]

theorem respond_keepsGate_iff_bootedDataRun :
    AtEach (csms .v2_0_1) bootedDataRun RespondKeepsGate := by
  refine (respond_keepsGate_iff (withStore_csms .v2_0_1) rfl bootedDataRun).mpr ?_
  simp only [bootedDataRun, atEach_cons]
  refine ⟨?_, ?_, ?_, ?_, ?_, atEach_nil _ _⟩
  · rintro _ _ _ ⟨⟩
  · rintro _ _ _ ⟨⟩
  · rintro _ _ _ ⟨⟩ hother
    exact absurd hother (by decide +kernel)
  · rintro _ _ _ ⟨⟩
  · rintro _ _ _ ⟨⟩ - -
    exact Or.inr (by decide +kernel)

end OcppKit.Reference
