import OcppKit.Engine.Settle

/-!
# What becomes of a frame

The two ways in which an inbound frame can ask for an answer. A `CALL` or a `SEND`
is refused, dropped or delivered: `OcppKit.Engine.Receives`, with the reasons for a
refusal in `OcppKit.Engine.Refusal`. A text that is no frame is answered, or not, as
`OcppKit.FrameError.reply` says: `OcppKit.Engine.onMalformed_cases`.
-/

namespace OcppKit

variable [Externals]

namespace Engine

variable {S : Type}

/-! ### Refusing and delivering -/

/-- **Why a call is refused**, and with which error. -/
inductive Refusal (e : Engine S) (id : MessageId) (action : String) (received : MessageKind) :
    CallError → Prop
  /-- This version does not know the action. -/
  | unknown : Actions.kind e.version action = none →
      Refusal e id action received (.notImplemented action)
  /-- A `SEND` action arrived as a `CALL`, or the other way round. -/
  | wrongKind (expected : MessageKind) : Actions.kind e.version action = some expected →
      expected ≠ received → Refusal e id action received (.new .protocolError
        (action ++ " is a " ++ expected.debug ++ " message, not a " ++ received.debug ++
          " message"))
  /-- The peer may not originate the action. -/
  | wrongDirection :
      allows ((Actions.origin e.version action).getD .both) e.config.role.receives = false →
      Refusal e id action received (.notSupported action)
  /-- The id is already being handled. -/
  | duplicate : received = .call → id ∈ e.peerInflight →
      Refusal e id action received (.new .rpcFrameworkError
        "a CALL with this MessageId is already being handled (Part 4 §4.2.3)")
  /-- The peer has a call outstanding, and this is one too many. -/
  | concurrent : received = .call → e.peerInflight ≠ ∅ →
      (e.config.maxPeerRequests ≤ e.peerInflight.card ∨
        e.config.inboundConcurrency = .reject) →
      Refusal e id action received (.new .protocolError
        "a CALL is already outstanding in this direction (Part 4 §4.1.1)")
  /-- The boot gate is closed. -/
  | gated : e.gated action = true → Refusal e id action received (.security
      (action ++ " is not allowed while the charging station is " ++ e.boot.debug ++
        " (B02.FR.09)"))

/-- The reasons look at the configuration, the version, the ids the peer waits on, the
boot state and what was solicited. -/
theorem Refusal.of_eq {e e₀ : Engine S} {id : MessageId} {action : String}
    {received : MessageKind} {error : CallError} (h : Refusal e id action received error)
    (hconfig : e.config = e₀.config) (hversion : e.version = e₀.version)
    (hpeer : e.peerInflight = e₀.peerInflight) (hboot : e.boot = e₀.boot)
    (hgate : e.gated action = e₀.gated action) : Refusal e₀ id action received error := by
  cases h with
  | unknown h => exact .unknown (hversion ▸ h)
  | wrongKind expected h hne => exact .wrongKind expected (hversion ▸ h) hne
  | wrongDirection h => exact .wrongDirection (hconfig ▸ hversion ▸ h)
  | duplicate hcall h => exact .duplicate hcall (hpeer ▸ h)
  | concurrent hcall h hmax => exact .concurrent hcall (hpeer ▸ h) (hpeer ▸ hconfig ▸ hmax)
  | gated h => exact hboot ▸ .gated (hgate ▸ h)

/-- **Nothing speaks against it.** -/
def Welcome (e : Engine S) (id : MessageId) (action : String) (received : MessageKind) : Prop :=
  ∀ error, ¬Refusal e id action received error

section

variable {e : Engine S} {id : MessageId} {action : String} {received : MessageKind}

/-- What is welcome has the kind of its action. -/
theorem Welcome.kind (h : e.Welcome id action received) :
    Actions.kind e.version action = some received := by
  rcases hkind : Actions.kind e.version action with _ | expected
  · exact absurd (.unknown hkind) (h _)
  · by_contra hne
    exact h _ (.wrongKind expected hkind fun he => hne (congrArg some he))

/-- What is welcome is let through by the gate. -/
theorem Welcome.gate (h : e.Welcome id action received) : e.gated action = false :=
  Bool.eq_false_of_not_eq_true fun hgate => h _ (.gated hgate)

/-- A call that is welcome has an id of its own. -/
theorem Welcome.id_notMem (h : e.Welcome id action .call) : id ∉ e.peerInflight :=
  fun hmem => h _ (.duplicate rfl hmem)

/-- For a call that is welcome there is room. -/
theorem Welcome.room (h : e.Welcome id action .call) :
    e.peerInflight = ∅ ∨ e.peerInflight.card < e.config.maxPeerRequests := by
  by_contra hfull
  obtain ⟨hne, hmax⟩ := not_or.mp hfull
  exact h _ (.concurrent rfl hne (Or.inl (not_lt.mp hmax)))

end

/-- The engine after a request has been handed to the application. -/
def delivered (e : Engine S) (id : MessageId) (action : String) (payload : RawValue)
    (received : MessageKind) : Engine S :=
  { e with
    boot := if e.config.role = Role.csms ∧ action = "BootNotification" then .idle else e.boot
    peerInflight :=
      if received = MessageKind.call then insert id e.peerInflight else e.peerInflight }.emit
    (.request { id := id, action := action, payload := payload, kind := received })

/-- **What becomes of a `CALL` or a `SEND`**: it is refused, or – a `SEND` that would
be refused – dropped, or delivered. The reports on the way are in the first state
of each case. -/
inductive Receives (e : Engine S) (id : MessageId) (action : String) (payload : RawValue)
    (received : MessageKind) : Engine S → Prop
  /-- It is refused. -/
  | refused (e₁ : Engine S) (error : CallError) : received = .call → Reports e e₁ [] →
      Refusal e id action received error →
      Receives e id action payload received
        ((e₁.note (.rejected id error)).transmit (.callError id error.toRef))
  /-- It is dropped. -/
  | dropped (e₁ : Engine S) (error : CallError) : received = .send → Reports e e₁ [] →
      Refusal e id action received error → Receives e id action payload received e₁
  /-- It is delivered. -/
  | delivered (e₁ : Engine S) : Reports e e₁ [] → e.Welcome id action received →
      Receives e id action payload received (e₁.delivered id action payload received)

theorem receives_reject {e e₁ : Engine S} {id : MessageId} {action : String}
    {received : MessageKind} {error : CallError} (payload : RawValue) (hr : Reports e e₁ [])
    (h : Refusal e id action received error) :
    Receives e id action payload received (e₁.reject id received error) := by
  rcases received with _ | _
  · exact Receives.refused e₁ error rfl hr h
  · exact Receives.dropped e₁ error rfl hr h

theorem Reports.gated {e e₁ : Engine S} (h : Reports e e₁ []) (action : String) :
    e₁.gated action = e.gated action := by
  rw [Engine.gated, Engine.gated, h.solicited, show e₁.config = e.config from
    congrArg Setting.config h.setting, show e₁.boot = e.boot from congrArg Setting.boot h.setting]

theorem receives_deliver {e e₁ : Engine S} {id : MessageId} {action : String}
    {received : MessageKind} (payload : RawValue) (hr : Reports e e₁ [])
    (hwelcome : e.gated action = false → e.Welcome id action received) :
    Receives e id action payload received (e₁.deliver id action payload received) := by
  have hboot : e₁.boot = e.boot := congrArg Setting.boot hr.setting
  rw [deliver]
  split
  · next h => exact receives_reject payload hr (hboot ▸ .gated (hr.gated action ▸ h))
  · next h =>
    have hgate : e.gated action = false := by
      rw [← hr.gated]
      simpa using h
    have hd : Receives e id action payload received (e₁.delivered id action payload received) :=
      Receives.delivered e₁ hr (hwelcome hgate)
    convert hd using 1
    simp only [delivered]
    split <;> split <;> rfl

/-- What `admission` lets through, and why it refuses the rest. -/
theorem admission_cases (e : Engine S) (id : MessageId) (action : String) :
    (∃ error e₁, e.admission id = (some error, e₁) ∧ Reports e e₁ [] ∧
      Refusal e id action .call error) ∨
    ∃ e₁, e.admission id = (none, e₁) ∧ Reports e e₁ [] ∧ id ∉ e.peerInflight ∧
      ¬(e.peerInflight ≠ ∅ ∧ (e.config.maxPeerRequests ≤ e.peerInflight.card ∨
        e.config.inboundConcurrency = .reject)) := by
  rw [admission]
  split
  · next h => exact Or.inl ⟨_, _, rfl, reports_violate e _, .duplicate rfl h⟩
  · next hid =>
    split
    · next h => exact Or.inr ⟨e, rfl, Reports.refl e, hid, fun hne => hne.1 h⟩
    · next hne =>
      have hr := reports_violate e (.concurrentCall id)
      by_cases hmax : e.config.maxPeerRequests ≤ e.peerInflight.card
      · have hr' := hr.trans (reports_violate (e.violate (.concurrentCall id))
          (.tooManyPeerRequests id))
        refine Or.inl ⟨_, _, ?_, hr', .concurrent rfl hne (Or.inl hmax)⟩
        simp [violate, emit, hmax]
      · by_cases hpol : e.config.inboundConcurrency = .reject
        · refine Or.inl ⟨_, _, ?_, hr, .concurrent rfl hne (Or.inr hpol)⟩
          simp [violate, emit, hmax, hpol]
        · refine Or.inr ⟨_, ?_, hr, hid, fun h => ?_⟩
          · simp [violate, emit, hmax, hpol]
          · rcases h.2 with h | h
            · exact hmax h
            · exact hpol h

/-- **Every `CALL` and every `SEND` is refused, dropped or delivered.** -/
theorem receives_onCall (e : Engine S) (id : MessageId) (action : String) (payload : RawValue)
    (received : MessageKind) :
    Receives e id action payload received (e.onCall id action payload received) := by
  rw [onCall]
  split
  · next h => exact receives_reject payload (Reports.refl e) (.unknown h)
  · next expected hkind =>
    split
    · next h => exact receives_reject payload (reports_violate e _) (.wrongKind expected hkind h)
    · next h =>
      obtain rfl : expected = received := by simpa using h
      split
      · next h => exact receives_reject payload (reports_violate e _) (.wrongDirection h)
      · next hdir =>
        split
        · next h =>
          obtain rfl := h
          rcases admission_cases e id action with
            ⟨error, e₁, ha, hr, hwhy⟩ | ⟨e₁, ha, hr, hid, hroom⟩
          · rw [ha]
            exact receives_reject payload hr hwhy
          · rw [ha]
            refine receives_deliver payload hr fun hgate error hwhy => ?_
            cases hwhy with
            | unknown h => exact absurd (h.symm.trans hkind) (by simp)
            | wrongKind expected h hne => exact hne (Option.some.inj (h.symm.trans hkind))
            | wrongDirection h => exact hdir h
            | duplicate _ h => exact hid h
            | concurrent _ h hmax => exact hroom ⟨h, hmax⟩
            | gated h => exact absurd (h.symm.trans hgate) (by simp)
        · next hsend =>
          refine receives_deliver payload (Reports.refl e) fun hgate error hwhy => ?_
          cases hwhy with
          | unknown h => exact absurd (h.symm.trans hkind) (by simp)
          | wrongKind expected h hne => exact hne (Option.some.inj (h.symm.trans hkind))
          | wrongDirection h => exact hdir h
          | duplicate h _ => exact hsend h
          | concurrent h _ _ => exact hsend h
          | gated h => exact absurd (h.symm.trans hgate) (by simp)

/-! ### Texts that are no frame -/

/-- The error a text that is no frame is answered with. -/
def malformedAnswer (error : FrameError) : CallError :=
  .new error.errorCode "frame could not be processed"

/-- The error a result that is no frame is answered with. -/
def malformedResultAnswer (error : FrameError) : CallError :=
  .new error.errorCode "result could not be processed"

/-- **A text that is no frame** is ignored, or answered under one of two marks. -/
theorem onMalformed_cases (e : Engine S) (error : FrameError) :
    ∃ e₁, Reports e e₁ [] ∧
      ((error.reply e.version = .ignore ∧ e.onMalformed error = e₁) ∨
      (error.reply e.version = .callError ∧ e.onMalformed error =
        (e₁.note (.rejected error.replyId (malformedAnswer error))).transmit
          (.callError error.replyId (malformedAnswer error).toRef)) ∨
      (error.reply e.version = .callResultError ∧ e.onMalformed error =
        (e₁.note (.resultRejected error.replyId (malformedResultAnswer error))).transmit
          (.callResultError error.replyId (malformedResultAnswer error).toRef))) := by
  refine ⟨e.violate error.violation, reports_violate e _, ?_⟩
  rw [onMalformed]
  rcases error.reply e.version with _ | _ | _
  · exact Or.inl ⟨rfl, rfl⟩
  · exact Or.inr (Or.inl ⟨rfl, rfl⟩)
  · exact Or.inr (Or.inr ⟨rfl, rfl⟩)

end Engine

end OcppKit
