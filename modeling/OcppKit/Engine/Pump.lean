import OcppKit.Engine.Works

/-!
# What pumping leaves

A queued message may go out when its back-off is over and the boot gate lets it through,
`OcppKit.Engine.clear`, and, if it is transaction-related, when it is the oldest such message
(`OcppKit.Engine.eligible_iff`). Pumping stops for one of two reasons only: a call is
outstanding, or no message may go out: `OcppKit.Engine.not_eligible_pump`. It empties the
queue exactly when every queued message is a `SEND` that nothing holds back:
`OcppKit.Engine.pump_empties_iff`.
-/

namespace OcppKit

variable [Externals]

namespace Engine

variable {S : Type} [MessageStore S]

/-! ### What holds a message back -/

/-- **Neither its back-off nor the boot gate holds the message back.** -/
def clear (e : Engine S) (entry : Pending) : Bool :=
  !entry.notBefore.any (fun at_ => e.now < at_) &&
    (!e.config.enforceBootGate || e.config.role ≠ .chargingStation || e.boot.allowsTraffic ||
      entry.action = "BootNotification" || entry.triggered)

omit [MessageStore S] in
/-- **What may go out**: what nothing holds back, in the order of the transactions. -/
theorem eligible_iff {e : Engine S} {index : ℕ} : e.eligible index = true ↔
    ∃ entry, e.queue[index]? = some entry ∧ e.clear entry = true ∧
      (entry.transactional = true → e.oldestTransactional = some index) := by
  rw [eligible]
  rcases e.queue[index]? with _ | entry
  · simp
  · simp only [Option.some.injEq, exists_eq_left', clear]
    grind

omit [MessageStore S] in
/-- The first message of the queue is not behind another transaction-related one. -/
theorem eligible_zero {e : Engine S} {entry : Pending} {rest : List Pending}
    (hq : e.queue = entry :: rest) (hclear : e.clear entry = true) : e.eligible 0 = true := by
  refine eligible_iff.mpr ⟨entry, by rw [hq]; rfl, hclear, fun htx => ?_⟩
  rw [oldestTransactional, hq, List.findIdx?_cons, htx]
  rfl

omit [MessageStore S] in
/-- `clear` looks at the configuration, the clock and the boot state. -/
theorem clear_of_setting {e e' : Engine S} (h : e'.setting = e.setting) (entry : Pending) :
    e'.clear entry = e.clear entry := by
  rw [clear, clear, show e'.now = e.now from congrArg Setting.now h,
    show e'.config = e.config from congrArg Setting.config h,
    show e'.boot = e.boot from congrArg Setting.boot h]

/-! ### The two loops -/

/-- **What one `SEND` leaves**: it is gone from the queue, and the slot is as it was. -/
theorem sendUnconfirmed_frame (e : Engine S) (index : ℕ) (entry : Pending) :
    (e.sendUnconfirmed index entry).queue = e.queue.eraseIdx index ∧
      (e.sendUnconfirmed index entry).inflight = e.inflight ∧
      (e.sendUnconfirmed index entry).setting = e.setting := by
  simp only [sendUnconfirmed, nextId]
  let e₁ : Engine S := { e with queue := e.queue.eraseIdx index, ids := fun n => e.ids (n + 1) }
  have hwrite := writes_note_transmit e₁ (.sent (e.ids 0) entry)
    (.send (e.ids 0) entry.action entry.payload)
  have hack := reports_ackStore ((e₁.note (.sent (e.ids 0) entry)).transmit
    (.send (e.ids 0) entry.action entry.payload)) entry.seq
  exact ⟨hack.queue.trans hwrite.queue, hack.inflight.trans hwrite.inflight,
    hack.setting.trans hwrite.setting⟩

omit [MessageStore S] in
/-- **What one `CALL` leaves**: the slot is full. -/
theorem inflight_sendCall (e : Engine S) (index : ℕ) (entry : Pending) :
    (e.sendCall index entry).inflight ≠ none := by
  simp only [sendCall]
  exact Option.some_ne_none _

omit [MessageStore S] in
/-- Nothing that `nextEligible` does not find is eligible. -/
theorem not_eligible_of_nextEligible {e : Engine S} (hsend : e.nextEligible .send = none)
    (hcall : e.nextEligible .call = none) (index : ℕ) : e.eligible index = false := by
  refine Bool.eq_false_of_not_eq_true fun helig => ?_
  obtain ⟨entry, hget, -, -⟩ := eligible_iff.mp helig
  obtain ⟨hlt, -⟩ := List.getElem?_eq_some_iff.mp hget
  have hnone : ∀ kind, e.nextEligible kind = none → entry.kind ≠ kind := by
    intro kind h hkind
    have hfind := List.find?_eq_none.mp h index (List.mem_range.mpr hlt)
    exact hfind (by simp [hget, hkind, helig])
  rcases hkind : entry.kind with _ | _
  · exact hnone .call hcall hkind
  · exact hnone .send hsend hkind

/-- **The first loop stops when no `SEND` may go out**: it is given as many turns as there
are messages. -/
theorem nextEligible_pumpSends (n : ℕ) (e : Engine S) (hn : e.queue.length ≤ n) :
    (pumpSends n e).nextEligible .send = none := by
  induction n generalizing e with
  | zero =>
      have hnil : e.queue = [] := List.eq_nil_of_length_eq_zero (Nat.le_zero.mp hn)
      rw [pumpSends, nextEligible, hnil]
      rfl
  | succ n ih =>
      rw [pumpSends]
      rcases hnext : e.nextEligible .send with _ | index
      · exact hnext
      · obtain ⟨xs, entry, ys, hq, rfl, -, -⟩ := nextEligible_spec hnext
        have hget : e.queue[xs.length]? = some entry := by simp [hq]
        simp only [hget]
        refine ih _ ?_
        rw [(sendUnconfirmed_frame e xs.length entry).1, hq, eraseIdx_length]
        simp only [hq, List.length_append, List.length_cons] at hn ⊢
        omega

/-- **Pumping stops when a call is outstanding or nothing may go out.** -/
theorem not_eligible_pump {e : Engine S} (hconnected : e.connected = true)
    (hfree : e.pump.inflight = none) (index : ℕ) : e.pump.eligible index = false := by
  rw [pump, if_pos hconnected] at hfree ⊢
  have hsend := nextEligible_pumpSends e.queue.length e le_rfl
  generalize pumpSends e.queue.length e = e₁ at hsend hfree ⊢
  rw [pumpCall] at hfree ⊢
  split at hfree
  · next hbusy => exact absurd hbusy (by simp [hfree])
  next hidle =>
  rw [if_neg hidle]
  rcases hcall : e₁.nextEligible .call with _ | call
  · exact not_eligible_of_nextEligible hsend hcall index
  · obtain ⟨xs, entry, ys, hq, rfl, -, -⟩ := nextEligible_spec hcall
    have hget : e₁.queue[xs.length]? = some entry := by simp [hq]
    simp only [hcall, hget] at hfree
    exact absurd hfree (inflight_sendCall e₁ _ _)

/-! ### Emptying the queue -/

/-- The first loop leaves the slot and the setting alone. -/
theorem pumpSends_frame (n : ℕ) (e : Engine S) :
    (pumpSends n e).inflight = e.inflight ∧ (pumpSends n e).setting = e.setting := by
  induction n generalizing e with
  | zero => exact ⟨rfl, rfl⟩
  | succ n ih =>
      rw [pumpSends]
      split
      · exact ⟨rfl, rfl⟩
      split
      · exact ⟨rfl, rfl⟩
      · next index _ _ entry _ =>
        obtain ⟨-, hinflight, hsetting⟩ := sendUnconfirmed_frame e index entry
        exact ⟨(ih _).1.trans hinflight, (ih _).2.trans hsetting⟩

omit [MessageStore S] in
/-- What `nextEligible` finds may go out. -/
theorem eligible_of_nextEligible {e : Engine S} {kind : MessageKind} {index : ℕ}
    (h : e.nextEligible kind = some index) : e.eligible index = true := by
  have hfound := List.find?_some h
  simp only [Bool.and_eq_true] at hfound
  exact hfound.2

omit [MessageStore S] in
/-- With nothing queued, nothing is found. -/
theorem nextEligible_nil {e : Engine S} (h : e.queue = []) (kind : MessageKind) :
    e.nextEligible kind = none := by
  rw [nextEligible, h]
  rfl

/-- **The first loop empties the queue exactly when it holds `SEND`s that nothing holds
back.** -/
theorem pumpSends_empties_iff (n : ℕ) (e : Engine S) (hn : e.queue.length ≤ n) :
    (pumpSends n e).queue = [] ↔
      ∀ entry ∈ e.queue, entry.kind = .send ∧ e.clear entry = true := by
  induction n generalizing e with
  | zero =>
      have hnil : e.queue = [] := List.eq_nil_of_length_eq_zero (Nat.le_zero.mp hn)
      simp [pumpSends, hnil]
  | succ n ih =>
      rw [pumpSends]
      rcases hnext : e.nextEligible .send with _ | index
      · -- nothing may go out, so the first message is held back
        constructor
        · intro hnil
          simp [hnil]
        · intro hall
          rcases hq : e.queue with _ | ⟨entry, rest⟩
          · rfl
          · obtain ⟨hkind, hclear⟩ := hall entry (by simp [hq])
            have hfind := List.find?_eq_none.mp hnext 0 (by simp [hq])
            exact absurd (eligible_zero hq hclear) (by simpa [hq, hkind] using hfind)
      · obtain ⟨xs, entry, ys, hq, rfl, hkind, -⟩ := nextEligible_spec hnext
        have hget : e.queue[xs.length]? = some entry := by simp [hq]
        have hclear : e.clear entry = true := by
          obtain ⟨entry', hget', hclear, -⟩ := eligible_iff.mp (eligible_of_nextEligible hnext)
          obtain rfl : entry = entry' := Option.some.inj (hget.symm.trans hget')
          exact hclear
        obtain ⟨hqueue, -, hsetting⟩ := sendUnconfirmed_frame e xs.length entry
        rw [hq, eraseIdx_length] at hqueue
        have hlen : (e.sendUnconfirmed xs.length entry).queue.length ≤ n := by
          rw [hqueue]
          simp only [hq, List.length_append, List.length_cons] at hn ⊢
          omega
        simp only [hget]
        rw [ih _ hlen, hqueue, hq]
        simp only [clear_of_setting hsetting]
        constructor
        · intro hall p hp
          rcases List.mem_append.mp hp with hp | hp
          · exact hall p (List.mem_append_left _ hp)
          · rcases List.mem_cons.mp hp with rfl | hp
            · exact ⟨hkind, hclear⟩
            · exact hall p (List.mem_append_right _ hp)
        · intro hall p hp
          refine hall p ?_
          rcases List.mem_append.mp hp with hp | hp
          · exact List.mem_append_left _ hp
          · exact List.mem_append_right _ (List.mem_cons_of_mem _ hp)

/-- **Pumping empties queue and slot exactly when the queue holds `SEND`s that nothing holds
back.** -/
theorem pump_empties_iff {e : Engine S} (hconnected : e.connected = true)
    (hfree : e.inflight = none) : e.pump.queue = [] ∧ e.pump.inflight = none ↔
      ∀ entry ∈ e.queue, entry.kind = .send ∧ e.clear entry = true := by
  rw [pump, if_pos hconnected, ← pumpSends_empties_iff e.queue.length e le_rfl]
  have hslot := (pumpSends_frame e.queue.length e).1.trans hfree
  generalize pumpSends e.queue.length e = e₁ at hslot
  have hidle : ¬e₁.inflight.isSome = true := by simp [hslot]
  rw [pumpCall, if_neg hidle]
  constructor
  · rintro ⟨hnil, hnone⟩
    rcases hcall : e₁.nextEligible .call with _ | call
    · simpa only [hcall] using hnil
    · -- a call would have filled the slot
      obtain ⟨xs, entry, ys, hq, rfl, -, -⟩ := nextEligible_spec hcall
      have hget : e₁.queue[xs.length]? = some entry := by simp [hq]
      simp only [hcall, hget] at hnone
      exact absurd hnone (inflight_sendCall e₁ _ _)
  · intro hnil
    simp only [nextEligible_nil hnil]
    exact ⟨hnil, hslot⟩

/-- Pumping does not empty the slot. -/
theorem inflight_of_pump {e : Engine S} (h : e.pump.inflight = none) : e.inflight = none := by
  rw [pump] at h
  split at h
  · have hslot := (pumpSends_frame e.queue.length e).1
    generalize pumpSends e.queue.length e = e₁ at h hslot
    rw [← hslot]
    rw [pumpCall] at h
    split at h
    · exact h
    · next hidle => simpa using hidle
  · exact h

end Engine

end OcppKit
