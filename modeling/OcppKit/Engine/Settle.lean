import OcppKit.Engine.Works

/-!
# Emptying the slot

What is not the engine's own work. The outstanding call leaves the slot in one of
two ways: it is answered (`OcppKit.Engine.onCallResult`,
`OcppKit.Engine.onCallError`), or its answer is given up on
(`OcppKit.Engine.requeueOrFail`). Each is one `Outbox.Free` step, with the engine's
own work around it.

`OcppKit.Engine.Leaves` says what an operation leaves in the history besides
entries of the engine's own: the frame it was fed, the request it delivered, the
answer it gave or got.
-/

namespace OcppKit

variable [Externals]

/-- The entries that are not the engine's own. -/
def foreign (evs : List Event) : List Event := evs.filter fun ev => !ev.own

theorem foreign_append (l l' : List Event) : foreign (l ++ l') = foreign l ++ foreign l' :=
  List.filter_append ..

theorem foreign_eq_nil {evs : List Event} (h : ∀ ev ∈ evs, ev.own = true) : foreign evs = [] :=
  List.filter_eq_nil_iff.mpr fun ev hev => by simp [h ev hev]

namespace Engine

variable {S : Type}

/-- **Between the two states these entries were left in the history** that are not
the engine's own, and what went on the wire is what is marked. -/
structure Leaves (e e' : Engine S) (left : List Event) : Prop where
  /-- The configuration stays. -/
  config : e'.config = e.config
  /-- So does the version. -/
  version : e'.version = e.version
  /-- The history grows by these entries, and by others of the engine's own. -/
  log : ∃ evs, e'.log = e.log ++ evs ∧ foreign evs = left ∧ Marked e.version evs

theorem Leaves.refl (e : Engine S) : Leaves e e [] :=
  ⟨rfl, rfl, [], (List.append_nil _).symm, rfl, marked_nil _⟩

theorem Leaves.trans {e e' e'' : Engine S} {left left' : List Event} (h : Leaves e e' left)
    (h' : Leaves e' e'' left') : Leaves e e'' (left ++ left') := by
  obtain ⟨evs, hlog, hleft, hmark⟩ := h.log
  obtain ⟨evs', hlog', hleft', hmark'⟩ := h'.log
  refine ⟨h'.config.trans h.config, h'.version.trans h.version, evs ++ evs', ?_, ?_, ?_⟩
  · rw [hlog', hlog, List.append_assoc]
  · rw [foreign_append, hleft, hleft']
  · exact hmark.append (h.version ▸ hmark')

/-- Other fields do not matter to where one starts. -/
theorem Leaves.of_eq {e₀ e e' : Engine S} {left : List Event} (h : Leaves e e' left)
    (hconfig : e.config = e₀.config) (hversion : e.version = e₀.version) (hlog : e.log = e₀.log) :
    Leaves e₀ e' left :=
  ⟨hconfig ▸ h.config, hversion ▸ h.version, hlog ▸ hversion ▸ h.log⟩

theorem leaves_note (e : Engine S) {event : Event} (hown : event.own = false)
    (hmark : Marked e.version [event]) : Leaves e (e.note event) [event] :=
  ⟨rfl, rfl, [event], rfl, by simp [foreign, hown], hmark⟩

theorem leaves_emit (e : Engine S) {o : Output} (hown : o.own = false)
    (hmark : Marked e.version [Event.out o]) : Leaves e (e.emit o) [Event.out o] :=
  ⟨rfl, rfl, [Event.out o], rfl, by simp [foreign, Event.own, hown], hmark⟩

theorem Reports.leaves {e e' : Engine S} (h : Reports e e' []) : Leaves e e' [] := by
  obtain ⟨evs, hlog, -, hfr, htx, hown⟩ := h.log
  exact ⟨congrArg Setting.config h.setting, version_of_setting h.setting, evs, hlog,
    foreign_eq_nil hown, marked_of_silent hfr htx⟩

theorem Writes.leaves {e e' : Engine S} {mark : Event} {frame : Frame}
    (h : Writes e e' mark frame) (hmark : mark.frame = some frame) (hown : mark.own = false) :
    Leaves e e' [mark] := by
  obtain ⟨evs, hlog, -, hfr, htx, hrest⟩ := h.log
  refine ⟨congrArg Setting.config h.setting, version_of_setting h.setting, mark :: evs, hlog, ?_,
    marked_cons hmark hfr htx⟩
  rw [← List.singleton_append, foreign_append, foreign_eq_nil hrest]
  simp [foreign, hown]

theorem takeInflight_of_eq {e : Engine S} {f : InFlight} (hf : e.inflight = some f) :
    e.takeInflight f.id = (some f, { e with inflight := none }) := by
  simp only [takeInflight, hf, if_true]

theorem takeInflight_of_ne {e : Engine S} {id : MessageId}
    (h : ∀ f, e.inflight = some f → f.id ≠ id) : e.takeInflight id = (none, e) := by
  rw [takeInflight]
  rcases hf : e.inflight with _ | f
  · rfl
  · simp only [if_neg (h f hf)]

variable [MessageStore S]

theorem Works.leaves {held : Held} {e e' : Engine S} (h : Works held e e') : Leaves e e' [] := by
  obtain ⟨evs, hlog, hown, hmark⟩ := h.log
  exact ⟨congrArg Setting.config h.setting, version_of_setting h.setting, evs, hlog,
    foreign_eq_nil hown, hmark⟩

/-! ### Giving an answer up -/

/-- **Between the two states the outstanding call was given up on**: it went back
to the queue, or failed. -/
structure Frees (e e' : Engine S) : Prop where
  /-- The setting stays. -/
  setting : e'.setting = e.setting
  /-- The history grows by entries of the engine's own. -/
  log : ∃ evs, e'.log = e.log ++ evs ∧ (∀ ev ∈ evs, ev.own = true) ∧ Marked e.version evs
  /-- The slot of the outbox is emptied. -/
  outbox : Outbox.Free policy (e.outbox none) (e'.outbox none)

theorem Frees.leaves {e e' : Engine S} (h : Frees e e') : Leaves e e' [] := by
  obtain ⟨evs, hlog, hown, hmark⟩ := h.log
  exact ⟨congrArg Setting.config h.setting, version_of_setting h.setting, evs, hlog,
    foreign_eq_nil hown, hmark⟩

theorem frees_requeue {e : Engine S} {f : InFlight} (hf : e.inflight = some f)
    (htx : f.transactional = true) (hretry : e.config.retry.mayRetry f.attempts = true)
    (at_ : Instant) :
    Frees e (({ { e with inflight := none }.storeAttempts f.seq f.attempts with
      queue := f.requeued at_ ::
        ({ e with inflight := none }.storeAttempts f.seq f.attempts).queue }
        : Engine S).emit (.setTimer .transactionRetry at_)) := by
  have hr := reports_storeAttempts { e with inflight := none } f.seq f.attempts
  generalize ({ e with inflight := none } : Engine S).storeAttempts f.seq f.attempts = e₁ at hr
  have hall := hr.trans (reports_emit e₁ (o := .setTimer .transactionRetry at_) rfl)
  obtain ⟨evs, hlog, hev, hfr, htxt, hown⟩ := hall.log
  refine ⟨hr.setting, ⟨evs, hlog, hown, marked_of_silent hfr htxt⟩, ?_⟩
  have hout : Engine.outbox (({ e₁ with queue := f.requeued at_ :: e₁.queue } : Engine S).emit
      (.setTimer .transactionRetry at_)) none =
      { e.outbox none with
        slot := none
        queue := f.item :: (e.outbox none).queue
        store := Outbox.setIf Message e.store f.item.seq f.item.attempts } := by
    have hlog' : (({ e₁ with queue := f.requeued at_ :: e₁.queue } : Engine S).emit
      (.setTimer .transactionRetry at_)).log = e.log ++ evs := hlog
    rw [Engine.outbox, hlog', outboxHistory_append, hev, List.append_nil]
    simp only [emit, List.map_cons, InFlight.requeued_item htx, hr.queue, hr.inflight,
      hr.nextToken, hr.store]
    rfl
  rw [hout]
  exact Outbox.Free.requeue f.flight (by rw [Engine.outbox, hf, Option.map_some]) htx
    (decide_eq_true (RetryPolicy.lt_of_mayRetry hretry))

theorem frees_giveUp {e : Engine S} {f : InFlight} (hf : e.inflight = some f)
    {why : CallFailure} (hwhy : isAnswer (.error why) = false) :
    Frees e ((({ e with inflight := none } : Engine S).ackStore f.seq).emit
      (.outcome ⟨f.token, some f.id, f.action, .error why⟩)) := by
  have hr := reports_ackStore ({ e with inflight := none } : Engine S) f.seq
  generalize ({ e with inflight := none } : Engine S).ackStore f.seq = e₁ at hr
  let o : CallOutcome := ⟨f.token, some f.id, f.action, .error why⟩
  obtain ⟨evs, hlog, hev, hfr, htxt, hown⟩ := hr.log
  have hlog' : (e₁.emit (.outcome o)).log = e.log ++ (evs ++ [Event.out (.outcome o)]) := by
    rw [emit]
    dsimp only
    rw [hlog, List.append_assoc]
  refine ⟨hr.setting, ⟨_, hlog', ?_, (marked_of_silent hfr htxt).append
    (marked_of_silent rfl rfl)⟩, ?_⟩
  · intro ev hmem
    rcases List.mem_append.mp hmem with hmem | hmem
    · exact hown ev hmem
    · obtain rfl := List.mem_singleton.mp hmem
      simp [Event.own, Output.own, o, hwhy]
  · have hout : (e₁.emit (.outcome o)).outbox none =
        { e.outbox none with
          slot := none
          store := Outbox.ackIf Message e.store f.item.seq
          hist := (e.outbox none).hist ++ [.resolved f.item.token (.error why)] } := by
      rw [Engine.outbox, hlog', outboxHistory_append, outboxHistory_append, hev,
        outboxHistory_cons_of_some rfl]
      simp only [emit, hr.queue, hr.inflight, hr.nextToken, hr.store]
      rfl
    rw [hout]
    exact Outbox.Free.giveUp f.flight _ (by rw [Engine.outbox, hf, Option.map_some]) hwhy

/-- **A call that lost its answer goes back to the queue or fails.** -/
theorem frees_requeueOrFail {e : Engine S} {f : InFlight} (hf : e.inflight = some f)
    {why : CallFailure} (hwhy : isAnswer (.error why) = false) :
    Frees e (({ e with inflight := none } : Engine S).requeueOrFail f why) := by
  rw [requeueOrFail]
  split
  · next h =>
    obtain ⟨htx, hretry⟩ := Bool.and_eq_true_iff.mp h
    exact frees_requeue hf htx hretry _
  · refine frees_giveUp hf ?_
    split
    · rfl
    · exact hwhy

/-! ### Learning from an answer -/

/-- What an answer to a `BootNotification` does to an engine that gives it: the boot
state follows the verdict, and nothing is sent. -/
theorem reports_observeBootAnswer (e : Engine S) (payload : RawValue) :
    Reports { e with boot := (bootVerdict payload).getD e.boot }
      (e.observeBootAnswer payload true) [] := by
  rw [observeBootAnswer, bootVerdict]
  rcases Externals.readBootAnswer payload with _ | answer
  · exact Reports.refl e
  · simp only [Option.bind_some]
    rcases BootState.ofStatus answer.status with _ | state
    · exact Reports.refl e
    · have hboot : Reports { e with boot := state }
          ({ e with boot := state }.emit (.bootState state)) [] := reports_emit _ rfl
      rcases answer.currentTime with _ | time <;> rcases state with _ | _ | _ | _ <;>
        first | exact hboot | exact hboot.trans (reports_heartbeatInterval _ _)

theorem works_applyBootInterval {held : Held} (hheld : EarlyHeld held) (e : Engine S)
    (state : BootState) (interval : Option Duration) :
    ∃ r, Works held { e with bootRetryAt := r } (e.applyBootInterval state interval false) := by
  have hretry : ∀ r, Works held { e with bootRetryAt := some r }
      ({ e with bootRetryAt := some r }.emit (.setTimer .bootRetry r)) :=
    fun r => (reports_emit _ rfl).works held
  rcases state with _ | _ | _ | _
  · exact ⟨e.bootRetryAt, Works.refl held e⟩
  · exact ⟨_, hretry _⟩
  · have h := (reports_heartbeatInterval e (interval.filter (· ≠ 0))).trans (reports_armHeartbeat _)
    exact ⟨e.bootRetryAt, (h.works held).trans (works_pump hheld _)⟩
  · exact ⟨_, hretry _⟩

/-- What an answer to a `BootNotification` does to an engine that gets it: the boot
state follows the verdict, and the rest is work. -/
theorem works_observeBootAnswer {held : Held} (hheld : EarlyHeld held) (e : Engine S)
    (payload : RawValue) :
    ∃ r, Works held { e with boot := (bootVerdict payload).getD e.boot, bootRetryAt := r }
      (e.observeBootAnswer payload false) := by
  rw [observeBootAnswer, bootVerdict]
  rcases Externals.readBootAnswer payload with _ | answer
  · exact ⟨e.bootRetryAt, Works.refl held e⟩
  · simp only [Option.bind_some]
    rcases BootState.ofStatus answer.status with _ | state
    · exact ⟨e.bootRetryAt, Works.refl held e⟩
    · have hboot : ∀ r, Works held { e with boot := state, bootRetryAt := r }
          ({ e with boot := state, bootRetryAt := r }.emit (.bootState state)) :=
        fun r => (reports_emit _ rfl).works held
      rcases answer.currentTime with _ | time
      · obtain ⟨r, hr⟩ := works_applyBootInterval hheld
          ({ e with boot := state }.emit (.bootState state)) state
          (answer.interval.map Duration.fromSecs)
        exact ⟨r, (hboot r).trans hr⟩
      · obtain ⟨r, hr⟩ := works_applyBootInterval hheld
          (({ e with boot := state }.emit (.bootState state)).emit (.clockSample ⟨time, e.now⟩))
          state (answer.interval.map Duration.fromSecs)
        refine ⟨r, ((hboot r).trans ?_).trans hr⟩
        exact (reports_emit _ rfl).works held

/-- The boot state after an answer to a call of this action. -/
def bootAfter (e : Engine S) (action : String) (payload : RawValue) : BootState :=
  if action = "BootNotification" ∧ e.config.role = .chargingStation then
    (bootVerdict payload).getD e.boot
  else e.boot

theorem works_observeAnswer {held : Held} (e : Engine S) (action : String) (payload : RawValue)
    (hheld : action = "BootNotification" → EarlyHeld held) :
    ∃ r, (¬(action = "BootNotification" ∧ e.config.role = .chargingStation) →
        r = e.bootRetryAt) ∧
      Works held { e with boot := e.bootAfter action payload, bootRetryAt := r }
        (e.observeAnswer action payload) := by
  rw [observeAnswer, bootAfter]
  split
  · next h =>
    obtain ⟨r, hr⟩ := works_observeBootAnswer (hheld h.1) e payload
    exact ⟨r, fun hnot => absurd h hnot, hr⟩
  · refine ⟨e.bootRetryAt, fun _ => rfl, ?_⟩
    split
    · split
      · exact (reports_emit e rfl).works held
      · exact Works.refl held e
    · exact Works.refl held e

/-! ### Being answered -/

/-- **Between the two states the outstanding call was answered** with this verdict,
and the boot state and its timer became these. -/
structure Answers (e e' : Engine S) (f : InFlight) (v : Verdict) (boot : BootState)
    (r : Option Instant) : Prop where
  /-- The setting stays, but for the boot state and its timer. -/
  setting : e'.setting = { e.setting with boot := boot, bootRetryAt := r }
  /-- The outcome is left in the history. -/
  leaves : Leaves e e' [.out (.outcome ⟨f.token, some f.id, f.action, v⟩)]
  /-- The slot of the outbox is emptied, and then the engine does its work. -/
  outbox : ∃ mid, Outbox.Free policy (e.outbox none) mid ∧
    Outbox.Keeps policy mid (e'.outbox none)

/-- The answered call leaves the slot and is held. -/
theorem free_answer {e : Engine S} {f : InFlight} (hf : e.inflight = some f) (v : Verdict) :
    Outbox.Free policy (e.outbox none)
      (Engine.outbox { e with inflight := none, store := Outbox.ackIf Message e.store f.seq }
        (some (f.item, v))) :=
  Outbox.Free.answer f.flight v (by rw [Engine.outbox, hf, Option.map_some]) rfl

/-- The held call gets its outcome. -/
theorem keep_outcome (e : Engine S) (f : InFlight) (v : Verdict) :
    Outbox.Keep policy (e.outbox (some (f.item, v)))
      ((e.emit (.outcome ⟨f.token, some f.id, f.action, v⟩)).outbox none) := by
  have hout : (e.emit (.outcome ⟨f.token, some f.id, f.action, v⟩)).outbox none =
      { e.outbox (some (f.item, v)) with
        held := none
        hist := (e.outbox (some (f.item, v))).hist ++ [.resolved f.item.token v] } := by
    rw [Engine.outbox, emit, outboxHistory_append]
    rfl
  rw [hout]
  exact Outbox.Keep.settle f.item v rfl

/-- The end of both answers: the outcome, and the work that follows. -/
theorem answers_of_works {e e₁ e₂ : Engine S} {f : InFlight} {v : Verdict} {boot : BootState}
    {r : Option Instant} (hf : e.inflight = some f) (hv : isAnswer v = true)
    (h₁ : Reports { e with inflight := none, store := Outbox.ackIf Message e.store f.seq } e₁ [])
    (h₂ : Works (some (f.item, v)) { e₁ with boot := boot, bootRetryAt := r } e₂) :
    Answers e (e₂.emit (.outcome ⟨f.token, some f.id, f.action, v⟩)).pump.checkDrain f v boot
      r := by
  have h₃ := (works_pump earlyHeld_none
    (e₂.emit (.outcome ⟨f.token, some f.id, f.action, v⟩))).trans (works_checkDrain none _)
  refine ⟨?_, ?_, ?_⟩
  · have hset : e₁.setting = e.setting := h₁.setting
    rw [h₃.setting, show (e₂.emit _).setting = e₂.setting from rfl, h₂.setting, ← hset]
    rfl
  · have hl₁ : Leaves e e₁ [] := h₁.leaves.of_eq rfl rfl rfl
    have hl₂ : Leaves e₁ e₂ [] := h₂.leaves.of_eq rfl rfl rfl
    have hl₃ := leaves_emit e₂ (o := .outcome ⟨f.token, some f.id, f.action, v⟩)
      (by simp [Output.own, hv]) (marked_of_silent rfl rfl)
    exact ((hl₁.trans hl₂).trans hl₃).trans h₃.leaves
  · refine ⟨_, free_answer hf v, ?_⟩
    rw [← h₁.outbox]
    exact (h₂.outbox.trans (.single (keep_outcome e₂ f v))).trans h₃.outbox

theorem reports_taken (e : Engine S) (f : InFlight) :
    Reports { e with inflight := none, store := Outbox.ackIf Message e.store f.seq }
      ((({ e with inflight := none } : Engine S).ackStore f.seq).emit (.clearTimer .callTimeout))
      [] :=
  (reports_ackStore { e with inflight := none } f.seq).trans (reports_emit _ rfl)

/-- **A `CALLRESULT` answers the outstanding call** that has its id. The boot timer is
touched only by a station, and only by an answer to a `BootNotification`. -/
theorem answers_onCallResult {e : Engine S} {f : InFlight} (hf : e.inflight = some f)
    (payload : RawValue) :
    ∃ r, (¬(f.action = "BootNotification" ∧ e.config.role = .chargingStation) →
        r = e.bootRetryAt) ∧
      Answers e (e.onCallResult f.id payload) f (.ok (.result payload))
        (e.bootAfter f.action payload) r := by
  rw [onCallResult, takeInflight_of_eq hf]
  dsimp only
  have h₁ := reports_taken e f
  generalize (({ e with inflight := none } : Engine S).ackStore f.seq).emit
    (.clearTimer .callTimeout) = e₁ at h₁
  have hheld : f.action = "BootNotification" →
      EarlyHeld (some (f.item, .ok (.result payload))) := by
    intro haction h hh
    obtain rfl := Option.some.inj hh
    exact decide_eq_true haction
  obtain ⟨r, hretry, h₂⟩ := works_observeAnswer e₁ f.action payload hheld
  have hset : e₁.setting = e.setting := h₁.setting
  have hconfig : e₁.config = e.config := congrArg Setting.config hset
  have hboot : e₁.bootAfter f.action payload = e.bootAfter f.action payload := by
    rw [bootAfter, bootAfter, hconfig, show e₁.boot = e.boot from congrArg Setting.boot hset]
  rw [hconfig, show e₁.bootRetryAt = e.bootRetryAt from congrArg Setting.bootRetryAt hset] at hretry
  exact ⟨r, hretry, answers_of_works hf rfl h₁ (hboot ▸ h₂)⟩

/-- **A `CALLERROR` answers the outstanding call** that has its id. -/
theorem answers_onCallError {e : Engine S} {f : InFlight} (hf : e.inflight = some f)
    (error : CallErrorRef) :
    Answers e (e.onCallError f.id error) f (.error (.rejected error.toCallError)) e.boot
      e.bootRetryAt := by
  rw [onCallError, takeInflight_of_eq hf]
  dsimp only
  have h₁ := reports_taken e f
  generalize (({ e with inflight := none } : Engine S).ackStore f.seq).emit
    (.clearTimer .callTimeout) = e₁ at h₁
  have hboot : e₁.boot = e.boot := congrArg Setting.boot h₁.setting
  have hretry : e₁.bootRetryAt = e.bootRetryAt := congrArg Setting.bootRetryAt h₁.setting
  exact hboot ▸ hretry ▸ answers_of_works hf rfl h₁ (Works.refl _ e₁)

/-- An answer to no outstanding call is a violation and nothing else. -/
theorem onCallResult_of_ne {e : Engine S} {id : MessageId}
    (h : ∀ f, e.inflight = some f → f.id ≠ id) (payload : RawValue) :
    e.onCallResult id payload = e.violate (.unexpectedResponse id) := by
  rw [onCallResult, takeInflight_of_ne h]

/-- An error for no outstanding call is a violation and nothing else. -/
theorem onCallError_of_ne {e : Engine S} {id : MessageId}
    (h : ∀ f, e.inflight = some f → f.id ≠ id) (error : CallErrorRef) :
    e.onCallError id error = e.violate (.unexpectedResponse id) := by
  rw [onCallError, takeInflight_of_ne h]

end Engine

end OcppKit
