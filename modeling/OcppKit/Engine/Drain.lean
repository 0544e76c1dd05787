import OcppKit.Engine.Pump
import OcppKit.Engine.Offline

/-!
# The graceful drain

A shutdown opens a drain, and a drain ends with one close: `Drained` once nothing is
queued or outstanding, `DrainTimedOut` if its deadline comes first. Each operation lets the
drain go on, opens one, completes it or finds it out of time: `OcppKit.drainEnd`.

Whether the work is done is looked at where a call is settled, time passes, the connection
goes away and a shutdown starts. It is not looked at where a message is withdrawn, and not
where the connection comes up, though either can finish the last work:
`OcppKit.LeavesDrain`. `OcppKit.drain_completes_iff` says that nothing else does.
-/

namespace OcppKit

variable [Externals]

open Engine

variable {S : Type} [MessageStore S]

/-! ### Closes -/

/-- The close an entry of the history asks for. -/
def Event.closes : Event → Option CloseReason
  | .out (.close reason) => some reason
  | _ => none

/-- The closes a history asks for, in order. -/
def closes (evs : List Event) : List CloseReason := evs.filterMap Event.closes

theorem closes_append (l l' : List Event) : closes (l ++ l') = closes l ++ closes l' :=
  List.filterMap_append

theorem closes_of_inOrder {role : Role} {version : Version} {up : Bool} {evs : List Event}
    (h : ∀ ev ∈ evs, ev.InOrder role version up) : closes evs = [] := by
  refine List.filterMap_eq_nil_iff.mpr fun ev hev => ?_
  cases ev with
  | out o =>
      cases o with
      | close reason => exact absurd (h _ hev) (by simp [Event.InOrder, Output.isClose])
      | _ => rfl
  | _ => rfl

/-- What an operation closes, it closes after its input. -/
theorem closes_newEvents {e : Engine S} {op : Op} {evs : List Event}
    (h : (exec e op).log = (e.started op).log ++ evs) : closes (newEvents e op) = closes evs := by
  rw [log_started, List.append_assoc] at h
  rw [newEvents_of_log h, closes_append]
  cases op <;> rfl

omit [MessageStore S] in
theorem draining_started (e : Engine S) (op : Op) : (e.started op).draining = e.draining := by
  cases op with
  | handle now input => cases input <;> rfl
  | _ => rfl

/-! ### How an operation leaves the drain -/

/-- How many drains the operation opens. -/
def opens (e : Engine S) : Op → ℕ
  | .shutdown _ _ => if e.draining.isSome then 0 else 1
  | _ => 0

/-- **How an operation leaves the drain.** -/
inductive DrainEnd (e : Engine S) (op : Op) : Prop
  /-- It goes on, or there is none. -/
  | goesOn : closes (newEvents e op) = [] → (exec e op).draining = e.draining → opens e op = 0 →
      DrainEnd e op
  /-- It is opened. -/
  | opened : closes (newEvents e op) = [] → e.draining = none →
      (exec e op).draining.isSome = true → (exec e op).drainComplete = false → opens e op = 1 →
      DrainEnd e op
  /-- It completes. -/
  | completed : closes (newEvents e op) = [.drained] → (exec e op).draining = none →
      (exec e op).drainComplete = true →
      e.draining.isSome.toNat + opens e op = 1 → DrainEnd e op
  /-- It runs out of time. -/
  | ranOut : closes (newEvents e op) = [.drainTimedOut] → (exec e op).draining = none →
      (exec e op).drainComplete = false → e.draining.isSome = true → opens e op = 0 →
      DrainEnd e op

theorem drainEnd_of_calm {e : Engine S} {op : Op} (h : Calm (e.started op) (exec e op))
    (hopens : opens e op = 0) : DrainEnd e op := by
  obtain ⟨evs, hlog, hevs⟩ := h.log
  refine .goesOn ?_ (h.draining.trans (draining_started e op)) hopens
  rw [closes_newEvents hlog, closes_of_inOrder hevs]

/-- **The end of an operation looks at the drain.** -/
theorem drainEnd_of_checkDrain {e e₁ : Engine S} {op : Op} (h : Calm (e.started op) e₁)
    (hexec : exec e op = e₁.checkDrain) (hopens : opens e op = 0) : DrainEnd e op := by
  have hdraining : e₁.draining = e.draining := h.draining.trans (draining_started e op)
  obtain ⟨evs, hlog, hevs⟩ := h.log
  rw [checkDrain] at hexec
  split at hexec
  · next hdone =>
    simp only [Bool.and_eq_true] at hdone
    have hlog' : (exec e op).log = (e.started op).log ++
        (evs ++ [Event.out (.clearTimer .drainDeadline), .out (.close .drained)]) := by
      rw [hexec, ← List.append_assoc, ← hlog]
      simp only [emit, List.append_assoc, List.cons_append, List.nil_append]
    refine .completed ?_ (by rw [hexec]; rfl) (by rw [hexec]; exact hdone.2) ?_
    · rw [closes_newEvents hlog', closes_append, closes_of_inOrder hevs]
      rfl
    · rw [← hdraining, hdone.1, hopens]
      rfl
  · exact drainEnd_of_calm (hexec ▸ h) hopens

/-- **A shutdown opens a drain**, which completes at once when there is nothing to do. -/
theorem drainEnd_shutdown {e : Engine S} (h : e.draining = none) (now deadline : Instant) :
    DrainEnd e (.shutdown now deadline) := by
  let e₁ : Engine S := { e.advance now with draining := some deadline }.emit
    (.setTimer .drainDeadline deadline)
  have hexec : exec e (.shutdown now deadline) = e₁.checkDrain := by
    simp only [exec, shutdown]
    rw [if_neg (by simp [advance, h])]
  have hopens : opens e (.shutdown now deadline) = 1 := by simp [opens, h]
  rw [checkDrain] at hexec
  split at hexec
  · next hdone =>
    simp only [Bool.and_eq_true] at hdone
    have hlog : (exec e (.shutdown now deadline)).log = (e.started (.shutdown now deadline)).log ++
        [Event.out (.setTimer .drainDeadline deadline), .out (.clearTimer .drainDeadline),
          .out (.close .drained)] := by
      rw [hexec]
      simp [e₁, emit, started]
    refine .completed ?_ (by rw [hexec]; rfl) (by rw [hexec]; exact hdone.2) ?_
    · rw [closes_newEvents hlog]
      rfl
    · rw [h, hopens]
      rfl
  · next hopen =>
    have hlog : (exec e (.shutdown now deadline)).log = (e.started (.shutdown now deadline)).log ++
        [Event.out (.setTimer .drainDeadline deadline)] := by
      rw [hexec]
      rfl
    refine .opened ?_ h (by rw [hexec]; rfl) ?_ hopens
    · rw [closes_newEvents hlog]
      rfl
    · rw [hexec]
      exact Bool.eq_false_of_not_eq_true fun hdone => hopen (by rw [hdone]; rfl)

/-- **Every operation leaves the drain in one of these ways.** -/
theorem drainEnd (e : Engine S) (op : Op) : DrainEnd e op := by
  by_cases hopens : opens e op = 0
  swap
  · cases op with
    | shutdown now deadline =>
        refine drainEnd_shutdown ?_ now deadline
        rcases hd : e.draining with _ | _
        · rfl
        · exact absurd (by simp [opens, hd]) hopens
    | _ => exact absurd rfl hopens
  have hshape := exec_shape e op
  have hcalm : ∀ e', exec e op = e' → Calm (e.started op) e' → DrainEnd e op :=
    fun e' hexec h => drainEnd_of_calm (hexec ▸ h) hopens
  generalize hexec : exec e op = e' at hshape
  cases hshape with
  | quiet _ _ _ h => exact hcalm _ hexec h.toCalm
  | connected _ _ e₁ h => exact hcalm _ hexec (h.toCalm.trans (tame_pump e₁).toCalm)
  | accepted _ _ _ _ e₁ _ h => exact hcalm _ hexec (h.toCalm.trans (tame_pump e₁).toCalm)
  | refused _ _ _ _ _ _ h => exact hcalm _ hexec h.toCalm
  | answered _ _ e₁ _ h =>
      exact drainEnd_of_checkDrain (h.toCalm.trans (tame_pump e₁).toCalm) hexec rfl
  | timeout _ e₁ h _ =>
      exact drainEnd_of_checkDrain (h.toCalm.trans (tame_pump e₁).toCalm) hexec rfl
  | ranOut now e₁ h hout =>
      obtain ⟨evs, hlog, hevs⟩ := h.log
      simp only [Bool.and_eq_true, Bool.not_eq_true'] at hout
      have hlog' : (exec e (.handle now .timeout)).log =
          (e.started (.handle now .timeout)).log ++
            (evs ++ [Event.out (.close .drainTimedOut)]) := by
        rw [hexec, ← List.append_assoc, ← hlog]
        rfl
      refine .ranOut ?_ (by rw [hexec]) (by rw [hexec]; exact hout.2) ?_ rfl
      · rw [closes_newEvents hlog', closes_append, closes_of_inOrder hevs]
        rfl
      · rw [← draining_started e (.handle now .timeout), ← h.draining]
        exact Option.isSome_of_any hout.1
  | disconnected _ e₁ h => exact drainEnd_of_checkDrain h.toCalm hexec rfl
  | cancelled token index entry _ _ =>
      have h : Calm e ({ e with queue := e.queue.eraseIdx index }.abandon entry .cancelled) :=
        (still_abandon { e with queue := e.queue.eraseIdx index } _ _).toCalm.of_eq
          rfl rfl rfl rfl rfl
      exact hcalm _ hexec h
  | shutdown now deadline hnone => exact absurd hopens (by simp [opens, hnone])

/-! ### Finishing without looking -/

/-- The work that is left keeps the drain open. -/
def Busy (e : Engine S) : Prop := e.draining.isSome = true → e.drainComplete = false

/-- **The operation finishes the last work of a drain, and does not look**: it withdraws the
last message, or brings the connection up when all that is left are `SEND`s that nothing
holds back. -/
def LeavesDrain (e : Engine S) (op : Op) : Prop :=
  e.draining.isSome = true ∧ e.inflight = none ∧
    ((∃ token entry, op = .cancel token ∧ e.queue = [entry] ∧ entry.token = token) ∨
      ∃ now version, op = .handle now (.connected version) ∧ e.queue ≠ [] ∧
        ∀ entry ∈ e.queue, entry.kind = .send ∧ (e.advance now).clear entry = true)

omit [MessageStore S] in
theorem drainComplete_iff {e : Engine S} :
    e.drainComplete = true ↔ e.queue = [] ∧ e.inflight = none := by
  rw [drainComplete, Bool.and_eq_true, Option.isNone_iff_eq_none, List.isEmpty_iff, and_comm]

omit [MessageStore S] in
theorem drainComplete_congr {e e' : Engine S} (hqueue : e'.queue = e.queue)
    (hinflight : e'.inflight = e.inflight) : e'.drainComplete = e.drainComplete := by
  rw [drainComplete, drainComplete, hqueue, hinflight]

/-- The message withdrawn was the last one. -/
theorem complete_cancel {e : Engine S} {entry : Pending} (hq : e.queue = [entry])
    (hfree : e.inflight = none) : (exec e (.cancel entry.token)).drainComplete = true := by
  have hcancel : exec e (.cancel entry.token) =
      { e with queue := [] }.abandon entry .cancelled := by
    simp [exec, cancel, hq]
  have h := still_abandon { e with queue := [] } entry .cancelled
  rw [hcancel, drainComplete_iff, h.queue, h.inflight]
  exact ⟨rfl, hfree⟩

/-- Bringing the connection up finishes the work exactly when all of it is `SEND`s that
nothing holds back. -/
theorem complete_connected_iff (e : Engine S) (now : Instant) (version : Version) :
    (exec e (.handle now (.connected version))).drainComplete = true ↔ e.inflight = none ∧
      ∀ entry ∈ e.queue, entry.kind = .send ∧ (e.advance now).clear entry = true := by
  let e₁ := e.started (.handle now (.connected version))
  have h : Quiet e₁ e₁.armHeartbeat := quiet_armHeartbeat e₁
  have hclear : ∀ entry, e₁.armHeartbeat.clear entry = (e.advance now).clear entry := by
    intro entry
    rw [clear_of_setting (reports_armHeartbeat e₁).setting]
    rfl
  change e₁.armHeartbeat.pump.drainComplete = true ↔ _
  rw [drainComplete_iff]
  constructor
  · rintro ⟨hqueue, hslot⟩
    have hfree := inflight_of_pump hslot
    have hall := (pump_empties_iff (e := e₁.armHeartbeat) h.connected hfree).mp ⟨hqueue, hslot⟩
    rw [h.queue] at hall
    refine ⟨h.inflight.symm.trans hfree, fun entry hentry => ?_⟩
    rw [← hclear]
    exact hall entry hentry
  · rintro ⟨hfree, hall⟩
    refine (pump_empties_iff (e := e₁.armHeartbeat) h.connected (h.inflight.trans hfree)).mpr ?_
    intro entry hentry
    rw [hclear]
    exact hall entry (h.queue ▸ hentry)

omit [MessageStore S] in
/-- Where the drain is looked at, it stays open only if work is left. -/
theorem drainComplete_checkDrain {e : Engine S} (h : e.checkDrain.draining.isSome = true) :
    e.checkDrain.drainComplete = false := by
  rw [checkDrain] at h ⊢
  split at h
  · exact absurd h (by simp [emit])
  · next hopen =>
    rw [if_neg hopen]
    refine Bool.eq_false_of_not_eq_true fun hdone => hopen ?_
    rw [h, hdone]
    rfl

/-- **An operation that leaves the drain open leaves work**, unless it finishes the last of it
without looking. -/
theorem leavesDrain_of_complete {e : Engine S} {op : Op} (hdraining : e.draining.isSome = true)
    (hbusy : e.drainComplete = false) (hgoes : (exec e op).draining = e.draining)
    (hdone : (exec e op).drainComplete = true) : LeavesDrain e op := by
  have hopen : e.draining ≠ none := by
    intro hnone
    exact absurd hdraining (by simp [hnone])
  have hstart : (e.started op).drainComplete = false := by
    cases op with
    | handle now input => cases input <;> exact hbusy
    | _ => exact hbusy
  have hquiet : ∀ e₁, Quiet (e.started op) e₁ → e₁.drainComplete = false :=
    fun e₁ h => (drainComplete_congr h.queue h.inflight).trans hstart
  have hcheck : ∀ e₁ : Engine S, exec e op = e₁.checkDrain → False := by
    intro e₁ hexec
    have hsome : e₁.checkDrain.draining.isSome = true := by
      rw [← hexec, hgoes]
      exact hdraining
    exact absurd (drainComplete_checkDrain hsome) (by simp [← hexec, hdone])
  have hshape := exec_shape e op
  generalize hexec : exec e op = e' at hshape
  rw [hexec] at hgoes hdone
  cases hshape with
  | quiet _ _ _ h => exact absurd (hquiet _ h) (by simp [hdone])
  | connected now version e₁ h =>
      obtain ⟨hfree, hall⟩ := (complete_connected_iff e now version).mp (by rw [hexec, hdone])
      refine ⟨hdraining, hfree, Or.inr ⟨now, version, rfl, fun hnil => ?_, hall⟩⟩
      exact absurd (drainComplete_iff.mpr ⟨hnil, hfree⟩) (by simp [hbusy])
  | accepted _ _ _ _ e₁ h _ => exact absurd h.draining hopen
  | refused _ _ _ _ _ _ h => exact absurd (hquiet _ h) (by simp [hdone])
  | answered _ _ e₁ _ h => exact (hcheck _ hexec).elim
  | timeout _ e₁ h _ => exact (hcheck _ hexec).elim
  | ranOut now e₁ h hout => exact absurd hgoes.symm hopen
  | disconnected _ e₁ h => exact (hcheck _ hexec).elim
  | cancelled token index entry hfind hget =>
      have h := still_abandon { e with queue := e.queue.eraseIdx index } entry .cancelled
      obtain ⟨hqueue, hslot⟩ := drainComplete_iff.mp hdone
      have herase : e.queue.eraseIdx index = [] := h.queue.symm.trans hqueue
      have hfree : e.inflight = none := h.inflight.symm.trans hslot
      obtain ⟨hlt, htoken, -⟩ := List.findIdx?_eq_some_iff_getElem.mp hfind
      obtain ⟨-, rfl⟩ := List.getElem?_eq_some_iff.mp hget
      have hlen := congrArg List.length herase
      rw [List.length_eraseIdx_of_lt hlt, List.length_nil] at hlen
      obtain ⟨x, hx⟩ : ∃ x, e.queue = [x] := List.length_eq_one_iff.mp (by omega)
      refine ⟨hdraining, hfree, Or.inl ⟨token, x, rfl, hx, ?_⟩⟩
      have hzero : index = 0 := by omega
      subst hzero
      simpa [hx] using htoken
  | shutdown now deadline hnone => exact absurd hnone hopen

/-- What finishes the last work without looking leaves the drain open. -/
theorem complete_of_leavesDrain {e : Engine S} {op : Op} (h : LeavesDrain e op) :
    (exec e op).drainComplete = true ∧ (exec e op).draining = e.draining := by
  obtain ⟨-, hfree, ⟨token, entry, rfl, hq, rfl⟩ | ⟨now, version, rfl, -, hall⟩⟩ := h
  · refine ⟨complete_cancel hq hfree, ?_⟩
    have hshape := exec_shape e (.cancel entry.token)
    generalize exec e (.cancel entry.token) = e' at hshape
    cases hshape with
    | quiet _ _ _ h => exact h.draining
    | cancelled _ index entry' _ _ =>
        exact (still_abandon { e with queue := e.queue.eraseIdx index } entry' .cancelled).draining
  · refine ⟨(complete_connected_iff e now version).mpr ⟨hfree, hall⟩, ?_⟩
    exact (tame_pump _).draining.trans (quiet_armHeartbeat _).draining

/-- **While a drain is open work is left**, for as long as no operation finishes the last of
it without looking. -/
theorem busy_exec {e : Engine S} {op : Op} (hbusy : Busy e) (h : ¬LeavesDrain e op) :
    Busy (exec e op) := by
  intro hsome
  cases drainEnd e op with
  | goesOn _ hgoes _ =>
      have hdraining : e.draining.isSome = true := hgoes ▸ hsome
      refine Bool.eq_false_of_not_eq_true fun hdone => h ?_
      exact leavesDrain_of_complete hdraining (hbusy hdraining) hgoes hdone
  | opened _ _ _ hwork _ => exact hwork
  | completed _ hnone _ _ => exact absurd hsome (by simp [hnone])
  | ranOut _ _ hwork _ _ => exact hwork

/-! ### Runs -/

/-- **What an operation is to do about the drain.** -/
structure KeepsDrain (e : Engine S) (op : Op) : Prop where
  /-- While draining, no call is accepted. -/
  refuses : e.draining.isSome = true → ∀ now action payload options,
    op = .callWith now action payload options →
      e.callWith now action payload options = (.error .shuttingDown, e.advance now)
  /-- With nothing queued or outstanding, the drain completes in the same operation. -/
  completes : e.draining.isSome = true ∨ opens e op = 1 → (exec e op).queue = [] →
    (exec e op).inflight = none →
      .drained ∈ closes (newEvents e op) ∧ (exec e op).draining = none
  /-- Every drain that is opened is closed once, or still open. -/
  balanced : (closes (newEvents e op)).length + (exec e op).draining.isSome.toNat =
    e.draining.isSome.toNat + opens e op
  /-- A drain completes only with nothing queued or outstanding. -/
  finished : .drained ∈ closes (newEvents e op) →
    (exec e op).queue = [] ∧ (exec e op).inflight = none

omit [MessageStore S] in
theorem draining_foldl_restore (records : List (Seq × QueuedCall)) (e : Engine S) :
    (records.foldl restore e).draining = e.draining := by
  induction records generalizing e with
  | nil => rfl
  | cons record records ih => exact ih (e.restore record)

/-- How many drains a run opens. -/
def opened (e : Engine S) : List Op → ℕ
  | [] => 0
  | op :: ops => opens e op + opened (exec e op) ops

/-- **One step**: the drain is looked after unless the step leaves it. -/
theorem keepsDrain_iff {e : Engine S} {op : Op} (hbusy : Busy e) :
    KeepsDrain e op ↔ ¬LeavesDrain e op := by
  constructor
  · intro hkeeps hleaves
    obtain ⟨hdone, hgoes⟩ := complete_of_leavesDrain hleaves
    obtain ⟨hqueue, hslot⟩ := drainComplete_iff.mp hdone
    have hnone := (hkeeps.completes (Or.inl hleaves.1) hqueue hslot).2
    exact absurd hleaves.1 (by simp [← hgoes, hnone])
  · intro hleaves
    constructor
    · rintro hsome now action payload options rfl
      rw [callWith]
      exact if_pos hsome
    · intro hdraining hqueue hslot
      have hdone := drainComplete_iff.mpr ⟨hqueue, hslot⟩
      cases drainEnd e op with
      | goesOn _ hgoes hopens =>
          rcases hdraining with hsome | hopen
          · exact absurd (leavesDrain_of_complete hsome (hbusy hsome) hgoes hdone) hleaves
          · exact absurd hopen (by simp [hopens])
      | opened _ _ _ hwork _ => exact absurd hdone (by simp [hwork])
      | completed hcloses hnone _ _ => exact ⟨by simp [hcloses], hnone⟩
      | ranOut _ _ hwork _ _ => exact absurd hdone (by simp [hwork])
    · cases drainEnd e op with
      | goesOn hcloses hgoes hopens => simp [hcloses, hgoes, hopens]
      | opened hcloses hnone hsome _ hopens => simp [hcloses, hnone, hsome, hopens]
      | completed hcloses hnone _ hone => simp [hcloses, hnone, hone]
      | ranOut hcloses hnone _ hsome hopens => simp [hcloses, hnone, hsome, hopens]
    · intro hmem
      cases drainEnd e op with
      | goesOn hcloses _ _ => exact absurd hmem (by simp [hcloses])
      | opened hcloses _ _ _ _ => exact absurd hmem (by simp [hcloses])
      | completed _ _ hdone _ => exact drainComplete_iff.mp hdone
      | ranOut hcloses _ _ _ _ => exact absurd hmem (by simp [hcloses])

/-- **A run**: where every drain that is opened is closed once or still open at each step, it
is so of the run. -/
theorem balanced_run {e : Engine S} {ops : List Op} (h : AtEach e ops KeepsDrain) :
    (closes (run e ops).log).length + (run e ops).draining.isSome.toNat =
      (closes e.log).length + e.draining.isSome.toNat + opened e ops := by
  induction ops generalizing e with
  | nil => rfl
  | cons op ops ih =>
      obtain ⟨hop, hops⟩ := atEach_cons.mp h
      have hstep := hop.balanced
      rw [run_cons, ih hops, log_exec, closes_append, List.length_append, opened]
      omega

/-- The drain is looked after along a run exactly when no step of it leaves it. -/
theorem atEach_keepsDrain_iff {e : Engine S} (hbusy : Busy e) (ops : List Op) :
    AtEach e ops KeepsDrain ↔ AtEach e ops fun e op => ¬LeavesDrain e op := by
  induction ops generalizing e with
  | nil => exact iff_of_true (atEach_nil e _) (atEach_nil e _)
  | cons op ops ih =>
      rw [atEach_cons, atEach_cons, keepsDrain_iff hbusy]
      exact and_congr_right fun hleaves => ih (busy_exec hbusy hleaves)

/-- **A drain completes when its work does, unless an operation finishes the last of it
without looking.** -/
theorem drain_completes_iff {config : EngineConfig} {store : S} {ids : ℕ → MessageId}
    {e₀ : Engine S} (h : Engine.withStore config store ids = .ok e₀) (ops : List Op) :
    (AtEach e₀ ops KeepsDrain ∧ (closes (run e₀ ops).log).length +
      (run e₀ ops).draining.isSome.toNat = opened e₀ ops) ↔
    AtEach e₀ ops fun e op => ¬LeavesDrain e op := by
  have hnone : e₀.draining = none := by
    obtain ⟨records, -, rfl⟩ := eq_of_withStore h
    exact draining_foldl_restore records _
  have hbusy : Busy e₀ := fun hsome => absurd hsome (by simp [hnone])
  rw [← atEach_keepsDrain_iff hbusy ops]
  refine and_iff_left_of_imp fun hkeeps => ?_
  obtain ⟨entries, hlog⟩ := log_withStore h
  have hcloses : closes e₀.log = [] := by
    rw [hlog, closes, List.filterMap_map]
    exact List.filterMap_eq_nil_iff.mpr fun _ _ => rfl
  rw [balanced_run hkeeps, hcloses, hnone]
  exact Nat.zero_add _

end OcppKit

namespace OcppKit.Reference

/-! ### A run -/

/-- A station with one call outstanding and one queued is told to shut down; the queued call
is withdrawn, another is refused, and the outstanding one is answered. -/
def drainRun : List Op :=
  [.handle 1 (.connected .v2_0_1), .callWith 1 "BootNotification" .emptyObject {},
    .callWith 2 "StatusNotification" .emptyObject {}, .shutdown 3 60000, .cancel 1,
    .callWith 4 "Heartbeat" .emptyObject {}, .handle 5 (.received "[3,\"s0\",{}]")]

theorem drain_completes_iff_drainRun :
    AtEach (station .v2_0_1) drainRun KeepsDrain ∧
    (closes (run (station .v2_0_1) drainRun).log).length +
      (run (station .v2_0_1) drainRun).draining.isSome.toNat =
        opened (station .v2_0_1) drainRun := by
  refine (drain_completes_iff (withStore_station .v2_0_1) drainRun).mpr ?_
  -- up to the shutdown there is no drain, and from then on a call is outstanding
  refine atEach_cons.mpr ⟨?_, atEach_cons.mpr ⟨?_, atEach_cons.mpr ⟨?_, atEach_cons.mpr ⟨?_,
    atEach_cons.mpr ⟨?_, atEach_cons.mpr ⟨?_, atEach_cons.mpr ⟨?_, atEach_nil _ _⟩⟩⟩⟩⟩⟩⟩
  iterate 4
    rintro ⟨hsome, -⟩
    exact absurd hsome (by decide +kernel)
  all_goals
    rintro ⟨-, hfree, -⟩
    exact absurd hfree (by decide +kernel)

/-- A station that waits for its boot queues a call, is told to shut down, and withdraws the
call. -/
def withdrawnRun : List Op :=
  [.handle 1 (.connected .v2_0_1), .callWith 1 "StatusNotification" .emptyObject {},
    .shutdown 2 60000, .cancel 0]

/-- **The last message is withdrawn, and the drain stays open.** -/
theorem drain_leftOpen : ¬(AtEach (station .v2_0_1) withdrawnRun KeepsDrain ∧
    (closes (run (station .v2_0_1) withdrawnRun).log).length +
      (run (station .v2_0_1) withdrawnRun).draining.isSome.toNat =
        opened (station .v2_0_1) withdrawnRun) := by
  rintro ⟨h, -⟩
  have hstep := h [.handle 1 (.connected .v2_0_1),
    .callWith 1 "StatusNotification" .emptyObject {}, .shutdown 2 60000] (.cancel 0) [] rfl
  have hover := hstep.completes (Or.inl (by decide +kernel)) (by decide +kernel) (by decide +kernel)
  exact absurd hover.2 (by decide +kernel)

end OcppKit.Reference
