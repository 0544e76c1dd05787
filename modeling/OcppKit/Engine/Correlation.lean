import OcppKit.Engine.Order

/-!
# A call's answer is its own

At most one `CALL` is outstanding, and an answer is matched with it by its id:
`OcppKit.call_correlates`.

The step lemma is `OcppKit.exec_slot`: an operation transmits at most one `CALL`, and
only when the slot is empty or the operation itself settles what is in it. From it
the slot can be followed through a run (`OcppKit.outstanding_or_settled`), and an
invariant ties it to the history: what is in the slot is the last `CALL` that was
transmitted (`OcppKit.LastSent`).
-/

namespace OcppKit

variable [Externals]

open Engine

variable {S : Type}

/-! ### The calls of a history -/

/-- The `CALL`s a history transmits, each under its id, in order. -/
def callsSent (log : List Event) : List (MessageId × Pending) :=
  log.filterMap fun
    | .sent id entry => if entry.kind = .call then some (id, entry) else none
    | _ => none

theorem callsSent_append (l l' : List Event) : callsSent (l ++ l') = callsSent l ++ callsSent l' :=
  List.filterMap_append

/-- The calls of a history are the attempts of its outbox. -/
theorem attempts_outboxHistory (log : List Event) :
    Outbox.attempts policy (outboxHistory log) =
      (callsSent log).map fun p => (p.1, p.2.item) := by
  induction log with
  | nil => rfl
  | cons event log ih =>
      rcases event with _ | o | _ | ⟨id, entry⟩ | _ | _ | _ | _
      case out => rcases o with _ | _ | _ | _ | _ | _ | _ | _ | _ | _ <;> exact ih
      case sent =>
        rw [outboxHistory_cons_of_some rfl]
        rcases hkind : entry.kind with _ | _
        · have hex : policy.exempt entry.item.body = false :=
            decide_eq_false (by simp [Pending.item, Pending.message, hkind])
          rw [Outbox.attempts_sent_of_neg id hex, ih]
          simp [callsSent, hkind]
        · have hex : policy.exempt entry.item.body = true := decide_eq_true hkind
          rw [Outbox.attempts_sent_of_pos id hex, ih]
          simp [callsSent, hkind]
      all_goals exact ih

variable [MessageStore S]

/-- The `CALL`s an operation transmits. -/
def sentBy (e : Engine S) (op : Op) : List (MessageId × Pending) := callsSent (newEvents e op)

theorem outboxHistory_exec (e : Engine S) (op : Op) :
    outboxHistory (exec e op).log = outboxHistory e.log ++ outboxHistory (newEvents e op) := by
  rw [log_exec, outboxHistory_append]

theorem callsSent_exec (e : Engine S) (op : Op) :
    callsSent (exec e op).log = callsSent e.log ++ sentBy e op := by
  rw [log_exec, callsSent_append, sentBy]

/-! ### The slot, step by step -/

/-- **What an operation does with the slot**: it transmits no `CALL`, and the slot
stays as it is unless it is settled; or it transmits one, which takes the slot, and
what was in the slot is settled. -/
theorem exec_slot (e : Engine S) (op : Op) :
    (sentBy e op = [] ∧
      ((exec e op).inflight.map InFlight.flight = e.inflight.map InFlight.flight ∨
        Settles e op ∧ (exec e op).inflight = none)) ∨
    ∃ id entry f, sentBy e op = [(id, entry)] ∧ (e.inflight = none ∨ Settles e op) ∧
      (exec e op).inflight = some f ∧ f.flight = entry.item.launch policy id := by
  have hnone : ∀ {s : Option InFlight}, s.map InFlight.flight = none → s = none :=
    fun h => Option.map_eq_none_iff.mp h
  have hsent : ∀ {id : MessageId} {item : Outbox.Item Message},
      Outbox.attempts policy (outboxHistory (newEvents e op)) = [(id, item)] →
        (exec e op).inflight.map InFlight.flight = some (item.launch policy id) →
        ∃ id entry f, sentBy e op = [(id, entry)] ∧ (exec e op).inflight = some f ∧
          f.flight = entry.item.launch policy id := by
    intro id item ha hslot
    rw [attempts_outboxHistory] at ha
    obtain ⟨p, hp, hpe⟩ := List.map_eq_singleton_iff.mp ha
    obtain ⟨f, hf, hflight⟩ := Option.map_eq_some_iff.mp hslot
    obtain ⟨id', entry⟩ := p
    obtain ⟨rfl, rfl⟩ : id' = id ∧ entry.item = item := by simpa using hpe
    exact ⟨id', entry, f, hp, hf, hflight⟩
  rcases exec_outbox e op with hkeep | ⟨hsettles, mid, hfree, hkeep⟩
  · obtain ⟨new, hnew, hslot⟩ := hkeep.slotKept
    obtain rfl : outboxHistory (newEvents e op) = new :=
      List.append_cancel_left ((outboxHistory_exec e op).symm.trans hnew)
    rcases hslot with ⟨ha, hslot⟩ | ⟨hempty, id, item, ha, hslot⟩
    · rw [attempts_outboxHistory, List.map_eq_nil_iff] at ha
      exact Or.inl ⟨ha, Or.inl hslot⟩
    · obtain ⟨id, entry, f, hs, hf, hflight⟩ := hsent ha hslot
      exact Or.inr ⟨id, entry, f, hs, Or.inl (hnone hempty), hf, hflight⟩
  · obtain ⟨hempty, n₁, hn₁, ha₁⟩ := hfree.slot
    obtain ⟨n₂, hn₂, hslot⟩ := hkeep.slotKept
    have hnew : outboxHistory (newEvents e op) = n₁ ++ n₂ := by
      refine List.append_cancel_left ((outboxHistory_exec e op).symm.trans (hn₂.trans ?_))
      rw [hn₁, List.append_assoc]
      rfl
    have ha : Outbox.attempts policy (outboxHistory (newEvents e op)) =
        Outbox.attempts policy n₂ := by
      rw [hnew, Outbox.attempts_append, ha₁, List.nil_append]
    rcases hslot with ⟨ha₂, hslot⟩ | ⟨-, id, item, ha₂, hslot⟩
    · rw [ha₂, attempts_outboxHistory, List.map_eq_nil_iff] at ha
      exact Or.inl ⟨ha, Or.inr ⟨hsettles, hnone (hslot.trans hempty)⟩⟩
    · obtain ⟨id, entry, f, hs, hf, hflight⟩ := hsent (ha.trans ha₂) hslot
      exact Or.inr ⟨id, entry, f, hs, Or.inr hsettles, hf, hflight⟩

/-! ### The slot through a run -/

/-- **The operation settles the attempt with this id**: an answer with this id
arrives, the deadline of the attempt has passed, or the connection goes away. -/
def SettlesAttempt (e : Engine S) (id : MessageId) : Op → Prop
  | .handle _ (.received text) =>
      (∃ payload, Frame.parse text e.version = .ok (.callResult id payload)) ∨
        ∃ error, Frame.parse text e.version = .ok (.callError id error)
  | .handle now .timeout =>
      ∃ f, e.inflight = some f ∧ f.id = id ∧ f.deadline ≤ (e.advance now).now
  | .handle _ .disconnected => True
  | _ => False

omit [MessageStore S] in
theorem settlesAttempt_of_settles {e : Engine S} {op : Op} {f : InFlight}
    (hf : e.inflight = some f) (h : Settles e op) : SettlesAttempt e f.id op := by
  rcases op with ⟨now, input⟩ | _ | _ | _ | _ | _ | _ | _ | _ | _ | _
  case handle =>
    rcases input with _ | text | _ | _
    · exact h
    · obtain ⟨g, hg, hanswer⟩ := h
      obtain rfl : f = g := Option.some.inj (hf.symm.trans hg)
      exact hanswer
    · trivial
    · obtain ⟨g, hg, hdeadline⟩ := h
      obtain rfl : f = g := Option.some.inj (hf.symm.trans hg)
      exact ⟨f, hf, rfl, hdeadline⟩
  all_goals exact h

/-- Some operation of the list settles the attempt, in the run from this engine. -/
def SettledIn (e : Engine S) (id : MessageId) (ops : List Op) : Prop :=
  ∃ before op after, ops = before ++ op :: after ∧ SettlesAttempt (run e before) id op

theorem SettledIn.cons {e : Engine S} {id : MessageId} {op : Op} {ops : List Op}
    (h : SettledIn (exec e op) id ops) : SettledIn e id (op :: ops) := by
  obtain ⟨before, op', after, rfl, hs⟩ := h
  exact ⟨op :: before, op', after, rfl, hs⟩

/-- **An attempt is outstanding until it is settled.** -/
theorem outstanding_or_settled {e : Engine S} {f : InFlight} (hf : e.inflight = some f)
    (ops : List Op) :
    SettledIn e f.id ops ∨ ∃ g, (run e ops).inflight = some g ∧ g.flight = f.flight := by
  induction ops generalizing e f with
  | nil => exact Or.inr ⟨f, hf, rfl⟩
  | cons op ops ih =>
      by_cases hs : Settles e op
      · exact Or.inl ⟨[], op, ops, rfl, settlesAttempt_of_settles hf hs⟩
      · have hkept : (exec e op).inflight.map InFlight.flight = some f.flight := by
          rcases exec_slot e op with ⟨-, hkept | ⟨hs', -⟩⟩ | ⟨_, _, _, -, hempty | hs', -⟩
          · rw [hkept, hf, Option.map_some]
          · exact absurd hs' hs
          · exact absurd (hf.symm.trans hempty) (by simp)
          · exact absurd hs' hs
        obtain ⟨g, hg, hflight⟩ := Option.map_eq_some_iff.mp hkept
        have hid : g.id = f.id := congrArg Outbox.Flight.id hflight
        rcases ih hg with hsettled | ⟨g', hg', hflight'⟩
        · exact Or.inl (hid ▸ hsettled).cons
        · exact Or.inr ⟨g', hg', hflight'.trans hflight⟩

/-! ### What is in the slot is what was sent last -/

/-- **What is in the slot is the last `CALL` that was transmitted.** -/
def LastSent (e : Engine S) : Prop :=
  ∀ f, e.inflight = some f → ∃ before entry, callsSent e.log = before ++ [(f.id, entry)] ∧
    f.flight = entry.item.launch policy f.id

theorem lastSent_exec {e : Engine S} (h : LastSent e) (op : Op) : LastSent (exec e op) := by
  intro f hf
  rw [callsSent_exec]
  rcases exec_slot e op with ⟨hs, hkept | ⟨-, hempty⟩⟩ | ⟨id, entry, g, hs, -, hg, hflight⟩
  · rw [hf, Option.map_some] at hkept
    obtain ⟨g, hg, hflight⟩ := Option.map_eq_some_iff.mp hkept.symm
    have hid : g.id = f.id := congrArg Outbox.Flight.id hflight
    obtain ⟨before, entry, hlast, hlaunch⟩ := h g hg
    exact ⟨before, entry, by rw [hs, List.append_nil, hlast, hid], hid ▸ hflight ▸ hlaunch⟩
  · exact absurd (hf.symm.trans hempty) (by simp)
  · obtain rfl : f = g := Option.some.inj (hf.symm.trans hg)
    have hid : f.id = id := congrArg Outbox.Flight.id hflight
    exact ⟨callsSent e.log, entry, by rw [hs, hid], hid.symm ▸ hflight⟩

theorem lastSent_run {config : EngineConfig} {store : S} {ids : ℕ → MessageId}
    {e₀ : Engine S} (h : Engine.withStore config store ids = .ok e₀) (ops : List Op) :
    LastSent (run e₀ ops) := by
  refine run_invariant LastSent (fun e op he => lastSent_exec he op) ?_ ops
  obtain ⟨records, -, hload⟩ := withStore_outbox h
  intro f hf
  have hslot : e₀.inflight.map InFlight.flight = none :=
    congrArg Outbox.State.slot hload
  rw [hf] at hslot
  exact absurd hslot (by simp)

/-- The attempt with this id was transmitted and is over: another `CALL` has been
transmitted since, or nothing is outstanding. -/
def Abandoned (e : Engine S) (id : MessageId) : Prop :=
  ∃ before entry after, callsSent e.log = before ++ (id, entry) :: after ∧
    (after ≠ [] ∨ e.inflight = none)

omit [MessageStore S] in
/-- With distinct ids, an abandoned attempt is not in the slot. -/
theorem ne_of_abandoned {e : Engine S} (hlast : LastSent e)
    (hids : ((callsSent e.log).map Prod.fst).Nodup) {id : MessageId} (h : Abandoned e id) :
    ∀ f, e.inflight = some f → f.id ≠ id := by
  rintro f hf rfl
  obtain ⟨before, entry, after, hsplit, hover⟩ := h
  obtain ⟨before', entry', hlast, -⟩ := hlast f hf
  rcases hover with hafter | hempty
  · obtain ⟨after', last, rfl⟩ := List.eq_nil_or_concat after |>.resolve_left hafter
    rw [hsplit, List.concat_eq_append, ← List.cons_append, ← List.append_assoc] at hlast
    obtain ⟨-, hlast⟩ := List.append_inj' hlast rfl
    obtain rfl : last = (f.id, entry') := by simpa using hlast
    rw [hsplit] at hids
    simp [List.nodup_append] at hids
  · exact absurd (hf.symm.trans hempty) (by simp)

/-- An answer to nothing outstanding is only reported. -/
theorem reports_stale {e : Engine S} {text : String} {frame : Frame} (now : Instant)
    (hparse : Frame.parse text e.version = .ok frame)
    (htype : frame.messageType = .callResult ∨ frame.messageType = .callError)
    (hne : ∀ f, e.inflight = some f → f.id ≠ frame.id) :
    Reports (fed e now (.received text)) (exec e (.handle now (.received text))) [] := by
  change Reports _ ((fed e now (.received text)).onReceived text) []
  rw [onReceived]
  have hr := reports_armHeartbeat (fed e now (.received text))
  generalize (fed e now (.received text)).armHeartbeat = e₁ at hr
  have hversion : e₁.version = e.version := congrArg Setting.version hr.setting
  rw [hversion, hparse]
  dsimp only
  refine hr.trans (?_ : Reports e₁ _ [])
  unfold onFrame
  have hc := reports_checkId e₁ frame.id
  generalize (if frame.id.isConforming then e₁
    else e₁.violate (.nonConformingMessageId frame.id)) = e₂ at hc
  refine hc.trans (?_ : Reports e₂ _ [])
  have hne₂ : ∀ f, e₂.inflight = some f → f.id ≠ frame.id := fun f hf =>
    hne f ((hc.inflight.trans hr.inflight).symm.trans hf)
  rcases frame with _ | ⟨id, payload⟩ | ⟨id, error⟩ | _ | _
  · simp [Frame.messageType] at htype
  · have hv := onCallResult_of_ne (show ∀ f, e₂.inflight = some f → f.id ≠ id from hne₂) payload
    simp only [hv]
    exact reports_violate e₂ _
  · have hv := onCallError_of_ne (show ∀ f, e₂.inflight = some f → f.id ≠ id from hne₂) error
    simp only [hv]
    exact reports_violate e₂ _
  · simp [Frame.messageType] at htype
  · simp [Frame.messageType] at htype

/-! ### Answers -/

/-- The frame answers the outstanding call in this way. -/
def AnswerFrame (f : InFlight) (frame : Frame) (v : Verdict) : Prop :=
  (∃ payload, frame = .callResult f.id payload ∧ v = .ok (.result payload)) ∨
    ∃ error, frame = .callError f.id error ∧ v = .error (.rejected error.toCallError)

/-- **An outcome that carries an answer is emitted only while a frame is processed
that answers the outstanding call**, and it is the outcome of that call. -/
theorem answer_of_outcome {e : Engine S} {op : Op} {o : CallOutcome}
    (h : .out (.outcome o) ∈ newEvents e op) (hanswer : isAnswer o.result = true) :
    ∃ now text f frame, op = .handle now (.received text) ∧
      Frame.parse text e.version = .ok frame ∧ e.inflight = some f ∧
      AnswerFrame f frame o.result ∧ o.token = f.token ∧ o.id = some f.id ∧
      o.action = f.action := by
  have hleft : Event.out (.outcome o) ∈ foreign (newEvents e op) :=
    List.mem_filter.mpr ⟨h, by simp [Event.own, Output.own, hanswer]⟩
  have heffect := (newEvents_effect e op).1
  generalize foreign (newEvents e op) = left at hleft heffect
  generalize (exec e op).setting = s at heffect
  cases heffect with
  | malformed now text error _ =>
      simp only [replyMarks] at hleft
      split at hleft <;> simp at hleft
  | answered now text f payload r hparse hf _ =>
      obtain rfl : o = ⟨f.token, some f.id, f.action, .ok (.result payload)⟩ := by
        simpa using hleft
      exact ⟨now, text, f, _, rfl, hparse, hf, Or.inl ⟨payload, rfl, rfl⟩, rfl, rfl, rfl⟩
  | answeredError now text f error hparse hf =>
      obtain rfl : o = ⟨f.token, some f.id, f.action, .error (.rejected error.toCallError)⟩ := by
        simpa using hleft
      exact ⟨now, text, f, _, rfl, hparse, hf, Or.inr ⟨error, rfl, rfl⟩, rfl, rfl, rfl⟩
  | _ => simp at hleft

omit [MessageStore S] in
theorem outcomes_of_history {evs : List Event} (h : outboxHistory evs = []) :
    outcomes evs = [] := by
  have htokens := resolvedTokens_outboxHistory evs
  rw [h] at htokens
  exact List.map_eq_nil_iff.mp htokens.symm

/-- **At most one `CALL` is outstanding, and its result is its own.** In every run:
an operation transmits at most one `CALL`; between two of them the earlier one is
settled; a result is reported only while a `CALLRESULT` is processed that has the id
of the outstanding call; and, ids being distinct, an answer to an abandoned attempt
changes nothing about any call. -/
theorem call_correlates {config : EngineConfig} {store : S} {ids : ℕ → MessageId}
    {e₀ : Engine S} (h : Engine.withStore config store ids = .ok e₀) (ops : List Op) :
    (∀ op, Marked (exec (run e₀ ops) op).version (newEvents (run e₀ ops) op) ∧
      (sentBy (run e₀ ops) op).length ≤ 1) ∧
    (∀ op₁ mid op₂ id₁ a id₂ b, (id₁, a) ∈ sentBy (run e₀ ops) op₁ →
      (id₂, b) ∈ sentBy (run e₀ (ops ++ op₁ :: mid)) op₂ →
      SettledIn (run e₀ (ops ++ [op₁])) id₁ (mid ++ [op₂])) ∧
    (∀ op o payload, .out (.outcome o) ∈ newEvents (run e₀ ops) op →
      o.result = .ok (.result payload) →
      ∃ now text f, op = .handle now (.received text) ∧
        Frame.parse text (run e₀ ops).version = .ok (.callResult f.id payload) ∧
        (run e₀ ops).inflight = some f ∧ o.token = f.token ∧ o.id = some f.id) ∧
    (((callsSent (run e₀ ops).log).map Prod.fst).Nodup →
      ∀ now text frame, Frame.parse text (run e₀ ops).version = .ok frame →
      (frame.messageType = .callResult ∨ frame.messageType = .callError) →
      Abandoned (run e₀ ops) frame.id →
      ∀ e', e' = exec (run e₀ ops) (.handle now (.received text)) →
        e'.queue = (run e₀ ops).queue ∧ e'.inflight = (run e₀ ops).inflight ∧
        e'.store = (run e₀ ops).store ∧ outcomes e'.log = outcomes (run e₀ ops).log ∧
        callsSent e'.log = callsSent (run e₀ ops).log) := by
  refine ⟨fun op => ⟨(newEvents_effect _ op).2, ?_⟩, ?_, ?_, ?_⟩
  · rcases exec_slot (run e₀ ops) op with ⟨hs, -⟩ | ⟨id, entry, f, hs, -⟩
    · rw [hs]
      exact Nat.zero_le 1
    · rw [hs]
      exact le_rfl
  · intro op₁ mid op₂ id₁ a id₂ b h₁ h₂
    rw [run_concat]
    rw [run_append, run_cons] at h₂
    -- the first call is in the slot after its operation
    rcases exec_slot (run e₀ ops) op₁ with ⟨hs, -⟩ | ⟨id, entry, f, hs, -, hf, hflight⟩
    · rw [hs] at h₁
      exact absurd h₁ List.not_mem_nil
    rw [hs] at h₁
    have hid : f.id = id₁ := by
      have hpair := List.mem_singleton.mp h₁
      exact (congrArg Outbox.Flight.id hflight).trans (congrArg Prod.fst hpair).symm
    rcases outstanding_or_settled hf mid with hsettled | ⟨g, hg, hgf⟩
    · obtain ⟨before, op, after, rfl, hs⟩ := hsettled
      exact ⟨before, op, after ++ [op₂], by simp, hid ▸ hs⟩
    · -- it is still there, so the operation that transmits the second one settles it
      rcases exec_slot (run (exec (run e₀ ops) op₁) mid) op₂ with
        ⟨hs, -⟩ | ⟨_, _, _, -, hempty | hsettles, -⟩
      · rw [hs] at h₂
        exact absurd h₂ List.not_mem_nil
      · exact absurd (hg.symm.trans hempty) (by simp)
      · refine ⟨mid, op₂, [], rfl, ?_⟩
        have hgid : g.id = id₁ := (congrArg Outbox.Flight.id hgf).trans hid
        exact hgid ▸ settlesAttempt_of_settles hg hsettles
  · intro op o payload hmem hresult
    obtain ⟨now, text, f, frame, hop, hparse, hf, hanswer, htoken, hid, -⟩ :=
      answer_of_outcome hmem (by rw [hresult]; rfl)
    rcases hanswer with ⟨payload', rfl, hv⟩ | ⟨error, -, hv⟩
    · obtain rfl : payload = payload' := by simpa [hresult] using hv
      exact ⟨now, text, f, hop, hparse, hf, htoken, hid⟩
    · rw [hresult] at hv
      exact absurd hv (by simp)
  · rintro hids now text frame hparse htype habandoned _ rfl
    have hr := reports_stale now hparse htype
      (ne_of_abandoned (lastSent_run h ops) hids habandoned)
    obtain ⟨evs, hlog, hhist, -⟩ := hr.log
    refine ⟨hr.queue, hr.inflight, hr.store, ?_, ?_⟩
    · rw [hlog, outcomes_append, outcomes_of_history hhist, List.append_nil, fed, note,
        outcomes_append]
      exact List.append_nil _
    · have hcalls : callsSent evs = [] := by
        have hattempts := attempts_outboxHistory evs
        rw [hhist] at hattempts
        exact List.map_eq_nil_iff.mp hattempts.symm
      rw [hlog, callsSent_append, hcalls, List.append_nil, fed, note, callsSent_append]
      exact List.append_nil _

end OcppKit

/-! ### A run -/

namespace OcppKit.Reference

/-- The first transaction event times out, and the next call goes out. -/
def lateRun : List Op := stationRun ++ [.handle 40000 .timeout]

/-- The late answer to the transaction event settles nothing: the call that is
outstanding by then stays, and so does the transaction event in the queue. -/
theorem call_correlates_lateRun :
    Abandoned (run (station .v2_0_1) lateRun) ⟨"s1"⟩ ∧
    ∀ e', e' = exec (run (station .v2_0_1) lateRun)
        (.handle 40001 (.received "[3,\"s1\",{}]")) →
      e'.queue = (run (station .v2_0_1) lateRun).queue ∧
      e'.inflight = (run (station .v2_0_1) lateRun).inflight ∧
      e'.store = (run (station .v2_0_1) lateRun).store ∧
      outcomes e'.log = outcomes (run (station .v2_0_1) lateRun).log ∧
      callsSent e'.log = callsSent (run (station .v2_0_1) lateRun).log := by
  have hcalls : (callsSent (run (station .v2_0_1) lateRun).log).map Prod.fst =
      [⟨"s0"⟩, ⟨"s1"⟩, ⟨"s2"⟩] := by decide +kernel
  have habandoned : Abandoned (run (station .v2_0_1) lateRun) ⟨"s1"⟩ := by
    rcases hc : callsSent (run (station .v2_0_1) lateRun).log with _ | ⟨a, _ | ⟨b, rest⟩⟩ <;>
      rw [hc] at hcalls
    · exact absurd hcalls (by simp)
    · exact absurd hcalls (by simp)
    · simp only [List.map_cons, List.cons.injEq] at hcalls
      refine ⟨[a], b.2, rest, by rw [hc, ← hcalls.2.1]; rfl, Or.inl ?_⟩
      rintro rfl
      exact absurd hcalls.2.2 (by simp)
  have hids : ((callsSent (run (station .v2_0_1) lateRun).log).map Prod.fst).Nodup := by
    rw [hcalls]
    decide
  refine ⟨habandoned, ?_⟩
  exact (call_correlates (withStore_station .v2_0_1) lateRun).2.2.2 hids 40001 "[3,\"s1\",{}]"
    (.callResult ⟨"s1"⟩ RawValue.emptyObject) (by decide +kernel) (Or.inl rfl) habandoned

end OcppKit.Reference
