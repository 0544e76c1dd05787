import OcppKit.Engine.Peer

/-!
# Every inbound call is answered once

`OcppKit.inbound_answeredOnce`: every `CALL` that arrives is delivered or refused;
a delivered one can be answered once, by one frame, on its own connection; and a
`SEND` is never answered.

Most of it is read off the effects of single operations, over the table of
`OcppKit.Engine.Peer`. That nothing else is transmitted at the same time is because
these operations leave the outbox alone (`OcppKit.texts_of_quiet`); that an id can be
answered again only after it has been delivered again is an induction over the
operations in between (`OcppKit.deliveredIn_of_mem`).
-/

namespace OcppKit

variable [Externals]

open Engine

/-! ### What goes on the wire -/

/-- The requests a history hands to the application, in order. -/
def requests (evs : List Event) : List IncomingRequest :=
  evs.filterMap fun
    | .out (.request r) => some r
    | _ => none

theorem requests_foreign (evs : List Event) : requests (foreign evs) = requests evs := by
  induction evs with
  | nil => rfl
  | cons event evs ih =>
      rcases hown : event.own with _ | _
      · rw [foreign, List.filter_cons_of_pos (by simp [hown]), ← foreign, requests, requests,
          List.filterMap_cons, List.filterMap_cons, ← requests, ih, ← requests]
      · rw [foreign, List.filter_cons_of_neg (by simp [hown]), ← foreign, ih]
        rcases event with i | o | _ | _ | _ | _ | _ | _
        case out => rcases o with _ | _ | _ | _ | _ | _ | _ | _ | _ | _ <;> first | rfl | cases hown
        all_goals rfl

/-- Where nothing is accepted, sent or settled, the marks are not the engine's own. -/
theorem frames_of_quiet {evs : List Event} (h : outboxHistory evs = []) :
    frames evs = frames (foreign evs) := by
  induction evs with
  | nil => rfl
  | cons event evs ih =>
      have hnone : event.ev = none := by
        rcases hev : event.ev with _ | x
        · rfl
        · rw [outboxHistory_cons_of_some hev] at h
          exact absurd h (by simp)
      rw [outboxHistory_cons_of_none hnone] at h
      rcases hown : event.own with _ | _
      · rw [foreign, List.filter_cons_of_pos (by simp [hown]), ← foreign, frames, frames,
          List.filterMap_cons, List.filterMap_cons, ← frames, ih h, ← frames]
      · rw [foreign, List.filter_cons_of_neg (by simp [hown]), ← foreign, ← ih h, frames, frames]
        refine List.filterMap_cons_none ?_
        rcases event with _ | _ | _ | _ | _ | _ | _ | _
        case sent => cases hnone
        all_goals first | rfl | cases hown

/-- Every frame can be written. -/
theorem Frame.toJson_ok [LawfulExternals] (frame : Frame) (version : Version) :
    ∃ text, frame.toJson version = .ok text :=
  LawfulExternals.writeTuple_ok _

theorem Frame.text_of_toJson {frame : Frame} {version : Version} {text : String}
    (h : frame.toJson version = .ok text) : frame.text version = some text := by
  rw [Frame.text, h, Except.toOption]

variable {S : Type} [MessageStore S]

/-- An operation that leaves the outbox alone puts on the wire what it marks as an
answer, and nothing else. -/
theorem texts_of_quiet {e : Engine S} {op : Op}
    (h : (exec e op).outbox none = e.outbox none) :
    texts (newEvents e op) =
      (frames (foreign (newEvents e op))).filterMap (Frame.text (exec e op).version) := by
  have hhist : outboxHistory (newEvents e op) = [] := by
    have hlog := outboxHistory_exec e op
    rw [show outboxHistory (exec e op).log = outboxHistory e.log from
      congrArg Outbox.State.hist h] at hlog
    exact List.self_eq_append_right.mp hlog
  rw [(newEvents_effect e op).2, written, frames_of_quiet hhist]

/-- What receiving a text that carries no answer puts on the wire. -/
theorem texts_received (e : Engine S) (now : Instant) {text : String}
    (h : ∀ frame, Frame.parse text e.version = .ok frame → NoAnswer frame) :
    texts (newEvents e (.handle now (.received text))) =
      (frames (foreign (newEvents e (.handle now (.received text))))).filterMap
        (Frame.text (exec e (.handle now (.received text))).version) := by
  refine texts_of_quiet (Eq.trans ?_ (outbox_fed e now (.received text) none))
  exact outbox_onReceived (fed e now (.received text)) h

/-! ### Requests that arrive -/

/-- **What becomes of a `CALL`**: it is handed over and its id is entered in the table,
and nothing is transmitted; or it is not, and one `CALLERROR` is. -/
def CallHandled (e : Engine S) (op : Op) (id : MessageId) (action : String)
    (payload : RawValue) : Prop :=
  (requests (newEvents e op) = [⟨id, action, payload, .call⟩] ∧
    (exec e op).peerInflight = insert id e.peerInflight ∧ id ∉ e.peerInflight ∧
    texts (newEvents e op) = []) ∨
  (requests (newEvents e op) = [] ∧ (exec e op).peerInflight = e.peerInflight ∧
    ∃ error text, (Frame.callError id error).toJson e.version = .ok text ∧
      texts (newEvents e op) = [text])

theorem callHandled [LawfulExternals] {e : Engine S} {now : Instant} {text : String}
    {id : MessageId} {action : String} {payload : RawValue}
    (hparse : Frame.parse text e.version = .ok (.call id action payload)) :
    CallHandled e (.handle now (.received text)) id action payload := by
  have htexts := texts_received e now fun frame (hframe : Frame.parse text e.version = _) => by
    obtain rfl : Frame.call id action payload = frame :=
      Except.ok.inj (hparse.symm.trans hframe)
    exact ⟨nofun, nofun⟩
  have heffect := (newEvents_effect e (.handle now (.received text))).1
  have hpeer : (exec e (.handle now (.received text))).peerInflight =
      (exec e (.handle now (.received text))).setting.peerInflight := rfl
  have hversion : (exec e (.handle now (.received text))).version =
      (exec e (.handle now (.received text))).setting.version := rfl
  rw [CallHandled, ← requests_foreign, htexts, hpeer, hversion]
  generalize (exec e (.handle now (.received text))).setting = s at heffect
  generalize foreign (newEvents e (.handle now (.received text))) = left at heffect
  cases heffect with
  | refused _ _ id' action' payload' error hparse' _ =>
      obtain ⟨rfl, rfl, rfl⟩ : id = id' ∧ action = action' ∧ payload = payload' := by
        simpa using hparse.symm.trans hparse'
      obtain ⟨text', htext'⟩ := (Frame.callError id error.toRef).toJson_ok e.version
      refine Or.inr ⟨rfl, rfl, error.toRef, text', htext', ?_⟩
      exact List.filterMap_cons_some (Frame.text_of_toJson htext')
  | delivered _ _ id' action' payload' kind hparse' hwelcome =>
      rcases kind with _ | _
      · obtain ⟨rfl, rfl, rfl⟩ : id = id' ∧ action = action' ∧ payload = payload' := by
          simpa [requestFrame] using hparse.symm.trans hparse'
        exact Or.inl ⟨rfl, rfl, hwelcome.id_notMem, rfl⟩
      · exact absurd (hparse.symm.trans hparse') (by simp [requestFrame])
  | malformed _ _ error hparse' => exact absurd (hparse.symm.trans hparse') (by simp)
  | dropped _ _ _ _ _ _ hparse' _ => exact absurd (hparse.symm.trans hparse') (by simp)
  | unexpected _ _ frame hparse' htype _ =>
      obtain rfl : Frame.call id action payload = frame :=
        Except.ok.inj (hparse.symm.trans hparse')
      simp [Frame.messageType] at htype
  | answered _ _ f _ _ hparse' _ _ => exact absurd (hparse.symm.trans hparse') (by simp)
  | answeredError _ _ f _ hparse' _ => exact absurd (hparse.symm.trans hparse') (by simp)
  | resultRejected _ _ _ _ hparse' => exact absurd (hparse.symm.trans hparse') (by simp)

/-- **A `SEND` is never answered**, and never enters the table. -/
theorem send_unanswered {e : Engine S} {now : Instant} {text : String} {id : MessageId}
    {action : String} {payload : RawValue}
    (hparse : Frame.parse text e.version = .ok (.send id action payload)) :
    (exec e (.handle now (.received text))).peerInflight = e.peerInflight ∧
      texts (newEvents e (.handle now (.received text))) = [] := by
  have htexts := texts_received e now fun frame (hframe : Frame.parse text e.version = _) => by
    obtain rfl : Frame.send id action payload = frame :=
      Except.ok.inj (hparse.symm.trans hframe)
    exact ⟨nofun, nofun⟩
  have heffect := (newEvents_effect e (.handle now (.received text))).1
  have hpeer : (exec e (.handle now (.received text))).peerInflight =
      (exec e (.handle now (.received text))).setting.peerInflight := rfl
  rw [htexts, hpeer]
  generalize (exec e (.handle now (.received text))).setting = s at heffect
  generalize foreign (newEvents e (.handle now (.received text))) = left at heffect
  cases heffect with
  | refused _ _ _ _ _ _ hparse' _ => exact absurd (hparse.symm.trans hparse') (by simp)
  | delivered _ _ id' action' payload' kind hparse' _ =>
      rcases kind with _ | _
      · exact absurd (hparse.symm.trans hparse') (by simp [requestFrame])
      · exact ⟨rfl, rfl⟩
  | malformed _ _ error hparse' => exact absurd (hparse.symm.trans hparse') (by simp)
  | dropped _ _ _ _ _ _ _ _ => exact ⟨rfl, rfl⟩
  | unexpected _ _ frame _ _ _ => exact ⟨rfl, rfl⟩
  | answered _ _ f _ _ hparse' _ _ => exact absurd (hparse.symm.trans hparse') (by simp)
  | answeredError _ _ f _ hparse' _ => exact absurd (hparse.symm.trans hparse') (by simp)
  | resultRejected _ _ _ _ hparse' => exact absurd (hparse.symm.trans hparse') (by simp)

/-! ### Answers that are given -/

/-- The id an operation answers, and whether that succeeds. -/
def answerResult (e : Engine S) : Op → Option (MessageId × Except EngineError Unit)
  | .respond now id payload => some (id, (e.respond now id payload).1)
  | .respondError now id error => some (id, (e.respondError now id error).1)
  | _ => none

omit [MessageStore S] in
theorem takePeerRequest_of_mem {e : Engine S} {id : MessageId} (h : id ∈ e.peerInflight) :
    e.takePeerRequest id = (.ok (), { e with peerInflight := e.peerInflight.erase id }) :=
  if_pos h

omit [MessageStore S] in
theorem takePeerRequest_of_notMem {e : Engine S} {id : MessageId} (h : id ∉ e.peerInflight) :
    e.takePeerRequest id = (.error (.noSuchRequest id), e) :=
  if_neg h

/-- The frame an operation answers with. -/
def answerFrame : Op → Option Frame
  | .respond _ id payload => some (.callResult id payload)
  | .respondError _ id error => some (.callError id error.toRef)
  | _ => none

/-- **An answer that is given**: the request was pending and is not any more, and one
frame with its id is transmitted. -/
theorem answer_ok [LawfulExternals] {e : Engine S} {op : Op} {id : MessageId}
    (h : answerResult e op = some (id, .ok ())) :
    id ∈ e.peerInflight ∧ (exec e op).peerInflight = e.peerInflight.erase id ∧
      ∃ frame text, answerFrame op = some frame ∧ frame.id = id ∧
        frame.toJson e.version = .ok text ∧ texts (newEvents e op) = [text] := by
  have heffect := (newEvents_effect e op).1
  have hpeer : (exec e op).peerInflight = (exec e op).setting.peerInflight := rfl
  have hversion : (exec e op).version = (exec e op).setting.version := rfl
  rcases op with _ | _ | ⟨now, id', payload⟩ | ⟨now, id', error⟩ | _ | _ | _ | _ | _ | _ | _
  case respond =>
    have htexts := texts_of_quiet (show (exec e (.respond now id' payload)).outbox none = _ from
      outbox_respond e now id' payload)
    have hmem : id' ∈ e.peerInflight := by
      by_contra hid
      simp [answerResult, respond, takePeerRequest_of_notMem (e := e.advance now) hid] at h
    obtain rfl : id' = id := by
      simp only [answerResult, Option.some.injEq, Prod.mk.injEq] at h
      exact h.1
    rw [htexts, hpeer, hversion]
    generalize (exec e (.respond now id' payload)).setting = s at heffect
    generalize foreign (newEvents e (.respond now id' payload)) = left at heffect
    cases heffect with
    | responded _ _ _ _ =>
        obtain ⟨text, htext⟩ := (Frame.callResult id' payload).toJson_ok e.version
        exact ⟨hmem, rfl, _, text, rfl, rfl, htext,
          List.filterMap_cons_some (Frame.text_of_toJson htext)⟩
    | notResponded _ _ _ hnot => exact absurd hmem hnot
  case respondError =>
    have htexts := texts_of_quiet (show (exec e (.respondError now id' error)).outbox none = _ from
      outbox_respondError e now id' error)
    have hmem : id' ∈ e.peerInflight := by
      by_contra hid
      simp [answerResult, respondError, takePeerRequest_of_notMem (e := e.advance now) hid] at h
    obtain rfl : id' = id := by
      simp only [answerResult, Option.some.injEq, Prod.mk.injEq] at h
      exact h.1
    rw [htexts, hpeer, hversion]
    generalize (exec e (.respondError now id' error)).setting = s at heffect
    generalize foreign (newEvents e (.respondError now id' error)) = left at heffect
    cases heffect with
    | respondedError _ _ _ _ =>
        obtain ⟨text, htext⟩ := (Frame.callError id' error.toRef).toJson_ok e.version
        exact ⟨hmem, rfl, _, text, rfl, rfl, htext,
          List.filterMap_cons_some (Frame.text_of_toJson htext)⟩
    | notRespondedError _ _ _ hnot => exact absurd hmem hnot
  all_goals exact absurd h (by simp [answerResult])

/-- **An answer that fails**: there is no such request, and only the clock moves. -/
theorem answer_error {e : Engine S} {op : Op} {id : MessageId} {error : EngineError}
    (h : answerResult e op = some (id, .error error)) :
    error = .noSuchRequest id ∧ id ∉ e.peerInflight ∧ ∃ now, exec e op = e.advance now := by
  rcases op with _ | _ | ⟨now, id', payload⟩ | ⟨now, id', error'⟩ | _ | _ | _ | _ | _ | _ | _
  case respond =>
    by_cases hid : id' ∈ (e.advance now).peerInflight
    · simp [answerResult, respond, takePeerRequest_of_mem hid] at h
    · simp only [answerResult, respond, takePeerRequest_of_notMem hid, Option.some.injEq,
        Prod.mk.injEq, Except.error.injEq] at h
      obtain ⟨rfl, rfl⟩ := h
      exact ⟨rfl, hid, now, by simp only [exec, respond, takePeerRequest_of_notMem hid]⟩
  case respondError =>
    by_cases hid : id' ∈ (e.advance now).peerInflight
    · simp [answerResult, respondError, takePeerRequest_of_mem hid] at h
    · simp only [answerResult, respondError, takePeerRequest_of_notMem hid, Option.some.injEq,
        Prod.mk.injEq, Except.error.injEq] at h
      obtain ⟨rfl, rfl⟩ := h
      exact ⟨rfl, hid, now, by simp only [exec, respondError, takePeerRequest_of_notMem hid]⟩
  all_goals exact absurd h (by simp [answerResult])

/-! ### Through a run -/

/-- Some operation of the list delivers a call with this id, in the run from this
engine. -/
def DeliveredIn (e : Engine S) (id : MessageId) (ops : List Op) : Prop :=
  ∃ before op after r, ops = before ++ op :: after ∧
    r ∈ requests (newEvents (run e before) op) ∧ r.id = id ∧ r.kind = .call

/-- An id enters the table when a call with it is delivered. -/
theorem delivered_of_mem {e : Engine S} {op : Op} {id : MessageId} (hnot : id ∉ e.peerInflight)
    (hmem : id ∈ (exec e op).peerInflight) :
    ∃ r ∈ requests (newEvents e op), r.id = id ∧ r.kind = .call := by
  have heffect := (newEvents_effect e op).1
  rw [show (exec e op).peerInflight = (exec e op).setting.peerInflight from rfl] at hmem
  rw [← requests_foreign]
  generalize (exec e op).setting = s at heffect hmem
  generalize foreign (newEvents e op) = left at heffect
  cases heffect with
  | connected now version => exact absurd hmem (Finset.notMem_empty _)
  | disconnected now => exact absurd hmem (Finset.notMem_empty _)
  | delivered now text id' action payload kind _ _ =>
      rcases kind with _ | _
      · rcases Finset.mem_insert.mp hmem with rfl | hmem
        · exact ⟨⟨id, action, payload, .call⟩, List.mem_singleton.mpr rfl, rfl, rfl⟩
        · exact absurd hmem hnot
      · exact absurd hmem hnot
  | responded now id' payload _ => exact absurd (Finset.mem_of_mem_erase hmem) hnot
  | respondedError now id' error _ => exact absurd (Finset.mem_of_mem_erase hmem) hnot
  | _ => exact absurd hmem hnot

theorem deliveredIn_of_mem {e : Engine S} {id : MessageId} {ops : List Op}
    (hnot : id ∉ e.peerInflight) (hmem : id ∈ (run e ops).peerInflight) :
    DeliveredIn e id ops := by
  induction ops generalizing e with
  | nil => exact absurd hmem hnot
  | cons op ops ih =>
      by_cases h : id ∈ (exec e op).peerInflight
      · obtain ⟨r, hr, hid, hkind⟩ := delivered_of_mem hnot h
        exact ⟨[], op, ops, r, rfl, hr, hid, hkind⟩
      · obtain ⟨before, op', after, r, rfl, hr⟩ := ih h hmem
        exact ⟨op :: before, op', after, r, rfl, hr⟩

/-- The limit on the peer's calls never changes. -/
theorem limit_run {config : EngineConfig} {store : S} {ids : ℕ → MessageId}
    {e₀ : Engine S} (h : Engine.withStore config store ids = .ok e₀) (ops : List Op) :
    (run e₀ ops).config.maxPeerRequests = config.maxPeerRequests := by
  obtain ⟨timeout, hconfig⟩ := config_run h ops
  rw [hconfig]

/-- **Every inbound call is answered once.** In every run: a `CALL` that arrives is
delivered or refused; an answer that succeeds takes the request out of the table and
transmits one frame with its id, one that fails leaves everything but the clock; an
id that has been answered, or was delivered before a disconnect, can be answered only
after it has been delivered again; the table stays within its bound; and a `SEND` is
not answered. -/
theorem inbound_answeredOnce [LawfulExternals] {config : EngineConfig} {store : S}
    {ids : ℕ → MessageId} {e₀ : Engine S} (h : Engine.withStore config store ids = .ok e₀)
    (ops : List Op) :
    (∀ now text id action payload,
      Frame.parse text (run e₀ ops).version = .ok (.call id action payload) →
      CallHandled (run e₀ ops) (.handle now (.received text)) id action payload) ∧
    (∀ op id, answerResult (run e₀ ops) op = some (id, .ok ()) →
      id ∈ (run e₀ ops).peerInflight ∧
      (exec (run e₀ ops) op).peerInflight = (run e₀ ops).peerInflight.erase id ∧
      ∃ frame text, answerFrame op = some frame ∧ frame.id = id ∧
        frame.toJson (run e₀ ops).version = .ok text ∧
        texts (newEvents (run e₀ ops) op) = [text]) ∧
    (∀ op id error, answerResult (run e₀ ops) op = some (id, .error error) →
      error = .noSuchRequest id ∧ id ∉ (run e₀ ops).peerInflight ∧
      ∃ now, exec (run e₀ ops) op = (run e₀ ops).advance now) ∧
    (∀ op₁ mid op₂ id, answerResult (run e₀ ops) op₁ = some (id, .ok ()) →
      answerResult (run e₀ (ops ++ op₁ :: mid)) op₂ = some (id, .ok ()) →
      DeliveredIn (run e₀ (ops ++ [op₁])) id mid) ∧
    (∀ now mid op₂ id,
      answerResult (run e₀ (ops ++ .handle now .disconnected :: mid)) op₂ = some (id, .ok ()) →
      DeliveredIn (run e₀ (ops ++ [.handle now .disconnected])) id mid) ∧
    (run e₀ ops).peerInflight.card ≤ max 1 config.maxPeerRequests ∧
    ∀ now text id action payload,
      Frame.parse text (run e₀ ops).version = .ok (.send id action payload) →
      (exec (run e₀ ops) (.handle now (.received text))).peerInflight =
          (run e₀ ops).peerInflight ∧
        texts (newEvents (run e₀ ops) (.handle now (.received text))) = [] := by
  -- what is not in the table after an operation has to be delivered again
  have again : ∀ op mid op₂ id, id ∉ (exec (run e₀ ops) op).peerInflight →
      answerResult (run e₀ (ops ++ op :: mid)) op₂ = some (id, .ok ()) →
      DeliveredIn (run e₀ (ops ++ [op])) id mid := by
    intro op mid op₂ id hnot h₂
    rw [run_concat]
    rw [run_append, run_cons] at h₂
    exact deliveredIn_of_mem hnot (answer_ok h₂).1
  refine ⟨fun now text id action payload => callHandled, fun op id => answer_ok,
    fun op id error => answer_error, fun op₁ mid op₂ id h₁ h₂ => ?_, fun now mid op₂ id h₂ => ?_,
    ?_, fun now text id action payload => send_unanswered⟩
  · refine again op₁ mid op₂ id ?_ h₂
    rw [(answer_ok h₁).2.1]
    exact Finset.notMem_erase id _
  · refine again _ mid op₂ id ?_ h₂
    have heffect := (newEvents_effect (run e₀ ops) (.handle now .disconnected)).1
    rw [show (exec (run e₀ ops) (.handle now .disconnected)).peerInflight =
      (exec (run e₀ ops) (.handle now .disconnected)).setting.peerInflight from rfl]
    generalize (exec (run e₀ ops) (.handle now .disconnected)).setting = s at heffect
    generalize foreign (newEvents (run e₀ ops) (.handle now .disconnected)) = left at heffect
    cases heffect
    exact Finset.notMem_empty id
  · rw [← limit_run h ops]
    exact (tabled_run h ops).room

end OcppKit

/-! ### A run -/

namespace OcppKit.Reference

/-- A CSMS that starts with an empty store. -/
def csms (version : Version) : Engine MemStore :=
  Engine.fresh (.new .csms version) MemStore.new (numbered "c")

theorem withStore_csms (version : Version) :
    Engine.withStore (.new .csms version) MemStore.new (numbered "c") =
      .ok (csms version) := rfl

/-- It is connected to, and told that the station has booted. -/
def csmsRun : List Op :=
  [.handle 1 (.connected .v2_0_1), .handle 2 (.received "[2,\"s0\",\"BootNotification\",{}]")]

theorem inbound_answeredOnce_csmsRun :
    CallHandled (run (csms .v2_0_1) csmsRun)
      (.handle 3 (.received "[2,\"s1\",\"Heartbeat\",{}]")) ⟨"s1"⟩ "Heartbeat"
      RawValue.emptyObject ∧
    (∃ frame text, answerFrame (.respond 3 ⟨"s0"⟩ RawValue.emptyObject) = some frame ∧
      frame.id = ⟨"s0"⟩ ∧ frame.toJson (run (csms .v2_0_1) csmsRun).version = .ok text ∧
      texts (newEvents (run (csms .v2_0_1) csmsRun) (.respond 3 ⟨"s0"⟩ RawValue.emptyObject)) =
        [text]) ∧
    ∃ now, exec (run (csms .v2_0_1) csmsRun) (.respond 3 ⟨"s1"⟩ RawValue.emptyObject) =
      (run (csms .v2_0_1) csmsRun).advance now := by
  have h := inbound_answeredOnce (withStore_csms .v2_0_1) csmsRun
  refine ⟨h.1 3 _ _ _ _ (by decide +kernel), (h.2.1 _ ⟨"s0"⟩ (by decide +kernel)).2.2, ?_⟩
  exact (h.2.2.1 (.respond 3 ⟨"s1"⟩ RawValue.emptyObject) ⟨"s1"⟩ (.noSuchRequest ⟨"s1"⟩)
    (by decide +kernel)).2.2

end OcppKit.Reference
