import OcppKit.Engine.Outbox

/-!
# Reading the history

How the entries of an engine's history relate: the frame a mark stands for
(`OcppKit.Event.frame`), the text an entry puts on the wire
(`OcppKit.Event.text`), and which entries come from the engine's own work rather
than from the peer (`OcppKit.Event.own`).

The relation `OcppKit.Engine.Reports` says that between two states the engine did
nothing but talk to its driver: timers, violations, texts. It is what `emit`,
`armHeartbeat`, `transmit` and the store calls do, and it composes.
-/

namespace OcppKit

variable [Externals]

/-! ### Entries of the history -/

/-- The frame a queued entry is written as. -/
def Pending.frame (p : Pending) (id : MessageId) : Frame :=
  match p.kind with
  | .call => .call id p.action p.payload
  | .send => .send id p.action p.payload

/-- The frame a mark stands for. -/
def Event.frame : Event → Option Frame
  | .sent id entry => some (entry.frame id)
  | .answered id payload => some (.callResult id payload)
  | .answeredError id error => some (.callError id error.toRef)
  | .rejected id error => some (.callError id error.toRef)
  | .resultRejected id error => some (.callResultError id error.toRef)
  | _ => none

/-- The text an entry puts on the wire. -/
def Event.text : Event → Option String
  | .out (.transmit text) => some text
  | _ => none

/-- The frames the marks of a history stand for, in order. -/
def frames (evs : List Event) : List Frame := evs.filterMap Event.frame

/-- The texts a history puts on the wire, in order. -/
def texts (evs : List Event) : List String := evs.filterMap Event.text

/-- The text of a frame, if it can be written. -/
def Frame.text (version : Version) (frame : Frame) : Option String :=
  (frame.toJson version).toOption

/-- The texts of the frames a history marks, in order. -/
def written (version : Version) (evs : List Event) : List String :=
  (frames evs).filterMap (Frame.text version)

theorem texts_append (l l' : List Event) : texts (l ++ l') = texts l ++ texts l' :=
  List.filterMap_append

theorem frames_append (l l' : List Event) : frames (l ++ l') = frames l ++ frames l' :=
  List.filterMap_append

theorem written_append (version : Version) (l l' : List Event) :
    written version (l ++ l') = written version l ++ written version l' := by
  rw [written, frames_append, List.filterMap_append, written, written]

/-- **What goes on the wire is what is marked.** -/
def Marked (version : Version) (evs : List Event) : Prop := texts evs = written version evs

theorem marked_nil (version : Version) : Marked version [] := rfl

theorem Marked.append {version : Version} {l l' : List Event} (h : Marked version l)
    (h' : Marked version l') : Marked version (l ++ l') := by
  rw [Marked, texts_append, written_append, h, h']

/-- Nothing marked, nothing on the wire. -/
theorem marked_of_silent {version : Version} {evs : List Event} (hfr : frames evs = [])
    (htx : texts evs = []) : Marked version evs := by
  rw [Marked, htx, written, hfr, List.filterMap_nil]

/-- A mark, and what writing its frame puts on the wire. -/
theorem marked_cons {version : Version} {mark : Event} {frame : Frame} {evs : List Event}
    (hmark : mark.frame = some frame) (hfr : frames evs = [])
    (htx : texts evs = (frame.text version).toList) : Marked version (mark :: evs) := by
  have hnone : mark.text = none := by
    cases mark with
    | out _ => exact absurd hmark (by simp [Event.frame])
    | _ => rfl
  rw [Marked, texts, List.filterMap_cons_none hnone, ← texts, htx, written, frames,
    List.filterMap_cons_some hmark, ← frames, hfr]
  rcases h : frame.text version with _ | text
  · rw [List.filterMap_cons_none h]
    rfl
  · rw [List.filterMap_cons_some h]
    rfl

/-- Whether an output is the engine's own: not the peer's request, not the peer's
rejection of a result, not the peer's answer. -/
def Output.own : Output → Bool
  | .request _ => false
  | .resultRejected _ _ => false
  | .outcome o => !isAnswer o.result
  | _ => true

/-- Whether an output is only a report: it puts nothing on the wire, and says
nothing about a request or a call. -/
def Output.report : Output → Bool
  | .setTimer _ _ | .clearTimer _ | .bootState _ | .clockSample _ | .violation _ | .close _ => true
  | _ => false

/-- **Whether an entry comes from the engine's own work**: accepting a message – a
transactional one is a transaction-related action –, sending what is queued, failing
it, and reporting. -/
def Event.own : Event → Bool
  | .out o => o.own
  | .accepted entry => !entry.transactional || Actions.isTransactionMessage entry.action
  | .sent _ _ => true
  | _ => false

theorem Output.own_of_report {o : Output} (h : o.report = true) : o.own = true := by
  cases o <;> simp_all [Output.report, Output.own]

theorem Output.ev_of_report {o : Output} (h : o.report = true) : (Event.out o).ev = none := by
  cases o <;> simp_all [Output.report, Event.ev]

theorem Output.text_of_report {o : Output} (h : o.report = true) : (Event.out o).text = none := by
  cases o <;> simp_all [Output.report, Event.text]

/-- What the engine's own work leaves alone. -/
structure Setting where
  /-- The configuration. -/
  config : EngineConfig
  /-- The negotiated version. -/
  version : Version
  /-- Whether the transport is up. -/
  connected : Bool
  /-- The clock. -/
  now : Instant
  /-- The ids the peer waits on. -/
  peerInflight : Finset MessageId
  /-- The boot state. -/
  boot : BootState
  /-- When to boot again. -/
  bootRetryAt : Option Instant

namespace Engine

variable {S : Type}

/-- What the engine's own work leaves alone. -/
def setting (e : Engine S) : Setting :=
  ⟨e.config, e.version, e.connected, e.now, e.peerInflight, e.boot, e.bootRetryAt⟩

theorem version_of_setting {e e' : Engine S} (h : e'.setting = e.setting) :
    e'.version = e.version :=
  congrArg Setting.version h

/-! ### Doing nothing but report -/

/-- **Between the two states the engine only reported**, and put these texts on
the wire. -/
structure Reports (e e' : Engine S) (ts : List String) : Prop where
  /-- The setting stays. -/
  setting : e'.setting = e.setting
  /-- So does the queue. -/
  queue : e'.queue = e.queue
  /-- So does the outstanding call. -/
  inflight : e'.inflight = e.inflight
  /-- So does the next handle. -/
  nextToken : e'.nextToken = e.nextToken
  /-- So does the store. -/
  store : e'.store = e.store
  /-- So does what the CSMS asked for. -/
  solicited : e'.solicited = e.solicited
  /-- So does the drain. -/
  draining : e'.draining = e.draining
  /-- The history grows by reports and by the texts. -/
  log : ∃ evs, e'.log = e.log ++ evs ∧ outboxHistory evs = [] ∧ frames evs = [] ∧
    texts evs = ts ∧ ∀ ev ∈ evs, ev.own = true

theorem Reports.refl (e : Engine S) : Reports e e [] where
  setting := rfl
  queue := rfl
  inflight := rfl
  nextToken := rfl
  store := rfl
  solicited := rfl
  draining := rfl
  log := ⟨[], (List.append_nil _).symm, rfl, rfl, rfl, fun _ h => absurd h List.not_mem_nil⟩

theorem Reports.trans {e e' e'' : Engine S} {ts ts' : List String} (h : Reports e e' ts)
    (h' : Reports e' e'' ts') : Reports e e'' (ts ++ ts') where
  setting := h'.setting.trans h.setting
  queue := h'.queue.trans h.queue
  inflight := h'.inflight.trans h.inflight
  nextToken := h'.nextToken.trans h.nextToken
  store := h'.store.trans h.store
  solicited := h'.solicited.trans h.solicited
  draining := h'.draining.trans h.draining
  log := by
    obtain ⟨evs, hlog, hev, hfr, htx, hown⟩ := h.log
    obtain ⟨evs', hlog', hev', hfr', htx', hown'⟩ := h'.log
    refine ⟨evs ++ evs', ?_, ?_, ?_, ?_, ?_⟩
    · rw [hlog', hlog, List.append_assoc]
    · rw [outboxHistory_append, hev, hev', List.append_nil]
    · rw [frames_append, hfr, hfr', List.append_nil]
    · rw [texts_append, htx, htx']
    · intro ev hev
      rcases List.mem_append.mp hev with hev | hev
      · exact hown ev hev
      · exact hown' ev hev

/-- What the outbox sees is not reported to. -/
theorem Reports.outbox {e e' : Engine S} {ts : List String} (h : Reports e e' ts)
    (held : Held) : e'.outbox held = e.outbox held := by
  obtain ⟨evs, hlog, hev, -⟩ := h.log
  simp only [Engine.outbox, h.queue, h.inflight, h.nextToken, h.store, hlog, outboxHistory_append,
    hev, List.append_nil]

theorem reports_emit (e : Engine S) {o : Output} (h : o.report = true) :
    Reports e (e.emit o) [] where
  setting := rfl
  queue := rfl
  inflight := rfl
  nextToken := rfl
  store := rfl
  solicited := rfl
  draining := rfl
  log := by
    refine ⟨[Event.out o], rfl, ?_, rfl, ?_, ?_⟩
    · rw [outboxHistory, List.filterMap_cons_none (Output.ev_of_report h), List.filterMap_nil]
    · rw [texts, List.filterMap_cons_none (Output.text_of_report h), List.filterMap_nil]
    · intro ev hev
      obtain rfl : ev = .out o := by simpa using hev
      exact Output.own_of_report h

theorem reports_emit_transmit (e : Engine S) (text : String) :
    Reports e (e.emit (.transmit text)) [text] where
  setting := rfl
  queue := rfl
  inflight := rfl
  nextToken := rfl
  store := rfl
  solicited := rfl
  draining := rfl
  log := by
    refine ⟨[Event.out (.transmit text)], rfl, rfl, rfl, rfl, ?_⟩
    intro ev hev
    obtain rfl : ev = .out (.transmit text) := by simpa using hev
    rfl

theorem reports_violate (e : Engine S) (v : ProtocolViolation) : Reports e (e.violate v) [] :=
  reports_emit e rfl

theorem reports_heartbeatAt (e : Engine S) (at_ : Option Instant) :
    Reports e { e with heartbeatAt := at_ } [] :=
  { Reports.refl e with }

theorem reports_heartbeatInterval (e : Engine S) (d : Option Duration) :
    Reports e { e with heartbeatInterval := d } [] :=
  { Reports.refl e with }

theorem reports_armHeartbeat (e : Engine S) : Reports e e.armHeartbeat [] := by
  rw [armHeartbeat]
  split
  · exact Reports.refl e
  · split
    · exact Reports.refl e
    · dsimp only
      split
      · exact Reports.refl e
      · exact (reports_heartbeatAt e _).trans (reports_emit _ rfl)

theorem reports_transmit (e : Engine S) (frame : Frame) :
    Reports e (e.transmit frame) (frame.text e.version).toList := by
  rw [transmit, Frame.text]
  rcases hj : frame.toJson e.version with error | text
  · exact reports_violate e _
  · exact (reports_emit_transmit e text).trans (reports_armHeartbeat _)

/-! ### Writing a frame under a mark -/

/-- **Between the two states a frame was written under this mark.** -/
structure Writes (e e' : Engine S) (mark : Event) (frame : Frame) : Prop where
  /-- The setting stays. -/
  setting : e'.setting = e.setting
  /-- So does the queue. -/
  queue : e'.queue = e.queue
  /-- So does the outstanding call. -/
  inflight : e'.inflight = e.inflight
  /-- So does the next handle. -/
  nextToken : e'.nextToken = e.nextToken
  /-- So does the store. -/
  store : e'.store = e.store
  /-- So does what the CSMS asked for. -/
  solicited : e'.solicited = e.solicited
  /-- So does the drain. -/
  draining : e'.draining = e.draining
  /-- The history grows by the mark, and by what writing the frame reports. -/
  log : ∃ evs, e'.log = e.log ++ mark :: evs ∧ outboxHistory evs = [] ∧ frames evs = [] ∧
    texts evs = (frame.text e.version).toList ∧ ∀ ev ∈ evs, ev.own = true

theorem writes_note_transmit (e : Engine S) (mark : Event) (frame : Frame) :
    Writes e ((e.note mark).transmit frame) mark frame := by
  have h := reports_transmit (e.note mark) frame
  obtain ⟨evs, hlog, hev, hfr, htx, hown⟩ := h.log
  refine ⟨h.setting, h.queue, h.inflight, h.nextToken, h.store, h.solicited, h.draining,
    evs, ?_, hev, hfr, htx, hown⟩
  rw [hlog, note, List.append_assoc, List.singleton_append]

theorem Writes.outbox {e e' : Engine S} {mark : Event} {frame : Frame}
    (h : Writes e e' mark frame) (hmark : mark.ev = none) (held : Held) :
    e'.outbox held = e.outbox held := by
  obtain ⟨evs, hlog, hev, -⟩ := h.log
  simp only [Engine.outbox, h.queue, h.inflight, h.nextToken, h.store, hlog, outboxHistory_append,
    outboxHistory_cons_of_none hmark, hev, List.append_nil]

/-- An output that is no outcome does not show in the outbox. -/
theorem outbox_emit (e : Engine S) {o : Output} (h : (Event.out o).ev = none) (held : Held) :
    (e.emit o).outbox held = e.outbox held := by
  rw [Engine.outbox, emit, outboxHistory_append, outboxHistory_cons_of_none h]
  exact congrArg _ (List.append_nil _)

theorem outbox_advance (e : Engine S) (now : Instant) (held : Held) :
    (e.advance now).outbox held = e.outbox held := rfl

/-! ### Talking to the store -/

variable [MessageStore S]

theorem reports_ackStore (e : Engine S) (seq : Option Seq) :
    Reports { e with store := Outbox.ackIf Message e.store seq } (e.ackStore seq) [] := by
  rcases seq with _ | q
  · exact Reports.refl e
  · rw [ackStore]
    split
    · exact Reports.refl _
    · exact reports_violate _ _

theorem reports_storeAttempts (e : Engine S) (seq : Option Seq) (attempts : ℕ) :
    Reports { e with store := Outbox.setIf Message e.store seq attempts }
      (e.storeAttempts seq attempts) [] := by
  rcases seq with _ | q
  · exact Reports.refl e
  · rw [storeAttempts]
    split
    · exact Reports.refl _
    · exact reports_violate _ _

end Engine

end OcppKit
