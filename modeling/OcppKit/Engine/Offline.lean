import OcppKit.Engine.Inbound
import OcppKit.Engine.Shape

/-!
# While the connection is down

An engine that is fed texts only while it is connected writes only while it is connected,
with one exception: a `CALLRESULTERROR` is written whether or not there is a connection.
`OcppKit.transmits_up_iff` says that there is no other.

The invariant behind it: while the connection is down the peer waits on nothing, so there
is no request to answer.
-/

namespace OcppKit

variable [Externals]

open Engine

variable {S : Type} [MessageStore S]

/-! ### The connection in the history -/

/-- What an entry of the history does to the connection. -/
def Event.link : Event → Option Bool
  | .input (.connected _) => some true
  | .input .disconnected => some false
  | _ => none

/-- **Whether the connection is up** at the end of this history. -/
def linkUp (evs : List Event) : Bool := (evs.filterMap Event.link).getLast?.getD false

/-- **Whatever is written is written while the connection is up.** -/
def TransmitsUp (log : List Event) : Prop :=
  ∀ before text after, log = before ++ .out (.transmit text) :: after → linkUp before = true

theorem link_foreign (evs : List Event) :
    (foreign evs).filterMap Event.link = evs.filterMap Event.link := by
  induction evs with
  | nil => rfl
  | cons ev evs ih =>
      rcases hown : ev.own with _ | _
      · rw [foreign, List.filter_cons_of_pos (by simp [hown]), List.filterMap_cons,
          List.filterMap_cons, ← foreign, ih]
      · have hnone : ev.link = none := by
          cases ev with
          | input _ => exact absurd hown (by simp [Event.own])
          | _ => rfl
        rw [foreign, List.filter_cons_of_neg (by simp [hown]), ← foreign, ih,
          List.filterMap_cons_none hnone]

/-- What an operation does to the connection. -/
def Op.link : Op → Option Bool
  | .handle _ input => (Event.input input).link
  | _ => none

/-- **The connection changes with what the driver feeds.** -/
theorem link_exec (e : Engine S) (op : Op) :
    (newEvents e op).filterMap Event.link = op.link.toList ∧
      (exec e op).connected = op.link.getD e.connected := by
  have heffect := (newEvents_effect e op).1
  rw [show (exec e op).connected = (exec e op).setting.connected from rfl, ← link_foreign]
  generalize (exec e op).setting = s at heffect
  generalize foreign (newEvents e op) = left at heffect
  cases heffect with
  | malformed now text error _ =>
      refine ⟨?_, rfl⟩
      rw [List.filterMap_cons_none (show (Event.input (.received text)).link = none from rfl),
        replyMarks]
      split <;> rfl
  | _ => exact ⟨rfl, rfl⟩

theorem linkUp_append (l l' : List Event) (o : Option Bool)
    (h : l'.filterMap Event.link = o.toList) : linkUp (l ++ l') = o.getD (linkUp l) := by
  rw [linkUp, List.filterMap_append, h]
  rcases o with _ | up
  · rw [Option.toList_none, List.append_nil]
    rfl
  · rw [Option.toList_some, List.getLast?_concat]
    rfl

omit [MessageStore S] in
theorem log_foldl_restore (records : List (Seq × QueuedCall)) (e : Engine S) :
    ∃ entries : List Pending, (records.foldl restore e).log = e.log ++ entries.map .accepted := by
  induction records generalizing e with
  | nil => exact ⟨[], (List.append_nil _).symm⟩
  | cons record records ih =>
      obtain ⟨entries, hlog⟩ := ih (e.restore record)
      obtain ⟨entry, hentry⟩ : ∃ entry, (e.restore record).log = e.log ++ [Event.accepted entry] :=
        ⟨_, rfl⟩
      refine ⟨entry :: entries, ?_⟩
      rw [List.foldl_cons, hlog, hentry, List.append_assoc, List.singleton_append, List.map_cons]

/-- **The history of an engine starts with what its store holds.** -/
theorem log_withStore {config : EngineConfig} {store : S} {ids : ℕ → MessageId} {e : Engine S}
    (h : Engine.withStore config store ids = .ok e) :
    ∃ entries : List Pending, e.log = entries.map .accepted := by
  obtain ⟨records, -, rfl⟩ := eq_of_withStore h
  obtain ⟨entries, hlog⟩ := log_foldl_restore records (fresh config store ids)
  exact ⟨entries, hlog⟩

/-- The engine knows whether it is connected. -/
theorem linkUp_run {config : EngineConfig} {store : S} {ids : ℕ → MessageId} {e₀ : Engine S}
    (h : Engine.withStore config store ids = .ok e₀) (ops : List Op) :
    linkUp (run e₀ ops).log = (run e₀ ops).connected := by
  refine run_invariant (fun e => linkUp e.log = e.connected) (fun e op he => ?_) ?_ ops
  · obtain ⟨hlink, hconnected⟩ := link_exec e op
    rw [log_exec, linkUp_append _ _ _ hlink, he, hconnected]
  · obtain ⟨entries, hlog⟩ := log_withStore h
    have hnone : (entries.map Event.accepted).filterMap Event.link = [] := by
      rw [List.filterMap_map]
      exact List.filterMap_eq_nil_iff.mpr fun _ _ => rfl
    rw [hlog, linkUp, hnone]
    exact (congrArg Setting.connected (setting_withStore h)).symm

/-! ### Nothing to answer -/

/-- While the connection is down the peer waits on nothing. -/
def NoneWaits (e : Engine S) : Prop := e.connected = false → e.peerInflight = ∅

/-- The driver feeds a text only while the connection is up. -/
def ReceivesUp (e : Engine S) (op : Op) : Prop :=
  ∀ now text, op = .handle now (.received text) → e.connected = true

/-- The application rejects a result while the connection is down, under a version that
lets it. -/
def RejectsOffline (e : Engine S) (op : Op) : Prop :=
  e.connected = false ∧ e.version.hasExtendedMessageTypes = true ∧
    ∃ now id error, op = .rejectResult now id error

theorem noneWaits_exec {e : Engine S} {op : Op} (hup : ReceivesUp e op) (h : NoneWaits e) :
    NoneWaits (exec e op) := by
  have heffect := (newEvents_effect e op).1
  rw [NoneWaits, show (exec e op).connected = (exec e op).setting.connected from rfl,
    show (exec e op).peerInflight = (exec e op).setting.peerInflight from rfl]
  generalize (exec e op).setting = s at heffect
  generalize foreign (newEvents e op) = left at heffect
  cases heffect with
  | connected now version => exact fun hdown => absurd hdown (by simp)
  | disconnected now => exact fun _ => rfl
  | delivered now text id action payload kind _ _ =>
      exact fun hdown => absurd ((hup now text rfl).symm.trans hdown) (by simp)
  | responded now id payload hid =>
      exact fun hdown => absurd hid (by rw [h hdown]; exact Finset.notMem_empty id)
  | respondedError now id error hid =>
      exact fun hdown => absurd hid (by rw [h hdown]; exact Finset.notMem_empty id)
  | _ => exact h

/-- While the connection is down there is nothing to answer. -/
theorem frame_foreign_of_down {e : Engine S} {op : Op} (hup : ReceivesUp e op) (h : NoneWaits e)
    (hreject : ¬RejectsOffline e op) (hdown : (exec e op).connected = false) :
    ∀ ev ∈ foreign (newEvents e op), ev.frame = none := by
  have heffect := (newEvents_effect e op).1
  rw [show (exec e op).connected = (exec e op).setting.connected from rfl] at hdown
  generalize (exec e op).setting = s at heffect hdown
  generalize foreign (newEvents e op) = left at heffect
  have hreceived : ∀ now text, op = .handle now (.received text) → e.connected = false → False :=
    fun now text hop hc => absurd ((hup now text hop).symm.trans hc) (by simp)
  intro ev hev
  cases heffect with
  | malformed now text error _ => exact (hreceived now text rfl hdown).elim
  | refused now text _ _ _ _ _ _ => exact (hreceived now text rfl hdown).elim
  | responded now id payload hid =>
      exact absurd hid (by rw [h hdown]; exact Finset.notMem_empty id)
  | respondedError now id error hid =>
      exact absurd hid (by rw [h hdown]; exact Finset.notMem_empty id)
  | rejectedResult now id error hversion =>
      exact absurd ⟨hdown, hversion, now, id, error, rfl⟩ hreject
  | _ => grind [Event.frame]

/-- **While the connection is down nothing is written**, unless a result is rejected. -/
theorem texts_of_down {e : Engine S} {op : Op} (hup : ReceivesUp e op) (h : NoneWaits e)
    (hreject : ¬RejectsOffline e op) (hdown : (exec e op).connected = false) :
    texts (newEvents e op) = [] := by
  obtain ⟨heffect, hmark⟩ := newEvents_effect e op
  have hframes : frames (newEvents e op) = [] := by
    refine List.filterMap_eq_nil_iff.mpr fun ev hev => ?_
    rcases hown : ev.own with _ | _
    · -- what is not the engine's own is an answer to the peer, and the peer waits on nothing
      have hleft : ev ∈ foreign (newEvents e op) := List.mem_filter.mpr ⟨hev, by simp [hown]⟩
      exact frame_foreign_of_down hup h hreject hdown ev hleft
    · cases ev with
      | sent id entry =>
          rcases newEvents_inOrder e op _ hev with hconnected | ⟨reason, hclose⟩
          · exact absurd (hdown.symm.trans hconnected) (by simp)
          · exact absurd hclose (by simp)
      | answered _ _ => exact absurd hown (by simp [Event.own])
      | answeredError _ _ => exact absurd hown (by simp [Event.own])
      | rejected _ _ => exact absurd hown (by simp [Event.own])
      | resultRejected _ _ => exact absurd hown (by simp [Event.own])
      | _ => rfl
  rw [hmark, written, hframes, List.filterMap_nil]

/-! ### Runs -/

/-- Where a step writes a text and leaves the connection up, the connection is up. -/
theorem linkUp_of_split {e : Engine S} {op : Op} (hlink : linkUp e.log = e.connected)
    (hup : (exec e op).connected = true) {before after : List Event} {text : String}
    (hsplit : newEvents e op = before ++ .out (.transmit text) :: after) :
    linkUp (e.log ++ before) = true := by
  obtain ⟨hlinks, hconnected⟩ := link_exec e op
  rw [hup] at hconnected
  rw [hsplit, List.filterMap_append,
    List.filterMap_cons_none (show (Event.out (.transmit text)).link = none from rfl)] at hlinks
  suffices h : before.filterMap Event.link = op.link.toList by
    rw [linkUp_append _ _ _ h, hlink, ← hconnected]
  rcases hop : op.link with _ | up
  · -- the step does not touch the connection
    rw [hop, Option.toList_none, List.append_eq_nil_iff] at hlinks
    exact hlinks.1
  · -- the step touches the connection with its input, which comes first
    obtain ⟨rest, hrest, -⟩ := newEvents_started e op
    cases op with
    | handle now input =>
        have hfirst : before ++ Event.out (.transmit text) :: after = .input input :: rest :=
          hsplit.symm.trans hrest
        rcases before with _ | ⟨ev, before⟩
        · exact absurd hfirst (by simp)
        · obtain ⟨rfl, -⟩ := List.cons.inj hfirst
          rw [List.filterMap_cons_some (show (Event.input input).link = some up from hop)]
            at hlinks ⊢
          rw [hop, Option.toList_some, List.cons_append, List.cons.injEq,
            List.append_eq_nil_iff] at hlinks
          rw [hlinks.2.1, Option.toList_some]
    | _ => exact absurd hop (by simp [Op.link])

/-- **One step**: what it writes, it writes while the connection is up, unless it leaves the
connection down and writes all the same. -/
theorem transmitsUp_exec {e : Engine S} {op : Op} (hlink : linkUp e.log = e.connected)
    (h : TransmitsUp e.log)
    (hstep : texts (newEvents e op) ≠ [] → (exec e op).connected = true) :
    TransmitsUp (exec e op).log := by
  intro before text after hsplit
  rw [log_exec] at hsplit
  have hnew : ∀ evs, newEvents e op = evs ++ .out (.transmit text) :: after →
      linkUp (e.log ++ evs) = true := by
    intro evs hevs
    refine linkUp_of_split hlink (hstep fun hnone => ?_) hevs
    rw [hevs, texts_append] at hnone
    exact absurd (List.append_eq_nil_iff.mp hnone).2 (by simp [texts, Event.text])
  rcases List.append_eq_append_iff.mp hsplit with ⟨evs, rfl, hevs⟩ | ⟨evs, hlog, hevs⟩
  · exact hnew evs hevs
  · rcases evs with _ | ⟨ev, evs⟩
    · rw [List.append_nil] at hlog
      rw [← hlog, ← List.append_nil e.log]
      exact hnew [] hevs.symm
    · obtain ⟨rfl, -⟩ := List.cons.inj hevs
      exact h before text evs hlog

/-- A result that is rejected is written. -/
theorem texts_of_rejectsOffline [LawfulExternals] {e : Engine S} {op : Op}
    (h : RejectsOffline e op) : texts (newEvents e op) ≠ [] := by
  obtain ⟨-, hversion, now, id, error, rfl⟩ := h
  have hquiet : (exec e (.rejectResult now id error)).outbox none = e.outbox none :=
    outbox_rejectResult e now id error
  rw [texts_of_quiet hquiet]
  have heffect := (newEvents_effect e (.rejectResult now id error)).1
  generalize (exec e (.rejectResult now id error)).version = version
  generalize (exec e (.rejectResult now id error)).setting = s at heffect
  generalize foreign (newEvents e (.rejectResult now id error)) = left at heffect
  cases heffect with
  | rejectedResult _ _ _ _ =>
      obtain ⟨text, htext⟩ := Frame.toJson_ok (.callResultError id error.toRef) version
      have hframe : frames [Event.resultRejected id error] =
          [.callResultError id error.toRef] := rfl
      rw [hframe, List.filterMap_cons_some (Frame.text_of_toJson htext)]
      exact List.cons_ne_nil _ _
  | notRejected _ _ _ hno => exact absurd (hversion.symm.trans hno) (by simp)

omit [Externals] in
theorem split_of_texts [Externals] {evs : List Event} (h : texts evs ≠ []) :
    ∃ before text after, evs = before ++ .out (.transmit text) :: after := by
  obtain ⟨text, htext⟩ := List.exists_mem_of_ne_nil _ h
  obtain ⟨ev, hev, hsome⟩ := List.mem_filterMap.mp htext
  obtain rfl : ev = .out (.transmit text) := by
    cases ev with
    | out o => cases o <;> simp_all [Event.text]
    | _ => exact absurd hsome (by simp [Event.text])
  obtain ⟨before, after, rfl⟩ := List.append_of_mem hev
  exact ⟨before, text, after, rfl⟩

/-- **Nothing is written while the connection is down, unless a result is rejected then.**
The driver feeds a text only while the connection is up. -/
theorem transmits_up_iff [LawfulExternals] {config : EngineConfig} {store : S}
    {ids : ℕ → MessageId} {e₀ : Engine S} (h : Engine.withStore config store ids = .ok e₀)
    (ops : List Op) (hup : AtEach e₀ ops ReceivesUp) :
    TransmitsUp (run e₀ ops).log ↔ AtEach e₀ ops fun e op => ¬RejectsOffline e op := by
  constructor
  · rintro hlog before op after rfl hreject
    obtain ⟨evs, hrun⟩ := run_log (exec (run e₀ before) op) after
    obtain ⟨pre, text, post, hsplit⟩ := split_of_texts (texts_of_rejectsOffline hreject)
    have hpre : pre.filterMap Event.link = [] := by
      obtain ⟨hlinks, -⟩ := link_exec (run e₀ before) op
      obtain ⟨-, -, now, id, error, rfl⟩ := hreject
      rw [hsplit, List.filterMap_append] at hlinks
      exact (List.append_eq_nil_iff.mp hlinks).1
    have hlink : linkUp ((run e₀ before).log ++ pre) = true := by
      refine hlog _ text (post ++ evs) ?_
      rw [run_append, run_cons, hrun, log_exec, hsplit]
      simp only [List.append_assoc, List.cons_append]
    rw [linkUp_append _ _ none hpre, Option.getD_none, linkUp_run h, hreject.1] at hlink
    exact absurd hlink (by simp)
  · intro hnot
    have hboth : AtEach e₀ ops fun e op => ReceivesUp e op ∧ ¬RejectsOffline e op :=
      fun before op after hops => ⟨hup before op after hops, hnot before op after hops⟩
    refine (hboth.invariant
      (fun e => linkUp e.log = e.connected ∧ NoneWaits e ∧ TransmitsUp e.log) ?_ ?_).2.2
    · rintro e op ⟨hrec, hrej⟩ ⟨hlink, hwaits, hlog⟩
      obtain ⟨hlinks, hconnected⟩ := link_exec e op
      refine ⟨?_, noneWaits_exec hrec hwaits, transmitsUp_exec hlink hlog fun htexts => ?_⟩
      · rw [log_exec, linkUp_append _ _ _ hlinks, hlink, hconnected]
      · by_contra hdown
        exact htexts (texts_of_down hrec hwaits hrej (Bool.eq_false_of_not_eq_true hdown))
    · obtain ⟨entries, hlog⟩ := log_withStore h
      refine ⟨linkUp_run h [], fun _ => congrArg Setting.peerInflight (setting_withStore h), ?_⟩
      intro before text after hsplit
      rw [hlog] at hsplit
      have hmem : Event.out (.transmit text) ∈ entries.map Event.accepted := by
        rw [hsplit]
        exact List.mem_append_right _ List.mem_cons_self
      obtain ⟨entry, -, he⟩ := List.mem_map.mp hmem
      exact absurd he (by simp)

end OcppKit

namespace OcppKit.Reference

/-! ### A run -/

/-- A CSMS under 2.1 is connected, a call arrives and is answered, and the connection goes
away. -/
def hangUpRun : List Op :=
  [.handle 1 (.connected .v2_1), .handle 2 (.received "[2,\"s0\",\"Heartbeat\",{}]"),
    .respond 3 ⟨"s0"⟩ .emptyObject, .handle 4 .disconnected]

theorem receivesUp_hangUpRun : AtEach (csms .v2_1) hangUpRun ReceivesUp := by
  refine atEach_cons.mpr ⟨by rintro _ _ ⟨⟩, atEach_cons.mpr ⟨fun _ _ _ => ?_,
    atEach_cons.mpr ⟨by rintro _ _ ⟨⟩, atEach_cons.mpr ⟨by rintro _ _ ⟨⟩, atEach_nil _ _⟩⟩⟩⟩
  decide +kernel

theorem transmits_up_iff_hangUpRun : TransmitsUp (run (csms .v2_1) hangUpRun).log := by
  refine (transmits_up_iff (withStore_csms .v2_1) hangUpRun receivesUp_hangUpRun).mpr ?_
  refine atEach_cons.mpr ⟨?_, atEach_cons.mpr ⟨?_, atEach_cons.mpr ⟨?_, atEach_cons.mpr ⟨?_,
    atEach_nil _ _⟩⟩⟩⟩
  all_goals
    rintro ⟨-, -, _, _, _, h⟩
    exact absurd h (by simp)

/-- The connection has gone away, and a result that came over it is rejected. -/
def lateRejectionRun : List Op :=
  [.handle 1 (.connected .v2_1), .handle 2 .disconnected,
    .rejectResult 3 ⟨"s0"⟩ (.new .internalError "no")]

/-- **A `CALLRESULTERROR` is written while the connection is down.** -/
theorem rejection_writtenOffline : AtEach (csms .v2_1) lateRejectionRun ReceivesUp ∧
    ¬TransmitsUp (run (csms .v2_1) lateRejectionRun).log := by
  constructor
  · refine atEach_cons.mpr ⟨?_, atEach_cons.mpr ⟨?_, atEach_cons.mpr ⟨?_, atEach_nil _ _⟩⟩⟩
    all_goals
      rintro _ _ h
      exact absurd h (by simp)
  · intro h
    have hlink := h ((run (csms .v2_1) lateRejectionRun).log.take 5)
      "[5,\"s0\",\"InternalError\",\"no\",{}]" [] (by decide +kernel)
    exact absurd hlink (by decide +kernel)

end OcppKit.Reference
