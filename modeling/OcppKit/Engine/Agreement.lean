import OcppKit.Engine.Wire

/-!
# Two engines agree on every answered call

`OcppKit.engines_agree`: when an engine reports that a call of its own has been answered, the
other engine has handed exactly one request with the id of that call to its application, with
the action and the payload of the call, and on the connection that is up; its application has
answered it once; and the answer is the one that is reported. A rejection is one the other
application has given, or one the other engine has given itself.

What makes it so is that an id is not used twice, that a channel neither invents nor repeats
what it carries (`OcppKit.Wire.Reachable.requests_asked`), and that an engine answers for its
application no more often than it has asked it (`OcppKit.Paired`). That it all happened on one
connection has an invariant of its own (`OcppKit.Wire.Separate`): no request from before the
connection has an id that was used on it.
-/

namespace OcppKit

variable [Externals]

open Engine

/-! ### On this connection -/

/-- What has happened since a connection last came up or went away. -/
def present (log : List Event) : List Event := log.rtakeWhile fun ev => ev.link.isNone

/-- Entries that say nothing of the connection only add to it. -/
theorem present_append {l l' : List Event} (h : l'.filterMap Event.link = []) :
    present (l ++ l') = present l ++ l' := by
  have hnone : ∀ ev ∈ l', ev.link.isNone = true := fun ev hev => by
    rw [List.filterMap_eq_nil_iff.mp h ev hev]
    rfl
  induction l' using List.reverseRecOn with
  | nil => rw [List.append_nil, List.append_nil]
  | append_singleton l' ev ih =>
      rw [← List.append_assoc, present, List.rtakeWhile_concat_pos
        (fun ev : Event => ev.link.isNone) _ _ (hnone ev (by simp)), ← present,
        ih ?_ fun ev' hev' => hnone ev' (by simp [hev']), List.append_assoc]
      rw [List.filterMap_append] at h
      exact (List.append_eq_nil_iff.mp h).1

/-- An entry that does starts it again. -/
theorem present_link {l l' : List Event} {ev : Event} (hev : ev.link ≠ none)
    (h : l'.filterMap Event.link = []) : present (l ++ ev :: l') = l' := by
  have hone : present (l ++ [ev]) = [] := by
    rw [present, List.rtakeWhile_concat_neg]
    rwa [Option.isNone_iff_eq_none]
  rw [← List.singleton_append, ← List.append_assoc, present_append h, hone, List.nil_append]

theorem present_sublist (log : List Event) : (present log).Sublist log :=
  (List.rtakeWhile_suffix _ _).sublist

section

variable {S : Type} [MessageStore S]

/-- **What is present after an operation.** -/
theorem present_exec (e : Engine S) (op : Op) :
    (op.link = none ∧ present (exec e op).log = present e.log ++ newEvents e op) ∨
    op.link ≠ none ∧ newEvents e op = op.inputs ++ present (exec e op).log := by
  obtain ⟨hlink, -⟩ := link_exec e op
  rcases hop : op.link with _ | up
  · rw [hop] at hlink
    exact Or.inl ⟨rfl, by rw [log_exec, present_append hlink]⟩
  · refine Or.inr ⟨by simp, ?_⟩
    obtain ⟨evs, hnew, -⟩ := newEvents_started e op
    rcases op with ⟨now, input⟩ | _ | _ | _ | _ | _ | _ | _ | _ | _ | _
    case handle =>
      have hinput : (Event.input input).link = some up := hop
      have hrest : evs.filterMap Event.link = [] := by
        rw [hnew, hop] at hlink
        simpa [Op.inputs, hinput] using hlink
      have hpresent : present (exec e (.handle now input)).log = evs := by
        rw [log_exec, hnew]
        exact present_link (by rw [hinput]; simp) hrest
      rw [hpresent, hnew]
    all_goals cases hop

theorem callsSent_inputs (op : Op) : callsSent op.inputs = [] := by
  cases op <;> rfl

theorem requests_inputs (op : Op) : requests op.inputs = [] := by
  cases op <;> rfl

/-- An operation after which nothing is left of what was present. -/
theorem callsSent_present (e : Engine S) {op : Op} (h : op.link ≠ none) :
    callsSent (present (exec e op).log) = sentBy e op ∧
      requests (present (exec e op).log) = requests (newEvents e op) := by
  rcases present_exec e op with ⟨hnone, -⟩ | ⟨-, hnew⟩
  · exact absurd hnone h
  · rw [sentBy, hnew, callsSent_append, requests_append, callsSent_inputs, requests_inputs,
      List.nil_append, List.nil_append]
    exact ⟨rfl, rfl⟩

/-! ### The outstanding call -/

/-- **What is outstanding was sent on this connection**, and without one nothing is outstanding
and nothing is asked. -/
structure OnConnection (e : Engine S) : Prop where
  /-- Without a connection nothing is outstanding. -/
  idle : e.connected = false → e.inflight = none
  /-- What is outstanding was sent on it. -/
  sent : ∀ f, e.inflight = some f → ∃ entry, (f.id, entry) ∈ callsSent (present e.log) ∧
    f.flight = entry.item.launch policy f.id
  /-- Without a connection nothing is asked. -/
  quiet : e.connected = false → requests (present e.log) = []

/-- The driver reports a connection when there was none. -/
def ConnectsDown (e : Engine S) (op : Op) : Prop :=
  ∀ now version, op = .handle now (.connected version) → e.connected = false

/-- Nothing is outstanding once the connection has gone away. -/
theorem inflight_disconnected (e : Engine S) (now : Instant) :
    (exec e (.handle now .disconnected)).inflight = none := by
  have hlose : ∀ e : Engine S, e.loseInflight.inflight = none := by
    intro e
    rw [loseInflight]
    split
    · rw [requeueOrFail]
      split
      · exact (still_storeAttempts { e with inflight := none } _ _).inflight
      · exact (still_ackStore { e with inflight := none } _).inflight
    · next h => exact h
  have hfail : ∀ (waiting kept : List Pending) (e : Engine S), e.inflight = none →
      (failOffline waiting kept e).inflight = none := by
    intro waiting
    induction waiting with
    | nil => exact fun kept e he => he
    | cons entry rest ih =>
        intro kept e he
        rw [failOffline]
        split
        · exact ih _ e he
        · exact ih _ _ ((still_abandon e entry .disconnected).inflight.trans he)
  have hdrain : ∀ e : Engine S, e.inflight = none → e.checkDrain.inflight = none := by
    intro e he
    rw [checkDrain]
    split
    · exact he
    · exact he
  exact hdrain _ (hfail _ [] _ (hlose _))

theorem onConnection_exec {e : Engine S} {op : Op} (h : OnConnection e) (hup : ConnectsDown e op)
    (hreceives : ReceivesUp e op) : OnConnection (exec e op) := by
  obtain ⟨-, hconnected⟩ := link_exec e op
  -- a `CALL` goes out only while there is a connection
  have hsent : sentBy e op ≠ [] → (exec e op).connected = true := by
    intro hne
    obtain ⟨p, hp⟩ := List.exists_mem_of_ne_nil _ hne
    obtain ⟨ev, hev, hsome⟩ := List.mem_filterMap.mp hp
    rcases ev with _ | _ | _ | ⟨id, entry⟩ | _ | _ | _ | _
    case sent =>
      rcases newEvents_inOrder e op _ hev with hup | ⟨reason, hclose⟩
      · exact hup
      · cases hclose
    all_goals cases hsome
  have hasked : (exec e op).connected = false → requests (newEvents e op) = [] := by
    intro hdown
    refine List.sublist_nil.mp ?_
    refine (requests_newEvents e op).trans ?_
    rw [received_newEvents]
    rcases op with ⟨now, input⟩ | _ | _ | _ | _ | _ | _ | _ | _ | _ | _
    case handle =>
      rcases input with _ | text | _ | _
      case received =>
        have := hreceives now text rfl
        rw [hconnected] at hdown
        exact absurd (this.symm.trans hdown) (by simp)
      all_goals exact List.Sublist.refl _
    all_goals exact List.Sublist.refl _
  rcases hop : op.link with _ | up
  · -- the connection stays as it is
    rw [hop, Option.getD_none] at hconnected
    rcases present_exec e op with ⟨-, hpresent⟩ | ⟨hne, -⟩
    · refine ⟨fun hdown => ?_, fun f hf => ?_, fun hdown => ?_⟩
      · have hidle := h.idle (hconnected ▸ hdown)
        rcases exec_slot e op with ⟨-, hkept | ⟨-, hnone⟩⟩ | ⟨id, entry, f, hs, -⟩
        · rw [hidle, Option.map_none] at hkept
          exact Option.map_eq_none_iff.mp hkept
        · exact hnone
        · exact absurd (hsent (by simp [hs])) (by simp [hdown])
      · rw [hpresent, callsSent_append, ← sentBy]
        rcases exec_slot e op with ⟨-, hkept | ⟨-, hnone⟩⟩ | ⟨id, entry, g, hs, -, hg, hflight⟩
        · rw [hf, Option.map_some] at hkept
          obtain ⟨g, hg, hflight⟩ := Option.map_eq_some_iff.mp hkept.symm
          have hid : g.id = f.id := congrArg Outbox.Flight.id hflight
          obtain ⟨entry, hmem, hlaunch⟩ := h.sent g hg
          rw [hid] at hmem hlaunch
          exact ⟨entry, List.mem_append_left _ hmem, hflight ▸ hlaunch⟩
        · exact absurd (hf.symm.trans hnone) (by simp)
        · obtain rfl := Option.some.inj (hf.symm.trans hg)
          have hid : f.id = id := congrArg Outbox.Flight.id hflight
          rw [hs, hid]
          exact ⟨entry, List.mem_append_right _ List.mem_cons_self, hflight⟩
      · rw [hpresent, requests_append, h.quiet (hconnected ▸ hdown), hasked hdown]
        rfl
    · exact absurd hop hne
  · have hne : op.link ≠ none := by
      rw [hop]
      simp
    obtain ⟨hcalls, hrequests⟩ := callsSent_present e hne
    rcases op with ⟨now, input⟩ | _ | _ | _ | _ | _ | _ | _ | _ | _ | _
    case handle =>
      rcases input with version | text | _ | _
      case connected =>
        have hidle := h.idle (hup now version rfl)
        refine ⟨fun hdown => absurd (hconnected.symm.trans hdown) ?_, fun f hf => ?_,
          fun hdown => absurd (hconnected.symm.trans hdown) ?_⟩
        · simp [Op.link, Event.link]
        · rcases exec_slot e (.handle now (.connected version)) with
            ⟨-, hkept | ⟨-, hnone⟩⟩ | ⟨id, entry, g, hs, -, hg, hflight⟩
          · rw [hf, hidle] at hkept
            exact absurd hkept (by simp)
          · exact absurd (hf.symm.trans hnone) (by simp)
          · obtain rfl := Option.some.inj (hf.symm.trans hg)
            have hid : f.id = id := congrArg Outbox.Flight.id hflight
            rw [hcalls, hs, hid]
            exact ⟨entry, List.mem_cons_self, hflight⟩
        · simp [Op.link, Event.link]
      case disconnected =>
        have hnone := inflight_disconnected e now
        refine ⟨fun _ => hnone, fun f hf => absurd (hf.symm.trans hnone) (by simp), fun hdown => ?_⟩
        rw [hrequests]
        exact hasked hdown
      all_goals cases hop
    all_goals cases hop

omit [MessageStore S] in
/-- An engine that starts has nothing at hand. -/
theorem nothing_present {log : List Event} (entries : List Pending)
    (h : log = entries.map .accepted) : requests log = [] ∧ callsSent log = [] := by
  rw [h]
  exact ⟨filterMap_accepted entries fun _ => rfl, filterMap_accepted entries fun _ => rfl⟩

theorem onConnection_withStore {config : EngineConfig} {store : S} {ids : ℕ → MessageId}
    {e : Engine S} (h : Engine.withStore config store ids = .ok e) : OnConnection e := by
  have hslot : e.inflight = none := by
    obtain ⟨records, -, hload⟩ := withStore_outbox h
    exact Option.map_eq_none_iff.mp (congrArg Outbox.State.slot hload)
  obtain ⟨entries, hlog⟩ := log_withStore h
  refine ⟨fun _ => hslot, fun f hf => absurd (hf.symm.trans hslot) (by simp), fun _ => ?_⟩
  refine List.sublist_nil.mp ?_
  rw [← (nothing_present entries hlog).1]
  exact (present_sublist _).filterMap _

/-! ### Answers -/

/-- The requests with this id that a history hands to the application, of those that want an
answer. -/
def requestsFor (id : MessageId) (evs : List Event) : List IncomingRequest :=
  (requests evs).filter fun r => r.id = id ∧ r.kind = .call

/-- The answers the application gives to this id. -/
def answersFor (id : MessageId) (evs : List Event) : List (Except CallError RawValue) :=
  evs.filterMap fun
    | .answered id' payload => if id' = id then some (.ok payload) else none
    | .answeredError id' error => if id' = id then some (.error error) else none
    | _ => none

theorem answersFor_append (id : MessageId) (l l' : List Event) :
    answersFor id (l ++ l') = answersFor id l ++ answersFor id l' :=
  List.filterMap_append

theorem requestsFor_append (id : MessageId) (l l' : List Event) :
    requestsFor id (l ++ l') = requestsFor id l ++ requestsFor id l' := by
  rw [requestsFor, requests_append, List.filter_append]
  rfl

theorem answersFor_foreign (id : MessageId) (evs : List Event) :
    answersFor id (foreign evs) = answersFor id evs := by
  induction evs with
  | nil => rfl
  | cons ev evs ih =>
      rcases hown : ev.own with _ | _
      · rw [foreign, List.filter_cons_of_pos (by simp [hown]), ← foreign, answersFor, answersFor,
          List.filterMap_cons, List.filterMap_cons, ← answersFor, ih, ← answersFor]
      · rw [foreign, List.filter_cons_of_neg (by simp [hown]), ← foreign, ih]
        cases ev with
        | answered _ _ => exact absurd hown (by simp [Event.own])
        | answeredError _ _ => exact absurd hown (by simp [Event.own])
        | _ => rfl

/-- **An application answers no more often than it is asked**, and what still waits has not
been answered. -/
def Paired (e : Engine S) : Prop :=
  ∀ id, (answersFor id e.log).length + (if id ∈ e.peerInflight then 1 else 0) ≤
    (requestsFor id e.log).length

omit [MessageStore S] in
/-- An answer that is given takes the place of a request that waits. -/
theorem paired_answer {id id' : MessageId} {ids : Finset MessageId} {n k : ℕ}
    {answer : Except CallError RawValue} (hmem : id' ∈ ids)
    (h : n + (if id ∈ ids then 1 else 0) ≤ k) :
    n + (if id' = id then some answer else none).toList.length +
      (if id ∈ ids.erase id' then 1 else 0) ≤ k := by
  by_cases he : id' = id
  · subst he
    simpa [hmem] using h
  · simpa [he, Finset.mem_erase, Ne.symm he] using h

theorem paired_exec {e : Engine S} (h : Paired e) (op : Op) : Paired (exec e op) := by
  intro id
  have hid := h id
  have heffect := (newEvents_effect e op).1
  rw [log_exec, answersFor_append, requestsFor_append, List.length_append, List.length_append,
    show (exec e op).peerInflight = (exec e op).setting.peerInflight from rfl,
    ← answersFor_foreign id (newEvents e op), requestsFor, requestsFor,
    ← requests_foreign (newEvents e op)]
  rw [requestsFor] at hid
  generalize (exec e op).setting = s at heffect
  generalize foreign (newEvents e op) = left at heffect
  cases heffect with
  | connected now version =>
      simp only [Finset.notMem_empty, if_false]
      exact Nat.le_trans (Nat.le_of_add_right_le hid) (Nat.le_add_right _ _)
  | disconnected now =>
      simp only [Finset.notMem_empty, if_false]
      exact Nat.le_trans (Nat.le_of_add_right_le hid) (Nat.le_add_right _ _)
  | malformed now text error _ =>
      have hnone : answersFor id (Event.input (.received text) :: replyMarks e.version error) =
          [] := by
        rw [replyMarks]
        split <;> rfl
      rw [hnone]
      exact Nat.le_trans hid (Nat.le_add_right _ _)
  | delivered now text id' action payload kind _ _ =>
      have hnone : answersFor id [.input (.received text),
          .out (.request ⟨id', action, payload, kind⟩)] = [] := rfl
      have hone : requests [.input (.received text),
          .out (.request ⟨id', action, payload, kind⟩)] = [⟨id', action, payload, kind⟩] := rfl
      rw [hnone, hone]
      cases kind with
      | send => exact Nat.le_trans hid (Nat.le_add_right _ _)
      | call =>
          by_cases he : id' = id
          · simp only [he, List.length_nil, if_true, Finset.mem_insert_self, and_self,
              List.filter_cons_of_pos, decide_true, List.length_cons, List.filter_nil]
            omega
          · simp only [List.length_nil, if_true, Finset.mem_insert, Ne.symm he, false_or]
            exact Nat.le_trans hid (Nat.le_add_right _ _)
  | responded now id' payload hmem =>
      exact paired_answer hmem hid
  | respondedError now id' error hmem =>
      exact paired_answer hmem hid
  | _ => exact hid

theorem paired_run {config : EngineConfig} {store : S} {ids : ℕ → MessageId}
    {e₀ : Engine S} (h : Engine.withStore config store ids = .ok e₀) (ops : List Op) :
    Paired (run e₀ ops) := by
  refine run_invariant Paired (fun e op he => paired_exec he op) ?_ ops
  obtain ⟨entries, hlog⟩ := log_withStore h
  intro id
  have hnone : answersFor id (entries.map Event.accepted) = [] :=
    filterMap_accepted entries fun _ => rfl
  have hnobody : e₀.peerInflight = ∅ := congrArg Setting.peerInflight (setting_withStore h)
  rw [hlog, hnone, hnobody]
  exact Nat.zero_le _

end

/-! ### The two of them -/

namespace Wire

variable {S : Role → Type} [∀ role, MessageStore (S role)]

theorem onConnection_moved {w w' : Wire S} {m : Move}
    (h : ∀ role, OnConnection (w.engine role)) (hm : Moved w m w') :
    ∀ role, OnConnection (w'.engine role) := by
  have hexec : ∀ (role : Role) (op : Op), ConnectsDown (w.engine role) op →
      ReceivesUp (w.engine role) op → ∀ role', OnConnection ((w.exec role op).engine role') := by
    intro role op hup hreceives role'
    rcases role.eq_or_other role' with rfl | rfl
    · rw [engine_exec]
      exact onConnection_exec (h role') hup hreceives
    · rw [engine_exec_other]
      exact h role.other
  cases hm with
  | establish version _ _ => exact h
  | cut => exact h
  | attach role now version _ hdown =>
      exact hexec role _ (fun _ _ _ => hdown) (by rintro _ _ ⟨⟩)
  | deliver role now text rest _ _ hconnected =>
      exact hexec role _ (by rintro _ _ ⟨⟩) (fun _ _ _ => hconnected)
  | detach role now _ _ => exact hexec role _ (by rintro _ _ ⟨⟩) (by rintro _ _ ⟨⟩)
  | act role op hlocal =>
      refine hexec role op ?_ ?_
      · rintro now version rfl
        cases hlocal
      · rintro now text rfl
        cases hlocal
  | poll role texts _ => exact hexec role _ (by rintro _ _ ⟨⟩) (by rintro _ _ ⟨⟩)

theorem Reachable.onConnection {w : Wire S} (h : w.Reachable) (role : Role) :
    OnConnection (w.engine role) := by
  refine h.invariant (P := fun w => ∀ role, OnConnection (w.engine role)) ?_
    (fun _ _ _ _ => onConnection_moved) role
  intro w hw role
  obtain ⟨config, store, ids, -, hstart⟩ := hw.engine role
  exact onConnection_withStore hstart

/-- **No id is used twice** for the calls of this side. -/
def DistinctIds (w : Wire S) (role : Role) : Prop :=
  ((callsSent (w.engine role).log).map Prod.fst).Nodup

/-- **What this side calls on this connection is not asked of the other before it**: a request
with the id of such a call is one of this connection. -/
def Separate (w : Wire S) (role : Role) : Prop :=
  w.up.isSome → (w.engine role).connected = true →
    ∀ r ∈ requests (w.engine role.other).log, r.kind = .call →
      r.id ∈ (callsSent (present (w.engine role).log)).map Prod.fst →
      r ∈ requests (present (w.engine role.other).log)

/-- A request that has been delivered was sent as a call. -/
theorem Reachable.called [LawfulExternals] {w : Wire S} (h : w.Reachable) (role : Role)
    {r : IncomingRequest} (hr : r ∈ requests (w.engine role.other).log) (hkind : r.kind = .call) :
    ∃ entry, (r.id, entry) ∈ callsSent (w.engine role).log ∧ r = entry.asked r.id := by
  obtain ⟨ev, hev, hasked⟩ := List.mem_filterMap.mp ((h.requests_asked role).subset hr)
  rcases ev with _ | _ | _ | ⟨id, entry⟩ | _ | _ | _ | _
  case sent =>
    obtain rfl := Option.some.inj hasked
    refine ⟨entry, List.mem_filterMap.mpr ⟨_, hev, ?_⟩, rfl⟩
    exact if_pos hkind
  all_goals cases hasked

/-- An operation of this side: what it calls has an id that was not used before. -/
theorem separate_self [LawfulExternals] {w : Wire S} {role : Role} {op : Op} (hreach : w.Reachable)
    (h : op.link = none → w.Separate role) (hids : (w.exec role op).DistinctIds role) :
    (w.exec role op).Separate role := by
  intro hup hconnected r hr hkind hmem
  rw [engine_exec_other] at hr ⊢
  rw [engine_exec] at hconnected hmem
  rw [DistinctIds, engine_exec, callsSent_exec, List.map_append, List.nodup_append] at hids
  obtain ⟨entry, hcalled, -⟩ := hreach.called role hr hkind
  have hfresh : r.id ∉ (sentBy (w.engine role) op).map Prod.fst := fun hnew =>
    hids.2.2 r.id (List.mem_map_of_mem hcalled) r.id hnew rfl
  rcases present_exec (w.engine role) op with ⟨hlink, hpresent⟩ | ⟨hlink, -⟩
  · rw [hpresent, callsSent_append, ← sentBy, List.map_append, List.mem_append] at hmem
    rw [(link_exec (w.engine role) op).2, hlink, Option.getD_none] at hconnected
    exact h hlink hup hconnected r hr hkind (hmem.resolve_right hfresh)
  · rw [(callsSent_present (w.engine role) hlink).1] at hmem
    exact absurd hmem hfresh

/-- An operation of the other side: what it is asked is asked on this connection. -/
theorem separate_other {w : Wire S} {role : Role} {op : Op} (h : w.Separate role)
    (hquiet : op.link ≠ none → requests (present (w.engine role.other).log) = []) :
    (w.exec role.other op).Separate role := by
  have hself : (w.exec role.other op).engine role = w.engine role :=
    Function.update_of_ne role.other_ne.symm _ _
  intro hup hconnected r hr hkind hmem
  rw [hself] at hconnected hmem
  rw [engine_exec] at hr ⊢
  rw [log_exec, requests_append, List.mem_append] at hr
  have hold := fun hr => h hup hconnected r hr hkind hmem
  rcases present_exec (w.engine role.other) op with ⟨-, hpresent⟩ | ⟨hlink, -⟩
  · rw [hpresent, requests_append, List.mem_append]
    exact hr.imp_left hold
  · rw [(callsSent_present (w.engine role.other) hlink).2]
    rw [hquiet hlink] at hold
    exact hr.resolve_left fun hr => absurd (hold hr) List.not_mem_nil

theorem separate_exec [LawfulExternals] {w : Wire S} {role role' : Role} {o : Op}
    (hreach : w.Reachable) (h : w.Separate role) (hids : (w.exec role' o).DistinctIds role)
    (hdown : o.link ≠ none → (w.engine role').connected = false) :
    (w.exec role' o).Separate role := by
  rcases role.eq_or_other role' with rfl | rfl
  · exact separate_self hreach (fun _ => h) hids
  · exact separate_other h fun hlink => (hreach.onConnection role.other).quiet (hdown hlink)

theorem link_of_isLocal {op : Op} (h : op.isLocal = true) : op.link = none := by
  rcases op with ⟨now, input⟩ | _ | _ | _ | _ | _ | _ | _ | _ | _ | _
  case handle => cases input <;> first | rfl | cases h
  all_goals rfl

theorem separate_moved [LawfulExternals] {w w' : Wire S} {m : Move} {role : Role}
    (hreach : w.Reachable) (h : w.Separate role) (hids : w'.DistinctIds role) (hm : Moved w m w') :
    w'.Separate role := by
  cases hm with
  | establish version _ hdown =>
      exact fun _ hconnected => absurd (hconnected.symm.trans (hdown role)) (by simp)
  | cut => exact fun hup => absurd hup (by simp)
  | attach role' now version _ hdown => exact separate_exec hreach h hids fun _ => hdown
  | deliver role' now text rest _ _ _ =>
      exact separate_exec (o := .handle now (.received text)) hreach h hids
        fun hlink => absurd rfl hlink
  | detach role' now hdown _ =>
      intro hup
      rw [up_exec, hdown] at hup
      exact absurd hup (by simp)
  | act role' op hlocal =>
      exact separate_exec hreach h hids fun hlink => absurd (link_of_isLocal hlocal) hlink
  | poll role' texts _ =>
      exact separate_exec (o := .pollOutput) hreach h hids fun hlink => absurd rfl hlink

/-- Ids that are distinct now were so before. -/
theorem DistinctIds.of_moved {w w' : Wire S} {m : Move} {role : Role} (h : w'.DistinctIds role)
    (hm : Moved w m w') : w.DistinctIds role := by
  have hexec : ∀ (role' : Role) (op : Op), (w.exec role' op).DistinctIds role →
      w.DistinctIds role := by
    intro role' op h
    rcases role.eq_or_other role' with rfl | rfl
    · rw [DistinctIds, engine_exec, callsSent_exec, List.map_append] at h
      exact h.sublist (List.sublist_append_left _ _)
    · have hself : (w.exec role.other op).engine role = w.engine role :=
        Function.update_of_ne role.other_ne.symm _ _
      rwa [DistinctIds, hself] at h
  cases hm with
  | establish => exact h
  | cut => exact h
  | attach role' now version => exact hexec role' _ h
  | deliver role' now text rest => exact hexec role' (.handle now (.received text)) h
  | detach role' now => exact hexec role' _ h
  | act role' op => exact hexec role' op h
  | poll role' texts => exact hexec role' .pollOutput h

theorem Reachable.separate [LawfulExternals] {w : Wire S} (h : w.Reachable) {role : Role}
    (hids : w.DistinctIds role) : w.Separate role := by
  refine h.invariant (P := fun w => w.DistinctIds role → w.Separate role) ?_ ?_ hids
  · intro w hw _ hup
    rw [hw.down] at hup
    exact absurd hup (by simp)
  · intro w m w' hreach hinv hm hids
    exact separate_moved hreach (hinv (hids.of_moved hm)) hids hm

/-- What this side has left in its history between two states. -/
def left (w w' : Wire S) (role : Role) : List Event :=
  (w'.engine role).log.drop (w.engine role).log.length

theorem left_exec (w : Wire S) (role : Role) (op : Op) (role' : Role) :
    w.left (w.exec role op) role' =
      if role' = role then newEvents (w.engine role) op else [] := by
  rcases role.eq_or_other role' with rfl | rfl
  · rw [if_pos rfl, left, engine_exec, newEvents]
  · rw [if_neg role.other_ne, left, engine_exec_other, List.drop_length]

/-- **A call is reported as answered only when a text arrives that answers it.** -/
theorem delivered_of_outcome {w w' : Wire S} {m : Move} {role : Role} (hm : Moved w m w')
    {o : CallOutcome} (h : .out (.outcome o) ∈ w.left w' role)
    (hanswer : isAnswer o.result = true) :
    ∃ text rest f frame, w.inTransit role.other = text :: rest ∧ w.up.isSome ∧
      (w.engine role).connected = true ∧
      Frame.parse text (w.engine role).version = .ok frame ∧ (w.engine role).inflight = some f ∧
      AnswerFrame f frame o.result ∧ o.token = f.token ∧ o.id = some f.id ∧
      o.action = f.action := by
  have hexec : ∀ (role' : Role) (op : Op), .out (.outcome o) ∈ w.left (w.exec role' op) role →
      role = role' ∧ ∃ now text f frame, op = .handle now (.received text) ∧
        Frame.parse text (w.engine role).version = .ok frame ∧ (w.engine role).inflight = some f ∧
        AnswerFrame f frame o.result ∧ o.token = f.token ∧ o.id = some f.id ∧
        o.action = f.action := by
    intro role' op h
    rw [left_exec] at h
    split at h
    next he =>
      subst he
      exact ⟨rfl, answer_of_outcome h hanswer⟩
    · exact absurd h List.not_mem_nil
  have hsame : ∀ {w' : Wire S}, w'.engine = w.engine → .out (.outcome o) ∉ w.left w' role := by
    intro w' he
    rw [left, he, List.drop_length]
    exact List.not_mem_nil
  cases hm with
  | establish version _ _ => exact absurd h (hsame rfl)
  | cut => exact absurd h (hsame rfl)
  | attach role' now version _ _ =>
      obtain ⟨-, _, _, _, _, hop, -⟩ := hexec role' _ h
      cases hop
  | deliver role' now text rest htransit hup hconnected =>
      obtain ⟨rfl, now', text', f, frame, hop, hparse, hrest⟩ :=
        hexec role' (.handle now (.received text)) h
      cases hop
      exact ⟨text, rest, f, frame, htransit, hup, hconnected, hparse, hrest⟩
  | detach role' now _ _ =>
      obtain ⟨-, _, _, _, _, hop, -⟩ := hexec role' _ h
      cases hop
  | act role' op hlocal =>
      obtain ⟨-, _, _, _, _, rfl, -⟩ := hexec role' op h
      cases hlocal
  | poll role' texts _ =>
      obtain ⟨-, _, _, _, _, hop, -⟩ := hexec role' .pollOutput h
      cases hop

/-- What is on its way was marked where it comes from. -/
theorem Reachable.marked [LawfulExternals] {w : Wire S} (h : w.Reachable) {role : Role}
    {text : String} {rest : List String} (htransit : w.inTransit role.other = text :: rest)
    {version : Version} {frame : Frame} (hparse : Frame.parse text version = .ok frame) :
    ∃ ev ∈ (w.engine role.other).log, ∃ frame' version', ev.frame = some frame' ∧
      frame = frame'.overTheWire version' := by
  obtain ⟨config, store, ids, e₀, ops, -, hstart, hrun⟩ := h.engine role.other
  have hwrote := wrote_run hstart ops
  rw [← hrun] at hwrote
  have hcarried := h.carried role.other
  have htext : text ∈ texts (w.engine role.other).log :=
    hcarried.subset (by simp [htransit])
  obtain ⟨i, hi, rfl⟩ := List.mem_iff_getElem.mp htext
  have hlen := hwrote.length_eq
  obtain ⟨version', hjson⟩ := List.forall₂_iff_get.mp hwrote |>.2 i hi (hlen ▸ hi)
  obtain ⟨ev, hev, hframe⟩ := List.mem_filterMap.mp
    (List.getElem_mem (l := frames (w.engine role.other).log) (hlen ▸ hi))
  exact ⟨ev, hev, _, version', hframe, Frame.eq_overTheWire hjson hparse⟩

/-- The calls among what a history asks have the ids they were sent with. -/
theorem ids_asked (log : List Event) :
    (((asked log).filter fun r => r.kind = .call).map IncomingRequest.id) =
      (callsSent log).map Prod.fst := by
  induction log with
  | nil => rfl
  | cons ev log ih =>
      rcases ev with _ | _ | _ | ⟨id, entry⟩ | _ | _ | _ | _
      case sent =>
        rcases hkind : entry.kind with _ | _
        · simpa [asked, callsSent, Pending.asked, hkind] using ih
        · simpa [asked, callsSent, Pending.asked, hkind] using ih
      all_goals exact ih

/-- With distinct ids, no two requests of the other side have one. -/
theorem Reachable.nodup_requestsFor [LawfulExternals] {w : Wire S} (h : w.Reachable) {role : Role}
    (hids : w.DistinctIds role) (id : MessageId) :
    (requestsFor id (w.engine role.other).log).Nodup := by
  have hsub := ((h.requests_asked role).filter fun r => r.kind = .call).map IncomingRequest.id
  rw [ids_asked] at hsub
  have hnodup := List.Nodup.of_map _ (hids.sublist hsub)
  have heq : requestsFor id (w.engine role.other).log =
      ((requests (w.engine role.other).log).filter fun r => r.kind = .call).filter
        fun r => r.id = id := by
    rw [requestsFor, List.filter_filter]
    exact List.filter_congr fun r _ => by simp
  rw [heq]
  exact hnodup.filter _

/-- **The call was asked once, on this connection, and answered once, in this way**, by the
other side's application. -/
structure AnsweredAs (w : Wire S) (role : Role) (id : MessageId) (entry : Pending)
    (answer : Except CallError RawValue) : Prop where
  /-- There is one request with this id, and it is the call. -/
  once : requestsFor id (w.engine role.other).log = [entry.asked id]
  /-- It was delivered on this connection. -/
  here : entry.asked id ∈ requests (present (w.engine role.other).log)
  /-- There is one answer to it. -/
  answer : answersFor id (w.engine role.other).log = [answer]

theorem answeredAs [LawfulExternals] {w : Wire S} (h : w.Reachable) {role : Role}
    (hids : w.DistinctIds role) (hup : w.up.isSome) (hconnected : (w.engine role).connected = true)
    {id : MessageId} {entry : Pending} {answer : Except CallError RawValue}
    (hcall : (id, entry) ∈ callsSent (present (w.engine role).log))
    (hanswer : answer ∈ answersFor id (w.engine role.other).log) :
    w.AnsweredAs role id entry answer := by
  obtain ⟨config, store, ids, e₀, ops, -, hstart, hrun⟩ := h.engine role.other
  have hpaired := paired_run hstart ops
  rw [← hrun] at hpaired
  have hbound := hpaired id
  -- every request with the id is the call
  have hall : ∀ r ∈ requestsFor id (w.engine role.other).log, r = entry.asked id := by
    intro r hr
    obtain ⟨hmem, hr⟩ := List.mem_filter.mp hr
    obtain ⟨rfl, hkind⟩ := of_decide_eq_true hr
    obtain ⟨entry', hcalled, heq⟩ := h.called role hmem hkind
    have hcall' := ((present_sublist (w.engine role).log).filterMap _).subset hcall
    obtain ⟨-, rfl⟩ := Prod.mk.inj (List.inj_on_of_nodup_map hids hcalled hcall' rfl)
    exact heq
  have hrequests : requestsFor id (w.engine role.other).log = [entry.asked id] := by
    have hreplicate := List.eq_replicate_iff.mpr ⟨rfl, hall⟩
    have hnodup := h.nodup_requestsFor hids id
    rw [hreplicate, List.nodup_replicate] at hnodup
    have hpos := List.length_pos_of_mem hanswer
    rw [hreplicate, show (requestsFor id (w.engine role.other).log).length = 1 by omega]
    rfl
  have hone : answersFor id (w.engine role.other).log = [answer] := by
    rw [hrequests, List.length_singleton] at hbound
    rcases hlist : answersFor id (w.engine role.other).log with _ | ⟨a, _ | ⟨b, rest⟩⟩
    · rw [hlist] at hanswer
      exact absurd hanswer List.not_mem_nil
    · rw [hlist] at hanswer
      rw [List.mem_singleton.mp hanswer]
    · rw [hlist, List.length_cons, List.length_cons] at hbound
      omega
  refine ⟨hrequests, ?_, hone⟩
  have hmem : entry.asked id ∈ requestsFor id (w.engine role.other).log := by
    rw [hrequests]
    exact List.mem_singleton.mpr rfl
  obtain ⟨hmem, hr⟩ := List.mem_filter.mp hmem
  exact h.separate hids hup hconnected _ hmem (of_decide_eq_true hr).2
    (List.mem_map_of_mem (f := Prod.fst) hcall)

omit [∀ role, MessageStore (S role)] in
/-- A result on the wire was given by the application. -/
theorem answered_of_frame {ev : Event} {frame : Frame} {version : Version} {id : MessageId}
    {payload : RawValue} (hmark : ev.frame = some frame)
    (hframe : Frame.callResult id payload = frame.overTheWire version) :
    ev = .answered id payload := by
  have hframe' : frame = .callResult id payload := by
    cases frame with
    | callResult id' payload' => exact hframe.symm
    | _ => cases hframe
  rw [hframe'] at hmark
  rcases ev with _ | _ | _ | ⟨id', entry⟩ | ⟨id', payload'⟩ | _ | _ | _
  case sent =>
    simp only [Event.frame, Pending.frame] at hmark
    split at hmark <;> cases hmark
  case answered =>
    cases hmark
    rfl
  all_goals cases hmark

/-- An error on the wire was given by the application, or by the engine. -/
theorem error_of_frame {ev : Event} {frame : Frame} {version : Version} {id : MessageId}
    {error : CallErrorRef} (hmark : ev.frame = some frame)
    (hframe : Frame.callError id error = frame.overTheWire version) :
    ∃ error', error.toCallError = CallError.overTheWire version error' ∧
      (ev = .answeredError id error' ∨ ev = .rejected id error') := by
  obtain ⟨ref, rfl, rfl⟩ : ∃ ref, frame = .callError id ref ∧ error = ref.overTheWire version := by
    cases frame with
    | callError id' ref =>
        obtain ⟨rfl, rfl⟩ := Frame.callError.inj hframe
        exact ⟨ref, rfl, rfl⟩
    | _ => cases hframe
  rcases ev with _ | _ | _ | ⟨id', entry⟩ | _ | ⟨id', error'⟩ | ⟨id', error'⟩ | _
  case sent =>
    simp only [Event.frame, Pending.frame] at hmark
    split at hmark <;> cases hmark
  case answeredError =>
    cases hmark
    exact ⟨error', error'.toCallError_overTheWire version, Or.inl rfl⟩
  case rejected =>
    cases hmark
    exact ⟨error', error'.toCallError_overTheWire version, Or.inr rfl⟩
  all_goals cases hmark

/-- **Two engines agree on every answered call.** Whatever has happened, as long as this side
has not used an id twice: when it reports that a call of its own has been answered, the call was
sent on the connection that is up. If the answer is a result, the other side's application was
asked once, for this action and with this payload, on this connection, and has given this
result; if it is an error, it has given this error, or its engine has. -/
theorem engines_agree [LawfulExternals] {w w' : Wire S} {m : Move} (h : w.Reachable)
    (hstep : w.step m = some w') (role : Role) (hids : w.DistinctIds role) (o : CallOutcome)
    (hout : .out (.outcome o) ∈ w.left w' role) (hanswer : isAnswer o.result = true) :
    w.up.isSome ∧ (w.engine role).connected = true ∧
    ∃ id entry, o.id = some id ∧ o.token = entry.token ∧ o.action = entry.action ∧
      (id, entry) ∈ callsSent (present (w.engine role).log) ∧
      (∀ payload, o.result = .ok (.result payload) → w.AnsweredAs role id entry (.ok payload)) ∧
      ∀ error, o.result = .error (.rejected error) →
        ∃ error' version, error = error'.overTheWire version ∧
          (w.AnsweredAs role id entry (.error error') ∨
            .rejected id error' ∈ (w.engine role.other).log) := by
  obtain ⟨text, rest, f, frame, htransit, hup, hconnected, hparse, hf, hanswers, htoken, hid,
    haction⟩ := delivered_of_outcome (moved_of_step hstep) hout hanswer
  obtain ⟨entry, hcall, hlaunch⟩ := (h.onConnection role).sent f hf
  obtain ⟨ev, hev, frame', version, hmark, hframe⟩ := h.marked htransit hparse
  refine ⟨hup, hconnected, f.id, entry, hid, htoken.trans ?_, haction.trans ?_, hcall, ?_, ?_⟩
  · exact congrArg (fun x => x.item.token) hlaunch
  · exact congrArg (fun x => x.item.body.action) hlaunch
  · intro payload hresult
    rcases hanswers with ⟨payload', rfl, hv⟩ | ⟨error, -, hv⟩
    · obtain rfl : payload = payload' := by simpa [hresult] using hv
      obtain rfl := answered_of_frame hmark hframe
      refine answeredAs h hids hup hconnected hcall (List.mem_filterMap.mpr ⟨_, hev, ?_⟩)
      exact if_pos rfl
    · rw [hresult] at hv
      exact absurd hv (by simp)
  · intro error hresult
    rcases hanswers with ⟨payload, -, hv⟩ | ⟨error', rfl, hv⟩
    · rw [hresult] at hv
      exact absurd hv (by simp)
    · obtain rfl : error = error'.toCallError := by simpa [hresult] using hv
      obtain ⟨error'', heq, rfl | rfl⟩ := error_of_frame hmark hframe
      · refine ⟨error'', version, heq, Or.inl ?_⟩
        refine answeredAs h hids hup hconnected hcall (List.mem_filterMap.mpr ⟨_, hev, ?_⟩)
        exact if_pos rfl
      · exact ⟨error'', version, heq, Or.inr hev⟩

end Wire

end OcppKit

/-! ### A run -/

namespace OcppKit.Reference

open Wire

/-- The answer arrives. -/
def answeredBoot : Wire fun _ => MemStore :=
  (booted.step (.deliver .chargingStation 5)).getD booted

/-- What the station then reports. -/
def bootOutcome : CallOutcome :=
  ⟨0, some ⟨"s0"⟩, "BootNotification", .ok (.result RawValue.emptyObject)⟩

theorem engines_agree_bootOutcome :
    Event.out (.outcome bootOutcome) ∈ booted.left answeredBoot .chargingStation ∧
    ∃ entry, booted.AnsweredAs .chargingStation ⟨"s0"⟩ entry (.ok RawValue.emptyObject) := by
  have hstep : booted.step (.deliver .chargingStation 5) = some answeredBoot := by
    have hsome : (booted.step (.deliver .chargingStation 5)).isSome = true := by decide +kernel
    obtain ⟨w, hw⟩ := Option.isSome_iff_exists.mp hsome
    rw [answeredBoot, hw, Option.getD_some]
  have hids : booted.DistinctIds .chargingStation := by
    rw [DistinctIds]
    decide +kernel
  have hout : Event.out (.outcome bootOutcome) ∈ booted.left answeredBoot .chargingStation := by
    decide +kernel
  obtain ⟨-, -, id, entry, hid, -, -, -, hresult, -⟩ :=
    engines_agree reachable_booted hstep .chargingStation hids bootOutcome hout rfl
  obtain rfl := Option.some.inj hid
  exact ⟨hout, entry, hresult _ rfl⟩

end OcppKit.Reference
