import OcppKit.Engine.Reports

/-!
# The engine's own work

What the engine does on its own account – sending what is queued, accepting and
failing messages, keeping its timers – is the relation `OcppKit.Engine.Works`: it
leaves the setting alone, adds only entries of its own to the history, puts on the
wire exactly the frames it marks, and never empties the slot of its outbox.

Each function that does nothing else has its lemma here; `OcppKit.Engine.pump`, in
which everything ends, comes first.
-/

namespace OcppKit

/-! ### Two facts about positions in a list -/

theorem findIdx?_isNone_before {α : Type} {p : α → Bool} {xs ys : List α} {x : α}
    (h : (xs ++ x :: ys).findIdx? p = some xs.length) : ∀ y ∈ xs, p y = false := by
  intro y hy
  obtain ⟨hlt, -, hbefore⟩ := List.findIdx?_eq_some_iff_getElem.mp h
  obtain ⟨i, hi, rfl⟩ := List.getElem_of_mem hy
  have := hbefore i hi
  rw [List.getElem_append_left hi] at this
  simpa using this

theorem eraseIdx_length {α : Type} (xs ys : List α) (x : α) :
    (xs ++ x :: ys).eraseIdx xs.length = xs ++ ys := by
  rw [List.eraseIdx_append_of_length_le le_rfl, Nat.sub_self, List.eraseIdx_cons_zero]

variable [Externals]

namespace Engine

variable {S : Type}

/-- Only the answer to a `BootNotification` is acted on while others are sent. -/
def EarlyHeld (held : Held) : Prop := ∀ h, held = some h → policy.early h.1.body = true

theorem earlyHeld_none : EarlyHeld (none : Held) := fun _ h => absurd h (by simp)

/-- **Between the two states the engine did its own work.** -/
structure Works [MessageStore S] (held : Held) (e e' : Engine S) : Prop where
  /-- The setting stays. -/
  setting : e'.setting = e.setting
  /-- The history grows by entries of the engine's own, and what goes on the wire
  is what they mark. -/
  log : ∃ evs, e'.log = e.log ++ evs ∧ (∀ ev ∈ evs, ev.own = true) ∧
    Marked e.version evs
  /-- The slot of the outbox is not emptied. -/
  outbox : Outbox.Keeps policy (e.outbox held) (e'.outbox held)

section

variable [MessageStore S]

theorem Works.refl (held : Held) (e : Engine S) : Works held e e where
  setting := rfl
  log := ⟨[], (List.append_nil _).symm, fun _ h => absurd h List.not_mem_nil, rfl⟩
  outbox := Relation.ReflTransGen.refl

theorem Works.trans {held : Held} {e e' e'' : Engine S} (h : Works held e e')
    (h' : Works held e' e'') : Works held e e'' where
  setting := h'.setting.trans h.setting
  log := by
    obtain ⟨evs, hlog, hown, htx⟩ := h.log
    obtain ⟨evs', hlog', hown', htx'⟩ := h'.log
    refine ⟨evs ++ evs', ?_, ?_, ?_⟩
    · rw [hlog', hlog, List.append_assoc]
    · intro ev hev
      rcases List.mem_append.mp hev with hev | hev
      · exact hown ev hev
      · exact hown' ev hev
    · exact htx.append (version_of_setting h.setting ▸ htx')
  outbox := Relation.ReflTransGen.trans h.outbox h'.outbox

/-- Reports that put nothing on the wire are work. -/
theorem Reports.works {e e' : Engine S} (h : Reports e e' []) (held : Held) :
    Works held e e' where
  setting := h.setting
  log := by
    obtain ⟨evs, hlog, -, hfr, htx, hown⟩ := h.log
    exact ⟨evs, hlog, hown, marked_of_silent hfr htx⟩
  outbox := h.outbox held ▸ Relation.ReflTransGen.refl

theorem works_solicited (held : Held) (e : Engine S) (s : Finset String) :
    Works held e { e with solicited := s } :=
  { Works.refl held e with }

theorem works_draining (held : Held) (e : Engine S) (d : Option Instant) :
    Works held e { e with draining := d } :=
  { Works.refl held e with }

end

/-! ### What may be sent -/

/-- **What `nextEligible` finds**: an entry of the kind that is asked for; if it is
transaction-related, none before it is. -/
theorem nextEligible_spec {e : Engine S} {kind : MessageKind} {index : ℕ}
    (h : e.nextEligible kind = some index) :
    ∃ (xs : List Pending) (entry : Pending) (ys : List Pending),
      e.queue = xs ++ entry :: ys ∧ xs.length = index ∧ entry.kind = kind ∧
      (entry.transactional = true → ∀ x ∈ xs, x.transactional = false) := by
  rw [nextEligible] at h
  have hfound := List.find?_some h
  simp only [Bool.and_eq_true] at hfound
  obtain ⟨hkind, helig⟩ := hfound
  rcases hq : e.queue[index]? with _ | entry
  · rw [hq] at hkind
    exact absurd hkind (by simp)
  · obtain ⟨hlt, hget⟩ := List.getElem?_eq_some_iff.mp hq
    have hsplit : e.queue = e.queue.take index ++ entry :: e.queue.drop (index + 1) := by
      rw [← hget, List.getElem_cons_drop hlt, List.take_append_drop]
    have hlen : (e.queue.take index).length = index := by
      rw [List.length_take]
      omega
    refine ⟨e.queue.take index, entry, e.queue.drop (index + 1), hsplit, hlen, ?_, ?_⟩
    · simpa [hq] using hkind
    · intro htx
      have hold : e.oldestTransactional = some index := by
        by_contra hne
        simp [eligible, hq, htx, hne] at helig
      rw [oldestTransactional, hsplit] at hold
      have hfind : (e.queue.take index ++ entry :: e.queue.drop (index + 1)).findIdx?
          (fun other => other.transactional) = some (e.queue.take index).length := by
        rw [hold, hlen]
      exact findIdx?_isNone_before hfind

/-! ### Writing a message -/

theorem outbox_queue {e : Engine S} {xs ys : List Pending} {entry : Pending}
    (hq : e.queue = xs ++ entry :: ys) (held : Held) :
    (e.outbox held).queue =
      xs.map Pending.item ++ entry.item :: ys.map Pending.item := by
  simp only [Engine.outbox, hq, List.map_append, List.map_cons]

theorem ordered_before {xs : List Pending} {entry : Pending}
    (h : entry.transactional = true → ∀ x ∈ xs, x.transactional = false) :
    policy.ordered entry.item.body = true →
      ∀ x ∈ xs.map Pending.item, policy.ordered x.body = false := by
  intro ho x hx
  obtain ⟨p, hp, rfl⟩ := List.mem_map.mp hx
  exact h ho p hp

theorem advance_of_le {e : Engine S} {now : Instant} (h : now ≤ e.now) : e.advance now = e := by
  rw [advance, if_neg (not_lt.mpr h)]

/-- What a call makes a CSMS remember is all that changes before it is queued. -/
theorem rememberSolicited_or (e : Engine S) (action : String) (payload : RawValue) :
    ∃ s, (if e.config.role = .csms then e.rememberSolicited action payload else e) =
      { e with solicited := s } := by
  split
  · exact ⟨_, rfl⟩
  · exact ⟨e.solicited, rfl⟩

/-! ### The functions that only work -/

variable [MessageStore S]

/-- Work that is one step of the outbox. -/
theorem works_of_keep {held : Held} {e e' : Engine S} (evs : List Event)
    (hsetting : e'.setting = e.setting) (hlog : e'.log = e.log ++ evs)
    (hown : ∀ ev ∈ evs, ev.own = true) (htx : Marked e.version evs)
    (hkeep : Outbox.Keep policy (e.outbox held) (e'.outbox held)) : Works held e e' :=
  ⟨hsetting, ⟨evs, hlog, hown, htx⟩, Relation.ReflTransGen.single hkeep⟩

theorem works_sendUnconfirmed (held : Held) {e : Engine S} {xs ys : List Pending}
    {entry : Pending} (hq : e.queue = xs ++ entry :: ys) (hkind : entry.kind = .send)
    (hfirst : entry.transactional = true → ∀ x ∈ xs, x.transactional = false) :
    Works held e (e.sendUnconfirmed xs.length entry) := by
  have herase : e.queue.eraseIdx xs.length = xs ++ ys := hq ▸ eraseIdx_length xs ys entry
  let id := e.ids 0
  let e₁ : Engine S := { e with queue := xs ++ ys, ids := fun n => e.ids (n + 1) }
  let e₂ := (e₁.note (.sent id entry)).transmit (.send id entry.action entry.payload)
  let o : CallOutcome := ⟨entry.token, some id, entry.action, .ok .sent⟩
  have heq : e.sendUnconfirmed xs.length entry = (e₂.ackStore entry.seq).emit (.outcome o) := by
    simp only [sendUnconfirmed, herase, nextId, e₂, e₁, o, id]
  have hframe : Event.frame (.sent id entry) = some (.send id entry.action entry.payload) := by
    simp only [Event.frame, Pending.frame, hkind]
  have hw := writes_note_transmit e₁ (.sent id entry) (.send id entry.action entry.payload)
  have hr := reports_ackStore e₂ entry.seq
  obtain ⟨evs, hlog, hev, hfr, htx, hown⟩ := hw.log
  obtain ⟨evs', hlog', hev', hfr', htx', hown'⟩ := hr.log
  have hfinal : (e.sendUnconfirmed xs.length entry).log =
      e.log ++ ((.sent id entry :: evs) ++ evs' ++ [Event.out (.outcome o)]) := by
    rw [heq, emit]
    dsimp only
    rw [hlog', show e₂.log = _ from hlog]
    simp only [List.append_assoc, e₁]
  refine works_of_keep _ ?_ hfinal ?_ ?_ ?_
  · rw [heq]
    exact hr.setting.trans hw.setting
  · intro ev hmem
    simp only [List.mem_append, List.mem_cons, List.not_mem_nil, or_false] at hmem
    rcases hmem with ((rfl | hmem) | hmem) | rfl
    · rfl
    · exact hown ev hmem
    · exact hown' ev hmem
    · rfl
  · exact ((marked_cons hframe hfr htx).append (marked_of_silent hfr' htx')).append
      (marked_of_silent rfl rfl)
  · have hout : (e.sendUnconfirmed xs.length entry).outbox held =
        { e.outbox held with
          queue := xs.map Pending.item ++ ys.map Pending.item
          store := Outbox.ackIf Message e.store entry.item.seq
          hist := (e.outbox held).hist ++
            [Outbox.Ev.sent id entry.item, .resolved entry.item.token (.ok .sent)] } := by
      have hqueue : (e.sendUnconfirmed xs.length entry).queue = xs ++ ys :=
        heq ▸ hr.queue.trans hw.queue
      have hinflight : (e.sendUnconfirmed xs.length entry).inflight = e.inflight :=
        heq ▸ hr.inflight.trans hw.inflight
      have hnext : (e.sendUnconfirmed xs.length entry).nextToken = e.nextToken :=
        heq ▸ hr.nextToken.trans hw.nextToken
      have hstore : (e.sendUnconfirmed xs.length entry).store =
          Outbox.ackIf Message e.store entry.seq :=
        heq ▸ hr.store.trans (congrArg (Outbox.ackIf Message · entry.seq) hw.store)
      rw [Engine.outbox, hqueue, hinflight, hnext, hstore, hfinal, outboxHistory_append,
        outboxHistory_append, outboxHistory_append, hev', List.map_append,
        outboxHistory_cons_of_some rfl, hev, outboxHistory_cons_of_some rfl]
      rfl
    rw [hout]
    exact Outbox.Keep.sendExempt id _ entry.item _ _ (outbox_queue hq held)
      (by simp [policy, Pending.item, Pending.message, hkind]) (ordered_before hfirst) rfl

theorem works_sendCall {held : Held} (hheld : EarlyHeld held) {e : Engine S}
    {xs ys : List Pending} {entry : Pending} (hq : e.queue = xs ++ entry :: ys)
    (hkind : entry.kind = .call)
    (hfirst : entry.transactional = true → ∀ x ∈ xs, x.transactional = false)
    (hfree : e.inflight = none) : Works held e (e.sendCall xs.length entry) := by
  have herase : e.queue.eraseIdx xs.length = xs ++ ys := hq ▸ eraseIdx_length xs ys entry
  let id := e.ids 0
  let e₁ : Engine S := { e with queue := xs ++ ys, ids := fun n => e.ids (n + 1) }
  let e₂ := (e₁.note (.sent id entry)).transmit (.call id entry.action entry.payload)
  let deadline := Instant.saturatingAdd e₂.now e₂.config.callTimeout
  have heq : e.sendCall xs.length entry =
      { e₂.emit (.setTimer .callTimeout deadline) with
        inflight := some (entry.launched id deadline) } := by
    simp only [sendCall, herase, nextId, e₂, e₁, deadline, id]
  have hframe : Event.frame (.sent id entry) = some (.call id entry.action entry.payload) := by
    simp only [Event.frame, Pending.frame, hkind]
  have hw := writes_note_transmit e₁ (.sent id entry) (.call id entry.action entry.payload)
  obtain ⟨evs, hlog, hev, hfr, htx, hown⟩ := hw.log
  have hfinal : (e.sendCall xs.length entry).log =
      e.log ++ ((.sent id entry :: evs) ++ [Event.out (.setTimer .callTimeout deadline)]) := by
    rw [heq, emit]
    dsimp only
    rw [show e₂.log = _ from hlog]
    simp only [List.append_assoc, e₁]
  refine works_of_keep _ ?_ hfinal ?_ ?_ ?_
  · rw [heq]
    exact hw.setting
  · intro ev hmem
    simp only [List.mem_append, List.mem_cons, List.not_mem_nil, or_false] at hmem
    rcases hmem with (rfl | hmem) | rfl
    · rfl
    · exact hown ev hmem
    · rfl
  · exact (marked_cons hframe hfr htx).append (marked_of_silent rfl rfl)
  · have hout : (e.sendCall xs.length entry).outbox held =
        { e.outbox held with
          queue := xs.map Pending.item ++ ys.map Pending.item
          slot := some (entry.item.launch policy id)
          hist := (e.outbox held).hist ++ [Outbox.Ev.sent id entry.item] } := by
      have hqueue : (e.sendCall xs.length entry).queue = xs ++ ys := heq ▸ hw.queue
      have hinflight : (e.sendCall xs.length entry).inflight =
          some (entry.launched id deadline) := heq ▸ rfl
      have hnext : (e.sendCall xs.length entry).nextToken = e.nextToken := heq ▸ hw.nextToken
      have hstore : (e.sendCall xs.length entry).store = e.store := heq ▸ hw.store
      rw [Engine.outbox, hqueue, hinflight, hnext, hstore, hfinal, outboxHistory_append,
        outboxHistory_append, List.map_append, outboxHistory_cons_of_some rfl, hev,
        outboxHistory_cons_of_none rfl, Option.map_some, Pending.launched_flight hkind]
      rfl
    rw [hout]
    exact Outbox.Keep.send id _ entry.item _ (outbox_queue hq held)
      (by simp [policy, Pending.item, Pending.message, hkind]) (ordered_before hfirst)
      (by rw [Engine.outbox, hfree, Option.map_none]) hheld

/-! ### Pumping -/

theorem works_pumpSends (held : Held) (n : ℕ) (e : Engine S) :
    Works held e (pumpSends n e) := by
  induction n generalizing e with
  | zero => exact Works.refl held e
  | succ n ih =>
      rw [pumpSends]
      rcases hn : e.nextEligible .send with _ | index
      · exact Works.refl held e
      · obtain ⟨xs, entry, ys, hq, rfl, hkind, hfirst⟩ := nextEligible_spec hn
        have hget : e.queue[xs.length]? = some entry := by simp [hq]
        simp only [hget]
        exact (works_sendUnconfirmed held hq hkind hfirst).trans (ih _)

theorem works_pumpCall {held : Held} (hheld : EarlyHeld held) (e : Engine S) :
    Works held e e.pumpCall := by
  rw [pumpCall]
  split
  · exact Works.refl held e
  · next hfree =>
      rcases hn : e.nextEligible .call with _ | index
      · exact Works.refl held e
      · obtain ⟨xs, entry, ys, hq, rfl, hkind, hfirst⟩ := nextEligible_spec hn
        have hget : e.queue[xs.length]? = some entry := by simp [hq]
        simp only [hget]
        exact works_sendCall hheld hq hkind hfirst (by simpa using hfree)

/-- **Pumping is work.** -/
theorem works_pump {held : Held} (hheld : EarlyHeld held) (e : Engine S) :
    Works held e e.pump := by
  rw [pump]
  split
  · exact (works_pumpSends held _ e).trans (works_pumpCall hheld _)
  · exact Works.refl held e

theorem works_checkDrain (held : Held) (e : Engine S) : Works held e e.checkDrain := by
  rw [checkDrain]
  split
  · exact (works_draining held e none).trans
      (((reports_emit _ rfl).trans (reports_emit _ rfl)).works held)
  · exact Works.refl held e

/-! ### Accepting and failing -/

/-- A waiting entry is given up. -/
theorem works_drop (held : Held) {e : Engine S} {xs ys : List Pending} {entry : Pending}
    (hq : e.queue = xs ++ entry :: ys) {why : CallFailure} (hwhy : isAnswer (.error why) = false) :
    Works held e ({ e with queue := xs ++ ys }.abandon entry why) := by
  have hr := reports_ackStore { e with queue := xs ++ ys } entry.seq
  obtain ⟨evs, hlog, hev, hfr, htx, hown⟩ := hr.log
  let o : CallOutcome := ⟨entry.token, none, entry.action, .error why⟩
  have hfinal : ({ e with queue := xs ++ ys }.abandon entry why).log =
      e.log ++ (evs ++ [Event.out (.outcome o)]) := by
    rw [abandon, emit]
    dsimp only
    rw [hlog, List.append_assoc]
  refine works_of_keep _ hr.setting hfinal ?_ ?_ ?_
  · intro ev hmem
    rcases List.mem_append.mp hmem with hmem | hmem
    · exact hown ev hmem
    · obtain rfl : ev = .out (.outcome o) := by simpa using hmem
      simp [Event.own, Output.own, o, hwhy]
  · exact (marked_of_silent hfr htx).append (marked_of_silent rfl rfl)
  · have hout : ({ e with queue := xs ++ ys }.abandon entry why).outbox held =
        { e.outbox held with
          queue := xs.map Pending.item ++ ys.map Pending.item
          store := Outbox.ackIf Message e.store entry.item.seq
          hist := (e.outbox held).hist ++
            [Outbox.Ev.resolved entry.item.token (.error why)] } := by
      have hqueue : ({ e with queue := xs ++ ys }.abandon entry why).queue = xs ++ ys := hr.queue
      have hinflight : ({ e with queue := xs ++ ys }.abandon entry why).inflight = e.inflight :=
        hr.inflight
      have hnext : ({ e with queue := xs ++ ys }.abandon entry why).nextToken = e.nextToken :=
        hr.nextToken
      have hstore : ({ e with queue := xs ++ ys }.abandon entry why).store =
          Outbox.ackIf Message e.store entry.seq := hr.store
      rw [Engine.outbox, hqueue, hinflight, hnext, hstore, hfinal, outboxHistory_append,
        outboxHistory_append, hev, List.map_append, outboxHistory_cons_of_some rfl]
      rfl
    rw [hout]
    exact Outbox.Keep.drop _ entry.item _ _ (outbox_queue hq held) hwhy

/-- A call is refused: its handle is issued and failed at once. -/
theorem works_refuse (held : Held) (e : Engine S) (action : String) {why : CallFailure}
    (hwhy : isAnswer (.error why) = false) :
    Works held e ({ e with nextToken := e.nextToken + 1 }.fail e.nextToken none action why) := by
  refine works_of_keep [Event.out (.outcome ⟨e.nextToken, none, action, .error why⟩)] rfl rfl ?_
    (marked_of_silent rfl rfl) ?_
  · intro ev hmem
    obtain rfl := List.mem_singleton.mp hmem
    simp [Event.own, Output.own, hwhy]
  · have hout : ({ e with nextToken := e.nextToken + 1 }.fail e.nextToken none action why).outbox
        held = { e.outbox held with
          next := e.nextToken + 1
          hist := (e.outbox held).hist ++
            [Outbox.Ev.resolved e.nextToken (.error why)] } := by
      rw [Engine.outbox, fail, emit, outboxHistory_append]
      rfl
    rw [hout]
    exact Outbox.Keep.refuse _ hwhy

/-- A message joins the queue, with or without a record in the store. -/
theorem works_accept (held : Held) (e : Engine S) {entry : Pending} {store : S}
    (htoken : entry.token = e.nextToken) (hattempts : entry.attempts = 0)
    (hrelated : (!entry.transactional || Actions.isTransactionMessage entry.action) = true)
    (hstored : Outbox.Stored e.store entry.item store) :
    Works held e ({ e with nextToken := e.nextToken + 1, store := store
                           queue := e.queue ++ [entry] }.note (.accepted entry)) := by
  refine works_of_keep [Event.accepted entry] rfl rfl ?_ (marked_of_silent rfl rfl) ?_
  · intro ev hmem
    obtain rfl := List.mem_singleton.mp hmem
    exact hrelated
  · have hout : ({ e with nextToken := e.nextToken + 1, store := store
                          queue := e.queue ++ [entry] }.note (.accepted entry)).outbox held =
        { e.outbox held with
          queue := (e.outbox held).queue ++ [entry.item]
          next := e.nextToken + 1
          store := store
          hist := (e.outbox held).hist ++ [Outbox.Ev.accepted entry.item] } := by
      rw [Engine.outbox, note, outboxHistory_append, List.map_append]
      rfl
    rw [hout]
    exact Outbox.Keep.accept entry.item store htoken hattempts hstored

/-- The store refuses a record. -/
theorem works_storeFailed (held : Held) (e : Engine S) {m : Message} {error : StoreError}
    (h : (MessageStore.push e.store m.queued).2 = .error error) :
    Works held e { e with store := (MessageStore.push e.store m.queued).1 } := by
  refine works_of_keep [] rfl (List.append_nil _).symm (fun ev hmem => absurd hmem (by simp))
    rfl ?_
  exact Outbox.Keep.storeFailed m (toOption_eq_none.mpr ⟨error, h⟩)

/-- A message joins the queue, and the queue is pumped. -/
theorem works_enqueue (e : Engine S) {entry : Pending} (store : S) (s : Finset String)
    (htoken : entry.token = e.nextToken) (hattempts : entry.attempts = 0)
    (hrelated : (!entry.transactional || Actions.isTransactionMessage entry.action) = true)
    (hstored : Outbox.Stored e.store entry.item store) :
    Works none e ({ e with nextToken := e.nextToken + 1, store := store
                           solicited := s }.enqueue entry) :=
  ((works_solicited none e s).trans (works_accept none _ htoken hattempts hrelated hstored)).trans
    (works_pump earlyHeld_none _)

/-- The store refuses the record, or takes it, or is not asked. -/
theorem persistCall_cases (e : Engine S) (persist : Bool) (record : QueuedCall)
    (hzero : record.attempts = 0) :
    (∃ error, e.persistCall persist record =
        (.error error, { e with store := (MessageStore.push e.store record).1 }) ∧
      (MessageStore.push e.store record.message.queued).2 = .error error) ∨
    ∃ seq store, e.persistCall persist record = (.ok seq, { e with store := store }) ∧
      ∀ token, Outbox.Stored e.store ⟨token, seq, 0, record.message⟩ store := by
  have hrecord : record.message.queued = record := by
    obtain ⟨action, payload, kind, attempts, transactional⟩ := record
    obtain rfl : attempts = 0 := hzero
    rfl
  rcases persist with _ | _
  · exact Or.inr ⟨none, e.store, rfl, fun _ => rfl⟩
  · rcases hpush : (MessageStore.push e.store record).2 with error | seq
    · refine Or.inl ⟨error, ?_, hrecord ▸ hpush⟩
      simp only [persistCall, if_true, hpush, Except.map]
    · refine Or.inr ⟨some seq, (MessageStore.push e.store record).1, ?_, fun _ => ?_⟩
      · simp only [persistCall, if_true, hpush, Except.map]
      · refine Prod.ext ?_ (toOption_eq_some.mpr ?_)
        · exact congrArg (fun r => (MessageStore.push e.store r).1) hrecord
        · exact hrecord ▸ hpush

/-- **Starting a call is work**, once the clock has been moved. -/
theorem works_callWith (e : Engine S) (now : Instant) (action : String) (payload : RawValue)
    (options : CallOptions) :
    Works none (e.advance now) (e.callWith now action payload options).2 := by
  rw [callWith]
  generalize e.advance now = e
  dsimp only
  split
  · exact Works.refl none e
  · split
    · exact Works.refl none e
    · next kind _ =>
      split
      · exact Works.refl none e
      · split
        · exact Works.refl none e
        · split
          · exact works_refuse none e action rfl
          · split
            · exact works_refuse none e action rfl
            · rcases persistCall_cases e.mintToken.2
                  (options.persist.getD (Actions.isTransactionRelated e.version action))
                  ⟨action, payload, kind, 0, Actions.isTransactionRelated e.version action⟩ rfl with
                ⟨error, hpersist, hpush⟩ | ⟨seq, store, hpersist, hstored⟩
              · simp only [hpersist]
                exact ((works_storeFailed none e hpush).trans
                  ((reports_violate _ _).works none)).trans (works_refuse none _ action rfl)
              · simp only [hpersist]
                obtain ⟨s, hs⟩ := rememberSolicited_or { e.mintToken.2 with store := store }
                  action payload
                rw [hs]
                refine works_enqueue e store s rfl rfl ?_ (hstored _)
                dsimp only
                rcases htx : Actions.isTransactionRelated e.version action with _ | _
                · rfl
                · rw [Actions.isTransactionMessage_of htx, Bool.or_true]

theorem works_sendHeartbeat (e : Engine S) : Works none e e.sendHeartbeat := by
  have h := works_callWith e e.now "Heartbeat" RawValue.emptyObject
    { queueWhenOffline := some false }
  rwa [advance_of_le le_rfl] at h

theorem works_fireHeartbeat (e : Engine S) : Works none e e.fireHeartbeat := by
  rw [fireHeartbeat]
  split
  · split
    · have harm : ∀ e' : Engine S, Works none e' e'.armHeartbeat :=
        fun e' => (reports_armHeartbeat e').works none
      refine ((reports_heartbeatAt e none).works none).trans (Works.trans ?_ (harm _))
      split
      · exact works_sendHeartbeat _
      · exact Works.refl none _
    · exact Works.refl none e
  · exact Works.refl none e

/-- Failing an entry does not look at the queue. -/
theorem abandon_queue (e : Engine S) (q : List Pending) (entry : Pending) (why : CallFailure) :
    { e with queue := q }.abandon entry why = { e.abandon entry why with queue := q } := by
  simp only [abandon, ackStore]
  rcases entry.seq with _ | seq
  · rfl
  · dsimp only
    split <;> rfl

/-- **Failing what does not wait out a disconnection is work**: entry by entry, the
queue of what is kept and what is still to be looked at. -/
theorem works_failOffline (held : Held) (rest kept : List Pending) (e : Engine S) :
    Works held { e with queue := kept ++ rest } (failOffline rest kept e) := by
  induction rest generalizing kept e with
  | nil =>
      rw [failOffline, List.append_nil]
      exact Works.refl held _
  | cons entry rest ih =>
      rw [failOffline]
      split
      · rw [List.append_cons]
        exact ih (kept ++ [entry]) e
      · have hdrop : Works held { e with queue := kept ++ entry :: rest }
            ({ e with queue := kept ++ rest }.abandon entry .disconnected) :=
          works_drop (e := { e with queue := kept ++ entry :: rest }) held rfl rfl
        rw [abandon_queue] at hdrop
        exact hdrop.trans (ih kept (e.abandon entry .disconnected))

/-- Withdrawing a queued call is work. -/
theorem works_cancel (e : Engine S) (token : CallToken) : Works none e (e.cancel token).2 := by
  rw [cancel]
  split
  · exact Works.refl none e
  · next index hfind =>
    obtain ⟨hlt, -⟩ := List.findIdx?_eq_some_iff_getElem.mp hfind
    have hget : e.queue[index]? = some e.queue[index] := List.getElem?_eq_getElem hlt
    have hsplit : e.queue = e.queue.take index ++ e.queue[index] :: e.queue.drop (index + 1) := by
      rw [List.getElem_cons_drop hlt, List.take_append_drop]
    have herase : e.queue.eraseIdx index = e.queue.take index ++ e.queue.drop (index + 1) :=
      List.eraseIdx_eq_take_drop_succ _ _
    simp only [hget, herase]
    exact works_drop none hsplit rfl

/-- Starting a drain is work, once the clock has been moved. -/
theorem works_shutdown (e : Engine S) (now deadline : Instant) :
    Works none (e.advance now) (e.shutdown now deadline) := by
  rw [shutdown]
  generalize e.advance now = e
  split
  · exact Works.refl none e
  · exact ((works_draining none e _).trans ((reports_emit _ rfl).works none)).trans
      (works_checkDrain none _)

theorem works_fireDrain (e : Engine S) : Works none e e.fireDrain := by
  rw [fireDrain]
  split
  · exact ((reports_emit e rfl).works none).trans (works_draining none _ none)
  · exact (works_pump earlyHeld_none e).trans (works_checkDrain none _)

end Engine

end OcppKit
