import OcppKit.Engine.Delivery

/-!
# Transaction-related messages go out in order

`OcppKit.transactional_inOrder`, from the invariant of the outbox. It is stated over
the history: how a history splits around an entry says what came before it.

A `BootNotification` is the one call whose answer is acted on – and others sent –
before its outcome is reported. It does not break the order as long as it is never
kept as transaction-related (`OcppKit.PlainBoots`): an engine accepts as transactional
only what some version has as a transaction-related action, and a store holds no
`BootNotification` as transactional as long as engines are all that writes to it.
-/

namespace OcppKit

variable [Externals]

open Engine

variable {S : Type} [MessageStore S]

/-! ### What is accepted as transactional -/

/-- **No `BootNotification` is accepted as transactional.** -/
def PlainBoots (log : List Event) : Prop :=
  ∀ entry, .accepted entry ∈ log → entry.transactional = true → entry.action ≠ "BootNotification"

/-- A store that holds no `BootNotification` as transactional. -/
def StoresPlainBoots (store : S) : Prop :=
  ∀ r ∈ MessageStore.records store, r.2.transactional = true → r.2.action ≠ "BootNotification"

omit [Externals] [MessageStore S] in
theorem ne_boot_of_isTransactionMessage {action : String}
    (h : Actions.isTransactionMessage action = true) : action ≠ "BootNotification" := by
  rintro rfl
  rw [Actions.isTransactionMessage_boot] at h
  cases h

omit [MessageStore S] in
/-- What an operation leaves that is not the engine's own accepts nothing. -/
theorem Effect.not_accepted {e : Engine S} {op : Op} {s : Setting} {left : List Event}
    (h : Effect e op s left) (entry : Pending) : .accepted entry ∉ left := by
  intro hmem
  cases h with
  | malformed now text error _ =>
      simp only [replyMarks] at hmem
      split at hmem <;> simp at hmem
  | _ => simp at hmem

theorem plainBoots_exec {e : Engine S} (h : PlainBoots e.log) (op : Op) :
    PlainBoots (exec e op).log := by
  intro entry hmem htx
  rw [log_exec] at hmem
  rcases List.mem_append.mp hmem with hmem | hmem
  · exact h entry hmem htx
  · have hown : (Event.accepted entry).own = true := by
      by_contra hnot
      refine (newEvents_effect e op).1.not_accepted entry (List.mem_filter.mpr ⟨hmem, ?_⟩)
      simpa using hnot
    exact ne_boot_of_isTransactionMessage (by simpa [Event.own, htx] using hown)

omit [MessageStore S] in
theorem acceptedEntries_foldl_restore (records : List (Seq × QueuedCall)) (e : Engine S)
    (h : acceptedEntries e.log = e.queue) :
    acceptedEntries (records.foldl restore e).log = (records.foldl restore e).queue := by
  induction records generalizing e with
  | nil => exact h
  | cons record records ih =>
      refine ih (e.restore record) ?_
      simp only [restore, mintToken, note, acceptedEntries, List.filterMap_append]
      rw [← acceptedEntries, h]
      rfl

/-- An engine starts by accepting what its store holds, in the order of the store. -/
theorem acceptedEntries_withStore {config : EngineConfig} {store : S} {ids : ℕ → MessageId}
    {e : Engine S} (h : Engine.withStore config store ids = .ok e) :
    acceptedEntries e.log = e.queue ∧
      e.queue.map Pending.kept = (MessageStore.records store).map fun r => (some r.1, r.2) := by
  obtain ⟨records, hp, rfl⟩ := eq_of_withStore h
  rw [records_of_pending hp]
  exact ⟨acceptedEntries_foldl_restore records _ rfl, (foldl_restore_queue records _).2⟩

theorem plainBoots_run {config : EngineConfig} {store : S} {ids : ℕ → MessageId}
    {e₀ : Engine S} (h : Engine.withStore config store ids = .ok e₀)
    (hstore : StoresPlainBoots store) (ops : List Op) : PlainBoots (run e₀ ops).log := by
  refine run_invariant (fun e => PlainBoots e.log) (fun e op he => plainBoots_exec he op) ?_ ops
  intro entry hmem htx
  obtain ⟨haccepted, hqueue⟩ := acceptedEntries_withStore h
  have hentry : entry.kept ∈ e₀.queue.map Pending.kept :=
    List.mem_map_of_mem (haccepted ▸ mem_acceptedEntries.mpr hmem)
  rw [hqueue] at hentry
  obtain ⟨r, hr, hkept⟩ := List.mem_map.mp hentry
  have hrecord : r.2 = entry.queuedCall := congrArg Prod.snd hkept
  have htrue := hstore r hr
  rw [hrecord] at htrue
  exact htrue htx

/-- **Engines store no `BootNotification` as transactional**: what a run leaves in the store is fit
to be started from again. -/
theorem storesPlainBoots_run [LawfulMessageStore S] {config : EngineConfig} {store : S}
    {ids : ℕ → MessageId} {e₀ : Engine S} (h : Engine.withStore config store ids = .ok e₀)
    (hstore : StoresPlainBoots store) (ops : List Op) :
    StoresPlainBoots (run e₀ ops).store := by
  have honly := plainBoots_run h hstore ops
  obtain ⟨W, L, ⟨hW, hperm, -, hrec⟩, -⟩ :=
    outbox_mirrored (Q := fun _ => True) h trivial (fun _ _ => trivial) (fun _ _ => trivial) ops
  have hinv := outbox_invariant h ops
  intro r hr htx
  have hmem : (r.1, r.2.message, r.2.attempts) ∈ Outbox.recordsOf L := by
    rw [← hrec, records_eq_map]
    exact List.mem_map_of_mem hr
  obtain ⟨i, hi, hrecord⟩ := List.mem_filterMap.mp hmem
  obtain ⟨j, hj, -, -, hjb⟩ := hW.live (hperm.mem_iff.mp hi)
  obtain ⟨a, ha, -, -, hab⟩ := hinv.traced.accepted j hj
  rw [show ((run e₀ ops).outbox none).hist = outboxHistory (run e₀ ops).log from rfl,
    acceptedItems_outboxHistory] at ha
  obtain ⟨entry, hentry, rfl⟩ := List.mem_map.mp ha
  have hbody : entry.message = r.2.message := by
    obtain ⟨q, -, hq⟩ := Option.map_eq_some_iff.mp hrecord
    exact (hab.trans hjb).trans (congrArg (fun x => x.2.1) hq)
  have haction : entry.action = r.2.action := congrArg Message.action hbody
  exact haction ▸ honly entry (mem_acceptedEntries.mp hentry)
    ((congrArg Message.transactional hbody).trans htx)

/-! ### In order -/

/-- The handles of the transactional `CALL`s a history transmits, attempt by attempt. -/
def transactionalAttempts (log : List Event) : List CallToken :=
  log.filterMap fun
    | .sent _ entry => if entry.kind = .call ∧ entry.transactional = true then some entry.token
      else none
    | _ => none

theorem turns_outboxHistory (log : List Event) :
    Outbox.turns policy (outboxHistory log) = transactionalAttempts log := by
  induction log with
  | nil => rfl
  | cons event log ih =>
      rcases event with _ | o | _ | ⟨id, entry⟩ | _ | _ | _ | _
      case out => rcases o with _ | _ | _ | _ | _ | _ | _ | _ | _ | _ <;> exact ih
      case sent =>
        rw [outboxHistory_cons_of_some rfl, ← List.singleton_append, Outbox.turns_append, ih]
        by_cases h : entry.kind = .call ∧ entry.transactional = true
        · have hex : policy.exempt entry.item.body = false :=
            decide_eq_false (by simp [Pending.item, Pending.message, h.1])
          rw [Outbox.turns_sent_of_pos id hex h.2]
          simp [transactionalAttempts, h, Pending.item]
        · have hno : policy.exempt entry.item.body = true ∨
              policy.ordered entry.item.body = false := by
            by_cases hkind : entry.kind = .send
            · exact Or.inl (decide_eq_true hkind)
            · refine Or.inr (Bool.eq_false_of_not_eq_true fun htx => h ⟨?_, htx⟩)
              rcases hk : entry.kind with _ | _
              · rfl
              · exact absurd hk hkind
          rw [Outbox.turns_sent_of_neg id hno, Outbox.turns_nil, List.nil_append]
          simp [transactionalAttempts, h]
      all_goals exact ih

/-- **Transaction-related messages go out in chronological order.** Handles are
issued in the order of acceptance, to what the store held first; transactional
`CALL`s are attempted in the order of their handles; and none is transmitted, for
the first time or again, before every transactional message accepted before it has
had its outcome. No `BootNotification` may be stored as transactional. -/
theorem transactional_inOrder {config : EngineConfig} {store : S} {ids : ℕ → MessageId}
    {e₀ : Engine S} (h : Engine.withStore config store ids = .ok e₀)
    (hstore : StoresPlainBoots store) (ops : List Op) :
    (∃ rest, acceptedEntries (run e₀ ops).log = e₀.queue ++ rest ∧
      e₀.queue.map Pending.kept = (MessageStore.records store).map fun r => (some r.1, r.2)) ∧
    (acceptedTokens (run e₀ ops).log).Pairwise (· < ·) ∧
    (transactionalAttempts (run e₀ ops).log).Pairwise (· ≤ ·) ∧
    ∀ pre post id entry, (run e₀ ops).log = pre ++ .sent id entry :: post →
      (∃ a, .accepted a ∈ pre ∧ a.token = entry.token) ∧
      (entry.kind = .call → entry.transactional = true →
        ∀ a, .accepted a ∈ pre → a.transactional = true → a.token < entry.token →
          a.token ∈ (outcomes pre).map CallOutcome.token) := by
  have hinv := outbox_invariant h ops
  obtain ⟨haccepted, hqueue⟩ := acceptedEntries_withStore h
  refine ⟨?_, ?_, ?_, fun pre post id entry hsplit => ?_⟩
  · obtain ⟨evs, hlog⟩ := run_log e₀ ops
    refine ⟨acceptedEntries evs, ?_, hqueue⟩
    rw [hlog, acceptedEntries, List.filterMap_append, ← acceptedEntries, haccepted,
      acceptedEntries]
  · rw [acceptedTokens_eq]
    exact hinv.traced.increasing
  · rw [← turns_outboxHistory]
    exact hinv.monotone.turns
  · have hturn : Outbox.SentInTurn policy (outboxHistory pre) (.sent id entry.item) := by
      refine hinv.inOrder (outboxHistory pre) (.sent id entry.item) (outboxHistory post) ?_
      rw [show ((run e₀ ops).outbox none).hist = outboxHistory (run e₀ ops).log from rfl, hsplit,
        outboxHistory_append, outboxHistory_cons_of_some rfl]
    have honly : PlainBoots pre := fun a ha => plainBoots_run h hstore ops a
      (hsplit ▸ List.mem_append_left _ ha)
    constructor
    · obtain ⟨i, hi, htoken, -⟩ := hturn.accepted id entry.item rfl
      rw [acceptedItems_outboxHistory] at hi
      obtain ⟨a, ha, rfl⟩ := List.mem_map.mp hi
      exact ⟨a, mem_acceptedEntries.mp ha, htoken⟩
    · -- only a boot would be reported after what its answer lets go
      intro hkind htx a ha hatx hlt
      have hboot : a.action ≠ "BootNotification" := honly a ha hatx
      rw [← resolvedTokens_outboxHistory]
      refine hturn.turn id entry.item rfl htx ?_ a.item ?_ hatx ?_ hlt
      · exact decide_eq_false (by simp [Pending.item, Pending.message, hkind])
      · rw [acceptedItems_outboxHistory]
        exact List.mem_map_of_mem (mem_acceptedEntries.mpr ha)
      · exact decide_eq_false hboot

end OcppKit

/-! ### A run -/

namespace OcppKit.Reference

/-- The two events that the store held are answered, and the others follow. -/
def orderRun : List Op :=
  stationRun ++ [.handle 4 (.received "[3,\"s1\",{}]"), .handle 5 (.received "[3,\"s2\",{}]")]

theorem transactional_inOrder_orderRun :
    transactionalAttempts (run (restarted leftStore) orderRun).log = [0, 1, 3] ∧
    ∀ pre post id entry,
      (run (restarted leftStore) orderRun).log = pre ++ .sent id entry :: post →
      (∃ a, .accepted a ∈ pre ∧ a.token = entry.token) ∧
      (entry.kind = .call → entry.transactional = true →
        ∀ a, .accepted a ∈ pre → a.transactional = true → a.token < entry.token →
          a.token ∈ (outcomes pre).map CallOutcome.token) := by
  have hstore : StoresPlainBoots leftStore := by
    change ∀ r ∈ leftStore.entries, r.2.transactional = true → r.2.action ≠ "BootNotification"
    decide
  have h := transactional_inOrder (withStore_restarted leftStore) hstore orderRun
  exact ⟨by decide +kernel, h.2.2.2⟩

/-- A store that someone has put a `BootNotification` in, as transactional. -/
def bootStore : MemStore :=
  (MemStore.new.append ⟨"BootNotification", .emptyObject, .call, 0, true⟩).append
    ⟨"TransactionEvent", firstEvent, .call, 0, true⟩

/-- The station connects, and is accepted. -/
def bootStoreRun : List Op :=
  [.handle 1 (.connected .v2_0_1),
    .handle 2 (.received "[3,\"s0\",\x7b\"status\":\"Accepted\",\"interval\":300\x7d]")]

/-- **The event goes out before the boot has had its outcome.** -/
theorem event_beforeOutcome : ¬∀ pre post id entry,
    (run (restarted bootStore) bootStoreRun).log = pre ++ .sent id entry :: post →
      entry.kind = .call → entry.transactional = true →
        ∀ a, .accepted a ∈ pre → a.transactional = true → a.token < entry.token →
          a.token ∈ (outcomes pre).map CallOutcome.token := by
  intro h
  have hsplit : (run (restarted bootStore) bootStoreRun).log =
      (run (restarted bootStore) bootStoreRun).log.take 10 ++
        .sent ⟨"s1"⟩
            ⟨1, "TransactionEvent", firstEvent, .call, true, 0, some 1, none, false, true⟩ ::
          (run (restarted bootStore) bootStoreRun).log.drop 11 := by
    decide +kernel
  have hboot := h _ _ _ _ hsplit rfl rfl
    ⟨0, "BootNotification", .emptyObject, .call, true, 0, some 0, none, false, true⟩
    (by decide +kernel) rfl (by decide)
  revert hboot
  decide +kernel

end OcppKit.Reference
