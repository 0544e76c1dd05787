import OcppKit.Engine.Effect
import OcppKit.Reference

/-!
# Every call ends once, and survives a restart

Two properties of every run of one engine, from the invariants of its outbox.

* `OcppKit.token_hasOnePlace`: a handle that was issued stands in one queue entry,
  or in the slot, or has had exactly one outcome.
* `OcppKit.store_mirrorsLiveWork`: the records of a store that does what it is told
  are those of the persisted messages that have had no outcome, and an engine built
  from that store starts with exactly these. The record of the outstanding message is
  one attempt behind, as long as no count comes to the end of its 32 bits
  (`OcppKit.CountsOn`).
-/

namespace OcppKit

variable [Externals]

open Engine

/-! ### One outcome per call -/

/-- The outcomes of a history, in order. -/
def outcomes (log : List Event) : List CallOutcome :=
  log.filterMap fun
    | .out (.outcome o) => some o
    | _ => none

theorem outcomes_append (l l' : List Event) : outcomes (l ++ l') = outcomes l ++ outcomes l' :=
  List.filterMap_append

theorem resolvedTokens_outboxHistory (log : List Event) :
    Outbox.resolvedTokens (outboxHistory log) = (outcomes log).map CallOutcome.token := by
  induction log with
  | nil => rfl
  | cons event log ih =>
      rcases event with _ | o | _ | _ | _ | _ | _ | _
      case out =>
        rcases o with _ | _ | o | _ | _ | _ | _ | _ | _ | _
        case outcome => exact congrArg (o.token :: ·) ih
        all_goals exact ih
      all_goals exact ih

/-- Where a handle can stand. -/
inductive Place where
  /-- In an entry of the queue. -/
  | queue
  /-- In the slot. -/
  | slot
  /-- In an outcome. -/
  | outcome
deriving DecidableEq

variable {S : Type}

/-- How often a handle stands in a place. -/
def standsIn (e : Engine S) (t : CallToken) : Place → ℕ
  | .queue => (e.queue.map Pending.token).count t
  | .slot => (e.inflight.toList.map InFlight.token).count t
  | .outcome => ((outcomes e.log).map CallOutcome.token).count t

theorem standsIn_sum {e : Engine S} (h : (e.outbox none).Conserved) (t : CallToken) :
    standsIn e t .queue + standsIn e t .slot + standsIn e t .outcome =
      if t < e.nextToken then 1 else 0 := by
  have ht := h t
  have hslot : ((e.outbox none).slot.toList.map Outbox.Flight.item).map Outbox.Item.token =
      e.inflight.toList.map InFlight.token := by
    rcases hf : e.inflight with _ | f <;> simp [Engine.outbox, hf, InFlight.flight, InFlight.item]
  have hqueue : (e.outbox none).queue.map Outbox.Item.token = e.queue.map Pending.token := by
    simp only [Engine.outbox, List.map_map]
    rfl
  simp only [Outbox.State.liveTokens, Outbox.State.live, List.map_append, List.count_append,
    hslot, hqueue, show (e.outbox none).held = none from rfl, Option.toList_none, List.map_nil,
    List.count_nil, Nat.zero_add, show (e.outbox none).hist = outboxHistory e.log from rfl,
    resolvedTokens_outboxHistory, show (e.outbox none).next = e.nextToken from rfl] at ht
  simp only [standsIn]
  omega

variable [MessageStore S]

theorem nextToken_le_run (e : Engine S) (ops : List Op) :
    e.nextToken ≤ (run e ops).nextToken :=
  Outbox.Steps.next_le (run_outbox e ops)

/-- **Every handle that was issued stands in exactly one place**: one entry of the
queue, or the slot, or one outcome. A handle that has left queue and slot has had
its outcome, once. -/
theorem token_hasOnePlace {config : EngineConfig} {store : S} {ids : ℕ → MessageId}
    {e₀ : Engine S} (h : Engine.withStore config store ids = .ok e₀) (ops : List Op)
    (t : CallToken) :
    (t < (run e₀ ops).nextToken →
      ∃ p, standsIn (run e₀ ops) t p = 1 ∧ ∀ q, q ≠ p → standsIn (run e₀ ops) t q = 0) ∧
    ((run e₀ ops).nextToken ≤ t → ∀ p, standsIn (run e₀ ops) t p = 0) ∧
    ∀ more, t < (run e₀ ops).nextToken → standsIn (run e₀ (ops ++ more)) t .queue = 0 →
      standsIn (run e₀ (ops ++ more)) t .slot = 0 →
      standsIn (run e₀ (ops ++ more)) t .outcome = 1 := by
  have hsum := standsIn_sum (outbox_invariant h ops).conserved t
  refine ⟨fun hlt => ?_, fun hle p => ?_, fun more hlt hq hs => ?_⟩
  · rw [if_pos hlt] at hsum
    have hsplit : standsIn (run e₀ ops) t .queue = 1 ∨ standsIn (run e₀ ops) t .slot = 1 ∨
        standsIn (run e₀ ops) t .outcome = 1 := by omega
    rcases hsplit with hp | hp | hp
    · refine ⟨.queue, hp, fun q hne => ?_⟩
      rcases q <;> first | omega | exact absurd rfl hne
    · refine ⟨.slot, hp, fun q hne => ?_⟩
      rcases q <;> first | omega | exact absurd rfl hne
    · refine ⟨.outcome, hp, fun q hne => ?_⟩
      rcases q <;> first | omega | exact absurd rfl hne
  · rw [if_neg (not_lt.mpr hle)] at hsum
    rcases p <;> omega
  · have hmore := standsIn_sum (outbox_invariant h (ops ++ more)).conserved t
    have hle : (run e₀ ops).nextToken ≤ (run e₀ (ops ++ more)).nextToken := by
      rw [run_append]
      exact nextToken_le_run _ more
    rw [if_pos (lt_of_lt_of_le hlt hle)] at hmore
    omega

/-! ### The store mirrors the live work -/

/-- The record of a queued entry. -/
def Pending.queuedCall (p : Pending) : QueuedCall :=
  ⟨p.action, p.payload, p.kind, p.attempts, p.transactional⟩

/-- The record of the outstanding call: its attempt has not been recorded yet. -/
def InFlight.queuedCall (f : InFlight) : QueuedCall :=
  ⟨f.action, f.payload, .call, f.attempts - 1, f.transactional⟩

/-- The persisted messages that have had no outcome, each with its handle, its number
in the store and its record. -/
def persistedWork (e : Engine S) : List (CallToken × Seq × QueuedCall) :=
  (e.inflight.toList.filterMap fun f => f.seq.map fun q => (f.token, q, f.queuedCall)) ++
    e.queue.filterMap fun p => p.seq.map fun q => (p.token, q, p.queuedCall)

/-- The messages a history accepts, in order. -/
def acceptedEntries (log : List Event) : List Pending :=
  log.filterMap fun
    | .accepted entry => some entry
    | _ => none

/-- Their handles. -/
def acceptedTokens (log : List Event) : List CallToken :=
  (acceptedEntries log).map Pending.token

theorem mem_acceptedEntries {log : List Event} {entry : Pending} :
    entry ∈ acceptedEntries log ↔ .accepted entry ∈ log := by
  rw [acceptedEntries, List.mem_filterMap]
  constructor
  · rintro ⟨event, hmem, h⟩
    rcases event with _ | _ | entry' | _ | _ | _ | _ | _ <;> simp_all
  · exact fun h => ⟨_, h, rfl⟩

theorem acceptedItems_outboxHistory (log : List Event) :
    Outbox.acceptedItems (outboxHistory log) = (acceptedEntries log).map Pending.item := by
  induction log with
  | nil => rfl
  | cons event log ih =>
      rcases event with _ | o | entry | _ | _ | _ | _ | _
      case out => rcases o with _ | _ | _ | _ | _ | _ | _ | _ | _ | _ <;> exact ih
      case accepted => exact congrArg (entry.item :: ·) ih
      all_goals exact ih

theorem acceptedTokens_eq (log : List Event) : acceptedTokens log =
    (Outbox.acceptedItems (outboxHistory log)).map Outbox.Item.token := by
  rw [acceptedItems_outboxHistory, List.map_map]
  rfl

/-- What an item stands for, if it is persisted. -/
def stored (i : Outbox.Item Message) : Option (CallToken × Seq × QueuedCall) :=
  i.seq.map fun q => (i.token, q,
    ⟨i.body.action, i.body.payload, i.body.kind, i.attempts, i.body.transactional⟩)

/-- A count that is not the last one is one less than the next. -/
theorem count_eq {n : ℕ} (h : n < u32Max) : policy.count n = n + 1 :=
  Nat.mod_eq_of_lt (by rw [u32Max] at h; omega)

omit [MessageStore S] in
/-- What waits in the outbox is the persisted work, as far as the counts go on. -/
theorem persistedWork_eq {e : Engine S} {W : List (Outbox.Item Message)}
    (hW : (e.outbox none).Waiting policy W) (hcounts : ∀ i ∈ W, i.attempts < u32Max) :
    persistedWork e = W.filterMap stored ∧ ∀ f, e.inflight = some f → 1 ≤ f.attempts := by
  have hqueue : (e.queue.filterMap fun p => p.seq.map fun q => (p.token, q, p.queuedCall)) =
      (e.outbox none).queue.filterMap stored := by
    rw [show (e.outbox none).queue = e.queue.map Pending.item from rfl, List.filterMap_map]
    rfl
  cases hW with
  | idle hslot =>
      have hnone : e.inflight = none := Option.map_eq_none_iff.mp hslot
      refine ⟨?_, fun f hf => ?_⟩
      · rw [persistedWork, hnone, hqueue]
        rfl
      · rw [hnone] at hf
        cases hf
  | sent i id hslot =>
      obtain ⟨f, hf, hflight⟩ := Option.map_eq_some_iff.mp hslot
      have hattempts : f.attempts = i.attempts + 1 :=
        (congrArg (fun x => x.item.attempts) hflight).trans
          (count_eq (hcounts i List.mem_cons_self))
      have hbody : f.message = i.body := congrArg (fun x => x.item.body) hflight
      have hstored : (f.seq.map fun q => (f.token, q, f.queuedCall)) = stored i := by
        rw [stored, ← hbody, InFlight.queuedCall, hattempts, Nat.add_sub_cancel]
        rw [show i.seq = f.seq from (congrArg (fun x => x.item.seq) hflight).symm,
          show i.token = f.token from (congrArg (fun x => x.item.token) hflight).symm]
        rfl
      refine ⟨?_, fun f' hf' => ?_⟩
      · rw [persistedWork, hf, hqueue, Option.toList_some, List.filterMap_cons, List.filterMap_nil,
          hstored, List.filterMap_cons]
        rcases stored i with _ | w <;> rfl
      · obtain rfl := Option.some.inj (hf.symm.trans hf')
        rw [hattempts]
        exact Nat.le_add_left 1 _

theorem map_stored (l : List (Outbox.Item Message)) :
    (l.filterMap stored).map (fun w => (w.2.1, w.2.2.message, w.2.2.attempts)) =
      Outbox.recordsOf l := by
  rw [List.map_filterMap, Outbox.recordsOf]
  refine List.filterMap_congr fun i _ => ?_
  rw [stored, Outbox.Item.record, Option.map_map]
  rfl

theorem recordsOf_restoredItems (records : List (Seq × QueuedCall)) (first : ℕ) :
    Outbox.recordsOf (restoredItems records first) =
      records.map fun r => (r.1, r.2.message, r.2.attempts) := by
  induction records generalizing first with
  | nil => rfl
  | cons record records ih =>
      rw [restoredItems_cons, Outbox.recordsOf_cons_of_some rfl, ih]
      rfl

theorem records_of_pending {store : S} {records : List (Seq × QueuedCall)}
    (h : MessageStore.pending store = .ok records) : MessageStore.records store = records := by
  rw [MessageStore.records, h]
  rfl

theorem pending_eq_records [LawfulMessageStore S] (store : S) :
    MessageStore.pending store = .ok (MessageStore.records store) := by
  obtain ⟨records, h⟩ := LawfulMessageStore.pending_ok store
  rw [h, records_of_pending h]

/-- **No record has come to the end of the count**: one more attempt can be counted. -/
def CountsOn (store : S) : Prop := ∀ r ∈ MessageStore.records store, r.2.attempts < u32Max

omit [MessageStore S] in
theorem attempts_restoredItems {records : List (Seq × QueuedCall)} {Q : ℕ → Prop}
    (h : ∀ r ∈ records, Q r.2.attempts) (first : ℕ) :
    ∀ i ∈ restoredItems records first, Q i.attempts := by
  intro i hi
  obtain ⟨⟨r, n⟩, hr, rfl⟩ := List.mem_map.mp hi
  exact h r (List.fst_mem_of_mem_zipIdx hr)

/-- The outbox mirrors its store in every state an engine reaches, and what holds of the counts it
starts with, of none, and of what may be transmitted again, holds of those it has. -/
theorem outbox_mirrored [LawfulMessageStore S] {config : EngineConfig} {store : S}
    {ids : ℕ → MessageId} {e₀ : Engine S} (h : Engine.withStore config store ids = .ok e₀)
    {Q : ℕ → Prop} (hzero : Q 0) (hagain : ∀ n < u32Max, Q n)
    (hstore : ∀ r ∈ MessageStore.records store, Q r.2.attempts) (ops : List Op) :
    ((run e₀ ops).outbox none).Mirrored policy Q := by
  obtain ⟨records, hpending, hload⟩ := withStore_outbox h
  refine Outbox.mirrored_steps hzero (fun n hn => hagain n (of_decide_eq_true hn))
    (run_outbox e₀ ops) (outbox_invariant h []).conserved ?_
  rw [hload]
  refine Outbox.mirrored_loaded ?_ ?_ ?_
  · rw [tokens_restoredItems, length_restoredItems, List.range_eq_range']
  · rw [recordsOf_restoredItems, records_eq_map, records_of_pending hpending]
  · exact attempts_restoredItems (records_of_pending hpending ▸ hstore) 0

theorem outbox_mirrored_of_countsOn [LawfulMessageStore S] {config : EngineConfig} {store : S}
    {ids : ℕ → MessageId} {e₀ : Engine S} (h : Engine.withStore config store ids = .ok e₀)
    (hstore : CountsOn store) (ops : List Op) :
    ((run e₀ ops).outbox none).Mirrored policy (· < u32Max) :=
  outbox_mirrored h (by decide) (fun _ hn => hn) hstore ops

/-- A queued entry and its number in the store. -/
def Pending.kept (p : Pending) : Option Seq × QueuedCall := (p.seq, p.queuedCall)

omit [MessageStore S] in
theorem foldl_restore_queue (records : List (Seq × QueuedCall)) (e : Engine S) :
    (records.foldl restore e).inflight = e.inflight ∧
      (records.foldl restore e).queue.map Pending.kept =
        e.queue.map Pending.kept ++ records.map fun r => (some r.1, r.2) := by
  induction records generalizing e with
  | nil => exact ⟨rfl, (List.append_nil _).symm⟩
  | cons record records ih =>
      obtain ⟨hinflight, hqueue⟩ := ih (e.restore record)
      refine ⟨hinflight, hqueue.trans ?_⟩
      simp only [restore, mintToken, note, List.map_append, List.map_cons, List.map_nil,
        List.append_assoc, List.singleton_append]
      rfl

/-- **What a restart finds**: an engine built from the store holds its records in
the queue, in the order of the store, and nothing else. -/
theorem withStore_queue (config : EngineConfig) {store : S} (ids : ℕ → MessageId)
    {records : List (Seq × QueuedCall)} (h : MessageStore.pending store = .ok records) :
    ∃ e, Engine.withStore config store ids = .ok e ∧ e.inflight = none ∧
      e.queue.map Pending.kept = records.map fun r => (some r.1, r.2) := by
  refine ⟨records.foldl restore (fresh config store ids), ?_, foldl_restore_queue records _⟩
  rw [withStore, h, Except.map]

/-- **The store holds exactly the live work**, this list of handles, numbers and
records. -/
structure StoreMirrors (e : Engine S) (L : List (CallToken × Seq × QueuedCall)) : Prop where
  /-- The list is that of the persisted messages in the queue and in the slot. -/
  work : L.Perm (persistedWork e)
  /-- The outstanding call has been attempted, so that its record is one behind. -/
  attempted : ∀ f, e.inflight = some f → 1 ≤ f.attempts
  /-- The store lists the numbers and the records. -/
  records : MessageStore.pending e.store = .ok (L.map Prod.snd)
  /-- No number stands twice. -/
  numbers : (L.map fun w => w.2.1).Nodup
  /-- The list is in the order in which the messages were accepted. -/
  ordered : (L.map Prod.fst).Sublist (acceptedTokens e.log)
  /-- A persisted message is in the list as long as it has had no outcome. -/
  unresolved : ∀ entry seq, .accepted entry ∈ e.log → entry.seq = some seq →
    (entry.token ∉ (outcomes e.log).map CallOutcome.token ↔
      ∃ attempts, (entry.token, seq, ⟨entry.action, entry.payload, entry.kind, attempts,
        entry.transactional⟩) ∈ L)

theorem tokens_stored (l : List (Outbox.Item Message)) :
    ((l.filterMap stored).map Prod.fst).Sublist (l.map Outbox.Item.token) := by
  induction l with
  | nil => exact List.Sublist.refl _
  | cons i l ih =>
      rw [List.filterMap_cons]
      rcases hseq : i.seq with _ | q
      · rw [stored, hseq]
        exact ih.cons _
      · rw [stored, hseq]
        exact ih.cons_cons i.token

omit [Externals] in
/-- A strictly increasing list is a part of any other that has all of it. -/
theorem sublist_of_increasing {l l' : List ℕ} (h : l.Pairwise (· < ·))
    (h' : l'.Pairwise (· < ·)) (hsub : l ⊆ l') : l.Sublist l' :=
  List.sublist_of_subperm_of_pairwise
    (List.subperm_of_subset (h.imp fun hlt => Nat.ne_of_lt hlt) hsub) h h'

/-- The records of the store are those of the persisted messages that it mirrors. -/
theorem records_of_mirror {e : Engine S} {W L : List (Outbox.Item Message)}
    (h : (e.outbox none).Mirror policy W L) :
    MessageStore.records e.store = (L.filterMap stored).map Prod.snd := by
  have hrec := h.records
  rw [records_eq_map, ← map_stored, ← Function.comp_def
    (fun r : Seq × QueuedCall => (r.1, r.2.message, r.2.attempts)) Prod.snd,
    ← List.map_map] at hrec
  -- a record is its message and the count of its attempts
  refine List.map_injective_iff.mpr ?_ hrec
  rintro ⟨q, r⟩ ⟨q', r'⟩ he
  obtain ⟨action, payload, kind, attempts, transactional⟩ := r
  obtain ⟨action', payload', kind', attempts', transactional'⟩ := r'
  simp only [QueuedCall.message, Prod.mk.injEq, Message.mk.injEq] at he
  obtain ⟨rfl, ⟨rfl, rfl, rfl, rfl⟩, rfl⟩ := he
  rfl

/-- A persisted message is mirrored as long as it has had no outcome. -/
theorem unresolved_of_mirror {e : Engine S} {W L : List (Outbox.Item Message)}
    (hinv : (e.outbox none).Invariant policy) (h : (e.outbox none).Mirror policy W L)
    {entry : Pending} {seq : Seq} (hmem : .accepted entry ∈ e.log) (hseq : entry.seq = some seq) :
    entry.token ∉ (outcomes e.log).map CallOutcome.token ↔
      ∃ attempts, (entry.token, seq, ⟨entry.action, entry.payload, entry.kind, attempts,
        entry.transactional⟩) ∈ L.filterMap stored := by
  have ha : entry.item ∈ Outbox.acceptedItems (outboxHistory e.log) := by
    rw [acceptedItems_outboxHistory]
    exact List.mem_map_of_mem (mem_acceptedEntries.mpr hmem)
  rw [← resolvedTokens_outboxHistory]
  constructor
  · intro hnot
    -- the handle is live, so it is waiting, and says what it said
    have hlive : entry.token ∈ (e.outbox none).liveTokens := by
      by_contra hdead
      exact hnot (hinv.conserved.resolved_of_not_live (hinv.traced.issued _ ha) hdead)
    obtain ⟨i, hi, hit⟩ := List.mem_map.mp hlive
    obtain ⟨b, hb, hbt, hbs, hbb⟩ := hinv.traced.accepted i hi
    obtain rfl : b = entry.item := hinv.traced.eq_of_token hb ha (hbt.trans hit)
    obtain ⟨j, hj, hjt, hjs, hjb⟩ := h.waiting.of_live rfl hi
    refine ⟨j.attempts, List.mem_filterMap.mpr ⟨j, h.perm.mem_iff.mpr hj, ?_⟩⟩
    rw [stored, hjs, ← hbs, show entry.item.seq = some seq from hseq, hjb, ← hbb, hjt, hit]
    rfl
  · rintro ⟨attempts, hw⟩ hresolved
    obtain ⟨i, hi, hstored⟩ := List.mem_filterMap.mp hw
    obtain ⟨j, hj, hjt, -⟩ := h.waiting.live (h.perm.mem_iff.mp hi)
    have htoken : i.token = entry.token := by
      rw [stored] at hstored
      obtain ⟨q, -, hq⟩ := Option.map_eq_some_iff.mp hstored
      exact congrArg Prod.fst hq
    exact (hinv.conserved.of_live hj).2 (hjt ▸ htoken ▸ hresolved)

/-- **The store mirrors the live work, and a restart restores it.** Over a store
whose operations succeed, and as long as the counts in it go on, the live records are, one for
one, those of the persisted messages in the queue and in the slot, in the order of acceptance; and
an engine built from that store holds exactly these. -/
theorem store_mirrorsLiveWork [LawfulMessageStore S] {config : EngineConfig} {store : S}
    {ids : ℕ → MessageId} {e₀ : Engine S} (h : Engine.withStore config store ids = .ok e₀)
    (hstore : CountsOn store) (ops : List Op) :
    ∃ L, StoreMirrors (run e₀ ops) L ∧
      ∀ config' ids', ∃ e', Engine.withStore config' (run e₀ ops).store ids' = .ok e' ∧
        e'.inflight = none ∧
        e'.queue.map Pending.kept = L.map fun w => (some w.2.1, w.2.2) := by
  have hinv := outbox_invariant h ops
  obtain ⟨W, L, hL, hcounts⟩ := outbox_mirrored_of_countsOn h hstore ops
  generalize run e₀ ops = e at hinv hL ⊢
  obtain ⟨hwork, hattempted⟩ := persistedWork_eq hL.waiting hcounts
  have hrecords := records_of_mirror hL
  have hpending : MessageStore.pending e.store = .ok ((L.filterMap stored).map Prod.snd) := by
    rw [pending_eq_records, hrecords]
  refine ⟨L.filterMap stored, ⟨?_, hattempted, hpending, ?_, ?_,
    fun entry seq hmem hseq => unresolved_of_mirror hinv hL hmem hseq⟩, fun config' ids' => ?_⟩
  · rw [hwork]
    exact hL.perm.filterMap stored
  · have hnodup := LawfulMessageStore.nodup e.store
    rwa [hrecords, List.map_map] at hnodup
  · rw [acceptedTokens_eq]
    refine sublist_of_increasing (hL.sorted.sublist (tokens_stored L)) hinv.traced.increasing ?_
    intro t ht
    obtain ⟨i, hi, rfl⟩ := List.mem_map.mp ((tokens_stored L).subset ht)
    obtain ⟨j, hj, hjt, -⟩ := hL.waiting.live (hL.perm.mem_iff.mp hi)
    obtain ⟨a, ha, hat, -⟩ := hinv.traced.accepted j hj
    exact List.mem_map.mpr ⟨a, ha, hat.trans hjt⟩
  · obtain ⟨e', he', hinflight, hqueue⟩ := withStore_queue config' ids' hpending
    refine ⟨e', he', hinflight, hqueue.trans ?_⟩
    rw [List.map_map]
    rfl

end OcppKit

/-! ### A run -/

namespace OcppKit.Reference

/-- A station that starts with an empty store. -/
def station (version : Version) : Engine MemStore :=
  Engine.fresh (.new .chargingStation version) MemStore.new (numbered "s")

theorem withStore_station (version : Version) :
    Engine.withStore (.new .chargingStation version) MemStore.new (numbered "s") =
      .ok (station version) := rfl

/-- The first event of a transaction. -/
def firstEvent : RawValue := raw "\x7b\"seqNo\":0\x7d"

/-- The event after it. -/
def secondEvent : RawValue := raw "\x7b\"seqNo\":1\x7d"

/-- It boots, is accepted, and starts three calls. -/
def stationRun : List Op :=
  [.handle 1 (.connected .v2_0_1),
    .callWith 1 "BootNotification" .emptyObject {},
    .handle 2 (.received "[3,\"s0\",\x7b\"status\":\"Accepted\",\"interval\":300\x7d]"),
    .callWith 3 "TransactionEvent" firstEvent {},
    .callWith 3 "StatusNotification" .emptyObject {},
    .callWith 3 "TransactionEvent" secondEvent {}]

theorem token_hasOnePlace_stationRun :
    (∃ p, standsIn (run (station .v2_0_1) stationRun) 0 p = 1 ∧
      ∀ q, q ≠ p → standsIn (run (station .v2_0_1) stationRun) 0 q = 0) ∧
    standsIn (run (station .v2_0_1) (stationRun ++ [.handle 3 .disconnected])) 0 .outcome = 1 := by
  have h := token_hasOnePlace (withStore_station .v2_0_1) stationRun 0
  refine ⟨h.1 (by decide +kernel), h.2.2 [.handle 3 .disconnected] ?_ ?_ ?_⟩ <;> decide +kernel

/-- A store that an earlier run has left: the first event has been tried once. -/
def leftStore : MemStore :=
  (MemStore.new.append ⟨"TransactionEvent", firstEvent, .call, 1, true⟩).append
    ⟨"TransactionEvent", secondEvent, .call, 0, true⟩

/-- A station that starts with what a store holds. -/
def restarted (store : MemStore) : Engine MemStore :=
  store.entries.foldl Engine.restore
    (Engine.fresh (.new .chargingStation .v2_0_1) store (numbered "s"))

theorem withStore_restarted (store : MemStore) :
    Engine.withStore (.new .chargingStation .v2_0_1) store (numbered "s") =
      .ok (restarted store) := rfl

theorem countsOn_leftStore : CountsOn leftStore := by
  change ∀ r ∈ leftStore.entries, r.2.attempts < u32Max
  decide

theorem store_mirrorsLiveWork_leftStore :
    (∃ L, StoreMirrors (run (restarted leftStore) stationRun) L ∧
      ∀ config' ids', ∃ e',
        Engine.withStore config' (run (restarted leftStore) stationRun).store ids' = .ok e' ∧
        e'.inflight = none ∧
        e'.queue.map Pending.kept = L.map fun w => (some w.2.1, w.2.2)) ∧
    (persistedWork (run (restarted leftStore) stationRun)).map
        (fun w => (w.1, w.2.1, w.2.2.attempts)) =
      [(0, 0, 1), (1, 1, 0), (3, 2, 0), (5, 3, 0)] :=
  ⟨store_mirrorsLiveWork (withStore_restarted leftStore) countsOn_leftStore stationRun,
    by decide +kernel⟩

/-- A store whose record has come to the end of the count. -/
def wornStore : MemStore :=
  MemStore.new.append ⟨"TransactionEvent", firstEvent, .call, u32Max, true⟩

/-- **The count begins again**: the event is sent, as for the first time, and its record is not one
attempt behind. -/
theorem store_missesAttempt :
    (run (restarted wornStore) (stationRun.take 3)).inflight.map InFlight.attempts = some 0 ∧
    (MessageStore.records (run (restarted wornStore) (stationRun.take 3)).store).map
      (fun r => r.2.attempts) = [u32Max] ∧
    ¬∃ L, StoreMirrors (run (restarted wornStore) (stationRun.take 3)) L := by
  have hcount : (run (restarted wornStore) (stationRun.take 3)).inflight.map InFlight.attempts =
      some 0 := by
    decide +kernel
  refine ⟨hcount, by decide +kernel, ?_⟩
  rintro ⟨L, hmirrors⟩
  obtain ⟨f, hf, hzero⟩ := Option.map_eq_some_iff.mp hcount
  have hattempted := hmirrors.attempted f hf
  rw [hzero] at hattempted
  exact absurd hattempted (by decide)

end OcppKit.Reference
