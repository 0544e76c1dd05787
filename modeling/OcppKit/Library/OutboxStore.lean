import OcppKit.Library.OutboxInvariants

/-!
# The store mirrors the outbox

Over a store that does what it is told (`Outbox.LawfulRecordStore`), the live
records are those of the messages that are waiting or outstanding, in the order of
their tokens: `Outbox.State.Mirrored`. The outstanding message stands in the store
with the count of attempts it had *before* it was sent, since the store hears of an
attempt only when the message comes back (`Outbox.State.Waiting`).

A held message has no record any more: it was acknowledged when it was answered.
-/

namespace Outbox

variable {ι β ν σ : Type}

/-! ### A store that does what it is told -/

/-- **A store that does what it is told.** -/
class LawfulRecordStore (σ β : Type) [RecordStore σ β] : Prop where
  /-- No two live records share a number. -/
  nodup : ∀ s : σ, ((RecordStore.records s : List (ℕ × β × ℕ)).map Prod.fst).Nodup
  /-- A push that succeeds appends. -/
  push_some : ∀ (s : σ) (b : β) (q : ℕ), (RecordStore.push s b).2 = some q →
    RecordStore.records (RecordStore.push s b).1 = RecordStore.records s ++ [(q, b, 0)]
  /-- A push that fails changes nothing. -/
  push_none : ∀ (s : σ) (b : β), (RecordStore.push s b).2 = none →
    (RecordStore.records (RecordStore.push s b).1 : List (ℕ × β × ℕ)) = RecordStore.records s
  /-- An acknowledgement removes. -/
  ack : ∀ (s : σ) (q : ℕ), (RecordStore.records (RecordStore.ack β s q) : List (ℕ × β × ℕ)) =
    (RecordStore.records s).filter fun r => r.1 ≠ q
  /-- A count is replaced. -/
  setAttempts : ∀ (s : σ) (q n : ℕ),
    (RecordStore.records (RecordStore.setAttempts β s q n) : List (ℕ × β × ℕ)) =
      (RecordStore.records s).map fun r => if r.1 = q then (r.1, r.2.1, n) else r

/-- The record of a message, if it has one. -/
def Item.record (i : Item β) : Option (ℕ × β × ℕ) := i.seq.map fun q => (q, i.body, i.attempts)

/-- The records of a list of messages. -/
def recordsOf (l : List (Item β)) : List (ℕ × β × ℕ) := l.filterMap Item.record

theorem recordsOf_append (l l' : List (Item β)) :
    recordsOf (l ++ l') = recordsOf l ++ recordsOf l' :=
  List.filterMap_append

theorem recordsOf_cons_of_none {i : Item β} (h : i.seq = none) (l : List (Item β)) :
    recordsOf (i :: l) = recordsOf l :=
  List.filterMap_cons_none (by rw [Item.record, h, Option.map_none])

theorem recordsOf_cons_of_some {i : Item β} {q : ℕ} (h : i.seq = some q) (l : List (Item β)) :
    recordsOf (i :: l) = (q, i.body, i.attempts) :: recordsOf l :=
  List.filterMap_cons_some (by rw [Item.record, h, Option.map_some])

section

variable [RecordStore σ β] [LawfulRecordStore σ β]

/-- In a list of records with distinct numbers, those around one of them are not
its own. -/
theorem ne_of_nodup {A B : List (ℕ × β × ℕ)} {q : ℕ} {b : β} {n : ℕ}
    (h : ((A ++ (q, b, n) :: B).map Prod.fst).Nodup) :
    (∀ r ∈ A, r.1 ≠ q) ∧ ∀ r ∈ B, r.1 ≠ q := by
  rw [List.map_append, List.map_cons, List.nodup_append] at h
  obtain ⟨-, hB, hAB⟩ := h
  refine ⟨fun r hr => hAB r.1 (List.mem_map_of_mem hr) q List.mem_cons_self, fun r hr he => ?_⟩
  have hmem : r.1 ∈ B.map Prod.fst := List.mem_map_of_mem hr
  rw [he] at hmem
  exact (List.nodup_cons.mp hB).1 hmem

/-- **Acknowledging a message takes exactly its record out.** -/
theorem records_ackIf {s : σ} {A B : List (Item β)} {i : Item β}
    (h : RecordStore.records s = recordsOf (A ++ i :: B)) :
    RecordStore.records (ackIf β s i.seq) = recordsOf (A ++ B) := by
  rcases hq : i.seq with _ | q
  · rw [ackIf, h, recordsOf_append, recordsOf_cons_of_none hq, recordsOf_append]
  · have hn := LawfulRecordStore.nodup (β := β) s
    rw [h, recordsOf_append, recordsOf_cons_of_some hq] at hn
    obtain ⟨hA, hB⟩ := ne_of_nodup hn
    rw [ackIf, LawfulRecordStore.ack, h, recordsOf_append, recordsOf_cons_of_some hq,
      List.filter_append, List.filter_cons_of_neg (by simp), recordsOf_append,
      List.filter_eq_self.mpr fun r hr => by simpa using hA r hr,
      List.filter_eq_self.mpr fun r hr => by simpa using hB r hr]

/-- **Recording an attempt changes exactly the record of the message.** -/
theorem records_setIf {s : σ} {A B : List (Item β)} {i i' : Item β} (hseq : i'.seq = i.seq)
    (hbody : i'.body = i.body) (h : RecordStore.records s = recordsOf (A ++ i :: B)) :
    RecordStore.records (setIf β s i'.seq i'.attempts) = recordsOf (A ++ i' :: B) := by
  rcases hq : i'.seq with _ | q
  · rw [setIf, h, recordsOf_append, recordsOf_append, recordsOf_cons_of_none hq,
      recordsOf_cons_of_none (hseq ▸ hq)]
  · have hn := LawfulRecordStore.nodup (β := β) s
    rw [h, recordsOf_append, recordsOf_cons_of_some (hseq ▸ hq)] at hn
    obtain ⟨hA, hB⟩ := ne_of_nodup hn
    have hkeep : ∀ l : List (ℕ × β × ℕ), (∀ r ∈ l, r.1 ≠ q) →
        l.map (fun r => if r.1 = q then (r.1, r.2.1, i'.attempts) else r) = l := by
      intro l hl
      rw [List.map_congr_left fun r hr => if_neg (hl r hr), List.map_id']
    rw [setIf, LawfulRecordStore.setAttempts, h, recordsOf_append, recordsOf_append,
      recordsOf_cons_of_some (hseq ▸ hq), recordsOf_cons_of_some hq, List.map_append,
      List.map_cons, if_pos rfl, hkeep _ hA, hkeep _ hB, hbody]

end

/-! ### The mirror -/

/-- **What the store has to know about**: what the outstanding message was before it was sent, and
the waiting ones. -/
inductive State.Waiting (P : Policy β ν) (s : State ι β ν σ) : List (Item β) → Prop
  /-- No message is outstanding. -/
  | idle : s.slot = none → s.Waiting P s.queue
  /-- This message has been sent. -/
  | sent (i : Item β) (id : ι) : s.slot = some (i.launch P id) → s.Waiting P (i :: s.queue)

/-- What is waiting is live. -/
theorem State.Waiting.live {P : Policy β ν} {s : State ι β ν σ} {W : List (Item β)}
    (h : s.Waiting P W) {i : Item β} (hi : i ∈ W) :
    ∃ j ∈ s.live, j.token = i.token ∧ j.seq = i.seq ∧ j.body = i.body := by
  have hqueue : i ∈ s.queue → ∃ j ∈ s.live, j.token = i.token ∧ j.seq = i.seq ∧ j.body = i.body :=
    fun hi => ⟨i, by simp [State.live, hi], rfl, rfl, rfl⟩
  cases h with
  | idle hslot => exact hqueue hi
  | sent i' id hslot =>
      rcases List.mem_cons.mp hi with rfl | hi
      · exact ⟨(i.launch P id).item, by simp [State.live, hslot], rfl, rfl, rfl⟩
      · exact hqueue hi

/-- What is live, but for what is held, is waiting. -/
theorem State.Waiting.of_live {P : Policy β ν} {s : State ι β ν σ} {W : List (Item β)}
    (h : s.Waiting P W) (hheld : s.held = none) {i : Item β} (hi : i ∈ s.live) :
    ∃ j ∈ W, j.token = i.token ∧ j.seq = i.seq ∧ j.body = i.body := by
  simp only [State.live, hheld, Option.toList_none, List.map_nil, List.nil_append,
    List.mem_append, List.mem_map, Option.mem_toList] at hi
  cases h with
  | idle hslot =>
      rw [hslot] at hi
      rcases hi with ⟨f, hf, rfl⟩ | hi
      · cases hf
      · exact ⟨i, hi, rfl, rfl, rfl⟩
  | sent i' id hslot =>
      rw [hslot] at hi
      rcases hi with ⟨f, hf, rfl⟩ | hi
      · obtain rfl := Option.some.inj hf
        exact ⟨i', List.mem_cons_self, rfl, rfl, rfl⟩
      · exact ⟨i, List.mem_cons_of_mem _ hi, rfl, rfl, rfl⟩

theorem State.Waiting.of_eq {P : Policy β ν} {s s' : State ι β ν σ} {W : List (Item β)}
    (h : s.Waiting P W) (hslot : s'.slot = s.slot) (hqueue : s'.queue = s.queue) :
    s'.Waiting P W := by
  cases h with
  | idle hnone => exact hqueue ▸ .idle (hslot.trans hnone)
  | sent i id hi => exact hqueue ▸ .sent i id (hslot.trans hi)

/-- **The live records are those of what is waiting or outstanding**, in the order
of the tokens. -/
structure State.Mirror [RecordStore σ β] (P : Policy β ν) (s : State ι β ν σ)
    (W L : List (Item β)) : Prop where
  /-- What is waiting or outstanding. -/
  waiting : s.Waiting P W
  /-- The same messages. -/
  perm : L.Perm W
  /-- They are in the order of their tokens. -/
  sorted : (L.map Item.token).Pairwise (· < ·)
  /-- Their records are what the store holds. -/
  records : RecordStore.records s.store = recordsOf L

/-- **The store mirrors the outbox**, and this holds of every count that it has. -/
def State.Mirrored [RecordStore σ β] (P : Policy β ν) (Q : ℕ → Prop) (s : State ι β ν σ) : Prop :=
  ∃ W L, s.Mirror P W L ∧ ∀ i ∈ W, Q i.attempts

section

variable [RecordStore σ β] [LawfulRecordStore σ β] {P : Policy β ν} {Q : ℕ → Prop}

/-- Taking one message out of what is waiting, and its record out of the store. -/
theorem mirror_remove {store : σ} {L W W' : List (Item β)} {i : Item β}
    (hperm : L.Perm W) (hsort : (L.map Item.token).Pairwise (· < ·))
    (hrec : RecordStore.records store = recordsOf L) (hW : W.Perm (i :: W')) :
    ∃ L' : List (Item β), L'.Perm W' ∧ (L'.map Item.token).Pairwise (· < ·) ∧
      RecordStore.records (ackIf β store i.seq) = recordsOf L' := by
  have hi : i ∈ L := (hperm.trans hW).mem_iff.mpr List.mem_cons_self
  obtain ⟨A, B, rfl⟩ := List.append_of_mem hi
  refine ⟨A ++ B, ?_, ?_, records_ackIf hrec⟩
  · exact List.Perm.cons_inv (List.perm_middle.symm.trans (hperm.trans hW))
  · exact hsort.sublist (((List.sublist_cons_self i B).append_left A).map Item.token)

/-- A message that is waiting is taken out, and the others wait on. -/
theorem mirrored_remove {s s' : State ι β ν σ} {W W' : List (Item β)} {i : Item β}
    (h : ∃ L, s.Mirror P W L) (hcounts : ∀ i ∈ W, Q i.attempts) (hW : W.Perm (i :: W'))
    (hwaiting : s'.Waiting P W') (hstore : s'.store = ackIf β s.store i.seq) :
    s'.Mirrored P Q := by
  obtain ⟨L, hL⟩ := h
  obtain ⟨L', hperm, hsort, hrec⟩ := mirror_remove hL.perm hL.sorted hL.records hW
  exact ⟨W', L', ⟨hwaiting, hperm, hsort, hstore ▸ hrec⟩, fun j hj =>
    hcounts j (hW.mem_iff.mpr (List.mem_cons_of_mem _ hj))⟩

/-- A message of the queue is taken out. -/
theorem mirrored_dequeue {s s' : State ι β ν σ} {xs ys : List (Item β)} {i : Item β}
    (hs : s.Mirrored P Q) (hq : s.queue = xs ++ i :: ys) (hq' : s'.queue = xs ++ ys)
    (hslot : s'.slot = s.slot) (hstore : s'.store = ackIf β s.store i.seq) :
    s'.Mirrored P Q := by
  obtain ⟨W, L, hL, hcounts⟩ := hs
  have hwaiting := hL.waiting
  cases hwaiting with
  | idle hnone =>
      exact mirrored_remove ⟨L, hL⟩ hcounts (hq ▸ hq' ▸ List.perm_middle)
        (.idle (hslot.trans hnone)) hstore
  | sent j id hj =>
      have hwaiting' : s'.Waiting P (j :: s'.queue) := .sent j id (hslot.trans hj)
      refine mirrored_remove ⟨L, hL⟩ hcounts ?_ hwaiting' hstore
      rw [hq, hq']
      exact (List.perm_middle.cons j).trans (List.Perm.swap i j _)

/-- The outstanding message is taken out. -/
theorem mirrored_land {s s' : State ι β ν σ} {f : Flight ι β} (hs : s.Mirrored P Q)
    (hf : s.slot = some f) (hslot : s'.slot = none) (hqueue : s'.queue = s.queue)
    (hstore : s'.store = ackIf β s.store f.item.seq) : s'.Mirrored P Q := by
  obtain ⟨W, L, hL, hcounts⟩ := hs
  have hwaiting := hL.waiting
  cases hwaiting with
  | idle hnone =>
      rw [hnone] at hf
      cases hf
  | sent i id hi =>
      obtain rfl := Option.some.inj (hi.symm.trans hf)
      have hW : (i :: s.queue).Perm (i :: s'.queue) := by rw [hqueue]
      exact mirrored_remove ⟨L, hL⟩ hcounts hW (.idle hslot) hstore

theorem mirrored_keep (hzero : Q 0) {s s' : State ι β ν σ} (h : Keep P s s') (hc : s.Conserved)
    (hs : s.Mirrored P Q) : s'.Mirrored P Q := by
  cases h with
  | accept item store' htok hnew hstored =>
      obtain ⟨W, L, hL, hcounts⟩ := hs
      refine ⟨W ++ [item], L ++ [item], ⟨?_, hL.perm.append_right [item], ?_, ?_⟩, ?_⟩
      · have hw := hL.waiting
        cases hw with
        | idle hslot => exact .idle hslot
        | sent i id hslot => exact .sent i id hslot
      · rw [List.map_append, List.pairwise_append]
        refine ⟨hL.sorted, List.pairwise_singleton _ _, fun t ht u hu => ?_⟩
        obtain ⟨i, hi, rfl⟩ := List.mem_map.mp ht
        obtain rfl : u = item.token := by simpa using hu
        obtain ⟨j, hj, hjt, -⟩ := hL.waiting.live (hL.perm.mem_iff.mp hi)
        rw [htok, ← hjt]
        exact (hc.of_live hj).1
      · rcases hq : item.seq with _ | q
        · rw [Stored, hq] at hstored
          rw [hstored, hL.records, recordsOf_append, recordsOf_cons_of_none hq]
          exact (List.append_nil _).symm
        · rw [Stored, hq] at hstored
          have hpush := LawfulRecordStore.push_some s.store item.body q (by rw [hstored])
          rw [hstored] at hpush
          rw [hpush, hL.records, recordsOf_append, recordsOf_cons_of_some hq, hnew]
          rfl
      · intro i hi
        rcases List.mem_append.mp hi with hi | hi
        · exact hcounts i hi
        · obtain rfl := List.mem_singleton.mp hi
          exact hnew ▸ hzero
  | refuse v _ =>
      obtain ⟨W, L, hL, hcounts⟩ := hs
      exact ⟨W, L, ⟨hL.waiting.of_eq rfl rfl, hL.perm, hL.sorted, hL.records⟩, hcounts⟩
  | storeFailed b hnone =>
      obtain ⟨W, L, hL, hcounts⟩ := hs
      exact ⟨W, L, ⟨hL.waiting.of_eq rfl rfl, hL.perm, hL.sorted,
        (LawfulRecordStore.push_none s.store b hnone).trans hL.records⟩, hcounts⟩
  | sendExempt id xs item ys v hq _ _ _ => exact mirrored_dequeue hs hq rfl rfl rfl
  | send id xs item ys hq _ _ hslot _ =>
      obtain ⟨W, L, hL, hcounts⟩ := hs
      have hw := hL.waiting
      cases hw with
      | idle _ =>
          -- the record stays as it is until the message comes back
          have hperm : s.queue.Perm (item :: (xs ++ ys)) := hq ▸ List.perm_middle
          exact ⟨item :: (xs ++ ys), L, ⟨.sent item id rfl, hL.perm.trans hperm, hL.sorted,
            hL.records⟩, fun i hi => hcounts i (hperm.mem_iff.mpr hi)⟩
      | sent i id' hi =>
          rw [hslot] at hi
          cases hi
  | drop xs item ys v hq _ => exact mirrored_dequeue hs hq rfl rfl rfl
  | settle item v hh =>
      obtain ⟨W, L, hL, hcounts⟩ := hs
      exact ⟨W, L, ⟨hL.waiting.of_eq rfl rfl, hL.perm, hL.sorted, hL.records⟩, hcounts⟩

theorem mirrored_free (hagain : ∀ n, P.again n = true → Q n) {s s' : State ι β ν σ}
    (h : Free P s s') (hs : s.Mirrored P Q) : s'.Mirrored P Q := by
  cases h with
  | answer f v hslot _ => exact mirrored_land hs hslot rfl rfl rfl
  | requeue f hslot _ hf =>
      obtain ⟨W, L, hL, hcounts⟩ := hs
      have hw := hL.waiting
      cases hw with
      | idle hnone =>
          rw [hnone] at hslot
          cases hslot
      | sent i id hi =>
          obtain rfl := Option.some.inj (hi.symm.trans hslot)
          -- its record stands where its token puts it, and is given the new count there
          obtain ⟨A, B, rfl⟩ := List.append_of_mem (hL.perm.mem_iff.mpr List.mem_cons_self)
          have hrest : (A ++ B).Perm s.queue :=
            List.Perm.cons_inv (List.perm_middle.symm.trans hL.perm)
          refine ⟨(i.launch P id).item :: s.queue, A ++ (i.launch P id).item :: B,
            ⟨.idle rfl, List.perm_middle.trans (hrest.cons _), ?_,
              records_setIf (i := i) rfl rfl hL.records⟩, ?_⟩
          · have hsort := hL.sorted
            rw [List.map_append, List.map_cons] at hsort ⊢
            exact hsort
          · intro j hj
            rcases List.mem_cons.mp hj with rfl | hj
            · exact hagain _ hf
            · exact hcounts j (List.mem_cons_of_mem _ hj)
  | giveUp f v hslot _ => exact mirrored_land hs hslot rfl rfl rfl

/-- **The store mirrors the outbox after any number of steps.** -/
theorem mirrored_steps (hzero : Q 0) (hagain : ∀ n, P.again n = true → Q n)
    {s s' : State ι β ν σ} (h : Steps P s s') (hc : s.Conserved) (hs : s.Mirrored P Q) :
    s'.Mirrored P Q := by
  have hboth : s'.Conserved ∧ s'.Mirrored P Q :=
    Steps.invariant (fun s => s.Conserved ∧ s.Mirrored P Q)
      (fun s s' h hi => ⟨conserved_step h hi.1, h.elim (fun hk => mirrored_keep hzero hk hi.1 hi.2)
        fun hf => mirrored_free hagain hf hi.2⟩) h ⟨hc, hs⟩
  exact hboth.2

end

/-- What holds of the counts that messages were accepted with, and of none, holds after any number
of steps. -/
theorem counts_steps [RecordStore σ β] {P : Policy β ν} {Q : ℕ → Prop} (hzero : Q 0)
    {s s' : State ι β ν σ} (h : Steps P s s')
    (hs : ∀ i ∈ acceptedItems s.hist, Q i.attempts) :
    ∀ i ∈ acceptedItems s'.hist, Q i.attempts := by
  refine Steps.invariant (fun s => ∀ i ∈ acceptedItems s.hist, Q i.attempts) ?_ h hs
  rintro s s' (hk | hf) hs i hi
  · cases hk with
    | accept item store' _ hnew _ =>
        rw [acceptedItems_append, List.mem_append] at hi
        rcases hi with hi | hi
        · exact hs i hi
        · obtain rfl : i = item := by simpa using hi
          exact hnew ▸ hzero
    | storeFailed => exact hs i hi
    | _ => exact hs i (by simpa using hi)
  · cases hf with
    | giveUp => exact hs i (by simpa using hi)
    | _ => exact hs i hi

/-- A loaded outbox mirrors its store when what was loaded is what the store holds. -/
theorem mirrored_loaded [RecordStore σ β] {P : Policy β ν} {Q : ℕ → Prop}
    {items : List (Item β)} {store : σ} (h : items.map Item.token = List.range items.length)
    (hrec : RecordStore.records store = recordsOf items)
    (hcounts : ∀ i ∈ items, Q i.attempts) :
    (State.loaded items store : State ι β ν σ).Mirrored P Q :=
  ⟨items, items, ⟨.idle rfl, List.Perm.refl _, h ▸ List.pairwise_lt_range, hrec⟩, hcounts⟩

end Outbox
