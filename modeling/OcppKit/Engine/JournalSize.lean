import OcppKit.Engine.FileRefinement

/-!
# How long the journal gets

Every operation on a message that is live appends a record, so the journal of a station that
queues and acknowledges would grow without end. After an acknowledgement or a noted attempt it is
rewritten if its records have come to outweigh the live messages
(`OcppKit.StoreOp.compacts`); a push never rewrites it.

A push adds a live message with its record, so it does not have to: between two rewrites there
are less than 64 records more than live messages, or less than four times as many records
(`OcppKit.Proportional`). This is kept by every operation, and the count the store keeps in memory
is the number of records in the file: `OcppKit.journal_proportional`.
-/

namespace OcppKit

variable [Externals] [JournalText]

/-! ### Operations whose steps succeed -/

namespace FileStore

theorem append_of_nil {s : StoreSession} (h : s.disk.plan = []) (record : JournalRecord) :
    append record s = .ok () ⟨(s.store.put (Journal.line record) s.disk).withPlan [],
      { s.store with written := s.store.written + 1 }⟩ := by
  rcases append_cases record s with ⟨-, happend⟩ | ⟨hnot, -⟩
  · rwa [h] at happend
  · exact absurd durable_nil (h ▸ hnot)

/-- The journal is worth rewriting. -/
def Worthwhile (store : FileStore) : Prop :=
  compactFloor ≤ store.written ∧ store.live.size * compactRatio ≤ store.written

instance (store : FileStore) : Decidable store.Worthwhile := instDecidableAnd

theorem compactIfWorthwhile_of_nil {s : StoreSession} (h : s.disk.plan = []) :
    compactIfWorthwhile s = .ok () (if s.store.Worthwhile then
      ⟨⟨some (compacted s.store.live), none, []⟩,
        { s.store with attached := true, written := s.store.live.size }⟩
      else s) := by
  rw [compactIfWorthwhile, get_bind]
  change (if s.store.Worthwhile then rewrite else pure ()) s = _
  by_cases hworth : s.store.Worthwhile
  · rw [if_pos hworth, if_pos hworth, rewrite_of_nil h]
  · rw [if_neg hworth, if_neg hworth]
    rfl

end FileStore

namespace StoreOp

/-- What the store knows once the record of the operation is in the file. -/
def counted (store : FileStore) (op : StoreOp) : FileStore :=
  { op.done store with written := store.written + 1 }

/-- **The operation rewrites the journal**: it is about a live message, is no push, and leaves
a journal worth rewriting. -/
def Compacts (store : FileStore) : StoreOp → Prop
  | .push _ => False
  | .ack seq => store.live.contains seq = true ∧ (counted store (.ack seq)).Worthwhile
  | .setAttempts seq attempts =>
      store.live.contains seq = true ∧ (counted store (.setAttempts seq attempts)).Worthwhile

/-- The session after an operation whose record was appended. -/
def appendedTo (s : StoreSession) (op : StoreOp) (record : JournalRecord) : StoreSession :=
  ⟨(s.store.put (Journal.line record) s.disk).withPlan [], op.counted s.store⟩

/-- The session after an operation that rewrote the journal. -/
def compactedTo (s : StoreSession) (op : StoreOp) : StoreSession :=
  ⟨⟨some (FileStore.compacted (op.done s.store).live), none, []⟩,
    { op.done s.store with attached := true, written := (op.done s.store).live.size }⟩

/-- An append, and a rewrite if it is worthwhile. -/
theorem append_compact_of_nil {s : StoreSession} (h : s.disk.plan = []) (op : StoreOp)
    (record : JournalRecord) (hput : (op.done s.store).put = s.store.put)
    (hwritten : (op.done s.store).written = s.store.written) :
    (FileStore.append record >>= fun _ => FileStore.compactIfWorthwhile)
        ⟨s.disk, op.done s.store⟩ =
      .ok () (if (op.counted s.store).Worthwhile then op.compactedTo s
        else op.appendedTo s record) := by
  have happend := FileStore.append_of_nil (s := ⟨s.disk, op.done s.store⟩) h record
  simp only [hput, hwritten] at happend
  rw [bind_of_ok happend, FileStore.compactIfWorthwhile_of_nil rfl]
  rfl

/-- **An operation on a live message** appends its record, and rewrites the journal if that is
worthwhile; if the message is not live, it does nothing. -/
theorem on_of_live {s : StoreSession} (h : s.disk.plan = []) {op : StoreOp} {seq : Seq}
    {record : JournalRecord}
    (hrecord : op.record s.store = if s.store.live.contains seq then some record else none)
    (hcompacts : op.Compacts s.store ↔
      s.store.live.contains seq = true ∧ (op.counted s.store).Worthwhile)
    (hput : (op.done s.store).put = s.store.put)
    (hwritten : (op.done s.store).written = s.store.written)
    (hon : (op.on s).1 = (StoreSession.after (if s.store.live.contains seq = true then
      (FileStore.append record >>= fun _ => FileStore.compactIfWorthwhile) ⟨s.disk, op.done s.store⟩
      else .ok () s)).1) :
    (op.record s.store = none ∧ ¬op.Compacts s.store ∧ (op.on s).1 = s) ∨
    (op.Compacts s.store ∧ (op.on s).1 = op.compactedTo s) ∨
    ∃ record, op.record s.store = some record ∧ ¬op.Compacts s.store ∧
      ((∀ entry, op ≠ .push entry) → ¬(op.counted s.store).Worthwhile) ∧
      (op.on s).1 = op.appendedTo s record := by
  rw [hcompacts, hrecord, hon]
  by_cases hlive : s.store.live.contains seq = true
  · rw [if_pos hlive, if_pos hlive, append_compact_of_nil h op record hput hwritten]
    by_cases hworth : (op.counted s.store).Worthwhile
    · rw [if_pos hworth]
      exact Or.inr (Or.inl ⟨⟨hlive, hworth⟩, rfl⟩)
    · rw [if_neg hworth]
      exact Or.inr (Or.inr ⟨record, rfl, fun hc => hworth hc.2, fun _ => hworth, rfl⟩)
  · rw [if_neg hlive, if_neg hlive]
    exact Or.inl ⟨rfl, fun hc => hlive hc.1, rfl⟩

/-- **What an operation does whose steps all succeed.** -/
theorem on_of_nil {s : StoreSession} (h : s.disk.plan = []) (op : StoreOp) :
    (op.record s.store = none ∧ ¬op.Compacts s.store ∧ (op.on s).1 = s) ∨
    (op.Compacts s.store ∧ (op.on s).1 = op.compactedTo s) ∨
    ∃ record, op.record s.store = some record ∧ ¬op.Compacts s.store ∧
      ((∀ entry, op ≠ .push entry) → ¬(op.counted s.store).Worthwhile) ∧
      (op.on s).1 = op.appendedTo s record := by
  cases op with
  | push entry =>
      -- a push is not followed by the check whether a rewrite is worthwhile
      refine Or.inr (Or.inr ⟨_, rfl, id, fun hpush => absurd rfl (hpush entry), ?_⟩)
      change (StoreSession.after (FileStore.push entry s)).1 = _
      rw [FileStore.push, get_bind, bind_of_ok (FileStore.append_of_nil h _)]
      rfl
  | ack seq =>
      refine on_of_live h rfl Iff.rfl rfl rfl ?_
      change (StoreSession.after (FileStore.ack seq s)).1 = _
      rw [FileStore.ack, get_bind]
      split_ifs <;> rfl
  | setAttempts seq attempts =>
      refine on_of_live h rfl Iff.rfl rfl rfl ?_
      change (StoreSession.after (FileStore.setAttempts seq attempts s)).1 = _
      rw [FileStore.setAttempts, get_bind]
      split_ifs <;> rfl

end StoreOp

/-! ### The bound -/

/-- **The journal is proportional to its live content**: it holds the records the store has
counted, and they outnumber the live messages by less than 64, or are less than four times as
many. -/
structure Proportional (s : StoreSession) : Prop where
  /-- No step is going to fail. -/
  plan : s.disk.plan = []
  /-- The open file is the journal. -/
  attached : s.store.attached = true
  /-- The count is the number of records. -/
  counted : ∃ rs : List JournalRecord,
    s.disk.journal = some (Journal.text rs) ∧ rs.length = s.store.written
  /-- There are not many of them. -/
  bound : s.store.written < 64 + s.store.live.size ∨ s.store.written < 4 * s.store.live.size

omit [JournalText] in
/-- One record for each message. -/
theorem length_pushesOf (live : SortedMap Seq QueuedCall) :
    (FileStore.pushesOf live.entries).length = live.size := List.length_map _

/-- **One operation keeps the journal proportional.** -/
theorem Proportional.step {s : StoreSession} (h : Proportional s)
    (hissued : ∀ e ∈ s.store.live.entries, e.1 < s.store.nextSeq) (op : StoreOp) :
    Proportional (op.on s).1 := by
  obtain ⟨rs, hj, hlength⟩ := h.counted
  rcases op.on_of_nil h.plan with ⟨-, -, hon⟩ | ⟨-, hon⟩ | ⟨record, -, -, hnot, hon⟩
  · rw [hon]
    exact h
  · rw [hon]
    refine ⟨rfl, rfl, ⟨_, rfl, length_pushesOf _⟩, Or.inl ?_⟩
    exact Nat.lt_add_of_pos_left (by decide)
  · rw [hon]
    have hattached : (op.counted s.store).attached = true := by
      rw [← h.attached]
      cases op <;> rfl
    refine ⟨rfl, hattached, ⟨rs ++ [record], ?_, ?_⟩, ?_⟩
    · change (s.store.put (Journal.line record) s.disk).journal = _
      rw [FileStore.put, if_pos h.attached, Disk.putJournal_journal, hj]
      simp
    · rw [List.length_append, hlength]
      rfl
    · change s.store.written + 1 < 64 + (op.done s.store).live.size ∨
        s.store.written + 1 < 4 * (op.done s.store).live.size
      by_cases hpush : ∀ entry, op ≠ .push entry
      · -- the check after the append found that a rewrite is not worthwhile
        have hworth := hnot hpush
        have hsmall : ¬(64 ≤ s.store.written + 1 ∧
            (op.done s.store).live.size * 4 ≤ s.store.written + 1) := hworth
        omega
      · -- a push adds a live message along with its record
        obtain ⟨entry, rfl⟩ : ∃ entry, op = .push entry := by simpa using hpush
        have hentries : (s.store.live.insert s.store.nextSeq entry).entries =
            s.store.live.entries ++ [(s.store.nextSeq, entry)] :=
          SortedMap.entries_insert_of_lt hissued entry
        have hsize : (StoreOp.done s.store (.push entry)).live.size = s.store.live.size + 1 := by
          change (s.store.live.insert s.store.nextSeq entry).entries.length = _
          rw [hentries, List.length_append]
          rfl
        have hbound := h.bound
        omega

/-- A session that mirrors an in-memory store has issued the numbers it knows. -/
theorem Mirrors.issued {s : StoreSession} {m : MemStore} (h : Mirrors s m) :
    ∀ e ∈ s.store.live.entries, e.1 < s.store.nextSeq := by
  rw [h.live, h.next]
  exact m.issued

variable [LawfulJournalText]

/-- **So does a run.** -/
theorem Proportional.run {s : StoreSession} {m : MemStore} (h : Proportional s) (hm : Mirrors s m)
    (ops : List StoreOp) : Proportional (StoreOp.run s ops).1 := by
  induction ops generalizing s m with
  | nil => exact h
  | cons op ops ih => exact ih (h.step hm.issued op) (hm.step op).1

/-- **The journal was rewritten from these messages**: they are what is pending, and what the
journal replays to, with one record each. -/
structure CompactedFrom (live : SortedMap Seq QueuedCall) (s : StoreSession) : Prop where
  /-- They are pending, in order. -/
  pending : MessageStore.pending s = .ok live.entries
  /-- The journal says so. -/
  replays : ∃ st, Replay.of s.store.path.path s.disk.records = .ok st ∧ st.live = live
  /-- There is one record for each. -/
  records : s.disk.records.length = live.size
  /-- The store has counted them. -/
  written : s.store.written = live.size

theorem compactedFrom {s : StoreSession} {path : JournalPath} {nextSeq : Seq}
    (hdisk : s.disk.journal = some (FileStore.compacted s.store.live))
    (hissued : ∀ e ∈ s.store.live.entries, e.1 < nextSeq) (hpath : s.store.path = path)
    (hwritten : s.store.written = s.store.live.size) : CompactedFrom s.store.live s := by
  have hrecords : s.disk.records = FileStore.pushesOf s.store.live.entries := by
    rw [Disk.records, hdisk, Option.getD_some, FileStore.compacted, Journal.readAll_text]
  obtain ⟨st, hof, hlive, -⟩ := of_compacted path.path s.store.live hissued
  refine ⟨rfl, ⟨st, ?_, hlive⟩, ?_, hwritten⟩
  · rw [hrecords, hpath, hof]
  · rw [hrecords, length_pushesOf]

/-- **The journal stays proportional to its live content.** From a journal that opens, after any
pushes, acknowledgements and noted attempts whose steps all succeed, it holds less than
`max (64 + n) (4 n) + 1` records for `n` live messages, as many as the store has counted; and
every rewrite leaves exactly the live messages in it. -/
theorem journal_proportional {path : JournalPath} {d d' : Disk} {s : StoreSession}
    (hplan : d.plan = []) (hopen : FileStore.open path d = .ok s d') (ops : List StoreOp) :
    let t := (StoreOp.run s ops).1
    t.store.written = t.disk.records.length ∧
      t.disk.records.length < max (64 + t.store.live.size) (4 * t.store.live.size) + 1 ∧
      (∀ op : StoreOp, op.Compacts t.store →
        CompactedFrom (op.done t.store).live (op.on t).1) ∧
      ∃ u, FileStore.compact t = .ok () u ∧ CompactedFrom t.store.live u := by
  intro t
  obtain ⟨st, hof, rfl⟩ := replay_of_open hplan hopen
  obtain ⟨m, -, -, -, hm⟩ := mirrors_opened hof
  have hfresh : Proportional (openSession path st) :=
    ⟨rfl, rfl, ⟨_, rfl, length_pushesOf _⟩, Or.inl (Nat.lt_add_of_pos_left (by decide))⟩
  have ht : Proportional t := hfresh.run hm ops
  have hmt := (hm.run ops).1
  obtain ⟨rs, hj, hlength⟩ := ht.counted
  have hrecords : t.disk.records = rs := by
    rw [Disk.records, hj, Option.getD_some, Journal.readAll_text]
  refine ⟨?_, ?_, ?_, ?_⟩
  · rw [hrecords, hlength]
  · have hbound := ht.bound
    rw [hrecords, hlength]
    omega
  · intro op hcompacts
    have hmu := (hmt.step op).1
    rcases op.on_of_nil ht.plan with ⟨-, hnot, -⟩ | ⟨-, hon⟩ | ⟨-, -, hnot, -⟩
    · exact absurd hcompacts hnot
    · have hissued := hmu.issued
      rw [hon] at hissued ⊢
      exact compactedFrom (s := op.compactedTo t) rfl hissued rfl rfl
    · exact absurd hcompacts hnot
  · refine ⟨_, FileStore.rewrite_of_nil ht.plan, ?_⟩
    exact compactedFrom (s := ⟨⟨some (FileStore.compacted t.store.live), none, []⟩,
      { t.store with attached := true, written := t.store.live.size }⟩) rfl hmt.issued rfl rfl

end OcppKit

namespace OcppKit.Reference

/-! ### A journal that is rewritten -/

/-- One message queued, and tried again and again. -/
def retries (n : ℕ) : List StoreOp :=
  .push firstReading :: (List.range n).map (.setAttempts 0)

/-- The session after that. -/
def retriedSession (n : ℕ) : StoreSession :=
  (StoreOp.run (openSession queuePath Replay.start) (retries n)).1

/-- However often one message is tried, the journal stays short: the 63rd attempt would be its 64th
record, and leaves one. -/
theorem journal_proportional_retries :
    (retriedSession 62).store.written = 63 ∧
    CompactedFrom ((StoreOp.setAttempts 0 62).done (retriedSession 62).store).live
      ((StoreOp.setAttempts 0 62).on (retriedSession 62)).1 ∧
    (retriedSession 100).store.written = (retriedSession 100).disk.records.length ∧
    (retriedSession 100).store.written = 38 := by
  have hopen : FileStore.open queuePath noFiles =
      .ok (openSession queuePath Replay.start) ⟨some [], none, []⟩ := open_of_replay rfl rfl
  have hcompacted := (journal_proportional rfl hopen (retries 62)).2.2.1
  have hwritten := (journal_proportional rfl hopen (retries 100)).1
  rw [← retriedSession] at hcompacted hwritten
  have hcompacts : (StoreOp.setAttempts 0 62).Compacts (retriedSession 62).store :=
    ⟨by decide +kernel, by decide +kernel⟩
  exact ⟨by decide +kernel, hcompacted _ hcompacts, hwritten, by decide +kernel⟩

end OcppKit.Reference
