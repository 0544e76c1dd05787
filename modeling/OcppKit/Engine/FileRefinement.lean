import OcppKit.Engine.JournalReference

/-!
# The journal is the in-memory store, across crashes

A session whose steps on the files all succeed does what an unbounded
`OcppKit.MemStore` does (`OcppKit.Mirrors.run`), because its journal always tells
what its store knows (`OcppKit.StoreSession.Tells`): every operation appends the one
record that makes the replay follow, and a rewrite starts the story over from the
live messages.

A process that stops inside an operation leaves one of two journals behind: the old
one with a part of the operation's line at its end, or the rewritten one
(`OcppKit.StoreOp.journal_cases`). Either tells the live messages as they were before
the operation, or as they are after it (`OcppKit.Mirrors.reopen`), and what is
reopened mirrors an in-memory store again.
-/

namespace OcppKit

variable [Externals]

/-! ### Operations on a store -/

/-- The operations that change a store. -/
inductive StoreOp where
  /-- A message is appended. -/
  | push (entry : QueuedCall)
  /-- A message is acknowledged. -/
  | ack (seq : Seq)
  /-- A further attempt is recorded. -/
  | setAttempts (seq : Seq) (attempts : ℕ)

/-- What an operation answers: a push, with the sequence number. -/
abbrev StoreAnswer := Except StoreError (Option Seq)

/-- One operation on a store, and its answer. -/
def StoreOp.on {S : Type} [MessageStore S] (s : S) : StoreOp → S × StoreAnswer
  | .push entry => ((MessageStore.push s entry).1, (MessageStore.push s entry).2.map some)
  | .ack seq => ((MessageStore.ack s seq).1, (MessageStore.ack s seq).2.map fun _ => none)
  | .setAttempts seq attempts =>
    ((MessageStore.setAttempts s seq attempts).1,
      (MessageStore.setAttempts s seq attempts).2.map fun _ => none)

/-- Operations one after the other, and their answers. -/
def StoreOp.run {S : Type} [MessageStore S] : S → List StoreOp → S × List StoreAnswer
  | s, [] => (s, [])
  | s, op :: ops => ((run (op.on s).1 ops).1, (op.on s).2 :: (run (op.on s).1 ops).2)

variable [JournalText]

open JournalText (Byte)

/-! ### How one operation ends -/

namespace StoreOp

/-- The record an operation appends; none if it is about a message that is not
live. -/
def record (store : FileStore) : StoreOp → Option JournalRecord
  | .push entry => some (.push store.nextSeq (StoredCall.fromCall entry))
  | .ack seq => if store.live.contains seq then some (.ack seq) else none
  | .setAttempts seq attempts =>
    if store.live.contains seq then some (.attempts seq attempts) else none

/-- What a store knows after an operation that got through. -/
def done (store : FileStore) : StoreOp → FileStore
  | .push entry =>
    { store with nextSeq := store.nextSeq + 1, live := store.live.insert store.nextSeq entry }
  | .ack seq => { store with live := store.live.remove seq }
  | .setAttempts seq attempts =>
    { store with live := store.live.modify seq fun entry => { entry with attempts := attempts } }

/-- What a store knows after an operation whose append failed: a push has not
happened, anything else has. -/
def failed (store : FileStore) (op : StoreOp) : FileStore :=
  match op with
  | .push _ => store
  | _ => op.done store

/-- What an operation that got through answers. -/
def answer (store : FileStore) : StoreOp → Option Seq
  | .push _ => some store.nextSeq
  | _ => none

/-- **How an operation ends**, for every plan of its file steps. -/
inductive Ends (op : StoreOp) (s : StoreSession) : StoreSession → StoreAnswer → Prop
  /-- There was nothing to do. -/
  | idle (h : op.record s.store = none) : Ends op s s (.ok none)
  /-- The append failed, with a part of the line in the file. -/
  | torn {r : JournalRecord} {e : StoreError} {plan : List Outcome} (h : op.record s.store = some r)
      (hd : ¬ FileStore.Durable s.disk.plan) :
      Ends op s ⟨(s.store.put (Disk.lands s.disk.plan (Journal.line r)) s.disk).withPlan plan,
        op.failed s.store⟩ (.error e)
  /-- The record was appended. -/
  | appended {r : JournalRecord} {plan : List Outcome} (h : op.record s.store = some r)
      (hd : FileStore.Durable s.disk.plan) (hplan : s.disk.plan = [] → plan = []) :
      Ends op s ⟨(s.store.put (Journal.line r) s.disk).withPlan plan,
        { op.done s.store with written := s.store.written + 1 }⟩ (.ok (op.answer s.store))
  /-- The record was appended, and the journal rewritten. -/
  | rewritten {r : JournalRecord} {plan : List Outcome} (h : op.record s.store = some r)
      (hd : FileStore.Durable s.disk.plan) (hplan : s.disk.plan = [] → plan = [])
      (hpush : ∀ entry, op ≠ .push entry) :
      Ends op s ⟨⟨some (FileStore.compacted (op.done s.store).live), none, plan⟩,
        { op.done s.store with attached := true, written := (op.done s.store).live.size }⟩
        (.ok (op.answer s.store))
  /-- The record was appended, and the rewrite failed before the journal was
  replaced. -/
  | unrewritten {r : JournalRecord} {e : StoreError} {d : Disk} (h : op.record s.store = some r)
      (hd : FileStore.Durable s.disk.plan) (hplan : s.disk.plan ≠ [])
      (hpush : ∀ entry, op ≠ .push entry)
      (hj : d.journal = (s.store.put (Journal.line r) s.disk).journal) :
      Ends op s ⟨d, { op.done s.store with written := s.store.written + 1 }⟩ (.error e)
  /-- The record was appended, the journal replaced, and the new one not opened. -/
  | detached {r : JournalRecord} {e : StoreError} {plan : List Outcome}
      (h : op.record s.store = some r)
      (hd : FileStore.Durable s.disk.plan) (hplan : s.disk.plan ≠ [])
      (hpush : ∀ entry, op ≠ .push entry) :
      Ends op s ⟨⟨some (FileStore.compacted (op.done s.store).live), none, plan⟩,
        { op.done s.store with attached := false, written := s.store.written + 1 }⟩ (.error e)

/-- An operation that changes what the store knows, appends a record and compacts. -/
theorem ends_of_append_compact {op : StoreOp} {s : StoreSession} {r : JournalRecord} {x : Io Unit}
    (hrecord : op.record s.store = some r) (hpush : ∀ entry, op ≠ .push entry)
    (hon : op.on s = ((StoreSession.after (x s)).1, (StoreSession.after (x s)).2.map fun _ => none))
    (hx : x s = (FileStore.append r >>= fun _ => FileStore.compactIfWorthwhile)
      ⟨s.disk, op.done s.store⟩)
    (hput : (op.done s.store).put = s.store.put) (hwritten : (op.done s.store).written =
      s.store.written) : Ends op s (op.on s).1 (op.on s).2 := by
  have hfailed : op.failed s.store = op.done s.store := by
    rcases op with entry | seq | ⟨seq, attempts⟩
    · exact absurd rfl (hpush entry)
    · rfl
    · rfl
  have hanswer : op.answer s.store = none := by
    rcases op with entry | seq | ⟨seq, attempts⟩
    · exact absurd rfl (hpush entry)
    · rfl
    · rfl
  rw [hon, hx]
  rcases FileStore.append_compact_cases r ⟨s.disk, op.done s.store⟩ with
    ⟨hd, plan, hplan, h⟩ | ⟨hd, plan, hplan, h⟩ | ⟨hd, e, plan, h⟩ | ⟨hd, hplan, e, d, hj, h⟩ |
    ⟨hd, hplan, e, plan, h⟩
  · rw [h]
    simp only [hput, hwritten]
    have hend := Ends.appended hrecord hd hplan
    rw [hanswer] at hend
    exact hend
  · rw [h]
    have hend := Ends.rewritten hrecord hd hplan hpush
    rw [hanswer] at hend
    exact hend
  · rw [h]
    simp only [hput]
    rw [← hfailed]
    exact .torn hrecord hd
  · rw [h]
    simp only [hput] at hj
    simp only [hwritten]
    exact Ends.unrewritten hrecord hd hplan hpush hj
  · rw [h]
    simp only [hwritten]
    exact Ends.detached hrecord hd hplan hpush

/-- **Every operation ends in one of these ways.** -/
theorem ends (op : StoreOp) (s : StoreSession) : Ends op s (op.on s).1 (op.on s).2 := by
  rcases op with entry | seq | ⟨seq, attempts⟩
  · have hrecord : record s.store (.push entry) =
        some (.push s.store.nextSeq (StoredCall.fromCall entry)) := rfl
    change Ends _ s (StoreSession.after (FileStore.push entry s)).1
      ((StoreSession.after (FileStore.push entry s)).2.map some)
    rw [FileStore.push, get_bind]
    rcases FileStore.append_cases (.push s.store.nextSeq (StoredCall.fromCall entry)) s with
      ⟨hd, happend⟩ | ⟨hd, e, plan, happend⟩
    · rw [bind_of_ok happend]
      exact Ends.appended hrecord hd fun h => by rw [h]; rfl
    · rw [bind_of_error happend]
      exact Ends.torn hrecord hd
  · by_cases hlive : s.store.live.contains seq = true
    · refine ends_of_append_compact (x := FileStore.ack seq) (r := .ack seq) (if_pos hlive)
        (fun entry => by simp) rfl ?_ rfl rfl
      rw [FileStore.ack, get_bind]
      simp only [hlive, if_true]
      rfl
    · have hon : (StoreOp.ack seq).on s = (s, .ok none) := by
        have hidle : FileStore.ack seq s = .ok () s := by
          rw [FileStore.ack, get_bind, if_neg hlive]
          rfl
        change ((StoreSession.after (FileStore.ack seq s)).1, _) = _
        simp only [MessageStore.ack, hidle]
        rfl
      rw [hon]
      exact Ends.idle (if_neg hlive)
  · by_cases hlive : s.store.live.contains seq = true
    · refine ends_of_append_compact (x := FileStore.setAttempts seq attempts)
        (r := .attempts seq attempts) (if_pos hlive) (fun entry => by simp) rfl ?_ rfl rfl
      rw [FileStore.setAttempts, get_bind]
      simp only [hlive, if_true]
      rfl
    · have hon : (StoreOp.setAttempts seq attempts).on s = (s, .ok none) := by
        have hidle : FileStore.setAttempts seq attempts s = .ok () s := by
          rw [FileStore.setAttempts, get_bind, if_neg hlive]
          rfl
        change ((StoreSession.after (FileStore.setAttempts seq attempts s)).1, _) = _
        simp only [MessageStore.setAttempts, hidle]
        rfl
      rw [hon]
      exact Ends.idle (if_neg hlive)

end StoreOp

/-! ### The journal tells what the store knows -/

/-- **The journal tells what the store knows**: its records replay to the live
messages, and issue no number the store has not issued. -/
def StoreSession.Tells (s : StoreSession) : Prop :=
  ∃ rs st, s.disk.journal = some (Journal.text rs) ∧ Replay.of s.store.path.path rs = .ok st ∧
    st.live = s.store.live ∧ st.nextSeq ≤ s.store.nextSeq

/-- **One record more, and the replay follows.** -/
theorem StoreOp.of_concat_record [LawfulJournalText] {op : StoreOp} {store : FileStore}
    {rs : List JournalRecord} {st : Replay} {r : JournalRecord}
    (hof : Replay.of store.path.path rs = .ok st)
    (hlive : st.live = store.live) (hnext : st.nextSeq ≤ store.nextSeq)
    (hissued : ∀ e ∈ store.live.entries, e.1 < store.nextSeq)
    (hrecord : op.record store = some r) :
    ∃ st', Replay.of store.path.path (rs ++ [r]) = .ok st' ∧ st'.live = (op.done store).live ∧
      st'.nextSeq ≤ (op.done store).nextSeq := by
  have hbelow : ∀ {seq : Seq}, store.live.contains seq = true → seq + 1 ≤ store.nextSeq := by
    intro seq hseq
    obtain ⟨e, he, rfl⟩ := List.mem_map.mp ((SortedMap.contains_iff _ _).mp hseq)
    exact hissued e he
  rw [Replay.of_concat hof]
  rcases op with entry | seq | ⟨seq, attempts⟩
  · obtain rfl := Option.some.inj hrecord
    have hnew : store.nextSeq ∉ st.pushed := fun hmem =>
      absurd ((Replay.issued_of hof).pushed _ hmem) (not_lt.mpr hnext)
    refine ⟨⟨st.live.insert store.nextSeq entry, max st.nextSeq (store.nextSeq + 1),
      store.nextSeq :: st.pushed⟩, ?_, ?_, ?_⟩
    · rw [Replay.record, if_neg hnew, intoCall_fromCall]
      rfl
    · rw [hlive]
      rfl
    · exact max_le (Nat.le_succ_of_le hnext) le_rfl
  · rw [StoreOp.record] at hrecord
    split at hrecord
    · next hseq =>
        obtain rfl := Option.some.inj hrecord
        exact ⟨_, rfl, by rw [hlive]; rfl, max_le hnext (hbelow hseq)⟩
    · cases hrecord
  · rw [StoreOp.record] at hrecord
    split at hrecord
    · next hseq =>
        obtain rfl := Option.some.inj hrecord
        exact ⟨_, rfl, by rw [hlive]; rfl, max_le hnext (hbelow hseq)⟩
    · cases hrecord

omit [JournalText] in
/-- An operation that appends nothing changes nothing. -/
theorem StoreOp.done_of_idle {op : StoreOp} {store : FileStore} (h : op.record store = none) :
    op.done store = store := by
  have hkeys : ∀ {seq : Seq}, ¬ store.live.contains seq = true → seq ∉ store.live.keys :=
    fun hno hmem => hno ((SortedMap.contains_iff _ _).mpr hmem)
  rcases op with entry | seq | ⟨seq, attempts⟩
  · cases h
  · rw [StoreOp.record] at h
    split at h
    · cases h
    · next hno => rw [StoreOp.done, SortedMap.remove_of_not_mem (hkeys hno)]
  · rw [StoreOp.record] at h
    split at h
    · cases h
    · next hno => rw [StoreOp.done, SortedMap.modify_of_not_mem (hkeys hno)]

/-- The live messages alone tell what the store knows. -/
theorem of_compacted [LawfulJournalText] (path : String) (live : SortedMap Seq QueuedCall) {n : Seq}
    (h : ∀ e ∈ live.entries, e.1 < n) :
    ∃ st, Replay.of path (FileStore.pushesOf live.entries) = .ok st ∧ st.live = live ∧
      st.nextSeq ≤ n := by
  obtain ⟨st, hst, hlive, -, hnext⟩ := Replay.of_pushesOf path live.entries live.sorted
  exact ⟨st, hst, SortedMap.ext hlive, hnext n h⟩

/-! ### The in-memory store it mirrors -/

/-- **A session mirrors an unbounded in-memory store**: no step on its files is going
to fail, it knows the same messages and issues the same number next, and its journal
tells so. -/
structure Mirrors (s : StoreSession) (m : MemStore) : Prop where
  /-- No step is going to fail. -/
  plan : s.disk.plan = []
  /-- The open file is the journal. -/
  attached : s.store.attached = true
  /-- The same messages are live. -/
  live : s.store.live.entries = m.entries
  /-- The same number is next. -/
  next : s.store.nextSeq = m.nextSeq
  /-- There is no bound. -/
  capacity : m.capacity = none
  /-- The journal tells what the store knows. -/
  tells : s.Tells

omit [JournalText] in
/-- What a session knows after an operation is what the in-memory store knows. -/
theorem StoreOp.done_mirrors {store : FileStore} {m : MemStore}
    (hlive : store.live.entries = m.entries) (hnext : store.nextSeq = m.nextSeq)
    (hcap : m.capacity = none) (op : StoreOp) :
    (op.done store).live.entries = (op.on m).1.entries ∧
      (op.done store).nextSeq = (op.on m).1.nextSeq ∧ (op.on m).1.capacity = none ∧
      (op.on m).2 = .ok (op.answer store) := by
  rcases op with entry | seq | ⟨seq, attempts⟩
  · have hpush : MessageStore.push m entry = (m.append entry, .ok m.nextSeq) := by
      refine if_neg ?_
      simp [MemStore.full, hcap]
    have happend : (store.live.insert store.nextSeq entry).entries =
        store.live.entries ++ [(store.nextSeq, entry)] := by
      refine SortedMap.entries_insert_of_lt ?_ entry
      rw [hlive, hnext]
      exact m.issued
    simp only [StoreOp.on, hpush]
    refine ⟨?_, by rw [StoreOp.done, hnext]; rfl, hcap, by rw [StoreOp.answer, hnext]; rfl⟩
    rw [StoreOp.done, happend, hlive, hnext]
    rfl
  · refine ⟨?_, hnext, hcap, rfl⟩
    change store.live.entries.filter _ = m.entries.filter _
    rw [hlive]
  · refine ⟨?_, hnext, hcap, rfl⟩
    change store.live.entries.map _ = m.entries.map _
    rw [hlive]
    rfl

variable [LawfulJournalText]

/-- **One operation**: the same answer, and a mirror again. -/
theorem Mirrors.step {s : StoreSession} {m : MemStore} (h : Mirrors s m) (op : StoreOp) :
    Mirrors (op.on s).1 (op.on m).1 ∧ (op.on s).2 = (op.on m).2 := by
  obtain ⟨hlive, hnext, hcap, hanswer⟩ := op.done_mirrors h.live h.next h.capacity
  obtain ⟨rs, st, hj, hof, hst, hle⟩ := h.tells
  have hissued : ∀ e ∈ s.store.live.entries, e.1 < s.store.nextSeq := by
    rw [h.live, h.next]
    exact m.issued
  have hissued' : ∀ e ∈ (op.done s.store).live.entries, e.1 < (op.done s.store).nextSeq := by
    rw [hlive, hnext]
    exact (op.on m).1.issued
  have hpath : (op.done s.store).path = s.store.path := by cases op <;> rfl
  have hattached : (op.done s.store).attached = true := by
    rw [← h.attached]
    cases op <;> rfl
  have hput : ∀ r : JournalRecord, (s.store.put (Journal.line r) s.disk).journal =
      some (Journal.text (rs ++ [r])) := by
    intro r
    rw [FileStore.put, if_pos h.attached, Disk.putJournal_journal, hj]
    simp
  have hends := op.ends s
  generalize (op.on s).1 = s' at hends ⊢
  generalize (op.on s).2 = a at hends ⊢
  cases hends with
  | idle hrecord =>
      rw [StoreOp.done_of_idle hrecord] at hlive hnext
      have hnone : op.answer s.store = none := by
        cases op with
        | push entry => cases hrecord
        | ack seq => rfl
        | setAttempts seq attempts => rfl
      exact ⟨⟨h.plan, h.attached, hlive, hnext, hcap, h.tells⟩, by rw [hanswer, hnone]⟩
  | torn hrecord hd =>
      rw [h.plan] at hd
      exact absurd FileStore.durable_nil hd
  | appended hrecord hd hplan =>
      obtain ⟨st', hof', hst', hle'⟩ := StoreOp.of_concat_record hof hst hle hissued hrecord
      refine ⟨⟨hplan h.plan, hattached, hlive, hnext, hcap, ?_⟩, hanswer.symm⟩
      exact ⟨_, st', hput _, by rw [hpath]; exact hof', hst', hle'⟩
  | rewritten hrecord hd hplan hpush =>
      obtain ⟨st', hof', hst', hle'⟩ :=
        of_compacted s.store.path.path (op.done s.store).live hissued'
      refine ⟨⟨hplan h.plan, rfl, hlive, hnext, hcap, ?_⟩, hanswer.symm⟩
      exact ⟨_, st', rfl, by rw [hpath]; exact hof', hst', hle'⟩
  | unrewritten hrecord hd hplan hpush hj => exact absurd h.plan hplan
  | detached hrecord hd hplan hpush => exact absurd h.plan hplan

/-- **A run**: the same answers, and a mirror again. -/
theorem Mirrors.run {s : StoreSession} {m : MemStore} (h : Mirrors s m) (ops : List StoreOp) :
    Mirrors (StoreOp.run s ops).1 (StoreOp.run m ops).1 ∧
      (StoreOp.run s ops).2 = (StoreOp.run m ops).2 := by
  induction ops generalizing s m with
  | nil => exact ⟨h, rfl⟩
  | cons op ops ih =>
      obtain ⟨hstep, hanswer⟩ := h.step op
      obtain ⟨hrun, hanswers⟩ := ih hstep
      exact ⟨hrun, congrArg₂ List.cons hanswer hanswers⟩

/-! ### A process that stops -/

/-- The files a process leaves behind that stops in an operation, at the place where
the plan makes a step fail. -/
def StoreSession.stopped (s : StoreSession) (op : StoreOp) (plan : List Outcome) : Disk :=
  (op.on { s with disk := s.disk.withPlan plan }).1.disk.withPlan []

/-- What a journal that replays is once it is open: the mirror of an in-memory store
with the messages that were live. -/
theorem mirrors_opened {path : JournalPath} {rs : List JournalRecord} {st : Replay}
    (hof : Replay.of path.path rs = .ok st) :
    ∃ m : MemStore, m.capacity = none ∧ m.entries = st.live.entries ∧ m.nextSeq = st.nextSeq ∧
      Mirrors (openSession path st) m := by
  have hissued : ∀ e ∈ st.live.entries, e.1 < st.nextSeq := fun e he => Replay.lt_of_live hof he
  refine ⟨⟨st.live.entries, st.nextSeq, none, st.live.sorted, hissued⟩, rfl, rfl, rfl,
    rfl, rfl, rfl, rfl, rfl, ?_⟩
  obtain ⟨st', hof', hst', hle'⟩ := of_compacted path.path st.live hissued
  exact ⟨_, st', rfl, hof', hst', hle'⟩

/-- **What is left behind replays**, to the live messages before the operation or to
those after it. -/
theorem Mirrors.replay_stopped {s : StoreSession} {m : MemStore} (h : Mirrors s m) (op : StoreOp)
    (plan : List Outcome) :
    ∃ st, Replay.of s.store.path.path (s.stopped op plan).records = .ok st ∧
      (st.live.entries = m.entries ∨ st.live.entries = (op.on m).1.entries) := by
  obtain ⟨hlive, hnext, -, -⟩ := op.done_mirrors h.live h.next h.capacity
  obtain ⟨rs, st, hj, hof, hst, hle⟩ := h.tells
  have hissued : ∀ e ∈ s.store.live.entries, e.1 < s.store.nextSeq := by
    rw [h.live, h.next]
    exact m.issued
  have hissued' : ∀ e ∈ (op.done s.store).live.entries, e.1 < (op.done s.store).nextSeq := by
    rw [hlive, hnext]
    exact (op.on m).1.issued
  have hbefore : st.live.entries = m.entries := by rw [hst, h.live]
  -- a journal with a part of the operation's line at its end
  have hcut : ∀ {r : JournalRecord} {p : List Byte}, op.record s.store = some r →
      p <+: Journal.line r → ∃ st, Replay.of s.store.path.path
        (Journal.readAll (Journal.text rs ++ p) : List JournalRecord) = .ok st ∧
        (st.live.entries = m.entries ∨ st.live.entries = (op.on m).1.entries) := by
    intro r p hrecord hp
    rcases Journal.readAll_cut rs hp with hread | hread
    · rw [hread]
      exact ⟨st, hof, Or.inl hbefore⟩
    · obtain ⟨st', hof', hst', -⟩ := StoreOp.of_concat_record hof hst hle hissued hrecord
      rw [hread]
      exact ⟨st', hof', Or.inr (by rw [hst', hlive])⟩
  -- a journal that was written anew
  have hfresh : ∃ st, Replay.of s.store.path.path (Journal.readAll
      (FileStore.compacted (op.done s.store).live) : List JournalRecord) = .ok st ∧
      (st.live.entries = m.entries ∨ st.live.entries = (op.on m).1.entries) := by
    obtain ⟨st', hof', hst', -⟩ := of_compacted s.store.path.path (op.done s.store).live hissued'
    rw [FileStore.compacted, Journal.readAll_text]
    exact ⟨st', hof', Or.inr (by rw [hst', hlive])⟩
  have hput : ∀ p : List Byte,
      (s.store.put p (s.disk.withPlan plan)).journal = some (Journal.text rs ++ p) := by
    intro p
    rw [FileStore.put, if_pos h.attached, Disk.putJournal_journal, Disk.withPlan_journal, hj]
    rfl
  rw [Disk.records, StoreSession.stopped, Disk.withPlan_journal]
  have hends := op.ends { s with disk := s.disk.withPlan plan }
  generalize (op.on { s with disk := s.disk.withPlan plan }).1 = s' at hends ⊢
  generalize (op.on { s with disk := s.disk.withPlan plan }).2 = a at hends
  cases hends with
  | idle hrecord =>
      change ∃ st, Replay.of _ (Journal.readAll (s.disk.journal.getD [])) = .ok st ∧ _
      rw [hj, Option.getD_some, Journal.readAll_text]
      exact ⟨st, hof, Or.inl hbefore⟩
  | torn hrecord hd =>
      rw [Disk.withPlan_journal, hput, Option.getD_some]
      exact hcut hrecord (Disk.lands_prefix _ _)
  | appended hrecord hd hplan =>
      rw [Disk.withPlan_journal, hput, Option.getD_some]
      exact hcut hrecord List.prefix_rfl
  | rewritten hrecord hd hplan hpush => exact hfresh
  | unrewritten hrecord hd hplan hpush hj' =>
      rw [hj', hput, Option.getD_some]
      exact hcut hrecord List.prefix_rfl
  | detached hrecord hd hplan hpush => exact hfresh

omit [LawfulJournalText] in
/-- Every run keeps the path. -/
theorem StoreOp.path_run (ops : List StoreOp) :
    ∀ s : StoreSession, (StoreOp.run s ops).1.store.path = s.store.path := by
  induction ops with
  | nil => intro s; rfl
  | cons op ops ih =>
      intro s
      rw [StoreOp.run, ih]
      have hdone : (op.done s.store).path = s.store.path := by cases op <;> rfl
      have hfailed : (op.failed s.store).path = s.store.path := by cases op <;> rfl
      have hends := op.ends s
      generalize (op.on s).1 = s' at hends ⊢
      generalize (op.on s).2 = a at hends
      cases hends with
      | idle => rfl
      | torn => exact hfailed
      | appended => exact hdone
      | rewritten => exact hdone
      | unrewritten => exact hdone
      | detached => exact hdone

/-- **The journal is the in-memory store, across crashes.** Operations on a journal
that was opened answer what an unbounded in-memory store with the same messages
answers, sequence numbers included, and leave the same messages pending. Wherever the
process then stops in one more operation – at any byte of its line, or in the
compaction – the journal opens again with the messages from before that operation or
from after it, and from there mirrors an in-memory store again, whose next number is
above every live one. -/
theorem journal_refines_memory {path : JournalPath} {disk d : Disk} {s : StoreSession}
    (hplan : disk.plan = []) (hopen : FileStore.open path disk = .ok s d) (m : MemStore)
    (hcap : m.capacity = none) (hlive : m.entries = s.store.live.entries)
    (hnext : m.nextSeq = s.store.nextSeq) (ops : List StoreOp) :
    (StoreOp.run s ops).2 = (StoreOp.run m ops).2 ∧
      MessageStore.pending (StoreOp.run s ops).1 = MessageStore.pending (StoreOp.run m ops).1 ∧
      ∀ (op : StoreOp) (plan : List Outcome), ∃ (u : StoreSession) (d' : Disk) (m' : MemStore),
        FileStore.open path ((StoreOp.run s ops).1.stopped op plan) = .ok u d' ∧
          (MessageStore.pending u = MessageStore.pending (StoreOp.run m ops).1 ∨
            MessageStore.pending u = MessageStore.pending (op.on (StoreOp.run m ops).1).1) ∧
          (∀ r ∈ u.store.live.entries, r.1 < u.store.nextSeq) ∧
          m'.capacity = none ∧ m'.entries = u.store.live.entries ∧ m'.nextSeq = u.store.nextSeq ∧
          ∀ ops' : List StoreOp, (StoreOp.run u ops').2 = (StoreOp.run m' ops').2 ∧
            MessageStore.pending (StoreOp.run u ops').1 =
              MessageStore.pending (StoreOp.run m' ops').1 := by
  have hpending : ∀ {s : StoreSession} {m : MemStore}, s.store.live.entries = m.entries →
      MessageStore.pending s = MessageStore.pending m := fun h => congrArg Except.ok h
  obtain ⟨st, hof, rfl⟩ := replay_of_open hplan hopen
  obtain ⟨m₀, -, -, -, hm₀⟩ := mirrors_opened hof
  have hm : Mirrors (openSession path st) m :=
    ⟨hm₀.plan, hm₀.attached, hlive.symm, hnext.symm, hcap, hm₀.tells⟩
  obtain ⟨hrun, hanswers⟩ := hm.run ops
  refine ⟨hanswers, hpending hrun.live, ?_⟩
  intro op plan
  obtain ⟨st', hof', hwhich⟩ := hrun.replay_stopped op plan
  rw [StoreOp.path_run] at hof'
  obtain ⟨m', hcap', hentries', hnext', hmirror'⟩ := mirrors_opened hof'
  refine ⟨openSession path st', _, m', open_of_replay rfl hof', ?_, ?_, hcap', hentries',
    hnext', ?_⟩
  · exact hwhich.imp hpending hpending
  · exact fun r hr => Replay.lt_of_live hof' hr
  · intro ops'
    obtain ⟨hrun', hanswers'⟩ := hmirror'.run ops'
    exact ⟨hanswers', hpending hrun'.live⟩

end OcppKit

/-! ### A journal that is stopped -/

namespace OcppKit.Reference

/-- Where the journal of the examples is. -/
def queuePath : JournalPath := ⟨"queue.jsonl", "queue.compacting"⟩

/-- A path with no file. -/
def noFiles : Disk := ⟨none, none, []⟩

/-- A message of an example. -/
def meterValues (payload : RawValue) : QueuedCall :=
  ⟨"MeterValues", payload, MessageKind.call, 0, true⟩

def firstReading : QueuedCall := meterValues (raw "1")

def secondReading : QueuedCall := meterValues (raw "2")

/-- Two messages are queued, one is delivered, the other attempted. -/
def storeOps : List StoreOp :=
  [.push firstReading, .push secondReading, .ack 0, .setAttempts 1 2]

/-- From a path with no file, along operations, and with the process stopped after
twenty bytes of one more record. -/
theorem journal_refines_memory_storeOps :
    FileStore.open queuePath noFiles =
        .ok (openSession queuePath Replay.start) ⟨some [], none, []⟩ ∧
      MessageStore.pending (StoreOp.run (openSession queuePath Replay.start) storeOps).1 =
        MessageStore.pending (StoreOp.run MemStore.new storeOps).1 ∧
      ∃ u d, FileStore.open queuePath ((StoreOp.run (openSession queuePath Replay.start)
          storeOps).1.stopped (.push (meterValues (raw "3"))) [.failed 20 "power cut"]) = .ok u d ∧
        (∀ r ∈ u.store.live.entries, r.1 < u.store.nextSeq) := by
  have hopen : FileStore.open queuePath noFiles =
      .ok (openSession queuePath Replay.start) ⟨some [], none, []⟩ := open_of_replay rfl rfl
  obtain ⟨-, hpending, hstop⟩ :=
    journal_refines_memory rfl hopen MemStore.new rfl rfl rfl storeOps
  obtain ⟨u, d, -, hreopen, -, hissued, -⟩ :=
    hstop (.push (meterValues (raw "3"))) [.failed 20 "power cut"]
  exact ⟨hopen, hpending, u, d, hreopen, hissued⟩

end OcppKit.Reference
