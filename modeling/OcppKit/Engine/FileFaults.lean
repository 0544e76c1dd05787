import OcppKit.Engine.FileRefinement

/-!
# When steps on the files fail

Any step of an operation may fail, and the process goes on: a write after putting
any part of its line into the file, a flush after all of it, a rewrite before or
after its journal has taken the old one's place. `OcppKit.survives_faults` is about
what a later reopen still finds of the messages a push has answered for.

Not always all of them. There are three ways in which a push that returns a sequence
number is lost, and they are what `OcppKit.Careful` excludes, looking only at the
state before the push and at how its steps go.

* The file ends in the middle of a line that an earlier write left behind. The next
  record is glued to it, cannot be read, and hides everything after it.
* The file holds a whole record of an earlier push that failed. Its sequence number is
  issued again, and the journal refuses to open, since a number was queued twice.
* A rewrite has replaced the journal and failed to open the new one. What is appended
  goes to a file that has no name any more.

The invariant that carries the run is `OcppKit.Kept`: the lines that are whole replay
to a set of messages in which every live one is found, and what stands after them is
nothing, a part of one record, or pieces glued together.
-/

namespace OcppKit

variable [Externals] [JournalText]

open JournalText (Byte)

/-! ### Operations under faults -/

/-- The operations on a file store: those of a store, and a rewrite on demand. -/
inductive FileOp where
  /-- An operation of the store interface. -/
  | store (op : StoreOp)
  /-- A rewrite. -/
  | compact

/-- One operation, and its answer. -/
def FileOp.on (s : StoreSession) : FileOp → StoreSession × StoreAnswer
  | .store op => op.on s
  | .compact => ((StoreSession.after (FileStore.compact s)).1,
      (StoreSession.after (FileStore.compact s)).2.map fun _ => none)

/-- An operation, and how its steps on the files go. -/
abbrev FaultyStep := FileOp × List Outcome

/-- The session when the steps go this way. -/
def StoreSession.planned (s : StoreSession) (plan : List Outcome) : StoreSession :=
  { s with disk := s.disk.withPlan plan }

/-- One operation whose steps go as planned. -/
def StoreSession.perform (s : StoreSession) (step : FaultyStep) : StoreSession × StoreAnswer :=
  step.1.on (s.planned step.2)

/-- The session after some operations. -/
def StoreSession.performAll : StoreSession → List FaultyStep → StoreSession
  | s, [] => s
  | s, step :: steps => (s.perform step).1.performAll steps

/-- The messages the store answers for after one operation: a push that returned a
number adds its message, and an acknowledgement takes one away, whatever it
returned. -/
def owedAfter (owed : List (Seq × QueuedCall)) : FileOp → StoreAnswer → List (Seq × QueuedCall)
  | .store (.push entry), .ok (some seq) => owed ++ [(seq, entry)]
  | .store (.ack seq), _ => owed.filter fun r => r.1 ≠ seq
  | _, _ => owed

/-- The messages the store answers for after some operations. -/
def StoreSession.owed :
    StoreSession → List (Seq × QueuedCall) → List FaultyStep → List (Seq × QueuedCall)
  | _, owed, [] => owed
  | s, owed, step :: steps =>
    (s.perform step).1.owed (owedAfter owed step.1 (s.perform step).2) steps

/-- A message up to its count of attempts. -/
def unattempted (r : Seq × QueuedCall) : Seq × QueuedCall := (r.1, { r.2 with attempts := 0 })

/-- What a reopen of the path lists; nothing when it is refused. -/
def reopened (path : JournalPath) (d : Disk) : Option (List (Seq × QueuedCall)) :=
  match FileStore.open path (d.withPlan []) with
  | .ok s _ => some s.store.live.entries
  | .error _ _ => none

/-- **The owed messages survive**: the path opens again, and all of them are there, in
order and with their texts. -/
def Survive (path : JournalPath) (d : Disk) (owed : List (Seq × QueuedCall)) : Prop :=
  ∃ listed, reopened path d = some listed ∧
    (owed.map unattempted).Sublist (listed.map unattempted)

instance (path : JournalPath) (d : Disk) (owed : List (Seq × QueuedCall)) :
    Decidable (Survive path d owed) :=
  match h : reopened path d with
  | none => .isFalse (by rintro ⟨listed, hl, -⟩; rw [h] at hl; cases hl)
  | some listed =>
    decidable_of_iff ((owed.map unattempted).Sublist (listed.map unattempted)) (by
      constructor
      · exact fun hs => ⟨listed, h, hs⟩
      · rintro ⟨listed', hl, hs⟩
        rw [h] at hl
        obtain rfl := Option.some.inj hl
        exact hs)

/-! ### What is excluded -/

/-- The store writes to the journal, and the journal is a sequence of whole
records. -/
def StoreSession.Intact (s : StoreSession) : Prop :=
  s.store.attached = true ∧ ∃ rs : List JournalRecord, s.disk.journal = some (Journal.text rs)

/-- No record of the journal has the next sequence number. -/
def StoreSession.Fresh (s : StoreSession) : Prop :=
  ∀ entry, JournalRecord.push s.store.nextSeq entry ∉ s.disk.records

/-- **A careful step.** A push that is going to return a number needs a journal that
is intact and has no record with that number. A push that is going to fail with its
whole record in an intact journal needs the latter. -/
def StoreSession.Careful (s : StoreSession) : FaultyStep → Prop
  | (.store (.push entry), plan) =>
    (FileStore.Durable plan → s.Intact ∧ s.Fresh) ∧
      (JournalText.toVec (.push s.store.nextSeq (StoredCall.fromCall entry)) <+:
        Disk.lands plan
            (Journal.line (JournalRecord.push s.store.nextSeq (StoredCall.fromCall entry))) →
        s.Intact → s.Fresh)
  | _ => True

/-- Every step of a run is careful. -/
def StoreSession.AllCareful : StoreSession → List FaultyStep → Prop
  | _, [] => True
  | s, step :: steps => s.Careful step ∧ (s.perform step).1.AllCareful steps

/-! ### Records that hold what is live -/

/-- **These records hold the live messages**: they replay, all numbers they queue are
at most the next one, and every live message is among those they leave. -/
def Holds (path : String) (rs : List JournalRecord) (live : List (Seq × QueuedCall))
    (next : Seq) : Prop :=
  ∃ st, Replay.of path rs = .ok st ∧ (∀ q ∈ st.pushed, q ≤ next) ∧
    ∀ e ∈ live, ∃ e' ∈ st.live.entries, unattempted e' = unattempted e

/-- What a replay has pushed are the numbers of its push records. -/
theorem Replay.mem_pushed {path : String} {rs : List JournalRecord} {st : Replay}
    (h : Replay.of path rs = .ok st) {q : Seq} (hq : q ∈ st.pushed) :
    ∃ entry, JournalRecord.push q entry ∈ rs := by
  induction rs using List.reverseRecOn generalizing st with
  | nil =>
      obtain rfl := Except.ok.inj h
      cases hq
  | append_singleton rs r ih =>
      rcases hrs : Replay.of path rs with error | st'
      · rw [Replay.of_append, hrs] at h
        cases h
      · rw [Replay.of_concat hrs] at h
        have hold : q ∈ st'.pushed → ∃ entry, JournalRecord.push q entry ∈ rs ++ [r] := by
          intro hq
          obtain ⟨entry, hentry⟩ := ih hrs hq
          exact ⟨entry, List.mem_append_left _ hentry⟩
        rcases r with ⟨seq, stored⟩ | seq | ⟨seq, attempts⟩
        · obtain ⟨-, entry, -, rfl⟩ := Replay.record_push h
          rcases List.mem_cons.mp hq with rfl | hq
          · exact ⟨stored, List.mem_append_right _ (List.mem_singleton.mpr rfl)⟩
          · exact hold hq
        · obtain rfl := Except.ok.inj h
          exact hold hq
        · obtain rfl := Except.ok.inj h
          exact hold hq

omit [JournalText] in
theorem unattempted_fst {e e' : Seq × QueuedCall} (h : unattempted e' = unattempted e) :
    e'.1 = e.1 := by
  have hfst : (unattempted e').1 = (unattempted e).1 := by rw [h]
  exact hfst

omit [JournalText] in
theorem unattempted_modifyEntry (seq : Seq) (attempts : ℕ) (e : Seq × QueuedCall) :
    unattempted (SortedMap.modifyEntry seq (fun entry => { entry with attempts := attempts }) e) =
      unattempted e := by
  rw [SortedMap.modifyEntry]
  split <;> rfl

/-- Holding fewer messages is easier. -/
theorem Holds.of_live {path : String} {rs : List JournalRecord}
    {live live' : List (Seq × QueuedCall)}
    {next : Seq} (h : Holds path rs live next)
    (hlive : ∀ e' ∈ live', ∃ e ∈ live, unattempted e = unattempted e') :
    Holds path rs live' next := by
  obtain ⟨st, hof, hpushed, hcover⟩ := h
  refine ⟨st, hof, hpushed, ?_⟩
  intro e' he'
  obtain ⟨e, he, heq⟩ := hlive e' he'
  obtain ⟨e'', he'', heq'⟩ := hcover e he
  exact ⟨e'', he'', heq'.trans heq⟩

omit [JournalText] in
/-- **What an operation does in memory alone never needs a record**: what it leaves is
still held. -/
theorem StoreOp.live_failed (op : StoreOp) (store : FileStore) :
    ∀ e' ∈ (op.failed store).live.entries,
      ∃ e ∈ store.live.entries, unattempted e = unattempted e' := by
  intro e' he'
  rcases op with entry | seq | ⟨seq, attempts⟩
  · exact ⟨e', he', rfl⟩
  · exact ⟨e', List.mem_of_mem_filter he', rfl⟩
  · obtain ⟨e, he, rfl⟩ := List.mem_map.mp he'
    exact ⟨e, he, (unattempted_modifyEntry seq attempts e).symm⟩

variable [LawfulJournalText]

/-- **A record that reaches the journal of an operation that may have failed.** -/
theorem Holds.concat {store : FileStore} {rs : List JournalRecord} {op : StoreOp}
    {r : JournalRecord}
    (h : Holds store.path.path rs store.live.entries store.nextSeq)
    (hbelow : ∀ e ∈ store.live.entries, e.1 < store.nextSeq) (hr : op.record store = some r)
    (hfresh : ∀ entry, op = .push entry → ∀ stored, JournalRecord.push store.nextSeq stored ∉ rs) :
    Holds store.path.path (rs ++ [r]) (op.failed store).live.entries store.nextSeq := by
  obtain ⟨st, hof, hpushed, hcover⟩ := h
  rcases op with entry | seq | ⟨seq, attempts⟩
  · obtain rfl := Option.some.inj hr
    have hnew : store.nextSeq ∉ st.pushed := by
      intro hmem
      obtain ⟨stored, hstored⟩ := Replay.mem_pushed hof hmem
      exact hfresh entry rfl stored hstored
    refine ⟨⟨st.live.insert store.nextSeq entry, max st.nextSeq (store.nextSeq + 1),
      store.nextSeq :: st.pushed⟩, ?_, ?_, ?_⟩
    · rw [Replay.of_concat hof, Replay.record, if_neg hnew, intoCall_fromCall]
      rfl
    · intro q hq
      rcases List.mem_cons.mp hq with rfl | hq
      · exact le_rfl
      · exact hpushed q hq
    · intro e he
      obtain ⟨e', he', heq⟩ := hcover e he
      refine ⟨e', SortedMap.mem_insert_of_ne he' ?_ entry, heq⟩
      rw [unattempted_fst heq]
      exact (hbelow e he).ne
  · rw [StoreOp.record] at hr
    split at hr
    · obtain rfl := Option.some.inj hr
      refine ⟨_, Replay.of_concat hof _, hpushed, ?_⟩
      intro e he
      obtain ⟨hmem, hne⟩ := List.mem_filter.mp he
      obtain ⟨e', he', heq⟩ := hcover e hmem
      refine ⟨e', List.mem_filter.mpr ⟨he', ?_⟩, heq⟩
      rwa [unattempted_fst heq]
    · cases hr
  · rw [StoreOp.record] at hr
    split at hr
    · obtain rfl := Option.some.inj hr
      refine ⟨_, Replay.of_concat hof _, hpushed, ?_⟩
      intro e he
      obtain ⟨e₀, he₀, rfl⟩ := List.mem_map.mp he
      obtain ⟨e', he', heq⟩ := hcover e₀ he₀
      refine ⟨_, List.mem_map_of_mem he', ?_⟩
      rw [unattempted_modifyEntry, unattempted_modifyEntry, heq]
    · cases hr

/-- **A push that returned.** -/
theorem Holds.push {store : FileStore} {rs : List JournalRecord} {entry : QueuedCall}
    (h : Holds store.path.path rs store.live.entries store.nextSeq)
    (hbelow : ∀ e ∈ store.live.entries, e.1 < store.nextSeq)
    (hfresh : ∀ stored, JournalRecord.push store.nextSeq stored ∉ rs) :
    Holds store.path.path (rs ++ [.push store.nextSeq (StoredCall.fromCall entry)])
      (StoreOp.done store (.push entry)).live.entries (store.nextSeq + 1) := by
  have hrecord : StoreOp.record store (.push entry) =
      some (.push store.nextSeq (StoredCall.fromCall entry)) := rfl
  obtain ⟨st, hof, hpushed, hcover⟩ := h.concat hbelow hrecord fun _ _ => hfresh
  refine ⟨st, hof, fun q hq => Nat.le_succ_of_le (hpushed q hq), ?_⟩
  intro e he
  rw [StoreOp.done, SortedMap.entries_insert_of_lt hbelow] at he
  rcases List.mem_append.mp he with he | he
  · exact hcover e he
  · obtain rfl := List.mem_singleton.mp he
    obtain ⟨st', hof', -, -⟩ := h
    rw [Replay.of_concat hof'] at hof
    obtain ⟨-, entry', hentry', rfl⟩ := Replay.record_push hof
    rw [intoCall_fromCall] at hentry'
    obtain rfl := Except.ok.inj hentry'
    exact ⟨_, SortedMap.mem_insert_self _ _ _, rfl⟩

/-- The records of the live messages hold them. -/
theorem holds_compacted (path : String) (live : SortedMap Seq QueuedCall) {next : Seq}
    (hbelow : ∀ e ∈ live.entries, e.1 < next) :
    Holds path (FileStore.pushesOf live.entries) live.entries next := by
  obtain ⟨st, hof, hlive, hpushed, -⟩ := Replay.of_pushesOf path live.entries live.sorted
  refine ⟨st, hof, ?_, fun e he => ⟨e, by rwa [hlive], rfl⟩⟩
  intro q hq
  rw [hpushed, List.mem_reverse] at hq
  obtain ⟨e, he, rfl⟩ := List.mem_map.mp hq
  exact (hbelow e he).le

/-! ### The invariant -/

omit [JournalText] [LawfulJournalText] in
@[simp] theorem StoreOp.failed_path (op : StoreOp) (store : FileStore) :
    (op.failed store).path = store.path := by
  cases op <;> rfl

omit [JournalText] [LawfulJournalText] in
@[simp] theorem StoreOp.failed_nextSeq (op : StoreOp) (store : FileStore) :
    (op.failed store).nextSeq = store.nextSeq := by
  cases op <;> rfl

/-- **What may stand after the whole lines of a journal.** -/
inductive Tail (store : FileStore) (rs : List JournalRecord) : List Byte → Prop
  /-- Nothing. -/
  | whole : Tail store rs []
  /-- A part of one record; if it is all of its text, it counts. -/
  | part {r : JournalRecord} {p : List Byte} (hne : p ≠ []) (hp : p <+: JournalText.toVec r)
      (hfull : p = JournalText.toVec r →
        Holds store.path.path (rs ++ [r]) store.live.entries store.nextSeq) : Tail store rs p
  /-- Pieces glued together. -/
  | glued {p : List Byte} (h : Journal.Glued JournalRecord p) : Tail store rs p

/-- **What is live can be read back**: from the whole lines of the journal. -/
structure Kept (journal : Option (List Byte)) (store : FileStore) : Prop where
  /-- Live messages have numbers that were issued. -/
  below : ∀ e ∈ store.live.entries, e.1 < store.nextSeq
  /-- The whole lines hold what is live. -/
  text : ∃ rs tail, journal = some (Journal.text rs ++ tail) ∧
    Holds store.path.path rs store.live.entries store.nextSeq ∧ Tail store rs tail

/-- A journal that holds the live messages and nothing else keeps them. -/
theorem kept_compacted (store : FileStore) (h : ∀ e ∈ store.live.entries, e.1 < store.nextSeq) :
    Kept (some (FileStore.compacted store.live)) store :=
  ⟨h, _, [], by rw [List.append_nil]; rfl, holds_compacted _ _ h, Tail.whole⟩

omit [LawfulJournalText] in
theorem Kept.below_failed {journal : Option (List Byte)} {store : FileStore}
    (h : Kept journal store) (op : StoreOp) :
    ∀ e ∈ (op.failed store).live.entries, e.1 < (op.failed store).nextSeq := by
  intro e' he'
  obtain ⟨e, he, heq⟩ := op.live_failed store e' he'
  rw [StoreOp.failed_nextSeq, ← unattempted_fst heq]
  exact h.below e he

omit [LawfulJournalText] in
/-- What an operation does in memory alone keeps what it leaves. -/
theorem Kept.failed {journal : Option (List Byte)} {store : FileStore} (h : Kept journal store)
    (op : StoreOp) : Kept journal (op.failed store) := by
  have hlive := op.live_failed store
  obtain ⟨rs, tail, hj, hholds, htail⟩ := h.text
  refine ⟨h.below_failed op, rs, tail, hj, ?_, ?_⟩
  · rw [StoreOp.failed_path, StoreOp.failed_nextSeq]
    exact hholds.of_live hlive
  · cases htail with
    | whole => exact Tail.whole
    | part hne hp hfull =>
        refine Tail.part hne hp ?_
        intro hp'
        rw [StoreOp.failed_path, StoreOp.failed_nextSeq]
        exact (hfull hp').of_live hlive
    | glued h => exact Tail.glued h

/-- In an intact journal there is nothing after the whole lines. -/
theorem records_of_whole {d : Disk} {rs : List JournalRecord}
    (h : d.journal = some (Journal.text rs ++ [])) : d.records = rs := by
  rw [Disk.records, h, Option.getD_some, List.append_nil, Journal.readAll_text]

variable [Journal.GluedUnreadable Byte JournalRecord]

/-- **Bytes of an operation's record that reach the journal**, all of them or not. -/
theorem Kept.put {s : StoreSession} {op : StoreOp} {r : JournalRecord} {p : List Byte}
    (h : Kept s.disk.journal s.store) (hr : op.record s.store = some r)
    (hp : p <+: Journal.line r)
    (hfresh : ∀ entry, op = .push entry → JournalText.toVec r <+: p → s.Intact → s.Fresh) :
    Kept (s.store.put p s.disk).journal (op.failed s.store) := by
  by_cases hattached : s.store.attached = true
  swap
  · rw [FileStore.put, if_neg hattached]
    exact h.failed op
  rw [FileStore.put, if_pos hattached, Disk.putJournal_journal]
  rcases eq_or_ne p [] with rfl | hne
  · have hmap : s.disk.journal.map (fun content => content ++ []) = s.disk.journal := by simp
    rw [hmap]
    exact h.failed op
  have hmem := h.failed op
  obtain ⟨rs, tail, hj, hholds, htail⟩ := h.text
  have hholds' : Holds (op.failed s.store).path.path rs (op.failed s.store).live.entries
      (op.failed s.store).nextSeq := by
    rw [StoreOp.failed_path, StoreOp.failed_nextSeq]
    exact hholds.of_live (op.live_failed s.store)
  rw [hj, Option.map_some]
  cases htail with
  | whole =>
      -- all lines are whole: what arrives is a line, or a part of one
      have hconcat : JournalText.toVec r <+: p →
          Holds s.store.path.path (rs ++ [r]) (op.failed s.store).live.entries s.store.nextSeq := by
        intro hwhole
        refine hholds.concat h.below hr ?_
        intro entry hpush stored hmem
        refine hfresh entry hpush hwhole ⟨hattached, rs, by rw [hj, List.append_nil]⟩ stored ?_
        rwa [records_of_whole hj]
      rcases Journal.prefix_line hp with hp | rfl
      · refine ⟨hmem.below, rs, p, by rw [List.append_nil], hholds', ?_⟩
        refine Tail.part hne hp ?_
        intro hfull
        rw [StoreOp.failed_path, StoreOp.failed_nextSeq]
        exact hconcat (hfull ▸ List.prefix_rfl)
      · refine ⟨hmem.below, rs ++ [r], [], by simp, ?_, Tail.whole⟩
        rw [StoreOp.failed_path, StoreOp.failed_nextSeq]
        exact hconcat (List.prefix_append _ _)
  | part hne' hp' hfull =>
      exact ⟨hmem.below, rs, _, by rw [List.append_assoc], hholds',
        Tail.glued (Journal.glued_of_append hp' hne' hp hne)⟩
  | glued hglued =>
      exact ⟨hmem.below, rs, _, by rw [List.append_assoc], hholds', Tail.glued (hglued.append hp)⟩

/-- A push that returned keeps its message too, if the journal was intact and had no
record with its number. -/
theorem Kept.push {s : StoreSession} (h : Kept s.disk.journal s.store) (entry : QueuedCall)
    (hintact : s.Intact) (hfresh : s.Fresh) :
    Kept
      (s.store.put (Journal.line (JournalRecord.push s.store.nextSeq (StoredCall.fromCall entry)))
      s.disk).journal (StoreOp.done s.store (.push entry)) := by
  obtain ⟨hattached, rs, hj⟩ := hintact
  rw [FileStore.put, if_pos hattached, Disk.putJournal_journal, hj, Option.map_some]
  have hrecords : s.disk.records = rs :=
    records_of_whole (by rw [hj, List.append_nil])
  -- the whole lines are those the invariant speaks of
  obtain ⟨rs', tail, hj', hholds, htail⟩ := h.text
  have htext : Journal.text rs = Journal.text rs' ++ tail := Option.some.inj (hj.symm.trans hj')
  have hread : rs = (Journal.readAll (Journal.text rs' ++ tail) : List JournalRecord) := by
    rw [← htext, Journal.readAll_text]
  have hsame : rs = rs' := by
    cases htail with
    | whole => rw [hread, List.append_nil, Journal.readAll_text]
    | part hne hp hfull =>
        rw [Journal.readAll_text_append, Journal.readAll_of_initial hp hne] at hread
        split at hread
        · next hwhole =>
            have hlen := congrArg List.length htext
            rw [hread, hwhole, Journal.text_append, Journal.text_singleton, Journal.line,
              List.length_append, List.length_append, List.length_append] at hlen
            simp only [List.length_singleton] at hlen
            exact absurd hlen (by change _ + (_ + 1) ≠ _ + List.length (JournalText.toVec _); omega)
        · rw [hread, List.append_nil]
    | glued hglued => rw [hread, Journal.readAll_glued rs' hglued]
  have hdone : ∀ e ∈ (StoreOp.done s.store (.push entry)).live.entries,
      e.1 < s.store.nextSeq + 1 := by
    intro e he
    rw [StoreOp.done, SortedMap.entries_insert_of_lt h.below] at he
    rcases List.mem_append.mp he with he | he
    · exact Nat.lt_succ_of_lt (h.below e he)
    · obtain rfl := List.mem_singleton.mp he
      exact Nat.lt_succ_self _
  refine ⟨hdone, rs ++ [.push s.store.nextSeq (StoredCall.fromCall entry)], [], by simp, ?_,
    Tail.whole⟩
  rw [← hsame] at hholds
  exact hholds.push h.below fun stored => hrecords ▸ hfresh stored

omit [LawfulJournalText] [Journal.GluedUnreadable Byte JournalRecord] in
/-- Which file is open, and how much was written to it, does not matter. -/
theorem Kept.of_eq {journal : Option (List Byte)} {store store' : FileStore}
    (h : Kept journal store) (hpath : store'.path = store.path) (hlive : store'.live = store.live)
    (hnext : store'.nextSeq = store.nextSeq) : Kept journal store' := by
  obtain ⟨rs, tail, hj, hholds, htail⟩ := h.text
  refine ⟨by rw [hlive, hnext]; exact h.below, rs, tail, hj, by rwa [hpath, hlive, hnext], ?_⟩
  cases htail with
  | whole => exact Tail.whole
  | part hne hp hfull => exact Tail.part hne hp (by rwa [hpath, hlive, hnext])
  | glued hglued => exact Tail.glued hglued

omit [JournalText] [LawfulJournalText] [Journal.GluedUnreadable Byte JournalRecord] in
/-- What an operation that is not a push leaves does not depend on its append. -/
theorem StoreOp.done_eq_failed {op : StoreOp} (h : ∀ entry, op ≠ .push entry) (store : FileStore) :
    op.done store = op.failed store := by
  cases op with
  | push entry => exact absurd rfl (h entry)
  | ack seq => rfl
  | setAttempts seq attempts => rfl

/-- **One operation of the store interface**, careful if it is a push. -/
theorem Kept.on {s : StoreSession} (h : Kept s.disk.journal s.store) (op : StoreOp)
    (plan : List Outcome) (hc : s.Careful (.store op, plan)) :
    Kept (op.on (s.planned plan)).1.disk.journal (op.on (s.planned plan)).1.store := by
  have hends := op.ends (s.planned plan)
  generalize (op.on (s.planned plan)).1 = s' at hends ⊢
  generalize (op.on (s.planned plan)).2 = a at hends
  have h' : Kept (s.planned plan).disk.journal s.store := h
  have hnotpush : ∀ {p : List Byte} {r : JournalRecord}, (∀ entry, op ≠ .push entry) →
      ∀ entry, op = .push entry → JournalText.toVec r <+: p → (s.planned plan).Intact →
        (s.planned plan).Fresh := fun hpush entry he => absurd he (hpush entry)
  cases hends with
  | idle hr => exact h'
  | torn hr hd =>
      refine Kept.put (s := s.planned plan) h' hr (Disk.lands_prefix _ _) ?_
      rintro entry rfl hwhole hintact
      obtain rfl := Option.some.inj hr
      exact hc.2 hwhole hintact
  | @appended r plan' hr hd hplan =>
      by_cases hpush : ∃ entry, op = .push entry
      · obtain ⟨entry, rfl⟩ := hpush
        obtain rfl := Option.some.inj hr
        obtain ⟨hintact, hfresh⟩ := hc.1 hd
        exact (Kept.push (s := s.planned plan) h' entry hintact hfresh).of_eq rfl rfl rfl
      · have hpush' : ∀ entry, op ≠ .push entry := fun entry he => hpush ⟨entry, he⟩
        have hput := Kept.put (s := s.planned plan) h' hr List.prefix_rfl (hnotpush hpush')
        rw [← StoreOp.done_eq_failed hpush'] at hput
        exact hput.of_eq rfl rfl rfl
  | rewritten hr hd hplan hpush =>
      refine (kept_compacted _ ?_).of_eq rfl rfl rfl
      rw [StoreOp.done_eq_failed hpush]
      exact h'.below_failed op
  | @unrewritten r e d hr hd hplan hpush hj =>
      have hput := Kept.put (s := s.planned plan) h' hr List.prefix_rfl (hnotpush hpush)
      rw [← hj, ← StoreOp.done_eq_failed hpush] at hput
      exact hput.of_eq rfl rfl rfl
  | detached hr hd hplan hpush =>
      refine (kept_compacted _ ?_).of_eq rfl rfl rfl
      rw [StoreOp.done_eq_failed hpush]
      exact h'.below_failed op

/-- **One careful step.** -/
theorem Kept.perform {s : StoreSession} (h : Kept s.disk.journal s.store) {step : FaultyStep}
    (hc : s.Careful step) :
    Kept (s.perform step).1.disk.journal (s.perform step).1.store := by
  obtain ⟨op | _, plan⟩ := step
  · exact h.on op plan hc
  · change Kept (StoreSession.after (FileStore.rewrite (s.planned plan))).1.disk.journal
      (StoreSession.after (FileStore.rewrite (s.planned plan))).1.store
    rcases FileStore.rewrite_cases (s.planned plan) with
      ⟨e, d, hrewrite, hd⟩ | ⟨e, plan', hrewrite⟩ | ⟨plan', hrewrite⟩
    · rw [hrewrite]
      change Kept d.journal s.store
      rw [hd]
      exact h
    · rw [hrewrite]
      exact (kept_compacted s.store h.below).of_eq rfl rfl rfl
    · rw [hrewrite]
      exact (kept_compacted s.store h.below).of_eq rfl rfl rfl

/-! ### What is owed -/

omit [LawfulJournalText] [Journal.GluedUnreadable Byte JournalRecord] in
/-- **The store knows exactly the messages it answers for**, step by step. -/
theorem owed_perform {s : StoreSession} {owed : List (Seq × QueuedCall)}
    (hbelow : ∀ e ∈ s.store.live.entries, e.1 < s.store.nextSeq)
    (h : owed.map unattempted = s.store.live.entries.map unattempted) (step : FaultyStep) :
    (owedAfter owed step.1 (s.perform step).2).map unattempted =
      (s.perform step).1.store.live.entries.map unattempted := by
  obtain ⟨op | _, plan⟩ := step
  · change (owedAfter owed (.store op) (op.on (s.planned plan)).2).map unattempted =
      (op.on (s.planned plan)).1.store.live.entries.map unattempted
    have hends := op.ends (s.planned plan)
    generalize (op.on (s.planned plan)).1 = s' at hends ⊢
    generalize (op.on (s.planned plan)).2 = a at hends ⊢
    -- whatever becomes of its append, an operation that is not a push has happened
    have hother : (∀ entry, op ≠ .push entry) → ∀ a : StoreAnswer,
        (owedAfter owed (.store op) a).map unattempted =
          (op.done s.store).live.entries.map unattempted := by
      intro hpush a
      rcases op with entry | seq | ⟨seq, attempts⟩
      · exact absurd rfl (hpush entry)
      · have hfilter : ∀ l : List (Seq × QueuedCall),
            (l.filter fun r => r.1 ≠ seq).map unattempted =
              (l.map unattempted).filter fun r => r.1 ≠ seq := by
          intro l
          rw [List.filter_map]
          rfl
        change (owed.filter fun r => r.1 ≠ seq).map unattempted =
          (s.store.live.entries.filter fun r => r.1 ≠ seq).map unattempted
        rw [hfilter, hfilter, h]
      · change owed.map unattempted = (s.store.live.entries.map _).map unattempted
        rw [h, List.map_map]
        exact List.map_congr_left fun e _ => (unattempted_modifyEntry seq attempts e).symm
    have hpushed : ∀ entry, op = .push entry →
        (owed ++ [(s.store.nextSeq, entry)]).map unattempted =
          (op.done s.store).live.entries.map unattempted := by
      rintro entry rfl
      rw [StoreOp.done, SortedMap.entries_insert_of_lt hbelow, List.map_append, List.map_append, h]
    by_cases hpush : ∃ entry, op = .push entry
    · obtain ⟨entry, rfl⟩ := hpush
      cases hends with
      | idle hr => cases hr
      | torn hr hd => exact h
      | appended hr hd hplan => exact hpushed entry rfl
      | rewritten hr hd hplan hpush => exact absurd rfl (hpush entry)
      | unrewritten hr hd hplan hpush hj => exact absurd rfl (hpush entry)
      | detached hr hd hplan hpush => exact absurd rfl (hpush entry)
    · have hpush' : ∀ entry, op ≠ .push entry := fun entry he => hpush ⟨entry, he⟩
      have hdone := hother hpush' a
      cases hends with
      | idle hr => rwa [StoreOp.done_of_idle (show op.record s.store = none from hr)] at hdone
      | torn hr hd => rwa [StoreOp.done_eq_failed hpush'] at hdone
      | appended hr hd hplan => exact hdone
      | rewritten hr hd hplan hpush => exact hdone
      | unrewritten hr hd hplan hpush hj => exact hdone
      | detached hr hd hplan hpush => exact hdone
  · change owed.map unattempted =
      (StoreSession.after (FileStore.rewrite (s.planned plan))).1.store.live.entries.map unattempted
    rcases FileStore.rewrite_cases (s.planned plan) with
      ⟨e, d, hrewrite, hd⟩ | ⟨e, plan', hrewrite⟩ | ⟨plan', hrewrite⟩
    · rw [hrewrite]
      exact h
    · rw [hrewrite]
      exact h
    · rw [hrewrite]
      exact h

omit [JournalText] [LawfulJournalText] [Journal.GluedUnreadable Byte JournalRecord] in
/-- In maps, what is found is found in order. -/
theorem sublist_of_cover {m m' : SortedMap Seq QueuedCall}
    (h : ∀ e ∈ m.entries, ∃ e' ∈ m'.entries, unattempted e' = unattempted e) :
    (m.entries.map unattempted).Sublist (m'.entries.map unattempted) := by
  have hanti : Std.Antisymm fun a b : Seq × QueuedCall => a.1 < b.1 :=
    ⟨fun a b hab hba => absurd hab hba.asymm⟩
  have hsorted : ∀ m : SortedMap Seq QueuedCall,
      (m.entries.map unattempted).Pairwise fun a b => a.1 < b.1 := by
    intro m
    have hm := m.sorted
    rw [List.pairwise_map] at hm ⊢
    exact hm
  refine List.sublist_of_subperm_of_pairwise (List.subperm_of_subset ?_ ?_) (hsorted m) (hsorted m')
  · refine (hsorted m).imp ?_
    rintro a b hab rfl
    exact absurd hab (lt_irrefl _)
  · intro x hx
    obtain ⟨e, he, rfl⟩ := List.mem_map.mp hx
    obtain ⟨e', he', heq⟩ := h e he
    exact List.mem_map.mpr ⟨e', he', heq⟩

/-- **What is kept survives.** -/
theorem Kept.survive {d : Disk} {store : FileStore} (h : Kept d.journal store)
    {owed : List (Seq × QueuedCall)}
    (howed : owed.map unattempted = store.live.entries.map unattempted) :
    Survive store.path d owed := by
  obtain ⟨rs, tail, hj, hholds, htail⟩ := h.text
  have hread : ∃ rs', (d.withPlan []).records = rs' ∧
      Holds store.path.path rs' store.live.entries store.nextSeq := by
    rw [Disk.records, Disk.withPlan_journal, hj, Option.getD_some]
    cases htail with
    | whole =>
        rw [List.append_nil, Journal.readAll_text]
        exact ⟨rs, rfl, hholds⟩
    | part hne hp hfull =>
        rw [Journal.readAll_text_append, Journal.readAll_of_initial hp hne]
        split
        · next hwhole => exact ⟨_, rfl, hfull hwhole⟩
        · exact ⟨_, rfl, by rwa [List.append_nil]⟩
    | glued hglued =>
        rw [Journal.readAll_glued rs hglued]
        exact ⟨rs, rfl, hholds⟩
  obtain ⟨rs', hrecords, st, hof, -, hcover⟩ := hread
  rw [← hrecords] at hof
  refine ⟨st.live.entries, ?_, ?_⟩
  · rw [reopened, open_of_replay rfl hof]
    rfl
  · rw [howed]
    exact sublist_of_cover hcover

omit [LawfulJournalText] [Journal.GluedUnreadable Byte JournalRecord] in
/-- A step keeps the path. -/
theorem perform_path (s : StoreSession) (step : FaultyStep) :
    (s.perform step).1.store.path = s.store.path := by
  obtain ⟨op | _, plan⟩ := step
  · exact StoreOp.path_run [op] (s.planned plan)
  · change (StoreSession.after (FileStore.rewrite (s.planned plan))).1.store.path = _
    rcases FileStore.rewrite_cases (s.planned plan) with
      ⟨e, d, hrewrite, hd⟩ | ⟨e, plan', hrewrite⟩ | ⟨plan', hrewrite⟩
    · rw [hrewrite]
      rfl
    · rw [hrewrite]
      rfl
    · rw [hrewrite]
      rfl

/-- **Careful runs lose nothing.** From a session that keeps what it answers for,
whatever steps fail, the messages that are owed in the end survive. -/
theorem Kept.run {s : StoreSession} {owed : List (Seq × QueuedCall)}
    (h : Kept s.disk.journal s.store)
    (howed : owed.map unattempted = s.store.live.entries.map unattempted)
    {steps : List FaultyStep} (hc : s.AllCareful steps) :
    Survive s.store.path (s.performAll steps).disk (s.owed owed steps) := by
  induction steps generalizing s owed with
  | nil => exact h.survive howed
  | cons step steps ih =>
      have hnext := ih (h.perform hc.1) (owed_perform h.below howed step) hc.2
      rwa [perform_path] at hnext

/-- **The journal after faults.** From any journal that opens, along any operations any
of whose steps on the files may fail, as long as no push gives its number or its whole
record to a journal that is torn, was replaced under the store, or has a record with
that number already: the path opens again at every moment, and lists every message
that was pending at the start or whose push returned a number, and that was not
acknowledged, in order and with its text. -/
theorem survives_faults {path : JournalPath} {disk d : Disk} {s : StoreSession}
    (hplan : disk.plan = []) (hopen : FileStore.open path disk = .ok s d)
    (steps : List FaultyStep) (hc : s.AllCareful steps) :
    Survive path (s.performAll steps).disk (s.owed s.store.live.entries steps) := by
  obtain ⟨st, hof, rfl⟩ := replay_of_open hplan hopen
  have hbelow : ∀ e ∈ st.live.entries, e.1 < st.nextSeq := fun e he => Replay.lt_of_live hof he
  have hkept : Kept (openSession path st).disk.journal (openSession path st).store :=
    kept_compacted (openSession path st).store hbelow
  exact hkept.run rfl hc

end OcppKit

/-! ### Runs of the reference -/

namespace OcppKit.Reference

/-- A push that fails after five bytes, and a rewrite. -/
def repairSteps : List FaultyStep :=
  [(.store (.push firstReading), [.failed 5 "no space"]), (.compact, [])]

/-- A push that succeeds. -/
def secondPush : FaultyStep := (.store (.push secondReading), [])

theorem survives_faults_repaired :
    Survive queuePath
      ((openSession queuePath Replay.start).performAll (repairSteps ++ [secondPush])).disk
      ((openSession queuePath Replay.start).owed [] (repairSteps ++ [secondPush])) := by
  have hopen : FileStore.open queuePath noFiles =
      .ok (openSession queuePath Replay.start) ⟨some [], none, []⟩ := open_of_replay rfl rfl
  have hrecords :
      ((openSession queuePath Replay.start).performAll repairSteps).disk.records = [] := by
    decide +kernel
  have hfresh : ((openSession queuePath Replay.start).performAll repairSteps).Fresh := by
    intro entry hmem
    rw [hrecords] at hmem
    exact absurd hmem List.not_mem_nil
  refine survives_faults rfl hopen (repairSteps ++ [secondPush])
    ⟨⟨?_, ?_⟩, trivial, ⟨?_, ?_⟩, trivial⟩
  · exact fun hdurable => absurd hdurable (by decide)
  · intro hwhole
    exact absurd hwhole.length_le (by decide +kernel)
  · exact fun _ => ⟨⟨rfl, [], rfl⟩, hfresh⟩
  · exact fun _ _ => hfresh

/-- A push that fails after five bytes, and a push that returns a number. -/
def tornSteps : List FaultyStep :=
  [(.store (.push firstReading), [.failed 5 "no space"]),
    secondPush]

/-- **A message whose push returned is lost**: its record is glued to what an earlier
push left behind. -/
theorem survives_faults_counterexample :
    FileStore.open queuePath noFiles =
        .ok (openSession queuePath Replay.start) ⟨some [], none, []⟩ ∧
      (openSession queuePath Replay.start).owed [] tornSteps = [(0, secondReading)] ∧
      reopened queuePath ((openSession queuePath Replay.start).performAll tornSteps).disk =
        some [] ∧
      ¬ Survive queuePath ((openSession queuePath Replay.start).performAll tornSteps).disk
        ((openSession queuePath Replay.start).owed [] tornSteps) := by
  refine ⟨open_of_replay rfl rfl, by decide +kernel, by decide +kernel, by decide +kernel⟩

/-- **A journal that refuses to open**: the flush of a push fails after its whole record
was written, and the next push issues its number again. -/
example : reopened queuePath ((openSession queuePath Replay.start).performAll
    [(.store (.push firstReading), [.ok, .failed 0 "flush"]),
      secondPush]).disk = none := by
  decide +kernel

end OcppKit.Reference
