import OcppKit.Engine.FileSteps

/-!
# What a journal tells

Replaying a journal is running through the records that can be read off it
(`OcppKit.Replay.lines_eq`), so what matters about a file is that list of records.
`OcppKit.Replay.of` is the outcome of replaying one.

* The sequence numbers a replay has seen are below the next one it issues
  (`OcppKit.Replay.issued_of`).
* The records that queue a set of live messages replay to that set
  (`OcppKit.Replay.of_pushesOf`), which is what makes a rewrite a rewrite.
* Opening a journal succeeds exactly when its replay does, and the session it gives
  is determined by what the replay saw (`OcppKit.open_of_replay`,
  `OcppKit.open_of_error`, `OcppKit.replay_of_open`).

`OcppKit.LawfulJournalText` is what is relied on about JSON: a record is written on
one line, reads back as itself, and no proper prefix of it parses.
-/

namespace OcppKit

variable [Externals] [JournalText]

open JournalText (Byte)

/-- **What the code relies on** about the text of records. -/
class LawfulJournalText : Prop where
  /-- A record is written on one line. -/
  newline_not_mem : ∀ r : JournalRecord, JournalText.newline ∉ JournalText.toVec r
  /-- What was written reads back. -/
  fromStr_toVec : ∀ r : JournalRecord, ∃ text,
    JournalText.lineText (JournalText.toVec r) = some text ∧
    isBlank text = false ∧ JournalText.fromStr text = some r
  /-- No proper prefix of a record parses as a record. -/
  fromStr_prefix : ∀ (r : JournalRecord) (p : List Byte) (text : String),
    p <+: JournalText.toVec r →
    p ≠ JournalText.toVec r → JournalText.lineText p = some text → JournalText.fromStr text = none
  /-- The text of a raw value is one. -/
  rawFromString_get : ∀ v : RawValue, JournalText.rawFromString v.get = .ok v

instance [LawfulJournalText] : Journal.LawfulFormat Byte JournalRecord where
  newline_not_mem := LawfulJournalText.newline_not_mem
  read_write r := by
    obtain ⟨text, htext, hblank, hparse⟩ := LawfulJournalText.fromStr_toVec r
    simp only [Journal.Format.read, Journal.Format.write, htext, hblank, hparse]
    rfl
  read_prefix r p _ hp hne r' hread := by
    simp only [Journal.Format.read] at hread
    rcases htext : JournalText.lineText p with _ | text
    · simp [htext] at hread
    · have hnone := LawfulJournalText.fromStr_prefix r p text hp hne htext
      simp only [htext, hnone] at hread
      split at hread
      · cases hread
      · cases hread

/-- A stored message comes back as it was. -/
theorem intoCall_fromCall [LawfulJournalText] (entry : QueuedCall) :
    (StoredCall.fromCall entry).intoCall = .ok entry := by
  obtain ⟨action, payload, kind, attempts, transactional⟩ := entry
  rw [StoredCall.intoCall, StoredCall.fromCall, LawfulJournalText.rawFromString_get]
  cases kind <;> rfl

namespace Replay

/-! ### The records of a journal -/

/-- **The outcome of replaying some records.** -/
def of (path : String) (rs : List JournalRecord) : Except StoreError Replay :=
  rs.foldlM (Replay.record path) Replay.start

/-- The lines of a file are replayed by replaying the records that can be read off
them. -/
theorem lines_eq (path : String) (ls : List (List Byte)) :
    ∀ st : Replay, Replay.lines path st ls =
      (Journal.recordsOf ls : List JournalRecord).foldlM (Replay.record path) st := by
  induction ls with
  | nil => intro st; rfl
  | cons l ls ih =>
      intro st
      rw [Replay.lines, Journal.recordsOf]
      rcases (Journal.Format.read l : Journal.Line JournalRecord) with _ | _ | record
      · exact ih st
      · rfl
      · rw [List.foldlM_cons]
        rcases hrecord : st.record path record with error | st'
        · simp only [hrecord]
          rfl
        · simp only [hrecord]
          exact ih st'

theorem of_append (path : String) (rs rs' : List JournalRecord) :
    of path (rs ++ rs') = (of path rs).bind fun st => rs'.foldlM (Replay.record path) st :=
  List.foldlM_append

/-- One more record. -/
theorem of_concat {path : String} {rs : List JournalRecord} {st : Replay} (h : of path rs = .ok st)
    (r : JournalRecord) : of path (rs ++ [r]) = st.record path r := by
  rw [of_append, h]
  change (st.record path r).bind _ = _
  rcases st.record path r with error | st'
  · rfl
  · rfl

/-! ### Numbers that were issued -/

/-- The numbers of the live messages were pushed, and all numbers that were pushed
are below the next one. -/
structure Issued (st : Replay) : Prop where
  /-- What is live was pushed. -/
  live : ∀ e ∈ st.live.entries, e.1 ∈ st.pushed
  /-- What was pushed is below the next number. -/
  pushed : ∀ q ∈ st.pushed, q < st.nextSeq

omit [JournalText] in
theorem issued_start : Issued Replay.start :=
  ⟨fun _ he => absurd he List.not_mem_nil, fun _ hq => absurd hq List.not_mem_nil⟩

/-- What a push that is replayed does. -/
theorem record_push {path : String} {st st' : Replay} {seq : Seq} {stored : StoredCall}
    (h : st.record path (.push seq stored) = .ok st') :
    seq ∉ st.pushed ∧ ∃ entry, stored.intoCall = .ok entry ∧
      st' = ⟨st.live.insert seq entry, max st.nextSeq (seq + 1), seq :: st.pushed⟩ := by
  rw [Replay.record] at h
  split at h
  · cases h
  · next hnew =>
      rcases hcall : stored.intoCall with error | entry
      · rw [hcall] at h
        cases h
      · rw [hcall] at h
        exact ⟨hnew, entry, rfl, (Except.ok.inj h).symm⟩

theorem Issued.record {path : String} {st st' : Replay} (hi : Issued st) {r : JournalRecord}
    (h : st.record path r = .ok st') : Issued st' := by
  rcases r with ⟨seq, stored⟩ | seq | ⟨seq, attempts⟩
  · obtain ⟨-, entry, -, rfl⟩ := record_push h
    refine ⟨?_, ?_⟩
    · intro e he
      rcases SortedMap.mem_keys_place (List.mem_map_of_mem (f := Prod.fst) he) with hk | hk
      · exact List.mem_cons.mpr (Or.inl hk)
      · obtain ⟨e', he', hk'⟩ := List.mem_map.mp hk
        exact List.mem_cons_of_mem _ (hk' ▸ hi.live e' he')
    · intro q hq
      rcases List.mem_cons.mp hq with rfl | hq
      · exact lt_max_of_lt_right (Nat.lt_succ_self q)
      · exact lt_max_of_lt_left (hi.pushed q hq)
  · obtain rfl := Except.ok.inj h
    exact ⟨fun e he => hi.live e (List.mem_of_mem_filter he),
      fun q hq => lt_max_of_lt_left (hi.pushed q hq)⟩
  · obtain rfl := Except.ok.inj h
    refine ⟨?_, fun q hq => lt_max_of_lt_left (hi.pushed q hq)⟩
    intro e he
    obtain ⟨e', he', rfl⟩ := List.mem_map.mp he
    rw [SortedMap.modifyEntry_fst]
    exact hi.live e' he'

/-- **A replay only knows numbers below the next one.** -/
theorem issued_of {path : String} {rs : List JournalRecord} {st : Replay}
    (h : of path rs = .ok st) :
    Issued st := by
  induction rs using List.reverseRecOn generalizing st with
  | nil =>
      obtain rfl := Except.ok.inj h
      exact issued_start
  | append_singleton rs r ih =>
      rcases hrs : of path rs with error | st'
      · rw [of_append, hrs] at h
        cases h
      · rw [of_concat hrs] at h
        exact (ih hrs).record h

theorem lt_of_live {path : String} {rs : List JournalRecord} {st : Replay} (h : of path rs = .ok st)
    {e : Seq × QueuedCall} (he : e ∈ st.live.entries) : e.1 < st.nextSeq :=
  (issued_of h).pushed _ ((issued_of h).live e he)

/-- **The records of the live messages replay to the live messages**, and issue no
number beyond one that is above all of theirs. -/
theorem of_pushesOf [LawfulJournalText] (path : String) (l : List (Seq × QueuedCall)) :
    (l.map Prod.fst).Pairwise (· < ·) →
      ∃ st, of path (FileStore.pushesOf l) = .ok st ∧ st.live.entries = l ∧
        st.pushed = (l.map Prod.fst).reverse ∧ ∀ n, (∀ e ∈ l, e.1 < n) → st.nextSeq ≤ n := by
  induction l using List.reverseRecOn with
  | nil => exact fun _ => ⟨Replay.start, rfl, rfl, rfl, fun n _ => Nat.zero_le n⟩
  | append_singleton l r ih =>
      intro hsorted
      rw [List.map_append, List.pairwise_append] at hsorted
      obtain ⟨hl, -, hlast⟩ := hsorted
      have hbelow : ∀ e ∈ l, e.1 < r.1 :=
        fun e he => hlast e.1 (List.mem_map_of_mem he) r.1 (by simp)
      obtain ⟨st, hst, hlive, hpushed, hnext⟩ := ih hl
      have hnew : r.1 ∉ st.pushed := by
        rw [hpushed, List.mem_reverse]
        intro hmem
        obtain ⟨e, he, heq⟩ := List.mem_map.mp hmem
        exact absurd heq (Nat.ne_of_lt (hbelow e he))
      refine ⟨⟨st.live.insert r.1 r.2, max st.nextSeq (r.1 + 1), r.1 :: st.pushed⟩, ?_, ?_, ?_, ?_⟩
      · have hrecords : FileStore.pushesOf (l ++ [r]) =
            FileStore.pushesOf l ++ [.push r.1 (StoredCall.fromCall r.2)] := List.map_append
        rw [hrecords, of_concat hst, Replay.record, if_neg hnew, intoCall_fromCall]
        rfl
      · have hentries := SortedMap.entries_insert_of_lt (m := st.live) (k := r.1)
          (by rw [hlive]; exact hbelow) r.2
        rw [hentries, hlive]
      · rw [hpushed, List.map_append, List.reverse_append]
        rfl
      · intro n hn
        have hr := hn r (by simp)
        exact max_le (hnext n fun e he => hn e (List.mem_append_left _ he)) hr

end Replay

/-! ### Opening -/

/-- The session after a replay: the journal holds the live messages and nothing
else. -/
def openSession (path : JournalPath) (st : Replay) : StoreSession where
  disk := ⟨some (FileStore.compacted st.live), none, []⟩
  store := {
    path := path, attached := true, live := st.live, nextSeq := st.nextSeq,
    written := st.live.size }

/-- The records that can be read off the journal of a disk. -/
def Disk.records (d : Disk) : List JournalRecord := Journal.readAll (d.journal.getD [])

/-- What the replay of a file comes to. -/
theorem replay_eq {path : JournalPath} {d : Disk} (hplan : d.plan = []) :
    FileStore.replay path d = match Replay.of path.path d.records with
      | .ok st => .ok st d
      | .error error => .error error d := by
  obtain ⟨journal, compacting, plan⟩ := d
  obtain rfl : plan = [] := hplan
  rcases journal with _ | content
  · rfl
  · rw [Disk.records, Journal.readAll, Option.getD_some, FileStore.replay, get_bind]
    simp only
    rw [bind_of_ok (Disk.step_of_nil rfl), Replay.of, ← Replay.lines_eq]
    rcases Replay.lines path.path Replay.start (Journal.lines JournalRecord content) with error | st
    · rfl
    · rfl

/-- **A journal that replays opens**, with what the replay saw. -/
theorem open_of_replay {path : JournalPath} {d : Disk} {st : Replay} (hplan : d.plan = [])
    (h : Replay.of path.path d.records = .ok st) :
    FileStore.open path d = .ok (openSession path st) (openSession path st).disk := by
  have hreplay : FileStore.replay path d = .ok st d := by rw [replay_eq hplan, h]
  have hread : (do
      let replayed ← FileStore.replay path
      Disk.step path.path
      modify fun d => { d with journal := some (d.journal.getD []) }
      return replayed : DiskIo Replay) d = .ok st { d with journal := some (d.journal.getD []) } := by
    rw [bind_of_ok hreplay, bind_of_ok (Disk.step_of_nil hplan)]
    rfl
  rw [FileStore.open, hread]
  dsimp only
  rw [FileStore.rewrite_of_nil (by exact hplan)]
  rfl

/-- A journal whose replay fails does not open. -/
theorem open_of_error {path : JournalPath} {d : Disk} {error : StoreError} (hplan : d.plan = [])
    (h : Replay.of path.path d.records = .error error) :
    FileStore.open path d = .error error d := by
  have hreplay : FileStore.replay path d = .error error d := by rw [replay_eq hplan, h]
  rw [FileStore.open]
  simp only
  rw [bind_of_error hreplay]

/-- **What a journal that opened is**: it replayed, and the session is what the
replay saw. -/
theorem replay_of_open {path : JournalPath} {d d' : Disk} {s : StoreSession} (hplan : d.plan = [])
    (h : FileStore.open path d = .ok s d') :
    ∃ st, Replay.of path.path d.records = .ok st ∧ s = openSession path st := by
  rcases hof : Replay.of path.path d.records with error | st
  · rw [open_of_error hplan hof] at h
    cases h
  · rw [open_of_replay hplan hof] at h
    exact ⟨st, rfl, (EStateM.Result.ok.inj h).1.symm⟩

end OcppKit
